import LedgerSyscoin.Common.Wallet.ExecutedKeys
import LedgerSyscoin.Common.Wallet.Soundness
import LedgerSyscoin.Handler.Lib.Policy.Sane
import LedgerSyscoin.Handler.Lib.Policy.Size

/-!
# What sane policies guarantee

Every set of conditions that satisfies a sane miniscript contains a signature. The
analysis calls a miniscript non-malleable if it can always be satisfied without
malleability. The arguments are then non-malleable as well, except those of `thresh`,
where the analysis counts the non-malleable arguments and ignores the count. The number
of stack elements of a miniscript is exact, and its number of executed keys is a bound
if every `andor`, `l` and `u` in it is covered by its rule.
-/

namespace LedgerSyscoin.Handler

open Foundation Common

variable {scratch : Nat → Int}

/-! ## Signatures -/

section Signatures

variable {settings : TemplateSettings} {template : Bytes} {policy script : PolicyNode}

/-- Every set of conditions that satisfies an expression with the flag `s` contains a signature,
and so does every set that satisfies the miniscript of a sane policy. -/
theorem signature_of_satisfied (accepted : parseDescriptorTemplate settings template = .ok policy)
    (mem : script ∈ policy.nodes) (scratch : Nat → Int) (given : Condition → Bool)
    (holds : satisfied given script = true) :
    (∀ info, computeMiniscriptPolicyExtInfo scratch script = some info → info.s = true →
        ∃ key, given (.signature key) = true) ∧
      ∀ {σ : Type} (lookup : KeyLookup σ) (nKeys : UInt32) (client client' : σ),
        policy = .wsh script → storedFlags script ≠ none →
          isPolicySane scratch lookup policy nKeys client = some client' →
            ∃ key, given (.signature key) = true := by
  obtain ⟨used, branch, usedGiven⟩ := exists_branch_of_satisfied holds
  obtain ⟨_, policyTyped⟩ := wellTyped_of_parseDescriptorTemplate accepted
  obtain ⟨_, wellTyped⟩ := policyTyped.nodes script mem
  have contained : ∀ info, computeMiniscriptPolicyExtInfo scratch script = some info →
      info.s = true → ∃ key, given (.signature key) = true := by
    intro info analysed s
    obtain ⟨key, keyMem⟩ := signature_mem_of_branch branch wellTyped analysed (.inl s)
    exact ⟨key, usedGiven _ keyMem⟩
  refine ⟨contained, ?_⟩
  rintro σ lookup nKeys client client' rfl isMiniscript sane
  obtain ⟨flags, stored⟩ := Option.ne_none_iff_exists'.mp isMiniscript
  obtain ⟨info, analysed, miniscriptSane⟩ := isMiniscriptSane_of_isPolicySane stored sane
  exact contained info analysed (by simp_all [isMiniscriptSane])

theorem sampleRecoveryPolicy_sane :
    isPolicySane (fun _ => 0) sampleLookup (.wsh sampleRecoveryPolicy) 2 () = some () := by
  decide +kernel

theorem signature_of_satisfied_recovery :
    ∃ key, decide (Condition.signature key ∈
      [.signature ⟨0, 1, 1⟩, .timelock .older 1000]) = true := by
  exact (signature_of_satisfied sampleRecoveryTemplate_accepted
    (by simp [PolicyNode.nodes, PolicyNode.mem_nodes_self]) (fun _ => 0)
    (fun c => decide (c ∈ [.signature ⟨0, 1, 1⟩, .timelock .older 1000]))
    (by decide)).2 sampleLookup 2 () () rfl (by decide) sampleRecoveryPolicy_sane

end Signatures

/-! ## Non-malleability -/

section Costs

variable {settings : TemplateSettings} {template : Bytes} {policy script : PolicyNode}
  {info : PolicyNodeExtInfo}

/-- The number of stack elements that the analysis computes for an accepted miniscript is the
largest one of all the canonical satisfactions, and `-1` exactly if there are none, and likewise
for the dissatisfactions. -/
theorem stacksize_exact (accepted : parseDescriptorTemplate settings template = .ok policy)
    (mem : script ∈ policy.nodes) (reachable : ThresholdsReachable script)
    (analysed : computeMiniscriptPolicyExtInfo scratch script = some info) :
    ExactCost maxCost (Spend.size '' satisfactions script) info.ss.sat ∧
      ExactCost maxCost (Spend.size '' dissatisfactions script) info.ss.dsat := by
  obtain ⟨_, policyTyped⟩ := wellTyped_of_parseDescriptorTemplate accepted
  obtain ⟨_, wellTyped⟩ := policyTyped.nodes script mem
  exact exactStacksize_of_analysed wellTyped reachable analysed

theorem stacksize_exact_recovery :
    ExactCost maxCost (Spend.size '' satisfactions sampleRecoveryPolicy) 2 ∧
      ExactCost maxCost (Spend.size '' dissatisfactions sampleRecoveryPolicy) (-1) := by
  obtain ⟨info, analysed, sat, dsat⟩ : ∃ info,
      computeMiniscriptPolicyExtInfo (fun _ => 0) sampleRecoveryPolicy = some info ∧
        info.ss.sat = 2 ∧ info.ss.dsat = -1 := ⟨_, rfl, rfl, rfl⟩
  rw [← dsat, ← sat]
  exact stacksize_exact sampleRecoveryTemplate_accepted
    (by simp [PolicyNode.nodes, PolicyNode.mem_nodes_self])
    (by simp [ThresholdsReachable, sampleRecoveryPolicy, PolicyNode.nodes]) analysed

/-- A sane miniscript is satisfiable, if its thresholds can be reached. -/
theorem spendable_of_sane {σ : Type} {lookup : KeyLookup σ} {nKeys : UInt32} {client next : σ}
    {flags : MiniscriptFlags} (stored : storedFlags script = some flags)
    (accepted : parseDescriptorTemplate settings template = .ok (.wsh script))
    (reachable : ThresholdsReachable script)
    (sane : isPolicySane scratch lookup (.wsh script) nKeys client = some next) :
    (satisfactions script).Nonempty := by
  obtain ⟨_, typed⟩ := wellTyped_of_parseDescriptorTemplate accepted
  obtain ⟨_, wellTyped⟩ := typed.child (.head _)
  obtain ⟨_, analysed, _⟩ := isMiniscriptSane_of_isPolicySane stored sane
  rcases (exactStacksize_of_analysed wellTyped reachable analysed).1 with ⟨_, _⟩ | ⟨_, most, _⟩
  · simp_all [isMiniscriptSane]
  · exact Set.image_nonempty.mp ⟨_, most.1⟩

theorem spendable_of_sane_recovery : (satisfactions sampleRecoveryPolicy).Nonempty :=
  spendable_of_sane rfl sampleRecoveryTemplate_accepted
    (by simp [ThresholdsReachable, sampleRecoveryPolicy, PolicyNode.nodes])
    sampleRecoveryPolicy_sane

/-- The satisfactions of a miniscript that passes the checks stay within the limit on opcodes, if
the number of keys is a bound. -/
theorem opcodes_le_of_sane {flags : MiniscriptFlags} {sat dsat : Set Spend}
    (sane : isMiniscriptSane flags info = true) (within : OpsWithin info.ops)
    (bounds : BoundsKeys sat dsat info.ops) {spend : Spend} (mem : spend ∈ sat) :
    (info.ops.count.toNat + spend.keys : Int) ≤ maxOpsPerScript := by
  have bound := bounds.1 _ (Set.mem_image_of_mem _ mem)
  have small := within.1
  have count := info.ops.count.toNat_lt
  simp only [isMiniscriptSane, Bool.and_eq_true, decide_eq_true_eq] at sane
  have limit := sane.1.2
  simp only [maxOpsPerScript, maxCost] at limit bound small ⊢
  omega

/-- The numbers of keys of the analysis bound those of the canonical satisfactions and
dissatisfactions, and the satisfactions of a sane miniscript stay within the limit on opcodes, if
every `andor`, `l` and `u` in the expression is covered. Over arguments with exact numbers, the
bound of such a fragment also fails if it is not covered. -/
theorem executedKeys_bounded (accepted : parseDescriptorTemplate settings template = .ok policy)
    (mem : script ∈ policy.nodes)
    (analysed : computeMiniscriptPolicyExtInfo scratch script = some info) :
    (KeysCovered script →
      BoundsKeys (satisfactions script) (dissatisfactions script) info.ops ∧
        ∀ {σ : Type} (lookup : KeyLookup σ) (nKeys : UInt32) (client client' : σ),
          policy = .wsh script → storedFlags script ≠ none → (∀ i, scratch i ≤ maxCost) →
            isPolicySane scratch lookup policy nKeys client = some client' →
              ∀ spend ∈ satisfactions script,
                (info.ops.count.toNat + spend.keys : Int) ≤ maxOpsPerScript) ∧
      (∀ first second third x y z, script = .andor first second third →
        computeMiniscriptPolicyExtInfo scratch first = some x →
          ExactKeys (satisfactions first) (dissatisfactions first) x.ops →
        computeMiniscriptPolicyExtInfo scratch second = some y →
          ExactKeys (satisfactions second) (dissatisfactions second) y.ops →
        computeMiniscriptPolicyExtInfo scratch third = some z →
          ExactKeys (satisfactions third) (dissatisfactions third) z.ops →
        (∀ spend ∈ satisfactions script, spend.keys < maxCost) →
          (BoundsKeys (satisfactions script) (dissatisfactions script) info.ops ↔
            AndorKeysCovered first second third)) ∧
      ∀ token inner x, script = .wrapper token inner → token = .l ∨ token = .u →
        computeMiniscriptPolicyExtInfo scratch inner = some x →
          ExactKeys (satisfactions inner) (dissatisfactions inner) x.ops →
            (BoundsKeys (satisfactions script) (dissatisfactions script) info.ops ↔
              (dissatisfactions inner).Nonempty) := by
  refine ⟨fun covered => ?_, ?_, ?_⟩
  · have bounds := boundsKeys_of_analysed covered analysed
    refine ⟨bounds, ?_⟩
    intro σ lookup nKeys client client' isWsh isMiniscript words sane spend spendMem
    obtain ⟨_, policyTyped⟩ := wellTyped_of_parseDescriptorTemplate accepted
    obtain ⟨_, wellTyped⟩ := policyTyped.nodes script mem
    obtain ⟨flags, stored⟩ := Option.ne_none_iff_exists'.mp isMiniscript
    rw [isWsh] at sane
    obtain ⟨info', analysed', miniscriptSane⟩ := isMiniscriptSane_of_isPolicySane stored sane
    obtain rfl : info = info' := Option.some.inj (analysed.symm.trans analysed')
    exact opcodes_le_of_sane miniscriptSane (opsWithin_of_analysed words wellTyped analysed) bounds
      spendMem
  · rintro first second third x y z rfl analysedX exactX analysedY exactY analysedZ exactZ small
    obtain rfl : andorExtInfo x y z = info := by
      simpa [computeMiniscriptPolicyExtInfo, analysedX, analysedY, analysedZ] using analysed
    exact boundsKeys_andor_iff exactX exactY exactZ small
  · rintro token inner x rfl isBranch analysedX exactX
    obtain rfl : wrapperExtInfo x token = info := by
      simpa [computeMiniscriptPolicyExtInfo, analysedX] using analysed
    exact boundsKeys_wrapper_iff exactX isBranch

theorem executedKeys_bounded_recovery :
    KeysCovered sampleRecoveryPolicy ∧
      ∃ info, computeMiniscriptPolicyExtInfo (fun _ => 0) sampleRecoveryPolicy = some info ∧
        ∀ spend ∈ satisfactions sampleRecoveryPolicy,
          (info.ops.count.toNat + spend.keys : Int) ≤ maxOpsPerScript := by
  have covered : KeysCovered sampleRecoveryPolicy := by
    constructor <;> simp +contextual [sampleRecoveryPolicy, PolicyNode.nodes]
  obtain ⟨info, analysed⟩ : ∃ info,
      computeMiniscriptPolicyExtInfo (fun _ => 0) sampleRecoveryPolicy = some info := ⟨_, rfl⟩
  exact ⟨covered, info, analysed, ((executedKeys_bounded sampleRecoveryTemplate_accepted
    (by simp [PolicyNode.nodes, PolicyNode.mem_nodes_self]) analysed).1 covered).2 sampleLookup 2 ()
      () rfl (by decide) (fun _ => by decide) sampleRecoveryPolicy_sane⟩

/-- `andor(multi(1,@0/**,@1/**),older(1),multi(1,@2/**,@3/**))` -/
def sampleFallbackPolicy : PolicyNode :=
  .andor (.multisig .multi 1 [⟨0, 1, 0⟩, ⟨0, 1, 1⟩]) (.withUint32 .older 1)
    (.multisig .multi 1 [⟨0, 1, 2⟩, ⟨0, 1, 3⟩])

def sampleFallbackTemplate : Bytes :=
  "wsh(andor(multi(1,@0/**,@1/**),older(1),multi(1,@2/**,@3/**)))".toList.map ascii

/-- A policy that the parser and the sanity checks accept, with a satisfaction that executes four
keys where the analysis finds two. -/
theorem executedKeys_exceed_bound :
    parseDescriptorTemplate sampleSettings sampleFallbackTemplate =
        .ok (.wsh sampleFallbackPolicy) ∧
      isPolicySane (fun _ => 0) sampleLookup (.wsh sampleFallbackPolicy) 4 () = some () ∧
      (computeMiniscriptPolicyExtInfo (fun _ => 0) sampleFallbackPolicy).map (·.ops.sat) =
        some 2 ∧
      ∃ spend ∈ satisfactions sampleFallbackPolicy, spend.keys = 4 := by
  refine ⟨by decide +kernel, by decide +kernel, by decide +kernel,
    ⟨[.empty, .signature ⟨0, 1, 2⟩], 2⟩ + ⟨[.empty, .empty], 2⟩, .inr ?_, rfl⟩
  refine Set.add_mem_add ⟨[⟨0, 1, 2⟩], ?_, rfl, rfl⟩ rfl
  exact List.Sublist.cons_cons _ (List.nil_sublist _)

end Costs

end LedgerSyscoin.Handler
