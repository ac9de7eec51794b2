import LedgerSyscoin.Common.Wallet
import LedgerSyscoin.Foundation.Choice

/-!
# Satisfaction of miniscript

What a miniscript policy asks of a spender: signatures, preimages and timelocks. A set
of such conditions satisfies a policy under the usual meaning of conjunction,
disjunction and threshold. A branch of a policy is a choice of the alternatives in it,
with the conditions that the choice reaches.
-/

namespace LedgerSyscoin.Common

open Foundation List

/-- A condition on a leaf of a policy. -/
inductive Condition where
  | signature (key : KeyPlaceholder)
  | preimage256 (token : Hash256Token) (h : Hash256)
  | preimage160 (token : Hash160Token) (h : Hash160)
  | timelock (token : TimelockToken) (n : UInt32)
  deriving DecidableEq

/-- The two scripts of the fragment are both needed. -/
def Script2Token.isAnd : Script2Token → Bool
  | .andV | .andB | .andN => true
  | .orB | .orC | .orD | .orI => false

/-! ## Sets of conditions -/

mutual

/-- The conditions `given` satisfy a policy. Wrappers do not change what is asked for. -/
def satisfied (given : Condition → Bool) : PolicyNode → Bool
  | .constant .zero => false
  | .constant .one => true
  | .withKey _ key => given (.signature key)
  | .withUint32 token n => given (.timelock token n)
  | .withHash256 token h => given (.preimage256 token h)
  | .withHash160 token h => given (.preimage160 token h)
  | .multisig _ k keyPlaceholders => k ≤ keyPlaceholders.countP (given <| .signature ·)
  | .wrapper _ script => satisfied given script
  | .withScript2 token first second =>
    if token.isAnd then satisfied given first && satisfied given second
    else satisfied given first || satisfied given second
  | .andor first second third =>
    satisfied given first && satisfied given second || satisfied given third
  | .thresh k scriptlist => k ≤ countSatisfied given scriptlist
  | .sh _ | .wsh _ | .tr _ _ => false

/-- The number of satisfied policies. -/
def countSatisfied (given : Condition → Bool) : List PolicyNode → Nat
  | [] => 0
  | script :: rest => (satisfied given script).toNat + countSatisfied given rest

end

theorem countSatisfied_eq_countP (given : Condition → Bool) (scriptlist : List PolicyNode) :
    countSatisfied given scriptlist = scriptlist.countP (satisfied given) := by
  induction scriptlist with
  | nil => rfl
  | cons script rest ih =>
    rw [countSatisfied, ih, countP_cons]
    cases satisfied given script <;> simp [Nat.add_comm]

/-! ## Branches -/

/-- A choice of the alternatives of a policy, with the conditions that it asks for. A threshold
chooses as many of its scripts as it needs. -/
inductive Branch : PolicyNode → List Condition → Prop
  | one : Branch (.constant .one) []
  | withKey (token : KeyToken) (key : KeyPlaceholder) :
      Branch (.withKey token key) [.signature key]
  | withUint32 (token : TimelockToken) (n : UInt32) :
      Branch (.withUint32 token n) [.timelock token n]
  | withHash256 (token : Hash256Token) (h : Hash256) :
      Branch (.withHash256 token h) [.preimage256 token h]
  | withHash160 (token : Hash160Token) (h : Hash160) :
      Branch (.withHash160 token h) [.preimage160 token h]
  | multisig (token : MultisigToken) {keyPlaceholders signers : List KeyPlaceholder}
      (sublist : signers.Sublist keyPlaceholders) :
      Branch (.multisig token signers.length keyPlaceholders) (signers.map .signature)
  | wrapper (token : WrapperToken) {script : PolicyNode} {used : List Condition}
      (child : Branch script used) : Branch (.wrapper token script) used
  | both {token : Script2Token} {first second : PolicyNode} {used used' : List Condition}
      (isAnd : token.isAnd = true) (left : Branch first used) (right : Branch second used') :
      Branch (.withScript2 token first second) (used ++ used')
  | first {token : Script2Token} {first second : PolicyNode} {used : List Condition}
      (isOr : token.isAnd = false) (left : Branch first used) :
      Branch (.withScript2 token first second) used
  | second {token : Script2Token} {first second : PolicyNode} {used : List Condition}
      (isOr : token.isAnd = false) (right : Branch second used) :
      Branch (.withScript2 token first second) used
  | andorThen {first second third : PolicyNode} {used used' : List Condition}
      (left : Branch first used) (middle : Branch second used') :
      Branch (.andor first second third) (used ++ used')
  | andorElse {first second third : PolicyNode} {used : List Condition}
      (right : Branch third used) : Branch (.andor first second third) used
  | thresh {scriptlist : List PolicyNode} {chosen : List (PolicyNode × List Condition)}
      (sublist : (chosen.map (·.1)).Sublist scriptlist)
      (children : ∀ child ∈ chosen, Branch child.1 child.2) :
      Branch (.thresh chosen.length scriptlist) (chosen.flatMap (·.2))

variable {given : Condition → Bool}

/-- A branch for each one of the scripts. -/
theorem exists_branches {scripts : List PolicyNode}
    (each : ∀ script ∈ scripts, ∃ used, Branch script used ∧ ∀ c ∈ used, given c = true) :
    ∃ chosen : List (PolicyNode × List Condition), chosen.map (·.1) = scripts ∧
      ∀ child ∈ chosen, Branch child.1 child.2 ∧ ∀ c ∈ child.2, given c = true := by
  induction scripts with
  | nil => exact ⟨[], rfl, fun _ mem => nomatch mem⟩
  | cons script rest ih =>
    obtain ⟨⟨used, branch, holds⟩, others⟩ := forall_mem_cons.mp each
    obtain ⟨chosen, rfl, chosenHold⟩ := ih others
    exact ⟨(script, used) :: chosen, rfl, forall_mem_cons.mpr ⟨⟨branch, holds⟩, chosenHold⟩⟩

theorem exists_branch_of_satisfied {node : PolicyNode} (holds : satisfied given node = true) :
    ∃ used, Branch node used ∧ ∀ c ∈ used, given c = true := by
  refine PolicyNode.induction (motive := fun node => satisfied given node = true →
    ∃ used, Branch node used ∧ ∀ c ∈ used, given c = true) (fun node ih holds => ?_) node holds
  cases node with
  | constant token =>
    cases token with
    | zero => cases holds
    | one => exact ⟨[], .one, fun _ mem => nomatch mem⟩
  | withKey token key => exact ⟨_, .withKey token key, forall_mem_singleton.mpr holds⟩
  | withUint32 token n => exact ⟨_, .withUint32 token n, forall_mem_singleton.mpr holds⟩
  | withHash256 token h => exact ⟨_, .withHash256 token h, forall_mem_singleton.mpr holds⟩
  | withHash160 token h => exact ⟨_, .withHash160 token h, forall_mem_singleton.mpr holds⟩
  | multisig token k keyPlaceholders =>
    obtain ⟨_, sublist, rfl, given⟩ := exists_sublist_of_le_countP (of_decide_eq_true holds)
    exact ⟨_, .multisig token sublist, forall_mem_map.mpr given⟩
  | wrapper token script =>
    obtain ⟨used, branch, given⟩ := ih script (mem_singleton_self _) holds
    exact ⟨used, .wrapper token branch, given⟩
  | withScript2 token first second =>
    have left := ih first mem_cons_self
    have right := ih second (mem_cons_of_mem _ (mem_singleton_self _))
    rw [satisfied] at holds
    split at holds
    next isAnd =>
      obtain ⟨firstHolds, secondHolds⟩ := Bool.and_eq_true_iff.mp holds
      obtain ⟨used, branch, given⟩ := left firstHolds
      obtain ⟨used', branch', given'⟩ := right secondHolds
      exact ⟨_, .both isAnd branch branch', forall_mem_append.mpr ⟨given, given'⟩⟩
    next isOr =>
      rw [Bool.not_eq_true] at isOr
      rcases Bool.or_eq_true_iff.mp holds with firstHolds | secondHolds
      · obtain ⟨used, branch, given⟩ := left firstHolds
        exact ⟨used, .first isOr branch, given⟩
      · obtain ⟨used, branch, given⟩ := right secondHolds
        exact ⟨used, .second isOr branch, given⟩
  | andor first second third =>
    rw [satisfied] at holds
    rcases Bool.or_eq_true_iff.mp holds with bothHold | thirdHolds
    · obtain ⟨firstHolds, secondHolds⟩ := Bool.and_eq_true_iff.mp bothHold
      obtain ⟨used, branch, given⟩ := ih first mem_cons_self firstHolds
      obtain ⟨used', branch', given'⟩ :=
        ih second (mem_cons_of_mem _ mem_cons_self) secondHolds
      exact ⟨_, .andorThen branch branch', forall_mem_append.mpr ⟨given, given'⟩⟩
    · obtain ⟨used, branch, given⟩ :=
        ih third (by simp [PolicyNode.children, PolicyNode.scripts]) thirdHolds
      exact ⟨used, .andorElse branch, given⟩
  | thresh k scriptlist =>
    have enough : k ≤ scriptlist.countP (satisfied given) := by
      rw [← countSatisfied_eq_countP]
      exact of_decide_eq_true holds
    obtain ⟨_, sublist, rfl, scriptsHold⟩ := exists_sublist_of_le_countP enough
    obtain ⟨_, rfl, branches⟩ := exists_branches fun script mem =>
      ih script (sublist.subset mem) (scriptsHold script mem)
    rw [length_map]
    exact ⟨_, .thresh sublist fun child mem => (branches child mem).1,
      forall_mem_flatMap.mpr fun child mem => (branches child mem).2⟩
  | _ => cases holds

end LedgerSyscoin.Common
