import LedgerSyscoin.Common.Wallet.Equality
import LedgerSyscoin.Common.Wallet.ExtInfo
import LedgerSyscoin.Common.Wallet.WellTyped

/-!
# Invariants of miniscript types

The flags that the parser records in a node and the results of the analysis are
computed by two different functions, over the same tree. The rules of both keep
the relations between basic types, modifiers and malleability properties that
hold in miniscript.
-/

namespace LedgerSyscoin.Common

open Foundation List
open MiniscriptType

variable {token : WrapperToken} {x y z : MiniscriptFlags} {node : PolicyNode} {k : Nat}
  {first second : PolicyNodeExtInfo} {scratch : Nat → Int}

/-! ## The flags of the parser -/

/-- The relations between the flags of a node. -/
structure MiniscriptFlags.Sound (flags : MiniscriptFlags) : Prop where
  oneType : ∃! type, flags.type = type
  z_excludes_o : flags.modZ = true → flags.modO = false
  n_excludes_z : flags.modN = true → flags.modZ = false
  W_excludes_n : flags.type = W → flags.modN = false
  V_excludes_d : flags.type = V → flags.modD = false
  V_excludes_u : flags.type = V → flags.modU = false
  K_implies_u : flags.type = K → flags.modU = true

theorem MiniscriptFlags.existsUnique_type (flags : MiniscriptFlags) : ∃! type, flags.type = type :=
  ⟨flags.type, rfl, fun _ same => same.symm⟩

variable {flags : MiniscriptFlags}

theorem wrapperFlags_sound
    (rule : wrapperFlags token x = some flags) (sound : x.Sound) : flags.Sound := by
  obtain ⟨-, zo, nz, Wn, Vd, Vu, Ku⟩ := sound
  cases token <;> simp only [wrapperFlags] at rule <;> split_ifs at rule <;> cases rule <;>
    refine ⟨MiniscriptFlags.existsUnique_type _, ?_, ?_, ?_, ?_, ?_, ?_⟩ <;> simp_all

theorem script2Flags_sound {token : Script2Token}
    (rule : script2Flags token x y = some flags) (first : x.Sound) (second : y.Sound) :
    flags.Sound := by
  obtain ⟨-, zo, nz, Wn, Vd, Vu, Ku⟩ := first
  obtain ⟨-, zo', nz', Wn', Vd', Vu', Ku'⟩ := second
  cases token <;> simp only [script2Flags] at rule <;> split_ifs at rule <;> cases rule <;>
    refine ⟨MiniscriptFlags.existsUnique_type _, ?_, ?_, ?_, ?_, ?_, ?_⟩ <;>
    grind -ring -linarith [bothModO, bothModN]

theorem andorFlags_sound (rule : andorFlags x y z = some flags) (first : x.Sound) (second : y.Sound)
    (third : z.Sound) : flags.Sound := by
  obtain ⟨-, zo, nz, Wn, Vd, Vu, Ku⟩ := first
  obtain ⟨-, zo', nz', Wn', Vd', Vu', Ku'⟩ := second
  obtain ⟨-, zo'', nz'', Wn'', Vd'', Vu'', Ku''⟩ := third
  simp only [andorFlags] at rule
  split_ifs at rule
  cases rule
  refine ⟨MiniscriptFlags.existsUnique_type _, ?_, ?_, ?_, ?_, ?_, ?_⟩ <;> grind -ring -linarith

/-- A threshold consumes nothing, or exactly one element, but not both. -/
theorem threshFlags_sound (flags : List MiniscriptFlags) : (threshFlags flags).Sound := by
  refine ⟨MiniscriptFlags.existsUnique_type _, fun all => ?_, fun starts => ?_, fun isW => ?_,
    fun isV => ?_, fun isV => ?_, fun _ => rfl⟩
  · have isAll : flags.countP (·.modZ) = flags.length := of_decide_eq_true all
    simp [threshFlags, isAll]
  · cases starts
  · cases isW
  · cases isV
  · cases isV

/-- The flags that the parser records are sound. -/
theorem WellTyped.flags_sound {flags : Option MiniscriptFlags}
    (wellTyped : WellTyped node flags) : ∀ found, flags = some found → found.Sound := by
  have leaf : ∀ found : MiniscriptFlags, found ∈ [constantFlags .zero, constantFlags .one,
      timelockFlags, hashFlags, ⟨B, false, true, true, true, true⟩,
      ⟨B, false, false, true, true, true⟩, ⟨K, false, true, true, true, true⟩,
      ⟨K, false, false, true, true, true⟩] → found.Sound := by
    simp only [forall_mem_cons, not_mem_nil, false_implies, implies_true, and_true]
    refine ⟨?_, ?_, ?_, ?_, ?_, ?_, ?_, ?_⟩ <;>
      exact ⟨MiniscriptFlags.existsUnique_type _, by decide, by decide, by decide, by decide,
        by decide, by decide⟩
  induction wellTyped with
  | constant token | withKey token => cases token <;> rintro found ⟨⟩ <;> exact leaf _ (by simp)
  | withUint32 | withHash256 | withHash160 => rintro found ⟨⟩; exact leaf _ (by simp)
  | multisig token => cases token <;> rintro found ⟨⟩ <;> exact leaf _ (by simp)
  | wrapper _ rule ih => rintro found ⟨⟩; exact wrapperFlags_sound rule (ih _ rfl)
  | withScript2 _ _ rule leftIh rightIh =>
    rintro found ⟨⟩
    exact script2Flags_sound rule (leftIh _ rfl) (rightIh _ rfl)
  | andor _ _ _ rule leftIh middleIh rightIh =>
    rintro found ⟨⟩
    exact andorFlags_sound rule (leftIh _ rfl) (middleIh _ rfl) (rightIh _ rfl)
  | thresh => rintro found ⟨⟩; exact threshFlags_sound _
  | sh | wsh | tr => rintro found ⟨⟩

/-! ## The results of the analysis -/

/-- The relations between the flags of a node and the results of its analysis. -/
structure ExtSound (flags : MiniscriptFlags) (info : PolicyNodeExtInfo) : Prop where
  V_excludes_e : flags.type = V → info.e = false
  V_implies_f : flags.type = V → info.f = true
  K_implies_s : flags.type = K → info.s = true
  e_implies_d : info.e = true → flags.modD = true
  e_excludes_f : info.e = true → info.f = false
  d_excludes_f : flags.modD = true → info.f = false
  z_implies_m : flags.modZ = true → info.m = true

/-- What carries the induction: a script without stack elements that has a dissatisfaction is built
from `0` alone. -/
structure ExtSoundStrong (flags : MiniscriptFlags) (info : PolicyNodeExtInfo) : Prop extends
    ExtSound flags info where
  zd_implies_e : flags.modZ = true → flags.modD = true → info.e = true
  zd_implies_s : flags.modZ = true → flags.modD = true → info.s = true

section Leaves

variable {flags : MiniscriptFlags} {info : PolicyNodeExtInfo}

/-- A leaf is of type `B` or `K`; it is always satisfied or can be dissatisfied. -/
theorem extSound_of_leaf (notV : flags.type ≠ V) (nonmalleable : info.m = true)
    (signed : flags.type = K → info.s = true) (forced : info.f = !flags.modD)
    (expressive : info.e = true → flags.modD = true)
    (built : flags.modZ = true → flags.modD = true → info.e = true ∧ info.s = true) :
    ExtSoundStrong flags info where
  V_excludes_e isV := absurd isV notV
  V_implies_f isV := absurd isV notV
  K_implies_s := signed
  e_implies_d := expressive
  e_excludes_f isE := by rw [forced, expressive isE, Bool.not_true]
  d_excludes_f isD := by rw [forced, isD, Bool.not_true]
  z_implies_m _ := nonmalleable
  zd_implies_e isZ isD := (built isZ isD).1
  zd_implies_s isZ isD := (built isZ isD).2

theorem constant_extSound (token : ConstantToken) :
    ExtSoundStrong (constantFlags token) (constantExtInfo token) := by
  cases token <;>
    exact extSound_of_leaf (by decide) rfl (by decide) rfl (by decide) (by decide)

theorem key_extSound {token : KeyToken} (analysed : keyExtInfo token = some info) :
    ∃ found, keyFlags token = some found ∧ ExtSoundStrong found info := by
  cases token <;> cases analysed <;>
    exact ⟨_, rfl, extSound_of_leaf (by decide) rfl (by decide) rfl (by decide) (by decide)⟩

theorem timelock_extSound (token : TimelockToken) (n : UInt32) :
    ExtSoundStrong timelockFlags (timelockExtInfo token n) := by
  cases token <;> rw [timelockExtInfo] <;> dsimp only <;> split_ifs <;>
    exact extSound_of_leaf (by decide) rfl (fun isK => absurd isK (by decide)) rfl
      (fun isE => absurd isE Bool.false_ne_true) (fun _ isD => absurd isD (by decide))

theorem hash_extSound :
    ExtSoundStrong hashFlags hash256ExtInfo ∧ ExtSoundStrong hashFlags hash160ExtInfo :=
  ⟨extSound_of_leaf (by decide) rfl (by decide) rfl (by decide) (by decide),
    extSound_of_leaf (by decide) rfl (by decide) rfl (by decide) (by decide)⟩

theorem multisig_extSound {token : MultisigToken} {n : Nat}
    (analysed : multisigExtInfo k n token = some info) :
    ∃ found, multisigFlags token = some found ∧ ExtSoundStrong found info := by
  cases token <;> cases analysed
  exact ⟨_, rfl, extSound_of_leaf (by decide) rfl (fun _ => rfl) rfl (fun _ => rfl)
    (fun _ _ => ⟨rfl, rfl⟩)⟩

end Leaves

theorem wrapper_extSound {info : PolicyNodeExtInfo} (rule : wrapperFlags token x = some flags)
    (sound : ExtSoundStrong x info) : ExtSoundStrong flags (wrapperExtInfo info token) := by
  obtain ⟨⟨Ve, Vf, Ks, ed, ef, df, zm⟩, zde, zds⟩ := sound
  cases token <;> simp only [wrapperFlags] at rule <;> split_ifs at rule <;> cases rule <;>
    refine ⟨⟨?_, ?_, ?_, ?_, ?_, ?_, ?_⟩, ?_, ?_⟩ <;>
    dsimp only [wrapperExtInfo, wrapped, PolicyNodeExtInfo.initial] <;>
    grind -ring -linarith

theorem script2_extSound {token : Script2Token} (rule : script2Flags token x y = some flags)
    (left : ExtSoundStrong x first) (right : ExtSoundStrong y second) :
    ExtSoundStrong flags (script2ExtInfo first second token) := by
  obtain ⟨⟨Ve, Vf, Ks, ed, ef, df, zm⟩, zde, zds⟩ := left
  obtain ⟨⟨Ve', Vf', Ks', ed', ef', df', zm'⟩, zde', zds'⟩ := right
  cases token <;> simp only [script2Flags] at rule <;> split_ifs at rule <;> cases rule <;>
    refine ⟨⟨?_, ?_, ?_, ?_, ?_, ?_, ?_⟩, ?_, ?_⟩ <;>
    dsimp only [script2ExtInfo, PolicyNodeExtInfo.withTimelocks, PolicyNodeExtInfo.initial] <;>
    grind -ring -linarith

theorem andor_extSound {third : PolicyNodeExtInfo}
    (rule : andorFlags x y z = some flags) (left : ExtSoundStrong x first)
    (middle : ExtSoundStrong y second) (right : ExtSoundStrong z third) :
    ExtSoundStrong flags (andorExtInfo first second third) := by
  obtain ⟨⟨Ve, Vf, Ks, ed, ef, df, zm⟩, zde, zds⟩ := left
  obtain ⟨⟨Ve', Vf', Ks', ed', ef', df', zm'⟩, zde', zds'⟩ := middle
  obtain ⟨⟨Ve'', Vf'', Ks'', ed'', ef'', df'', zm''⟩, zde'', zds''⟩ := right
  simp only [andorFlags] at rule
  split_ifs at rule
  cases rule
  refine ⟨⟨?_, ?_, ?_, ?_, ?_, ?_, ?_⟩, ?_, ?_⟩ <;>
    dsimp only [andorExtInfo, PolicyNodeExtInfo.withTimelocks, PolicyNodeExtInfo.initial] <;>
    grind -ring -linarith

theorem foldl_threshTimelocks_f (k : Nat) (children : List PolicyNodeExtInfo)
    (info : PolicyNodeExtInfo) : (children.foldl (threshTimelocks k) info).f = info.f := by
  induction children generalizing info with
  | nil => rfl
  | cons child rest ih => exact ih (threshTimelocks k info child)

theorem modD_of_threshChildAllowed {first : Bool}
    (allowed : threshChildAllowed first flags) : flags.modD = true := by
  simp only [threshChildAllowed, Bool.and_eq_true] at allowed
  exact allowed.1.2

/-- If no child of a threshold needs a stack element, they are all built from `0`. -/
theorem thresh_extSound {flags : List MiniscriptFlags}
    {infos : List PolicyNodeExtInfo} {info : PolicyNodeExtInfo} (positive : 1 ≤ k)
    (children : List.Forall₂ ExtSoundStrong flags infos)
    (dissatisfiable : ∀ child ∈ flags, child.modD = true)
    (analysed : threshExtInfo scratch k infos = some info) :
    ExtSoundStrong (threshFlags flags) info := by
  rw [threshExtInfo, if_neg (Nat.not_lt_of_le (length_le_of_threshExtInfo analysed)),
    Option.some.injEq] at analysed
  have built : (threshFlags flags).modZ = true →
      infos.countP (·.e) = infos.length ∧ infos.countP (·.s) = infos.length := by
    intro all
    have allZ : flags.countP (·.modZ) = flags.length := of_decide_eq_true all
    rw [countP_eq_length] at allZ
    rw [countP_eq_length, countP_eq_length]
    constructor
    · intro child mem
      obtain ⟨childFlags, flagsMem, sound⟩ := exists_info_of_mem children.flip mem
      exact sound.zd_implies_e (allZ _ flagsMem) (dissatisfiable _ flagsMem)
    · intro child mem
      obtain ⟨childFlags, flagsMem, sound⟩ := exists_info_of_mem children.flip mem
      exact sound.zd_implies_s (allZ _ flagsMem) (dissatisfiable _ flagsMem)
  subst analysed
  refine ⟨⟨fun isV => ?_, fun isV => ?_, fun isK => ?_, fun _ => rfl, fun _ => ?_, fun _ => ?_,
    fun all => ?_⟩, fun all _ => ?_, fun all _ => ?_⟩
  · cases isV
  · cases isV
  · cases isK
  · exact foldl_threshTimelocks_f k infos _
  · exact foldl_threshTimelocks_f k infos _
  · obtain ⟨allE, allS⟩ := built all
    simp only [allE, allS, decide_true, Bool.true_and, decide_eq_true_eq]
    omega
  · exact decide_eq_true (built all).2
  · simp only [(built all).2, decide_eq_true_eq]
    omega

/-- The analysis of a node agrees with the flags that the parser records in it. -/
theorem WellTyped.extSound {flags : Option MiniscriptFlags} (wellTyped : WellTyped node flags) :
    ∀ info, Analysed scratch node info →
      ∃ found, flags = some found ∧ ExtSoundStrong found info := by
  induction wellTyped with
  | constant token =>
    rintro info ⟨⟩
    exact ⟨_, rfl, constant_extSound token⟩
  | withKey token => exact fun info analysed => key_extSound analysed
  | withUint32 token =>
    rintro info ⟨⟩
    exact ⟨_, rfl, timelock_extSound token _⟩
  | withHash256 =>
    rintro info ⟨⟩
    exact ⟨_, rfl, hash_extSound.1⟩
  | withHash160 =>
    rintro info ⟨⟩
    exact ⟨_, rfl, hash_extSound.2⟩
  | multisig token => exact fun info analysed => multisig_extSound analysed
  | wrapper _ rule ih =>
    intro info analysed
    obtain ⟨x, childAnalysed, rfl⟩ := analysed_wrapper analysed
    obtain ⟨_, ⟨⟩, sound⟩ := ih x childAnalysed
    exact ⟨_, rfl, wrapper_extSound rule sound⟩
  | withScript2 _ _ rule leftIh rightIh =>
    intro info analysed
    obtain ⟨x, y, analysedX, analysedY, rfl⟩ := analysed_withScript2 analysed
    obtain ⟨_, ⟨⟩, left⟩ := leftIh x analysedX
    obtain ⟨_, ⟨⟩, right⟩ := rightIh y analysedY
    exact ⟨_, rfl, script2_extSound rule left right⟩
  | andor _ _ _ rule leftIh middleIh rightIh =>
    intro info analysed
    obtain ⟨x, y, z, analysedX, analysedY, analysedZ, rfl⟩ :=
      analysed_andor analysed
    obtain ⟨_, ⟨⟩, left⟩ := leftIh x analysedX
    obtain ⟨_, ⟨⟩, middle⟩ := middleIh y analysedY
    obtain ⟨_, ⟨⟩, right⟩ := rightIh z analysedZ
    exact ⟨_, rfl, andor_extSound rule left middle right⟩
  | @thresh k first rest positive small children firstAllowed restAllowed ih =>
    intro info analysed
    obtain ⟨infos, childrenAnalysed, threshAnalysed⟩ := analysed_thresh analysed
    refine ⟨_, rfl, thresh_extSound positive ?_ ?_ threshAnalysed⟩
    · rw [forall₂_map_left_iff] at childrenAnalysed ⊢
      refine forall₂_of_mem childrenAnalysed fun child mem childInfo childAnalysed => ?_
      obtain ⟨_, ⟨⟩, sound⟩ := ih child mem childInfo childAnalysed
      exact sound
    · intro child mem
      obtain ⟨typed, typedMem, rfl⟩ := mem_map.mp mem
      rcases mem_cons.mp typedMem with rfl | later
      · exact modD_of_threshChildAllowed firstAllowed
      · exact modD_of_threshChildAllowed (restAllowed typed later)
  | sh | wsh | tr => rintro info ⟨⟩

/-! ## Accepted templates -/

/-- The flags and the analysis of every node below a `wsh` of an accepted template are sound, and a
node that is analysed has flags. -/
theorem typesSound_of_parseDescriptorTemplate {settings : TemplateSettings} {template : Bytes}
    {policy script node : PolicyNode} (scratch : Nat → Int)
    (accepted : parseDescriptorTemplate settings template = .ok policy)
    (inside : .wsh script ∈ policy.nodes) (mem : node ∈ script.nodes) :
    (∀ flags, storedFlags node = some flags → flags.Sound) ∧
      ∀ info, computeMiniscriptPolicyExtInfo scratch node = some info →
        ∃ flags, storedFlags node = some flags ∧ ExtSound flags info := by
  obtain ⟨_, policyTyped⟩ := wellTyped_of_parseDescriptorTemplate accepted
  obtain ⟨_, wshTyped⟩ := policyTyped.nodes _ inside
  have nodeMem : node ∈ (PolicyNode.wsh script).nodes := by
    rw [PolicyNode.nodes]
    exact mem_cons_of_mem _ mem
  obtain ⟨flags, nodeTyped⟩ := wshTyped.nodes _ nodeMem
  rw [nodeTyped.storedFlags_eq]
  refine ⟨nodeTyped.flags_sound, fun info analysed => ?_⟩
  obtain ⟨found, isFound, sound⟩ := nodeTyped.extSound info analysed
  exact ⟨found, isFound, sound.toExtSound⟩

/-- `wsh(and_v(v:pk(@0/**),older(144)))` -/
theorem typesSound_of_parseDescriptorTemplate_delayed :
    ∃ flags info, storedFlags (.withUint32 .older 144) = some flags ∧
      computeMiniscriptPolicyExtInfo (fun _ => 0) (.withUint32 .older 144) = some info ∧
        flags.Sound ∧ ExtSound flags info := by
  have accepted : parseDescriptorTemplate ⟨.v2, deviceLayout, 768⟩
      ("wsh(and_v(v:pk(@0/**),older(144)))".toList.map ascii) =
        .ok (.wsh (.withScript2 .andV (.wrapper .v (.withKey .pk ⟨0, 1, 0⟩))
          (.withUint32 .older 144))) := by decide +kernel
  have mem : PolicyNode.withUint32 .older 144 ∈
      (PolicyNode.withScript2 .andV (.wrapper .v (.withKey .pk ⟨0, 1, 0⟩))
        (.withUint32 .older 144)).nodes := by simp [PolicyNode.nodes]
  obtain ⟨flagsSound, infoSound⟩ :=
    typesSound_of_parseDescriptorTemplate (fun _ => 0) accepted (PolicyNode.mem_nodes_self _) mem
  obtain ⟨flags, stored, sound⟩ := infoSound _ rfl
  exact ⟨flags, _, stored, rfl, flagsSound flags stored, sound⟩

end LedgerSyscoin.Common
