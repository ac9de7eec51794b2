import LedgerSyscoin.Common.Wallet.KeyInfo
import LedgerSyscoin.Handler.Lib.Policy.Usable

/-!
# Use of keys

A sane policy does not use a key twice: the public keys are different, and so are the
derivations of the placeholders of a key. The registration compares the number of keys
with the largest index of a placeholder only, so a key below it may be used nowhere.
-/

namespace LedgerSyscoin.Handler

open Foundation Common List

variable (policy : PolicyNode)

/-! ## Placeholders that the parser returns -/

/-- The steps of a placeholder are different, and hardly too large. -/
structure StepsRead (key : KeyPlaceholder) : Prop where
  different : key.numFirst ≠ key.numSecond
  first : key.numFirst ≤ bip32FirstHardenedChild
  second : key.numSecond ≤ bip32FirstHardenedChild

theorem stepsRead_of_parsePlaceholder {version : WalletPolicyVersion} {input rest : Bytes}
    {key : KeyPlaceholder} (read : parsePlaceholder version input = some (key, rest)) :
    StepsRead key := by
  have default (k : Nat) : StepsRead ⟨0, 1, k⟩ := ⟨show (0 : UInt32) ≠ 1 by decide,
    UInt32.zero_le, show 1 ≤ bip32FirstHardenedChild by decide⟩
  simp only [parsePlaceholder, Option.bind_eq_bind, Option.bind_eq_some_iff, Prod.exists] at read
  obtain ⟨_, _, k, _, _, _, _, steps⟩ := read
  cases version with
  | v1 =>
    cases steps
    exact default _
  | v2 =>
    simp only [Option.bind_eq_some_iff] at steps
    obtain ⟨_, _, steps⟩ := steps
    split at steps
    · split_ifs at steps
      · simp only [Option.bind_eq_some_iff, Option.pure_def, Option.some.injEq,
          Prod.mk.injEq] at steps
        obtain ⟨_, _, rfl, _⟩ := steps
        exact default _
      · simp only [parseDerivationSteps, Option.bind_eq_bind, Option.bind_eq_some_iff,
          Option.pure_def, Option.some.injEq, Prod.mk.injEq, Prod.exists, guard] at steps
        obtain ⟨_, _, _, _, small, _, _, _, _, _, _, smallSecond, _, different, _, _, rfl,
          _⟩ := steps
        split_ifs at small smallSecond different with isSmall isSmallSecond areDifferent
        exact ⟨areDifferent, isSmall, isSmallSecond⟩
    · cases steps

section Accepted

variable {settings : TemplateSettings} {template : Bytes} {policy : PolicyNode}

theorem stepsRead_of_mem_templateKeys
    (accepted : parseDescriptorTemplate settings template = .ok policy) :
    ∀ key ∈ templateKeys policy, StepsRead key := by
  rw [(parseDescriptorTemplate_sound accepted).2]
  exact forall_mem_keysIn (fun _ _ _ => stepsRead_of_parsePlaceholder) template

/-- The steps of all placeholders are different and unhardened exactly if no placeholder in the
text has the first hardened step. -/
theorem steps_derivable_iff (accepted : parseDescriptorTemplate settings template = .ok policy)
    (isV2 : settings.version = .v2) :
    (∀ key ∈ templateKeys policy, key.numFirst ≠ key.numSecond ∧
        key.numFirst < bip32FirstHardenedChild ∧ key.numSecond < bip32FirstHardenedChild) ↔
      ∀ key ∈ keysIn template .v2, key.numFirst ≠ bip32FirstHardenedChild ∧
        key.numSecond ≠ bip32FirstHardenedChild := by
  have steps := stepsRead_of_mem_templateKeys accepted
  rw [← isV2, ← (parseDescriptorTemplate_sound accepted).2]
  refine forall₂_congr fun key mem => ?_
  obtain ⟨different, first, second⟩ := steps key mem
  rw [and_iff_right different, UInt32.lt_iff_le_and_ne, UInt32.lt_iff_le_and_ne,
    and_iff_right first, and_iff_right second]

end Accepted

theorem steps_derivable_branches :
    parseDescriptorTemplate ⟨.v2, deviceLayout, 768⟩ ("pkh(@0/<2;3>/*)".toList.map ascii) =
        .ok (.withKey .pkh ⟨2, 3, 0⟩) ∧
      ∀ key ∈ templateKeys (.withKey .pkh ⟨2, 3, 0⟩), key.numFirst ≠ key.numSecond ∧
        key.numFirst < bip32FirstHardenedChild ∧ key.numSecond < bip32FirstHardenedChild := by
  have accepted : parseDescriptorTemplate ⟨.v2, deviceLayout, 768⟩
      ("pkh(@0/<2;3>/*)".toList.map ascii) = .ok (.withKey .pkh ⟨2, 3, 0⟩) := by decide +kernel
  exact ⟨accepted, (steps_derivable_iff accepted rfl).mpr (by decide +kernel)⟩

/-- The first hardened step is accepted. -/
theorem steps_not_derivable :
    parseDescriptorTemplate ⟨.v2, deviceLayout, 768⟩
        ("pkh(@0/<2147483648;1>/*)".toList.map ascii) = .ok (.withKey .pkh ⟨2147483648, 1, 0⟩) ∧
      ¬ (2147483648 : UInt32) < bip32FirstHardenedChild := by
  decide +kernel

/-! ## Keys are not reused -/

section Keys

variable {σ : Type} {lookup : KeyLookup σ} {keys : List CompressedPubkey}

/-- The client serves the given keys. -/
def ServesKeys (lookup : KeyLookup σ) (keys : List CompressedPubkey) : Prop :=
  ∀ index client pubkey client', lookup index client = some (pubkey, client') →
    keys[index.toNat]? = some pubkey

variable {client client' : σ}

/-- The inner loop: the keys that were compared differ from the given one. -/
theorem ne_of_checkKeyDiffers (serves : ServesKeys lookup keys) {pubkey : CompressedPubkey}
    {count : Nat} {j : UInt32} (fits : j.toNat + count < 2 ^ 32)
    (checked : checkKeyDiffers lookup pubkey count j client = some client') :
    ∀ index, j.toNat ≤ index → index < j.toNat + count →
      ∃ other, keys[index]? = some other ∧ pubkey ≠ other := by
  induction count generalizing j client with
  | zero =>
    intro index from' below
    omega
  | succ count ih =>
    rw [checkKeyDiffers] at checked
    split at checked
    · rename_i other client₁ found
      split_ifs at checked with same
      intro index from' below
      have next : (j + 1).toNat = j.toNat + 1 := by
        rw [UInt32.toNat_add, UInt32.toNat_one]
        omega
      by_cases first : index = j.toNat
      · exact ⟨other, first ▸ serves j client other client₁ found, same⟩
      · exact ih (by omega) checked index (by omega) (by omega)
    · cases checked

/-- The outer loop: the keys that were compared differ from all the keys behind them. -/
theorem ne_of_checkKeysDiffer (serves : ServesKeys lookup keys) {nKeys : UInt32} {count : Nat}
    {i : UInt32} (fits : i.toNat + count < 2 ^ 32)
    (checked : checkKeysDiffer lookup nKeys count i client = some client') :
    ∀ index later, i.toNat ≤ index → index < i.toNat + count → index < later →
      later < nKeys.toNat → ∃ pubkey other, keys[index]? = some pubkey ∧
        keys[later]? = some other ∧ pubkey ≠ other := by
  induction count generalizing i client with
  | zero =>
    intro index later from' below
    omega
  | succ count ih =>
    rw [checkKeysDiffer] at checked
    split at checked
    · rename_i pubkey client₁ found
      split at checked
      · rename_i client₂ differs
        intro index later from' below behind within
        have bound := nKeys.toNat_lt
        have next : (i + 1).toNat = i.toNat + 1 := by
          rw [UInt32.toNat_add, UInt32.toNat_one]
          omega
        by_cases first : index = i.toNat
        · obtain ⟨other, isOther, different⟩ := ne_of_checkKeyDiffers serves (by omega) differs
            later (by omega) (by omega)
          exact ⟨pubkey, other, first ▸ serves i client pubkey client₁ found, isOther, different⟩
        · exact ih (by omega) checked index later (by omega) (by omega) behind within
      · cases checked
    · cases checked

/-- All the keys are different if the check passes. -/
theorem nodup_of_checkKeysDiffer (serves : ServesKeys lookup keys) {nKeys : UInt32}
    (count : keys.length = nKeys.toNat)
    (checked : checkKeysDiffer lookup nKeys (nKeys - 1).toNat 0 client = some client') :
    keys.Nodup := by
  by_cases none : nKeys.toNat = 0
  · rw [length_eq_zero_iff.mp (count.trans none)]
    exact nodup_nil
  have rounds : (nKeys - 1).toNat = nKeys.toNat - 1 := by
    rw [UInt32.toNat_sub_of_le _ _ (by rw [UInt32.le_iff_toNat_le, UInt32.toNat_one]; omega),
      UInt32.toNat_one]
  have bound := nKeys.toNat_lt
  rw [rounds] at checked
  rw [nodup_iff_pairwise_ne, pairwise_iff_getElem]
  intro index later within laterWithin before same
  obtain ⟨_, _, isPubkey, isOther, different⟩ := ne_of_checkKeysDiffer serves
    (by rw [UInt32.toNat_zero]; omega) checked index later (by simp)
    (by rw [UInt32.toNat_zero]; omega) before (by omega)
  rw [getElem?_eq_getElem within, Option.some.injEq] at isPubkey
  rw [getElem?_eq_getElem laterWithin, Option.some.injEq] at isOther
  exact different (isPubkey ▸ isOther ▸ same)

end Keys

/-- The keys that a placeholder derives: its key index with each of its steps. -/
def derivationSteps (key : KeyPlaceholder) : List (Nat × UInt32) :=
  [(key.keyIndex, key.numFirst), (key.keyIndex, key.numSecond)]

theorem filterMap_range_getElem? {α : Type} (items : List α) :
    (range items.length).filterMap (fun i => items[i]?) = items := by
  induction items with
  | nil => rfl
  | cons item items ih =>
    rw [length_cons, range_succ_eq_map, filterMap_cons, filterMap_map]
    exact congrArg (item :: ·) ih

/-- The placeholders that are checked are those of the template. -/
theorem placeholders_eq : placeholders policy = templateKeys policy := by
  have keys : ∀ i, (getKeyPlaceholderByIndex policy i).written.map (·.1) =
      (templateKeys policy)[i]? := by
    intro i
    rw [getKeyPlaceholderByIndex_eq, ← map_fst_templatePlaceholders, getElem?_map]
    rfl
  have count : (getKeyPlaceholderByIndex policy 0).count = (templateKeys policy).length := by
    rw [getKeyPlaceholderByIndex_eq, ← map_fst_templatePlaceholders, length_map]
    rfl
  simp only [placeholders, keys, count, filterMap_range_getElem?]

/-- Placeholders that do not conflict derive different keys. -/
theorem disjoint_of_not_conflict {left right : KeyPlaceholder}
    (apart : placeholdersConflict left right = false) :
    (derivationSteps left).Disjoint (derivationSteps right) := by
  rintro ⟨_, _⟩ inLeft inRight
  simp only [derivationSteps, mem_cons, Prod.mk.injEq, not_mem_nil, or_false]
    at inLeft inRight
  have sameIndex : left.keyIndex = right.keyIndex := by
    rw [← inLeft.elim And.left And.left, ← inRight.elim And.left And.left]
  rw [placeholdersConflict, decide_eq_true sameIndex, Bool.true_and] at apart
  simp only [Bool.or_eq_false_iff, decide_eq_false_iff_not] at apart
  obtain ⟨⟨⟨firsts, firstSecond⟩, secondFirst⟩, seconds⟩ := apart
  rcases inLeft with ⟨-, rfl⟩ | ⟨-, rfl⟩ <;> rcases inRight with ⟨-, same⟩ | ⟨-, same⟩
  · exact firsts same
  · exact firstSecond same
  · exact secondFirst same
  · exact seconds same

theorem nodup_of_placeholdersSane {keys : List KeyPlaceholder}
    (steps : ∀ key ∈ keys, key.numFirst ≠ key.numSecond) (sane : placeholdersSane keys = true) :
    (keys.flatMap derivationSteps).Nodup := by
  induction keys with
  | nil => exact nodup_nil
  | cons key rest ih =>
    rw [forall_mem_cons] at steps
    rw [placeholdersSane, Bool.and_eq_true, all_eq_true] at sane
    rw [flatMap_cons, nodup_append']
    refine ⟨by simp [derivationSteps, steps.1], ih steps.2 sane.2, fun pair inKey inRest => ?_⟩
    obtain ⟨other, member, inOther⟩ := mem_flatMap.mp inRest
    exact disjoint_of_not_conflict (Bool.not_eq_eq_eq_not.mp (sane.1 other member)) inKey inOther

/-- A policy of the parser that is sane uses no key twice: the public keys are different, and all
the pairs of a key and a derivation step are. -/
theorem isPolicySane_noReuse {σ : Type} {settings : TemplateSettings} {template : Bytes}
    {policy : PolicyNode} {scratch : Nat → Int} {lookup : KeyLookup σ}
    {keys : List CompressedPubkey} {nKeys : UInt32} {client client' : σ}
    (accepted : parseDescriptorTemplate settings template = .ok policy)
    (serves : ServesKeys lookup keys) (count : keys.length = nKeys.toNat)
    (sane : isPolicySane scratch lookup policy nKeys client = some client') :
    keys.Nodup ∧ ((templateKeys policy).flatMap derivationSteps).Nodup := by
  have steps := fun key mem => (stepsRead_of_mem_templateKeys accepted key mem).different
  rw [isPolicySane] at sane
  split at sane
  · split at sane
    · rename_i client₁ checked
      split at sane
      · rename_i placeholdersOk
        rw [placeholders_eq] at placeholdersOk
        exact ⟨nodup_of_checkKeysDiffer serves count checked,
          nodup_of_placeholdersSane steps placeholdersOk⟩
      · cases sane
    · cases sane
  · cases sane

/-- A client that has the given keys. -/
def lookupIn (keys : List CompressedPubkey) : KeyLookup Unit :=
  fun index client => keys[index.toNat]?.map (·, client)

/-- Different keys. -/
def distinctKeys (count : Nat) : List CompressedPubkey :=
  (range count).map fun index => ⟨beBytes 33 index, length_beBytes _ _⟩

theorem isPolicySane_noReuse_recovery : (distinctKeys 2).Nodup ∧
      ((templateKeys (.wsh sampleRecoveryPolicy)).flatMap derivationSteps).Nodup := by
  have serves : ServesKeys (lookupIn (distinctKeys 2)) (distinctKeys 2) := by
    intro index client pubkey client' found
    obtain ⟨key, isKey, same⟩ := Option.map_eq_some_iff.mp found
    cases same
    exact isKey
  have sane : isPolicySane (fun _ => 0) (lookupIn (distinctKeys 2)) (.wsh sampleRecoveryPolicy) 2 ()
      = some () := by decide +kernel
  exact isPolicySane_noReuse sampleRecoveryTemplate_accepted serves rfl sane

/-! ## Keys that are not used -/

/-- The loop over the placeholders from `cur` on. -/
theorem maxKeyIndexFrom_eq {fuel cur : Nat}
    (remaining : cur + fuel = (templateKeys policy).length) (ret : Int) :
    maxKeyIndexFrom policy fuel cur ret =
      ((templateKeys policy).drop cur).foldl (fun ret key => max ret ((key.keyIndex : Int) + 1))
        ret := by
  induction fuel generalizing cur ret with
  | zero => rw [maxKeyIndexFrom, drop_eq_nil_of_le (by omega), foldl_nil]
  | succ fuel ih =>
    have within : cur < (templateKeys policy).length := by omega
    have found : (getKeyPlaceholderByIndex policy cur).written.map Prod.fst =
        some (templateKeys policy)[cur] := by
      rw [getKeyPlaceholderByIndex_eq, ← getElem?_eq_getElem within]
      simp only [← map_fst_templatePlaceholders, getElem?_map, PlaceholderSearch.ofList]
    obtain ⟨⟨key, _⟩, written, rfl⟩ := Option.map_eq_some_iff.mp found
    rw [maxKeyIndexFrom, written, drop_eq_getElem_cons within, foldl_cons]
    exact ih (by omega) _

/-- One more than the largest index of a placeholder. -/
theorem countDistinctKeysInfo_eq : countDistinctKeysInfo policy =
      (templateKeys policy).foldl (fun ret key => max ret ((key.keyIndex : Int) + 1)) (-1) := by
  have count : (getKeyPlaceholderByIndex policy 0).count = (templateKeys policy).length := by
    rw [getKeyPlaceholderByIndex_eq, ← map_fst_templatePlaceholders, length_map]
    rfl
  rw [countDistinctKeysInfo, maxKeyIndexFrom_eq policy (by rw [count, Nat.zero_add]), drop_zero]

theorem foldl_max_spec (keys : List KeyPlaceholder) (start : Int) :
    let largest := keys.foldl (fun ret key => max ret ((key.keyIndex : Int) + 1)) start
    (start ≤ largest ∧ ∀ key ∈ keys, (key.keyIndex : Int) < largest) ∧
      (largest = start ∨ ∃ key ∈ keys, largest = (key.keyIndex : Int) + 1) := by
  induction keys generalizing start with
  | nil => simp
  | cons key keys ih =>
    obtain ⟨⟨_, below⟩, attained⟩ := ih (max start ((key.keyIndex : Int) + 1))
    simp only [foldl_cons]
    refine ⟨⟨by omega, forall_mem_cons.mpr ⟨by omega, below⟩⟩, ?_⟩
    rcases attained with isStart | ⟨other, member, isOther⟩
    · rcases max_choice start ((key.keyIndex : Int) + 1) with isMax | isMax
      · exact .inl (isStart.trans isMax)
      · exact .inr ⟨key, mem_cons_self, isStart.trans isMax⟩
    · exact .inr ⟨other, mem_cons_of_mem _ member, isOther⟩

/-- A key index occurs in a placeholder. -/
def UsesKey (index : Nat) : Prop :=
  ∃ key ∈ templateKeys policy, key.keyIndex = index

/-- With each key index all the smaller ones occur. -/
def WithoutGaps : Prop :=
  ∀ key ∈ templateKeys policy, ∀ index < key.keyIndex, UsesKey policy index

/-- A policy that passes the check of the number of keys uses all its keys, and no others, exactly
if no index is left out below the ones that occur. -/
theorem usesKeys_iff {policy : PolicyNode} {nKeys : Nat}
    (checked : countDistinctKeysInfo policy = nKeys) :
    (∀ index, UsesKey policy index ↔ index < nKeys) ↔ WithoutGaps policy := by
  rw [countDistinctKeysInfo_eq] at checked
  obtain ⟨⟨-, below⟩, attained⟩ := foldl_max_spec (templateKeys policy) (-1)
  rw [checked] at below attained
  constructor
  · intro uses key member index smaller
    rw [uses]
    have bound := below key member
    omega
  · intro withoutGaps index
    constructor
    · rintro ⟨key, member, rfl⟩
      exact_mod_cast below key member
    · intro small
      rcases attained with none | ⟨key, member, isLargest⟩
      · omega
      · by_cases largest : index = key.keyIndex
        · exact ⟨key, member, largest.symm⟩
        · exact withoutGaps key member index (by omega)

theorem usesKeys_recovery :
    countDistinctKeysInfo (.wsh sampleRecoveryPolicy) = (2 : Nat) ∧
      ∀ index, UsesKey (.wsh sampleRecoveryPolicy) index ↔ index < 2 := by
  have checked : countDistinctKeysInfo (.wsh sampleRecoveryPolicy) = (2 : Nat) := by decide
  have withoutGaps : WithoutGaps (.wsh sampleRecoveryPolicy) := by
    unfold WithoutGaps UsesKey
    decide
  exact ⟨checked, (usesKeys_iff checked).mpr withoutGaps⟩

/-- `wpkh(@1/**)` -/
def unusedKeyTemplate : Bytes := "wpkh(@1/**)".toList.map ascii

def unusedKeyPolicy : PolicyNode := .withKey .wpkh ⟨0, 1, 1⟩

/-- A policy over two keys that uses one of them passes all the checks of a registration. -/
theorem registered_with_unused_key :
    checkRegistration sampleSettings (fun _ => 0) sampleLookup unusedKeyTemplate 2 () =
        some (unusedKeyPolicy, ()) ∧
      countDistinctKeysInfo unusedKeyPolicy = 2 ∧ ¬UsesKey unusedKeyPolicy 0 := by
  refine ⟨by decide +kernel, by decide, ?_⟩
  rintro ⟨key, member, isZero⟩
  cases mem_singleton.mp member
  cases isZero

end LedgerSyscoin.Handler
