import Mathlib.Tactic.IntervalCases
import LedgerSyscoin.Handler.Lib.Policy.Fragments

/-!
# Fragments with a processor of their own

The key hash fragments, thresholds and multisignatures. A threshold goes through
its children with the step counter of its node, which is a byte, and emits the
`ADD` of a child before the next child. Multisignatures are compiled in a single
call of their processor.
-/

namespace LedgerSyscoin.Handler

open Foundation Common List

variable {σ : Type} {ctx : ScriptContext σ} {scriptType : InternalScriptType} {keys : KeySource}
  {room : Nat} {ok sound : Prop}

/-! ## Key hashes -/

theorem yields_processPkhWpkhNode (source : DerivesFrom ctx keys) {isTaproot : Bool}
    {token : KeyToken} {key : KeyPlaceholder} (isHash : token = .pkh ∨ token = .wpkh)
    (verify : Bool) (takes : verify = true → takesVerify (.withKey token key) = true)
    (derivable : ok → Derivable ctx key) :
    Yields (processPkhWpkhNode ctx) ⟨.withKey token key, 0, 0, vFlag verify⟩ .done
      (compileFlagged keys isTaproot verify (.withKey token key)).bytes ok := by
  have lengthEq : (keys.hash160 (keys.pubkey key).val).val.length = 20 :=
    (keys.hash160 (keys.pubkey key).val).property
  intro client
  simp only [processPkhWpkhNode, ne_eq, not_true_eq_false, if_false]
  refine emits_derived source derivable (fun _ => ?_) client
  simp only [source.hash160]
  rcases isHash with rfl | rfl
  · rw [bytes_compileFlagged_of_op keys isTaproot verify _
      [.op opDup, .op opHash160, .push (keys.keyHash key), .op opEqualverify] opChecksig rfl]
    simp [ScriptItem.bytes, lengthEq, KeySource.keyHash]
  · cases verify with
    | false =>
      simp [compileFlagged, compile, compileLeaf, ScriptItem.bytes, lengthEq, KeySource.keyHash]
    | true => simp [takesVerify] at takes

/-! ## Thresholds -/

/-- The bytes of a threshold from step `i` on, where `rest` are the scripts of the children
that remain and `last` stands for `<k> EQUAL`. -/
def threshBytes (n : Nat) (last : Bytes) : Nat → List Bytes → Bytes
  | _, [] => (if n ≥ 2 then [opAdd] else []) ++ last
  | i, script :: rest =>
    (if i > 1 then [opAdd] else []) ++ script ++ threshBytes n last (i + 1) rest

theorem threshBytes_of_pos {n i : Nat} (positive : 1 ≤ i) (last : Bytes) {rest : List Bytes}
    (total : n = i + rest.length) :
    threshBytes n last i rest =
      (if i ≥ 2 then [opAdd] else []) ++ rest.flatMap (· ++ [opAdd]) ++ last := by
  induction rest generalizing i with
  | nil =>
    rw [threshBytes, total]
    simp
  | cons script rest ih =>
    have restTotal : n = i + 1 + rest.length := by
      rw [total, length_cons]
      omega
    have after : i + 1 ≥ 2 := by omega
    have same : i > 1 ↔ i ≥ 2 := Iff.rfl
    rw [threshBytes, ih (by omega) restTotal]
    simp [after, same]

theorem threshBytes_zero (scripts : List Script) (last : Bytes) :
    threshBytes scripts.length last 0 (scripts.map Script.bytes) =
      (addScripts scripts).bytes ++ last := by
  cases scripts with
  | nil => rfl
  | cons script rest =>
    have flat : ∀ others : List Script,
        (others.map Script.bytes).flatMap (· ++ [opAdd]) =
          Script.bytes (others.flatMap fun other => other ++ [.op opAdd]) := by
      intro others
      induction others with
      | nil => rfl
      | cons other others ih => simp [ih, ScriptItem.bytes]
    have total : (script :: rest).length = 1 + (rest.map Script.bytes).length := by
      rw [length_cons, length_map]
      omega
    rw [map_cons, threshBytes, threshBytes_of_pos (le_refl 1) last total, flat]
    simp [addScripts]

/-- A threshold of at most 255 children is completed from any of its steps on. -/
theorem completes_thresh {k : Nat} {scriptlist : List PolicyNode}
    (allowed : PolicyNodeType.thresh ∈ fragmentWhitelist scriptType)
    (few : scriptlist.length ≤ 255) {finished rest : List PolicyNode}
    (split : scriptlist = finished ++ rest) {verify : Bool}
    (inner : ∀ child ∈ rest, ChildCompletes ctx scriptType keys room ok false child)
    (holds : (∀ child ∈ rest, ChildSupported scriptType room child) → sound)
    {node : NodeState} (kind : node.policyNode = .thresh k scriptlist)
    (flagsEq : node.flags = vFlag verify) (stepEq : node.step.toNat = finished.length) :
    Completes ctx scriptType room node
      (threshBytes scriptlist.length
        ((pushInteger (UInt32.ofNat k)).bytes ++ outputOpV (vFlag verify) opEqual)
        finished.length
        (rest.map fun child => (compile keys (scriptType = .tapscript) child).bytes)) ok sound := by
  have total : scriptlist.length = finished.length + rest.length := by
    rw [split, length_append]
  induction rest generalizing finished node with
  | nil =>
    have nodeAllowed : node.policyNode.type ∈ fragmentWhitelist scriptType := by rwa [kind]
    have chosen : processorOf ctx (scriptType = .tapscript) node.policyNode.type =
        some processThreshNode := by rw [kind]; rfl
    refine completes_done nodeAllowed chosen (fun client => ?_) (holds (forall_mem_nil _))
    have atEnd : ¬ node.step.toNat < scriptlist.length := by
      rw [stepEq, total, length_nil]
      omega
    refine Or.inr ⟨client, ?_⟩
    simp only [processThreshNode, kind, atEnd, if_false, outputPushU32_eq, flagsEq, map_nil,
      threshBytes, append_assoc]
  | cons child rest ih =>
    have nodeAllowed : node.policyNode.type ∈ fragmentWhitelist scriptType := by rwa [kind]
    have chosen : processorOf ctx (scriptType = .tapscript) node.policyNode.type =
        some processThreshNode := by rw [kind]; rfl
    have within : node.step.toNat < scriptlist.length := by
      rw [stepEq, total, length_cons]
      omega
    have current : scriptlist[node.step.toNat]? = some child := by
      rw [stepEq, split]
      simp
    have yields : Yields (@processThreshNode σ) node (.push child 0)
        (if finished.length > 1 then [opAdd] else []) ok := by
      intro client
      have sameStep : node.step > 1 ↔ finished.length > 1 := by
        rw [← stepEq]
        exact UInt8.lt_iff_toNat_lt
      refine Or.inr ⟨client, ?_⟩
      simp only [processThreshNode, kind, within, if_true, current, sameStep]
    have nextStep : (node.step + 1).toNat = (finished ++ [child]).length := by
      have bound : finished.length + 1 < 256 := by
        rw [length_cons] at total
        omega
      rw [UInt8.toNat_add, stepEq, length_append, length_singleton]
      exact Nat.mod_eq_of_lt bound
    have splitNext : scriptlist = (finished ++ [child]) ++ rest := by
      rw [split, append_assoc, singleton_append]
    have totalNext : scriptlist.length = (finished ++ [child]).length + rest.length := by
      rw [splitNext, length_append]
    obtain ⟨needsRoom, childCompletes⟩ := inner child mem_cons_self
    rw [map_cons, threshBytes]
    refine completes_push nodeAllowed chosen yields needsRoom childCompletes
      fun positive supported => ?_
    have restInner : ∀ other ∈ rest, ChildCompletes ctx scriptType keys room ok false other :=
      fun other mem => inner other (mem_cons_of_mem _ mem)
    have lengthNext : finished.length + 1 = (finished ++ [child]).length := by
      rw [length_append, length_singleton]
    rw [lengthNext]
    have restHolds : (∀ other ∈ rest, ChildSupported scriptType room other) → sound :=
      fun others => holds (forall_mem_cons.mpr ⟨⟨positive, supported⟩, others⟩)
    exact ih splitNext restInner restHolds kind flagsEq nextStep totalNext

/-! ## Multisignatures -/

/-- Small numbers are pushed by the opcodes `OP_1` to `OP_16`. -/
theorem bytes_pushInteger_of_le {k : Nat} (positive : 1 ≤ k) (small : k ≤ 16) :
    (pushInteger (UInt32.ofNat k)).bytes = [UInt8.ofNat (0x50 + k)] := by
  interval_cases k <;> rfl

theorem pushedKeys_map (pushData : Nat → Bytes → Bytes) (f : Bytes → Bytes) (i : Nat)
    (list : List Bytes) :
    pushedKeys (fun i key => pushData i (f key)) i list = pushedKeys pushData i (list.map f) := by
  induction list generalizing i with
  | nil => rfl
  | cons key list ih => rw [map_cons, pushedKeys, pushedKeys, ih]

theorem pushedKeys_multi {data : List Bytes} (lengths : ∀ key ∈ data, key.length = 33) (i : Nat) :
    pushedKeys (fun _ key => 0x21 :: key) i data = Script.bytes (data.map .push) := by
  induction data generalizing i with
  | nil => rfl
  | cons key data ih =>
    rw [forall_mem_cons] at lengths
    rw [pushedKeys, ih lengths.2, map_cons, Script.bytes_cons, ScriptItem.bytes, lengths.1]
    rfl

/-- The push of an x-only key and the signature check that goes with it. -/
def pushChecksig (i : Nat) (data : Bytes) : Bytes :=
  0x20 :: data ++ [if i = 0 then opChecksig else opChecksigadd]

theorem pushedKeys_multiA {data : List Bytes} (lengths : ∀ key ∈ data, key.length = 32) :
    pushedKeys pushChecksig 0 data = (checksigAdds data).bytes := by
  have later : ∀ (rest : List Bytes) (i : Nat), (∀ key ∈ rest, key.length = 32) →
      pushedKeys pushChecksig (i + 1) rest =
        Script.bytes (rest.flatMap fun key => [.push key, .op opChecksigadd]) := by
    intro rest
    induction rest with
    | nil =>
      intro i _
      rfl
    | cons key rest ih =>
      intro i restLengths
      rw [forall_mem_cons] at restLengths
      simp [pushedKeys, ih (i + 1) restLengths.2, pushChecksig, ScriptItem.bytes, restLengths.1]
  cases data with
  | nil => rfl
  | cons key rest =>
    rw [forall_mem_cons] at lengths
    simp [pushedKeys, later rest 0 lengths.2, pushChecksig, checksigAdds, ScriptItem.bytes,
      lengths.1]

theorem length_multisigKeys (keys : KeySource) (token : MultisigToken)
    (placeholders : List KeyPlaceholder) :
    (multisigKeys keys token placeholders).length = placeholders.length := by
  cases token <;> simp [multisigKeys]

theorem comparedKeys_zero (placeholders : List KeyPlaceholder) :
    comparedKeys keys 0 placeholders = placeholders.map (keys.keyData false) := by
  simp [comparedKeys, KeySource.keyData]

theorem comparedKeys_one (placeholders : List KeyPlaceholder) :
    comparedKeys keys 1 placeholders = placeholders.map (keys.keyData true) := by
  simp [comparedKeys, KeySource.keyData]

theorem length_keyData (isTaproot : Bool) (key : KeyPlaceholder) :
    (keys.keyData isTaproot key).length = if isTaproot then 32 else 33 := by
  have lengthEq := (keys.pubkey key).property
  cases isTaproot <;> simp [KeySource.keyData, lengthEq]

variable {placeholders : List KeyPlaceholder}

theorem length_of_mem_multisigKeys (token : MultisigToken)
    {data : Bytes} (mem : data ∈ multisigKeys keys token placeholders) :
    data.length = if token = .multiA ∨ token = .sortedmultiA then 32 else 33 := by
  cases token with
  | multi | multiA =>
    obtain ⟨key, _, rfl⟩ := mem_map.mp mem
    simp [length_keyData]
  | sortedmulti =>
    obtain ⟨key, _, rfl⟩ := mem_map.mp ((perm_insertionSort _ _).subset mem)
    simp [length_keyData]
  | sortedmultiA =>
    obtain ⟨key, _, rfl⟩ := mem_map.mp ((perm_insertionSort _ _).subset mem)
    simp [length_keyData]

/-- Sorting with a bitvector whose marks are clear pushes the sorted keys. -/
theorem emitMultisigKeys_sort (source : DerivesFrom ctx keys) {offset : Nat}
    (belowTop : ∀ item ∈ comparedKeys keys offset placeholders,
      item < (replicate 33 0xff).drop offset)
    (pushKey pushData : Nat → Bytes → Bytes)
    (pushes : ∀ i key, pushKey i key = pushData i (key.drop offset)) (used : Bytes)
    (covered : placeholders.length ≤ 8 * used.length)
    (clear : ∀ position < placeholders.length, marks used position = false) (client : σ) :
    Settles (fun emitted => emitted.1 =
        pushedKeys pushData 0 ((comparedKeys keys offset placeholders).insertionSort (· ≤ ·)))
      (FailsToDerive ctx placeholders)
      (emitMultisigKeys ctx true offset placeholders pushKey placeholders.length 0 used
        client) := by
  have allFree : unmarked (marks used) 0 (comparedKeys keys offset placeholders) =
      comparedKeys keys offset placeholders :=
    unmarked_eq_self (fun position within => by
      rw [Nat.zero_add]
      exact clear position (by rwa [length_comparedKeys] at within))
  have enough : placeholders.length ≤
      (unmarked (marks used) 0 (comparedKeys keys offset placeholders)).length := by
    rw [allFree, length_comparedKeys]
  refine (emitMultisigKeys_sorted source belowTop pushes covered enough 0 client).mono ?_
    fun _ fails => fails
  rintro emitted ⟨_, isEmitted, selects, count⟩
  have sorted := selects.eq_insertionSort (by rw [allFree, length_comparedKeys, count])
  rw [isEmitted, sorted, allFree]

/-- The top of the search is above every key other than the one of all ones. -/
theorem lt_top_of_keyData_ne (keys : KeySource) (placeholders : List KeyPlaceholder)
    (offset : Nat) (differ : ∀ item ∈ comparedKeys keys offset placeholders,
      item ≠ replicate (33 - offset) 0xff) :
    ∀ item ∈ comparedKeys keys offset placeholders, item < (replicate 33 0xff).drop offset := by
  intro item mem
  obtain ⟨key, _, rfl⟩ := mem_map.mp mem
  have lengthEq : ((keys.pubkey key).val.drop offset).length = 33 - offset := by
    rw [length_drop, (keys.pubkey key).property]
  have below := lt_replicate_of_ne (by rw [lengthEq]; exact differ _ mem)
  rwa [lengthEq, ← drop_replicate] at below

/-- Only as many positions as the bitvector has bits are without a mark. -/
theorem length_le_of_clear {used : Bytes} {n : Nat}
    (clear : ∀ position < n, marks used position = false) : n ≤ 8 * used.length := by
  by_contra many
  have outside : bitvectorGet used (8 * used.length) = none :=
    bitvectorGet_eq_none_iff.mpr (by omega)
  have mark := clear (8 * used.length) (Nat.lt_of_not_le many)
  rw [marks, outside] at mark
  cases mark

section Multisig

variable (source : DerivesFrom ctx keys) {token : MultisigToken} {k : Nat}
  {placeholders : List KeyPlaceholder}
  (bounds : WithinBounds keys (.multisig token k placeholders))

include source bounds

theorem emitMultisigKeys_multi (isMulti : token = .multi ∨ token = .sortedmulti) (client : σ) :
    PushesKeys ctx placeholders (Script.bytes ((multisigKeys keys token placeholders).map .push))
      (emitMultisigKeys ctx (token ≠ .multi) 0 placeholders (fun _ key => 0x21 :: key)
        placeholders.length 0 (replicate (bitvectorRealSize maxPubkeysPerMultisig) 0)
        client) := by
  obtain ⟨-, -, numbers, differ, -⟩ := bounds
  have few := (numbers isMulti).2
  have lengths : ∀ key ∈ multisigKeys keys token placeholders, key.length = 33 := by
    intro key mem
    rw [length_of_mem_multisigKeys token mem, if_neg (by rcases isMulti with rfl | rfl <;> decide)]
  rw [← pushedKeys_multi lengths 0, pushesKeys_iff_settles]
  rcases isMulti with rfl | rfl
  · exact emitMultisigKeys_unsorted source 0 placeholders _ (Nat.zero_add _) _ client
  · have belowTop := lt_top_of_keyData_ne keys placeholders 0 (by
      rw [comparedKeys_zero]
      intro item mem
      obtain ⟨key, keyMem, rfl⟩ := mem_map.mp mem
      exact differ rfl key keyMem)
    have clear : ∀ position < placeholders.length,
        marks (replicate (bitvectorRealSize maxPubkeysPerMultisig) 0) position = false := by
      intro position within
      have inBounds : position / 8 < bitvectorRealSize maxPubkeysPerMultisig := by
        simp only [bitvectorRealSize, maxPubkeysPerMultisig] at few ⊢
        omega
      rw [marks, bitvectorGet_replicate inBounds]
      rfl
    have sorted := emitMultisigKeys_sort source belowTop (fun _ key => 0x21 :: key)
      (fun _ key => 0x21 :: key) (fun _ _ => rfl)
      (replicate (bitvectorRealSize maxPubkeysPerMultisig) 0)
      (by simpa [bitvectorRealSize, maxPubkeysPerMultisig] using few) clear client
    rwa [comparedKeys_zero] at sorted

theorem emitMultisigKeys_multiA (isMultiA : token = .multiA ∨ token = .sortedmultiA)
    (clear : token = .sortedmultiA →
      ∀ position < placeholders.length, marks [0, ctx.staleByte] position = false) (client : σ) :
    PushesKeys ctx placeholders (checksigAdds (multisigKeys keys token placeholders)).bytes
      (emitMultisigKeys ctx (token ≠ .multiA) 1 placeholders
        (fun i key => pushChecksig i (key.drop 1)) placeholders.length 0 [0, ctx.staleByte]
        client) := by
  obtain ⟨-, -, -, -, differ⟩ := bounds
  have lengths : ∀ key ∈ multisigKeys keys token placeholders, key.length = 32 := by
    intro key mem
    rw [length_of_mem_multisigKeys token mem, if_pos isMultiA]
  rw [← pushedKeys_multiA lengths, pushesKeys_iff_settles]
  rcases isMultiA with rfl | rfl
  · have pushed := emitMultisigKeys_unsorted source 1 placeholders
      (fun i key => pushChecksig i (key.drop 1)) (Nat.zero_add _) [0, ctx.staleByte] client
    rwa [drop_zero, pushedKeys_map, map_map] at pushed
  · have belowTop := lt_top_of_keyData_ne keys placeholders 1 (by
      rw [comparedKeys_one]
      intro item mem
      obtain ⟨key, keyMem, rfl⟩ := mem_map.mp mem
      exact differ rfl key keyMem)
    have sorted := emitMultisigKeys_sort source belowTop (fun i key => pushChecksig i (key.drop 1))
      pushChecksig (fun _ _ => rfl) [0, ctx.staleByte] (length_le_of_clear (clear rfl)) (clear rfl)
      client
    rwa [comparedKeys_one] at sorted

theorem yields_processMultiSortedmultiNode (isMulti : token = .multi ∨ token = .sortedmulti)
    (isTaproot verify : Bool) (derivable : ok → ∀ key ∈ placeholders, Derivable ctx key) :
    Yields (processMultiSortedmultiNode ctx)
      ⟨.multisig token k placeholders, 0, 0, vFlag verify⟩ .done
      (compileFlagged keys isTaproot verify (.multisig token k placeholders)).bytes ok := by
  have compiled : compile keys isTaproot (.multisig token k placeholders) =
      [pushInteger (UInt32.ofNat k)] ++ (multisigKeys keys token placeholders).map .push ++
        [pushInteger (UInt32.ofNat placeholders.length)] ++ [.op opCheckmultisig] := by
    rcases isMulti with rfl | rfl <;> simp [compile, compileLeaf, length_multisigKeys]
  rw [bytes_compileFlagged_of_op keys isTaproot verify _ _ _ compiled]
  have ⟨positive, kSmall, numbers, _⟩ := bounds
  obtain ⟨nonempty, few⟩ := numbers isMulti
  have notMany : ¬ placeholders.length > maxPubkeysPerMultisig := by omega
  intro client
  simp only [processMultiSortedmultiNode, notMany, if_false]
  have pushes := emitMultisigKeys_multi source bounds isMulti client
  refine emits_of_settles derivable ((pushesKeys_iff_settles.mp pushes).bind ?_)
  rintro ⟨_, client'⟩ rfl
  refine ⟨client', ?_⟩
  simp [bytes_pushInteger_of_le positive kSmall, bytes_pushInteger_of_le nonempty few]

theorem yields_processMultiASortedmultiANode (isMultiA : token = .multiA ∨ token = .sortedmultiA)
    (clear : token = .sortedmultiA →
      ∀ position < placeholders.length, marks [0, ctx.staleByte] position = false)
    (isTaproot verify : Bool) (derivable : ok → ∀ key ∈ placeholders, Derivable ctx key) :
    Yields (processMultiASortedmultiANode ctx)
      ⟨.multisig token k placeholders, 0, 0, vFlag verify⟩ .done
      (compileFlagged keys isTaproot verify (.multisig token k placeholders)).bytes ok := by
  have compiled : compile keys isTaproot (.multisig token k placeholders) =
      checksigAdds (multisigKeys keys token placeholders) ++ [pushInteger (UInt32.ofNat k)] ++
        [.op opNumequal] := by
    rcases isMultiA with rfl | rfl <;> simp [compile, compileLeaf]
  rw [bytes_compileFlagged_of_op keys isTaproot verify _ _ _ compiled]
  have ⟨positive, kSmall, _⟩ := bounds
  have notLarge : ¬ k > 16 := by omega
  intro client
  simp only [processMultiASortedmultiANode, notLarge, if_false]
  have pushes := emitMultisigKeys_multiA source bounds isMultiA clear client
  refine emits_of_settles derivable ((pushesKeys_iff_settles.mp pushes).bind ?_)
  rintro ⟨_, client'⟩ rfl
  refine ⟨client', ?_⟩
  simp [bytes_pushInteger_of_le positive kSmall]

end Multisig

end LedgerSyscoin.Handler
