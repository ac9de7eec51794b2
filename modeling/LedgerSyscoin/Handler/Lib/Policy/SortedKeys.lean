import LedgerSyscoin.Foundation.Attempt
import LedgerSyscoin.Handler.Lib.Policy.Correctness

/-!
# Scripts of sorted multisignatures

The processors of `sortedmulti` and `sortedmulti_a` find the keys in ascending order
without keeping them, so that the script does not depend on the order of the
placeholders. For `sortedmulti_a` only the first byte of the marks is cleared: with nine
keys or more the result depends on the memory behind it, as a mark at the position of a
key leaves too few of them.
-/

namespace LedgerSyscoin.Handler

open Foundation Common List

variable {σ : Type} {ctx : ScriptContext σ} {keys : KeySource}

/-! ## Scripts -/

/-- The opcode `OP_n` of a small number. -/
def smallNumber (n : Nat) : ScriptItem := .op (UInt8.ofNat (0x50 + n))

/-- The last opcode of a script: its VERIFY form is the opcode behind it. -/
def finalOpcode (flags code : UInt8) : ScriptItem :=
  if flags &&& processorFlagV ≠ 0 then .op (code + 1) else .op code

/-- `<k> <pk_1> ... <pk_n> <n> CHECKMULTISIG` -/
def sortedmultiScript (k : Nat) (flags : UInt8) (sorted : List Bytes) : Script :=
  [smallNumber k] ++ sorted.map .push ++
    [smallNumber sorted.length, finalOpcode flags opCheckmultisig]

/-- `<pk_1> CHECKSIG <pk_2> CHECKSIGADD ... <pk_n> CHECKSIGADD <k> NUMEQUAL` -/
def sortedmultiAScript (k : Nat) (flags : UInt8) (sorted : List Bytes) : Script :=
  checksigAdds sorted ++ [smallNumber k, finalOpcode flags opNumequal]

theorem bytes_smallNumber (n : Nat) : (smallNumber n).bytes = [UInt8.ofNat (0x50 + n)] := rfl

theorem bytes_finalOpcode {flags code : UInt8} (form : code = opCheckmultisig ∨ code = opNumequal) :
    (finalOpcode flags code).bytes = outputOpV flags code := by
  unfold finalOpcode outputOpV
  rcases form with rfl | rfl <;> split <;> rfl

/-- A processor emits the script of the keys in ascending order, in whichever order the
placeholders of the node are. -/
def EmitsSorted (process : Processor σ) (node : List KeyPlaceholder → NodeState)
    (keyData : KeyPlaceholder → Bytes) (script : List Bytes → Script)
    (placeholders : List KeyPlaceholder) (client : σ) : Prop :=
  ∃ sorted : List Bytes, sorted.Perm (placeholders.map keyData) ∧ sorted.Pairwise (· ≤ ·) ∧
    ∀ order : List KeyPlaceholder, order.Perm placeholders → ∃ client',
      process (node order) client = .ok ⟨.done, (script sorted).bytes, client'⟩

theorem insertionSort_eq_of_perm {left right : List Bytes} (perm : left.Perm right) :
    left.insertionSort (· ≤ ·) = right.insertionSort (· ≤ ·) := by
  refine List.Perm.eq_of_pairwise ?_ (pairwise_insertionSort _ _) (pairwise_insertionSort _ _) ?_
  · intro first second _ _ below above
    exact Std.Antisymm.antisymm (r := (· ≤ ·)) first second below above
  · exact (perm_insertionSort _ _).trans (perm.trans (perm_insertionSort _ _).symm)

theorem WithinBounds.of_perm {token : MultisigToken} {k : Nat}
    {order placeholders : List KeyPlaceholder}
    (bounds : WithinBounds keys (.multisig token k placeholders)) (perm : order.Perm placeholders) :
    WithinBounds keys (.multisig token k order) := by
  obtain ⟨positive, kSmall, numbers, differ, differX⟩ := bounds
  rw [WithinBounds, perm.length_eq]
  refine ⟨positive, kSmall, numbers, fun sorted key mem => ?_, fun sorted key mem => ?_⟩
  · exact differ sorted key (perm.subset mem)
  · exact differX sorted key (perm.subset mem)

/-! ## The script of `sortedmulti` -/

/-- The script of `sortedmulti` holds the keys in ascending order, each as often as it is
derived. -/
theorem processMultiSortedmultiNode_emitsSorted (source : DerivesFrom ctx keys) {k : Nat}
    {placeholders : List KeyPlaceholder} (derivable : ∀ key ∈ placeholders, Derivable ctx key)
    (positive : 1 ≤ k) (kLe : k ≤ placeholders.length) (few : placeholders.length ≤ 16)
    (differ : ∀ key ∈ placeholders, (keys.pubkey key).val ≠ replicate 33 0xff)
    (length : UInt16) (step flags : UInt8) (client : σ) :
    EmitsSorted (processMultiSortedmultiNode ctx)
      (fun order => ⟨.multisig .sortedmulti k order, length, step, flags⟩)
      (fun key => (keys.pubkey key).val) (sortedmultiScript k flags) placeholders client := by
  have bounds : WithinBounds keys (.multisig .sortedmulti k placeholders) :=
    ⟨positive, kLe.trans few, fun _ => ⟨positive.trans kLe, few⟩, fun _ => differ, nofun⟩
  refine ⟨_, perm_insertionSort (· ≤ ·) _, pairwise_insertionSort _ _, fun order perm => ?_⟩
  have sameKeys : multisigKeys keys .sortedmulti order =
      (placeholders.map fun key => (keys.pubkey key).val).insertionSort (· ≤ ·) :=
    insertionSort_eq_of_perm (perm.map _)
  have notMany : ¬ order.length > maxPubkeysPerMultisig := by
    rw [perm.length_eq]
    exact Nat.not_lt.mpr few
  rcases emitMultisigKeys_multi source (bounds.of_perm perm) (.inr rfl) client with
    ⟨-, key, mem, notDerivable⟩ | ⟨client', run⟩
  · exact absurd (derivable key (perm.subset mem)) notDerivable
  · refine ⟨client', ?_⟩
    simp only [processMultiSortedmultiNode, notMany, if_false, run, Bind.bind, Except.bind,
      sameKeys]
    simp [sortedmultiScript, bytes_smallNumber, bytes_finalOpcode, perm.length_eq]

/-- The placeholders `@0/**` to `@n/**`. -/
def samplePlaceholders (count : Nat) : List KeyPlaceholder :=
  (range count).map fun index => ⟨0, 1, index⟩

theorem processMultiSortedmultiNode_three_keys :
    EmitsSorted (processMultiSortedmultiNode (sampleContext 0))
      (fun order => ⟨.multisig .sortedmulti 2 order, 0, 0, processorFlagV⟩)
      (fun key => (sampleKeys.pubkey key).val) (sortedmultiScript 2 processorFlagV)
      (samplePlaceholders 3) () :=
  processMultiSortedmultiNode_emitsSorted (sampleContext_derivesFrom 0)
    (fun key _ => sampleContext_derivable 0 key) (by decide) (by decide) (by decide)
    (by decide) 0 0 processorFlagV ()

/-! ## The picks of a search -/

section Picks

variable (source : DerivesFrom ctx keys) {offset i : Nat} {placeholders : List KeyPlaceholder}
  {used bytes : Bytes} {pushKey : Nat → Bytes → Bytes}

include source

variable {client client' : σ}

/-- The rounds pick different positions without a mark. -/
theorem emitMultisigKeys_picks {rounds : Nat} (covered : placeholders.length ≤ 8 * used.length)
    (i : Nat) (client : σ) :
    Settles (fun _ => ∃ positions : List Nat, positions.length = rounds ∧ positions.Nodup ∧
        ∀ position ∈ positions, marks used position = false ∧
          ∃ item, (comparedKeys keys offset placeholders)[position]? = some item ∧
            item < (replicate 33 0xff).drop offset)
      (fun _ => True)
      (emitMultisigKeys ctx true offset placeholders pushKey rounds i used client) := by
  induction rounds generalizing i used client with
  | zero => exact ⟨[], rfl, nodup_nil, nofun⟩
  | succ rounds ih =>
    refine ((nextMultisigKey_sorted source covered i client).mono (fun _ next => next)
      fun _ _ => trivial).bind ?_
    rintro ⟨_, _, client'⟩ ⟨position, found, free, below, -, lengthEq, marked⟩
    dsimp only at found below lengthEq marked
    refine (ih (by omega) (i + 1) client').bind ?_
    rintro - ⟨positions, count, nodup, picked⟩
    have earlier : ∀ other ∈ positions, other ≠ position ∧ marks used other = false := by
      intro other mem
      have unmarked := (picked other mem).1
      rw [marked, addMark] at unmarked
      by_cases same : other = position
      · simp [same] at unmarked
      · simpa [same] using unmarked
    refine ⟨position :: positions, by rw [length_cons, count], ?_, ?_⟩
    · exact nodup_cons.mpr ⟨fun mem => (earlier position mem).1 rfl, nodup⟩
    · exact forall_mem_cons.mpr ⟨⟨free, _, found, below⟩,
        fun other mem => ⟨(earlier other mem).2, (picked other mem).2⟩⟩

/-- As many rounds as there are keys pick all the positions. -/
theorem unmarked_of_emitMultisigKeys (covered : placeholders.length ≤ 8 * used.length)
    (run : emitMultisigKeys ctx true offset placeholders pushKey placeholders.length i used client =
      .ok (bytes, client')) :
    ∀ position < placeholders.length, marks used position = false ∧
      ∃ item, (comparedKeys keys offset placeholders)[position]? = some item ∧
        item < (replicate 33 0xff).drop offset := by
  obtain ⟨positions, count, nodup, picked⟩ :=
    (emitMultisigKeys_picks source covered i client).of_ok run
  have within : positions ⊆ range placeholders.length := by
    intro position mem
    obtain ⟨-, item, found, -⟩ := picked position mem
    have bound := (List.getElem?_eq_some_iff.mp found).1
    rwa [length_comparedKeys, ← mem_range] at bound
  have all : positions.Perm (range placeholders.length) :=
    (nodup.subperm within).perm_of_length_le (by rw [count, length_range])
  intro position bound
  exact picked position (all.symm.subset (mem_range.mpr bound))

end Picks

/-! ## The script of `sortedmulti_a` -/

/-- The script of `sortedmulti_a` holds the x-only keys in ascending order exactly if the memory
behind the cleared byte has no mark at the position of a key, and no key is the initial value
of the search. -/
theorem processMultiASortedmultiANode_emitsSorted_iff (source : DerivesFrom ctx keys) {k : Nat}
    {placeholders : List KeyPlaceholder} (derivable : ∀ key ∈ placeholders, Derivable ctx key)
    (positive : 1 ≤ k) (kLe : k ≤ placeholders.length) (few : placeholders.length ≤ 16)
    (length : UInt16) (step flags : UInt8) (client : σ) :
    EmitsSorted (processMultiASortedmultiANode ctx)
        (fun order => ⟨.multisig .sortedmultiA k order, length, step, flags⟩)
        (fun key => (keys.pubkey key).val.drop 1) (sortedmultiAScript k flags) placeholders client ↔
      (∀ position < placeholders.length,
        bitvectorGet [0, ctx.staleByte] position = some false) ∧
        ∀ key ∈ placeholders, (keys.pubkey key).val.drop 1 ≠ replicate 32 0xff := by
  have covered : placeholders.length ≤ 8 * [0, ctx.staleByte].length := few
  have notLarge : ¬ k > 16 := by omega
  constructor
  · rintro ⟨sorted, -, -, emits⟩
    obtain ⟨client', run⟩ := emits placeholders (.refl _)
    simp only [processMultiASortedmultiANode, notLarge, if_false] at run
    obtain ⟨⟨bytes, client₁⟩, emitted, -⟩ := bind_eq_ok_iff.mp run
    have free := unmarked_of_emitMultisigKeys source covered emitted
    constructor
    · intro position within
      rw [bitvectorGet_of_bound (by omega), (free position within).1]
    · intro key mem isTop
      obtain ⟨position, within, rfl⟩ := mem_iff_getElem.mp mem
      obtain ⟨-, item, found, below⟩ := free position within
      rw [comparedKeys, getElem?_map, getElem?_eq_getElem within, Option.map_some,
        Option.some.injEq, isTop] at found
      rw [← found] at below
      exact List.lt_irrefl _ below
  · rintro ⟨clear, differ⟩
    have bounds : WithinBounds keys (.multisig .sortedmultiA k placeholders) :=
      ⟨positive, kLe.trans few, by simp, by simp, fun _ => differ⟩
    refine ⟨_, perm_insertionSort (· ≤ ·) _, pairwise_insertionSort _ _, fun order perm => ?_⟩
    have sameKeys : multisigKeys keys .sortedmultiA order =
        (placeholders.map fun key => (keys.pubkey key).val.drop 1).insertionSort (· ≤ ·) :=
      insertionSort_eq_of_perm (perm.map _)
    have unmarked : ∀ position < order.length, marks [0, ctx.staleByte] position = false := by
      intro position within
      rw [marks, clear position (perm.length_eq ▸ within), Option.getD_some]
    rcases emitMultisigKeys_multiA source (bounds.of_perm perm) (.inr rfl) (fun _ => unmarked)
        client with ⟨-, key, mem, notDerivable⟩ | ⟨client', run⟩
    · exact absurd (derivable key (perm.subset mem)) notDerivable
    · refine ⟨client', ?_⟩
      simp only [sameKeys, pushChecksig] at run
      simp only [processMultiASortedmultiANode, notLarge, if_false, run]
      simp [Bind.bind, Except.bind, sortedmultiAScript, bytes_smallNumber, bytes_finalOpcode]

theorem processMultiASortedmultiANode_nine_keys :
    EmitsSorted (processMultiASortedmultiANode (sampleContext 0x7f))
      (fun order => ⟨.multisig .sortedmultiA 2 order, 0, 0, 0⟩)
      (fun key => (sampleKeys.pubkey key).val.drop 1) (sortedmultiAScript 2 0)
      (samplePlaceholders 9) () :=
  (processMultiASortedmultiANode_emitsSorted_iff (sampleContext_derivesFrom 0x7f)
    (fun key _ => sampleContext_derivable 0x7f key) (by decide) (by decide) (by decide) 0 0 0
    ()).mpr ⟨by decide, by decide⟩

/-- With the first bit of the stale byte set the ninth of nine different keys counts as used: the
last round finds no key and sets the mark at index `-1`. -/
theorem sortedmultiA_marks_outside :
    ((samplePlaceholders 9).map fun key => (sampleKeys.pubkey key).val.drop 1).Nodup ∧
      processMultiASortedmultiANode (sampleContext 0x80)
          ⟨.multisig .sortedmultiA 2 (samplePlaceholders 9), 0, 0, 0⟩ () = .error .undefined ∧
      ¬ EmitsSorted (processMultiASortedmultiANode (sampleContext 0x80))
        (fun order => ⟨.multisig .sortedmultiA 2 order, 0, 0, 0⟩)
        (fun key => (sampleKeys.pubkey key).val.drop 1) (sortedmultiAScript 2 0)
        (samplePlaceholders 9) () := by
  have undefined : processMultiASortedmultiANode (sampleContext 0x80)
      ⟨.multisig .sortedmultiA 2 (samplePlaceholders 9), 0, 0, 0⟩ () = .error .undefined := rfl
  refine ⟨by decide, undefined, ?_⟩
  rintro ⟨sorted, -, -, emits⟩
  obtain ⟨client', run⟩ := emits _ (.refl _)
  rw [undefined] at run
  cases run

end LedgerSyscoin.Handler
