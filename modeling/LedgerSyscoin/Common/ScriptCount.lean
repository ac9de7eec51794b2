import LedgerSyscoin.Common.Script

/-!
# Counting the opcodes of a script

The opcodes above `OP_16` are counted on the bytes of a script, with the data of pushes
skipped, and on the list of its items; for direct pushes the counts agree. The verifying
form of a script has one more opcode and byte, unless the last opcode has a verifying
form.
-/

namespace LedgerSyscoin.Common

open Foundation List

variable (item : ScriptItem) (data : Bytes) (code : UInt8)

/-- Count the opcodes above `OP_16` in a script with direct pushes. The first argument is the
number of bytes of the current push that are still to be skipped. -/
def countOpcodes : Nat → Bytes → Nat
  | _, [] => 0
  | skip + 1, _ :: rest => countOpcodes skip rest
  | 0, code :: rest =>
    if code ≤ 75 then countOpcodes code.toNat rest
    else (if op16 < code then 1 else 0) + countOpcodes 0 rest

/-- Direct items: opcodes that are not pushes of data, and pushes of at most 75 bytes. -/
def ScriptItem.Direct : ScriptItem → Prop
  | .op code => code = op0 ∨ 75 < code
  | .push data => data.length ≤ 75

/-- The number of opcodes above `OP_16` that an item is. -/
def ScriptItem.opcodes : ScriptItem → Nat
  | .op code => if op16 < code then 1 else 0
  | .push _ => 0

/-- The number of opcodes above `OP_16`. -/
def Script.opcodes (script : Script) : Nat := (script.map ScriptItem.opcodes).sum

@[simp]
theorem Script.opcodes_nil : Script.opcodes [] = 0 := rfl

@[simp]
theorem Script.opcodes_cons (script : Script) :
    Script.opcodes (item :: script) = item.opcodes + Script.opcodes script := rfl

@[simp]
theorem Script.opcodes_append (left right : Script) :
    Script.opcodes (left ++ right) = Script.opcodes left + Script.opcodes right := by
  simp [Script.opcodes]

theorem Script.opcodes_le_length (script : Script) : script.opcodes ≤ script.bytes.length := by
  induction script with
  | nil => exact le_rfl
  | cons item script ih =>
    have itemBound : item.opcodes ≤ item.bytes.length := by
      cases item with
      | op code =>
        rw [ScriptItem.opcodes, ScriptItem.length_bytes_op]
        split <;> omega
      | push data => exact Nat.zero_le _
    rw [Script.opcodes_cons, Script.bytes_cons, length_append]
    exact Nat.add_le_add itemBound ih

@[simp]
theorem ScriptItem.opcodes_op : (ScriptItem.op code).opcodes = if op16 < code then 1 else 0 := rfl

@[simp]
theorem ScriptItem.opcodes_push : (ScriptItem.push data).opcodes = 0 := rfl

@[simp]
theorem ScriptItem.direct_op : (ScriptItem.op code).Direct ↔ code = op0 ∨ 75 < code := Iff.rfl

@[simp]
theorem ScriptItem.direct_push : (ScriptItem.push data).Direct ↔ data.length ≤ 75 := Iff.rfl

theorem countOpcodes_skip (rest : Bytes) :
    countOpcodes data.length (data ++ rest) = countOpcodes 0 rest := by
  induction data with
  | nil => rfl
  | cons byte data ih =>
    rw [length_cons, cons_append, countOpcodes]
    exact ih

theorem countOpcodes_item {item : ScriptItem} (direct : item.Direct) (rest : Bytes) :
    countOpcodes 0 (item.bytes ++ rest) = item.opcodes + countOpcodes 0 rest := by
  cases item with
  | op code =>
    rw [ScriptItem.bytes, ScriptItem.opcodes, singleton_append, countOpcodes]
    rcases direct with rfl | large
    · simp
    · rw [if_neg (UInt8.not_le.mpr large)]
  | push data =>
    have short : data.length ≤ 75 := direct
    have lengthByte : (UInt8.ofNat data.length).toNat = data.length := by
      rw [UInt8.toNat_ofNat']
      omega
    have small : UInt8.ofNat data.length ≤ 75 := by
      rw [UInt8.le_iff_toNat_le, lengthByte]
      exact short
    rw [ScriptItem.bytes, ScriptItem.opcodes, cons_append, countOpcodes, if_pos small,
      lengthByte, countOpcodes_skip, Nat.zero_add]

/-- The count on the bytes is the count on the items. -/
theorem countOpcodes_bytes {script : Script} (direct : ∀ item ∈ script, item.Direct) :
    countOpcodes 0 script.bytes = script.opcodes := by
  induction script with
  | nil => rfl
  | cons item script ih =>
    obtain ⟨itemDirect, restDirect⟩ := forall_mem_cons.mp direct
    rw [Script.bytes_cons, Script.opcodes_cons, countOpcodes_item itemDirect, ih restDirect]

@[simp]
theorem opcodes_pushInteger (n : UInt32) : (pushInteger n).opcodes = 0 := by
  unfold pushInteger
  split_ifs with zero small
  · rfl
  · have bound : n.toNat ≤ 16 := UInt32.le_iff_toNat_le.mp small
    have code : ¬ op16 < 0x50 + n.toUInt8 := by
      rw [UInt8.not_lt, UInt8.le_iff_toNat_le, UInt8.toNat_add, UInt32.toNat_toUInt8]
      simp only [op16, UInt8.reduceToNat]
      omega
    exact if_neg code
  · rfl

@[simp]
theorem direct_pushInteger (n : UInt32) : (pushInteger n).Direct := by
  unfold pushInteger
  split_ifs with zero small
  · exact Or.inl rfl
  · have bound : n.toNat ≤ 16 := UInt32.le_iff_toNat_le.mp small
    refine Or.inr ?_
    rw [UInt8.lt_iff_toNat_lt, UInt8.toNat_add, UInt32.toNat_toUInt8]
    simp only [UInt8.reduceToNat]
    omega
  · have bound : getPushScriptSize n ≤ 6 := by
      unfold getPushScriptSize
      split_ifs <;> omega
    simp only [ScriptItem.Direct, length_leBytes]
    omega

/-! ## The last item -/

def ScriptItem.hasVerifyForm : ScriptItem → Bool
  | .op code => HasVerifyForm code
  | .push _ => false

/-- The last item is an opcode with a verifying form. -/
def Script.endsInVerifyForm (script : Script) : Bool :=
  script.getLast?.any ScriptItem.hasVerifyForm

@[simp]
theorem ScriptItem.hasVerifyForm_op :
    (ScriptItem.op code).hasVerifyForm = decide (HasVerifyForm code) := rfl

@[simp]
theorem ScriptItem.hasVerifyForm_push : (ScriptItem.push data).hasVerifyForm = false := rfl

@[simp]
theorem Script.endsInVerifyForm_singleton :
    Script.endsInVerifyForm [item] = item.hasVerifyForm := rfl

@[simp]
theorem Script.endsInVerifyForm_concat (script : Script) (item : ScriptItem) :
    Script.endsInVerifyForm (script ++ [item]) = item.hasVerifyForm := by
  simp [Script.endsInVerifyForm]

@[simp]
theorem Script.endsInVerifyForm_append (left : Script) {right : Script} (nonempty : right ≠ []) :
    Script.endsInVerifyForm (left ++ right) = Script.endsInVerifyForm right := by
  rw [Script.endsInVerifyForm, Script.endsInVerifyForm, getLast?_append_of_ne_nil _ nonempty]

@[simp]
theorem Script.endsInVerifyForm_cons {script : Script} (nonempty : script ≠ []) :
    Script.endsInVerifyForm (item :: script) = Script.endsInVerifyForm script :=
  Script.endsInVerifyForm_append [item] nonempty

theorem ScriptItem.verify_ne_nil : item.verify ≠ [] := by
  cases item with
  | op code =>
    rw [ScriptItem.verify]
    split_ifs <;> simp
  | push data => simp [ScriptItem.verify]

/-- The verifying form of an item has as many bytes more as it has opcodes more, and no
verifying form of its own. -/
theorem ScriptItem.verify_spec :
    (Script.bytes item.verify).length = item.bytes.length + (!item.hasVerifyForm).toNat ∧
      Script.opcodes item.verify = item.opcodes + (!item.hasVerifyForm).toNat ∧
      Script.endsInVerifyForm item.verify = false ∧
      (item.Direct → ∀ inner ∈ item.verify, inner.Direct) := by
  have verifyDirect : (ScriptItem.op opVerify).Direct := Or.inr (by decide)
  cases item with
  | op code =>
    by_cases form : HasVerifyForm code
    · rcases form with rfl | rfl | rfl | rfl <;>
        exact ⟨rfl, rfl, rfl, fun _ => forall_mem_singleton.mpr (Or.inr (by decide))⟩
    · rw [ScriptItem.verify, if_neg form]
      refine ⟨?_, ?_, rfl, fun direct => ?_⟩
      · simp [ScriptItem.bytes, ScriptItem.hasVerifyForm, form]
      · simp only [Script.opcodes_cons, Script.opcodes_nil, ScriptItem.hasVerifyForm, form,
          decide_false, Bool.not_false, Bool.toNat_true]
        rfl
      · exact forall_mem_cons.mpr ⟨direct, forall_mem_singleton.mpr verifyDirect⟩
  | push data =>
    refine ⟨?_, rfl, rfl, fun direct => ?_⟩
    · simp [ScriptItem.verify, ScriptItem.bytes, ScriptItem.hasVerifyForm]
    · exact forall_mem_cons.mpr ⟨direct, forall_mem_singleton.mpr verifyDirect⟩

section Verify

variable {script : Script} (nonempty : script ≠ [])

include nonempty

theorem Script.verify_ne_nil : Script.verify script ≠ [] := by
  obtain ⟨left, item, rfl⟩ := (eq_nil_or_concat script).resolve_left nonempty
  rw [concat_eq_append, Script.verify_append left (cons_ne_nil _ _)]
  simp [Script.verify, item.verify_ne_nil]

theorem Script.length_bytes_verify : (Script.verify script).bytes.length =
      script.bytes.length + (!script.endsInVerifyForm).toNat := by
  obtain ⟨left, item, rfl⟩ := (eq_nil_or_concat script).resolve_left nonempty
  rw [concat_eq_append, Script.verify_append left (cons_ne_nil _ _), Script.verify,
    Script.bytes_append, length_append, item.verify_spec.1, Script.endsInVerifyForm_concat]
  simp [Nat.add_assoc]

theorem Script.opcodes_verify :
    (Script.verify script).opcodes = script.opcodes + (!script.endsInVerifyForm).toNat := by
  obtain ⟨left, item, rfl⟩ := (eq_nil_or_concat script).resolve_left nonempty
  rw [concat_eq_append, Script.verify_append left (cons_ne_nil _ _), Script.verify,
    Script.opcodes_append, item.verify_spec.2.1, Script.endsInVerifyForm_concat]
  simp [Nat.add_assoc]

theorem Script.endsInVerifyForm_verify : (Script.verify script).endsInVerifyForm = false := by
  obtain ⟨left, item, rfl⟩ := (eq_nil_or_concat script).resolve_left nonempty
  rw [concat_eq_append, Script.verify_append left (cons_ne_nil _ _), Script.verify,
    Script.endsInVerifyForm_append left item.verify_ne_nil]
  exact item.verify_spec.2.2.1

theorem Script.direct_verify (direct : ∀ item ∈ script, item.Direct) :
    ∀ item ∈ Script.verify script, item.Direct := by
  obtain ⟨left, item, rfl⟩ := (eq_nil_or_concat script).resolve_left nonempty
  rw [concat_eq_append] at direct ⊢
  obtain ⟨leftDirect, itemDirect⟩ := forall_mem_append.mp direct
  rw [Script.verify_append left (cons_ne_nil _ _), Script.verify]
  exact forall_mem_append.mpr
    ⟨leftDirect, item.verify_spec.2.2.2 (itemDirect item (mem_singleton_self item))⟩

end Verify

end LedgerSyscoin.Common
