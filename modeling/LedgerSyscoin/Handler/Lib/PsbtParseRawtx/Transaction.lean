import LedgerSyscoin.Common.Varint
import LedgerSyscoin.Foundation.Hash

/-!
# Transactions and their serializations

A transaction with at least one input, and optionally a witness stack for each input.
Its base serialization leaves the witnesses out and determines the transaction id. With
witnesses, a marker and a flag follow the version and the stacks precede the lock time.
-/

namespace LedgerSyscoin.Handler

open Foundation Common List

/-- A byte string of the given length. -/
abbrev FixedBytes (width : Nat) := { bs : Bytes // bs.length = width }

structure TxInput where
  txid : FixedBytes 32
  vout : FixedBytes 4
  scriptSig : Bytes
  sequence : FixedBytes 4

structure TxOutput where
  value : FixedBytes 8
  scriptPubkey : Bytes

/-- A transaction; the witnesses, if present, are one stack of byte strings for each
input. -/
structure Transaction where
  version : FixedBytes 4
  inputs : List TxInput
  inputs_ne_nil : inputs ≠ []
  outputs : List TxOutput
  witnesses : Option { each : List (List Bytes) // each.length = inputs.length }
  locktime : FixedBytes 4

/-- A byte string preceded by its length. -/
def varBytes (bs : Bytes) : Bytes := varintWrite bs.length ++ bs

/-- The encodings of a list of items preceded by their number. -/
def varList {α : Type} (encode : α → Bytes) (items : List α) : Bytes :=
  varintWrite items.length ++ items.flatMap encode

def TxInput.serialize (input : TxInput) : Bytes :=
  input.txid.val ++ (input.vout.val ++ (varBytes input.scriptSig ++ input.sequence.val))

def TxOutput.serialize (output : TxOutput) : Bytes :=
  output.value.val ++ varBytes output.scriptPubkey

/-- The serialization of a witness stack. -/
def serializeStack (stack : List Bytes) : Bytes := varList varBytes stack

namespace Transaction

/-- The inputs and outputs with their numbers. -/
def body (tx : Transaction) : Bytes :=
  varList TxInput.serialize tx.inputs ++ varList TxOutput.serialize tx.outputs

/-- The serialization without witnesses. -/
def baseBytes (tx : Transaction) : Bytes := tx.version.val ++ (tx.body ++ tx.locktime.val)

/-- The serialization of a transaction. -/
def serialize (tx : Transaction) : Bytes :=
  match tx.witnesses with
  | none => tx.baseBytes
  | some each =>
    tx.version.val ++ ([0x00, 0x01] ++
      (tx.body ++ (each.val.flatMap serializeStack ++ tx.locktime.val)))

/-- The bytes of the witnesses. -/
def witnessBytes (tx : Transaction) : Bytes :=
  match tx.witnesses with
  | none => []
  | some each => each.val.flatMap serializeStack

/-- The bytes between the version and the inputs that tell the two encodings apart. -/
def marker (tx : Transaction) : Bytes := if tx.witnesses.isSome then [0x00, 0x01] else []

theorem serialize_eq (tx : Transaction) :
    tx.serialize = tx.version.val ++ (tx.marker ++ (tx.body ++
      (tx.witnessBytes ++ tx.locktime.val))) := by
  unfold serialize marker witnessBytes
  cases tx.witnesses <;> rfl

/-- The transaction id: the double hash of the base serialization. -/
def txid (H : HashFunction) (tx : Transaction) : Digest := H (H tx.baseBytes).val

end Transaction

/-! ## Lengths -/

theorem length_varintWrite_pos (value : Nat) : 0 < (varintWrite value).length := by
  rw [length_varintWrite]
  rcases varintWrite_cases value with ⟨_, size, _⟩ | ⟨_, _, size, _⟩ | ⟨_, _, size, _⟩ |
    ⟨_, size, _⟩ <;> omega

theorem length_lt_varBytes (bs : Bytes) : bs.length < (varBytes bs).length := by
  have positive := length_varintWrite_pos bs.length
  rw [varBytes, length_append]
  omega

section VarList

variable {α : Type} {encode : α → Bytes} {items : List α}

/-- The length of one encoding is bounded by that of all of them. -/
theorem length_encode_le_flatMap {item : α} (member : item ∈ items) :
    (encode item).length ≤ (items.flatMap encode).length := by
  induction items with
  | nil => cases member
  | cons first items ih =>
    rw [flatMap_cons, length_append]
    rcases mem_cons.mp member with rfl | later
    · omega
    · have bound := ih later
      omega

/-- Items with nonempty encodings are at most as many as the bytes that encode them. -/
theorem length_le_flatMap (nonempty : ∀ item, 0 < (encode item).length) :
    items.length ≤ (items.flatMap encode).length := by
  induction items with
  | nil => simp
  | cons item items ih =>
    have positive := nonempty item
    rw [flatMap_cons, length_append, length_cons]
    omega

theorem length_flatMap_le_varList :
    (items.flatMap encode).length ≤ (varList encode items).length := by
  rw [varList, length_append]
  omega

end VarList

/-- A stack of which all lengths are below `2 ^ 31`. -/
def SmallStack (stack : List Bytes) : Prop :=
  stack.length < 2 ^ 31 ∧ ∀ element ∈ stack, element.length < 2 ^ 31

theorem smallStack_of_length {stack : List Bytes}
    (short : (serializeStack stack).length < 2 ^ 31) : SmallStack stack := by
  have all : (stack.flatMap varBytes).length ≤ (serializeStack stack).length :=
    length_flatMap_le_varList
  constructor
  · have count : stack.length ≤ (stack.flatMap varBytes).length :=
      length_le_flatMap fun item => Nat.zero_lt_of_lt (length_lt_varBytes item)
    omega
  · intro element member
    have one : (varBytes element).length ≤ (stack.flatMap varBytes).length :=
      length_encode_le_flatMap member
    have inside := length_lt_varBytes element
    omega

namespace Transaction

/-- All lengths and counts of a transaction are below `2 ^ 31`. -/
structure Small (tx : Transaction) : Prop where
  inputs : tx.inputs.length < 2 ^ 31
  scriptSig : ∀ input ∈ tx.inputs, input.scriptSig.length < 2 ^ 31
  outputs : tx.outputs.length < 2 ^ 31
  scriptPubkey : ∀ output ∈ tx.outputs, output.scriptPubkey.length < 2 ^ 31
  witnesses : ∀ each, tx.witnesses = some each → ∀ stack ∈ each.val, SmallStack stack

/-- A transaction whose serialization is shorter than `2 ^ 31` bytes is small. -/
theorem small_of_length {tx : Transaction} (short : tx.serialize.length < 2 ^ 31) : tx.Small := by
  have lengths := congrArg List.length tx.serialize_eq
  simp only [length_append, body] at lengths
  have inputs : (tx.inputs.flatMap TxInput.serialize).length ≤
      (varList TxInput.serialize tx.inputs).length := length_flatMap_le_varList
  have outputs : (tx.outputs.flatMap TxOutput.serialize).length ≤
      (varList TxOutput.serialize tx.outputs).length := length_flatMap_le_varList
  have inputLength (input : TxInput) : input.scriptSig.length < input.serialize.length := by
    have inside := length_lt_varBytes input.scriptSig
    simp only [TxInput.serialize, length_append]
    omega
  have outputLength (output : TxOutput) : output.scriptPubkey.length < output.serialize.length := by
    have inside := length_lt_varBytes output.scriptPubkey
    simp only [TxOutput.serialize, length_append]
    omega
  have inputCount : tx.inputs.length ≤ (tx.inputs.flatMap TxInput.serialize).length :=
    length_le_flatMap fun input => Nat.zero_lt_of_lt (inputLength input)
  have outputCount : tx.outputs.length ≤ (tx.outputs.flatMap TxOutput.serialize).length :=
    length_le_flatMap fun output => Nat.zero_lt_of_lt (outputLength output)
  refine ⟨by omega, fun input member => ?_, by omega, fun output member => ?_,
    fun each present stack member => ?_⟩
  · have one : input.serialize.length ≤ (tx.inputs.flatMap TxInput.serialize).length :=
      length_encode_le_flatMap member
    have inside := inputLength input
    omega
  · have one : output.serialize.length ≤ (tx.outputs.flatMap TxOutput.serialize).length :=
      length_encode_le_flatMap member
    have inside := outputLength output
    omega
  · have one : (serializeStack stack).length ≤ (each.val.flatMap serializeStack).length :=
      length_encode_le_flatMap member
    have witnesses : tx.witnessBytes = each.val.flatMap serializeStack := by
      rw [witnessBytes, present]
    rw [witnesses] at lengths
    exact smallStack_of_length (by omega)

end Transaction

end LedgerSyscoin.Handler
