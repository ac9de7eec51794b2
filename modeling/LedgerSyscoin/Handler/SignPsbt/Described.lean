import LedgerSyscoin.Handler.Lib.PsbtParseRawtx.Transaction
import LedgerSyscoin.Handler.SignPsbt.Sighash

/-!
# The transaction that a PSBT describes

A PSBT describes a transaction by the fields of its maps. A client serves the PSBT if it
answers every lookup in these maps with what they contain, and streams a value in chunks
that make up the value.
-/

namespace LedgerSyscoin.Handler

open Foundation Common Boilerplate List

/-! ## The transaction that a PSBT describes -/

/-- The values of a map by their keys. -/
abbrev PsbtMap := Bytes → Option Bytes

/-- The maps of a PSBT. -/
structure Psbt where
  globals : PsbtMap
  inputs : List PsbtMap
  outputs : List PsbtMap

/-- The fields of an input are well formed; an absent sequence number is final. -/
structure DescribesInput (map : PsbtMap) (input : TxInput) : Prop where
  txid : map [psbtInPreviousTxid] = some input.txid.val
  vout : map [psbtInOutputIndex] = some input.vout.val
  scriptSig : input.scriptSig = []
  sequence : (map [psbtInSequence]).getD (replicate 4 0xFF) = input.sequence.val

/-- The fields of an output are well formed. -/
structure DescribesOutput (map : PsbtMap) (output : TxOutput) : Prop where
  value : map [psbtOutAmount] = some output.value.val
  scriptPubkey : map [psbtOutScript] = some output.scriptPubkey

/-- The fields of a PSBT are well formed and describe an unsigned transaction; its lock time is the
fallback lock time, or 0. -/
structure Describes (psbt : Psbt) (tx : Transaction) : Prop where
  version : psbt.globals [psbtGlobalTxVersion] = some tx.version.val
  locktime : (psbt.globals [psbtGlobalFallbackLocktime]).getD (replicate 4 0) =
    tx.locktime.val
  inputs : List.Forall₂ DescribesInput psbt.inputs tx.inputs
  outputs : List.Forall₂ DescribesOutput psbt.outputs tx.outputs
  witnesses : tx.witnesses = none

section Lists

variable {α β : Type} {items rest : List α} {others : List β} {item : α} {other : β} {i : Nat}

theorem split_of_drop (isRest : items.drop i = item :: rest) :
    items[i]? = some item ∧ items.drop (i + 1) = rest :=
  ⟨by rw [← head?_drop, isRest, head?_cons], by rw [← tail_drop, isRest, tail_cons]⟩

theorem exists_of_forall₂ {related : α → β → Prop} (all : List.Forall₂ related items others)
    (isOther : others[i]? = some other) : ∃ item, items[i]? = some item ∧ related item other := by
  obtain ⟨inside, rfl⟩ := List.getElem?_eq_some_iff.mp isOther
  have insideItems : i < items.length := by rwa [all.length_eq]
  exact ⟨_, getElem?_eq_getElem insideItems, all.get insideItems inside⟩

end Lists

/-! ## Clients that serve a PSBT -/

/-- The answer to a lookup: the code -1 for an absent key, and -4 for a value that does not fit. -/
def lookupAnswer (value : Option Bytes) (outLen : Nat) : Except Int Bytes :=
  match value with
  | none => .error (-1)
  | some bytes => if bytes.length ≤ outLen then .ok bytes else .error (-4)

/-- A stream of a value in chunks, or of no value. -/
def StreamAnswer (value : Option Bytes) (streamed : Streamed) : Prop :=
  match value with
  | none => streamed.ret < 0
  | some bytes => streamed.ret = bytes.length ∧ streamed.announced = some bytes.length ∧
      streamed.chunks.flatten = bytes

variable (answers : (question : Question) → Answer question)

/-- Lookups in a map return its values. -/
structure ServesMap (map : MerkleizedMapCommitment) (content : PsbtMap) : Prop where
  value : ∀ key outLen, answers (.mapValue map key outLen) = lookupAnswer (content key) outLen
  stream : ∀ key, StreamAnswer (content key) (answers (.streamMapValue map key))

/-- The maps of the PSBT are received, and lookups in them return their values. -/
structure Serves (globalMap : MerkleizedMapCommitment) (st : SignPsbtState) (psbt : Psbt) :
    Prop where
  globals : ServesMap answers globalMap psbt.globals
  sorted : (callCheckMerkleTreeSortedWithCallback Program.leafElement () globalMap.keysRoot
    (globalMap.size % 2 ^ 32) none globalMap).run answers = .ok (0, ())
  nInputs : st.nInputs = psbt.inputs.length
  nOutputs : st.nOutputs = psbt.outputs.length
  inputs : ∀ index content, psbt.inputs[index]? = some content → ∃ map,
    (Program.callGetMerkleizedMap st.inputsRoot st.nInputs index).run answers = .ok (0, map) ∧
      ServesMap answers map content
  outputs : ∀ index content, psbt.outputs[index]? = some content → ∃ map,
    (Program.callGetMerkleizedMap st.outputsRoot st.nOutputs index).run answers = .ok (0, map) ∧
      ServesMap answers map content

variable {answers} {content : PsbtMap}

/-- The input at an index is described by the map at this index. -/
theorem Describes.inputAt {psbt : Psbt} {tx : Transaction} (describes : Describes psbt tx)
    {index : Fin tx.inputs.length} (present : psbt.inputs[index.val]? = some content) :
    DescribesInput content tx.inputs[index] := by
  obtain ⟨inside, rfl⟩ := List.getElem?_eq_some_iff.mp present
  exact describes.inputs.get inside index.isLt

section Fields

variable {map : MerkleizedMapCommitment} {content : PsbtMap} {key : UInt8} {value : Bytes}
  (serves : ServesMap answers map content)

include serves

theorem run_mapValue (key : UInt8) (outLen : Nat) : (Program.mapValue map key outLen).run answers =
      .ok (lookupAnswer (content [key]) outLen) := by
  rw [Program.mapValue, Dialogue.run_question, serves.value]

theorem run_valueOfLength (present : content [key] = some value) :
    (Program.valueOfLength map key value.length).run answers = .ok (some value) := by
  rw [Program.valueOfLength, Dialogue.run_bind_of_ok (run_mapValue serves _ _), present]
  simp [lookupAnswer]

theorem run_requireValue {length : Nat} (present : content [key] = some value)
    (lengthEq : value.length = length) :
    (Program.requireValue map key length).run answers = .ok value := by
  subst lengthEq
  rw [Program.requireValue, Dialogue.run_bind_of_ok (run_valueOfLength serves present)]
  rfl

/-- The sequence number that is received is the described one. -/
theorem run_getSequence {input : TxInput} (describes : DescribesInput content input) :
    (getSequence map).run answers = .ok input.sequence.val := by
  have described := describes.sequence
  cases present : content [psbtInSequence] with
  | none =>
    have absent : (Program.valueOfLength map psbtInSequence 4).run answers = .ok none := by
      rw [Program.valueOfLength, Dialogue.run_bind_of_ok (run_mapValue serves _ _), present]
      rfl
    rw [present, Option.getD_none] at described
    rw [getSequence, Dialogue.run_bind_of_ok absent, ← described]
    rfl
  | some value =>
    rw [present, Option.getD_some] at described
    subst described
    have found := run_valueOfLength serves present
    rw [input.sequence.property] at found
    rw [getSequence, Dialogue.run_bind_of_ok found]
    rfl

end Fields

/-- A number of four bytes is written as it was read. -/
theorem leBytes_ofNat_leNat (bytes : FixedBytes 4) :
    leBytes 4 (UInt32.ofNat (leNat bytes.val)).toNat = bytes.val := by
  have small := leNat_lt bytes.val
  have written := leBytes_leNat bytes.val
  rw [bytes.property] at small written
  rw [UInt32.toNat_ofNat', Nat.mod_eq_of_lt (small.trans_eq (by norm_num)), written]

/-! ## Streamed values -/

theorem foldl_cbProcessData (chunks : List Bytes) (unprefixed prefixed : Bytes) :
    chunks.foldl (fun reached chunk => HashContexts.cbProcessData chunk reached)
        ⟨some unprefixed, some prefixed⟩ =
      ⟨some (unprefixed ++ chunks.flatten), some (prefixed ++ chunks.flatten)⟩ := by
  induction chunks generalizing unprefixed prefixed with
  | nil => simp
  | cons chunk chunks ih =>
    rw [foldl_cons, HashContexts.cbProcessData, Option.map_some, Option.map_some, ih]
    simp

/-- A value that is streamed is fed to both contexts, to one of them with its length. -/
theorem run_updateHashesWithMapValue {map : MerkleizedMapCommitment}
    {key : UInt8} {value : Bytes} (serves : ServesMap answers map content)
    (present : content [key] = some value) (unprefixed prefixed : Bytes) :
    (updateHashesWithMapValue map key ⟨some unprefixed, some prefixed⟩).run answers =
      .ok (value.length, ⟨some (unprefixed ++ value), some (prefixed ++ varBytes value)⟩) := by
  have streamed := serves.stream [key]
  rw [present] at streamed
  obtain ⟨ret, announced, chunks⟩ := streamed
  rw [updateHashesWithMapValue, Dialogue.run_question_bind, Dialogue.run_pure, ret]
  simp only [HashContexts.replay, announced, HashContexts.cbProcessLen, Option.map_some,
    foldl_cbProcessData, chunks, varBytes, append_assoc]

end LedgerSyscoin.Handler
