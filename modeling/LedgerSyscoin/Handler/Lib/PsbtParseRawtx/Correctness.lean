import LedgerSyscoin.Handler.Lib.PsbtParseRawtx.Complete
import LedgerSyscoin.Handler.Lib.PsbtParseRawtx.Flow

/-!
# What `call_psbt_parse_rawtx` accepts and reports

However the client cuts the serialization of a transaction into chunks, the flow
succeeds and describes the transaction and the queried output. It also succeeds on every
other stream, complete or not, unless its hash is wrong, its length is negative as an
`int` or its segwit flag is wrong.
-/

namespace LedgerSyscoin.Handler

open Foundation Common Boilerplate List

/-- The outputs of the flow describe a transaction and one of its outputs. -/
structure TxidParserOutputs.Describes (H : HashFunction) (outputs : TxidParserOutputs)
    (tx : Transaction) (output : TxOutput) : Prop where
  txid : outputs.txid = tx.txid H
  value : outputs.voutValue = leNat output.value.val
  scriptLen : outputs.voutScriptpubkeyLen.toNat = output.scriptPubkey.length
  fits : output.scriptPubkey.length ≤ maxPrevoutScriptpubkeyLen
  script : outputs.voutScriptpubkey.take output.scriptPubkey.length = output.scriptPubkey

/-- A success is justified: the stream is one transaction, the index is that of one of its
outputs, and both are described. -/
def ParsedRawtx.Sound (H : HashFunction) (stream : Bytes) (outputIndex : Int)
    (parsed : ParsedRawtx) : Prop :=
  parsed.ret = 0 → ∃ (tx : Transaction) (position : Nat) (output : TxOutput),
    tx.serialize = stream ∧ outputIndex = position ∧ tx.outputs[position]? = some output ∧
      parsed.outputs.Describes H tx output

/-- The stream leads to a failure: its hash is not the expected one, its length is negative
as an `int`, or it has a wrong segwit flag. -/
def Refused (H : HashFunction) (valueHash : Digest) (lead : UInt8) (stream : Bytes) : Prop :=
  H (lead :: stream) ≠ valueHash ∨ 2 ^ 31 ≤ stream.length ∨ WrongFlag stream

/-- The stream is a transaction and the index that of an output whose script the report
can hold. -/
def Parseable (stream : Bytes) (outputIndex : Int) : Prop :=
  ∃ (tx : Transaction) (position : Nat) (output : TxOutput), tx.serialize = stream ∧
    outputIndex = position ∧ tx.outputs[position]? = some output ∧
      output.scriptPubkey.length ≤ maxPrevoutScriptpubkeyLen

/-- The parser before the first byte. -/
def startState (uninitialised : ParseRawtxState) (outputIndex : Int)
    (outputs : TxidParserOutputs) : ParseRawtxState :=
  (PsbtParseRawtxState.start uninitialised outputIndex outputs).parserState

section Flow

variable {H : HashFunction} {map : MerkleizedMapCommitment} {key first : Bytes} (outputIndex : Int)
  (outputs : TxidParserOutputs) (uninitialised : ParseRawtxState) {dc found : DispatcherContext}
  {incoming answers rest : List Apdu} {code : Int} {valueHash : Digest} {lead : UInt8}
  {chunks : List Bytes} {tx : Transaction} {output : TxOutput} {position : Nat}

/-- The parser takes in the serialization of a transaction of which the index is that of an
output with a short script. -/
theorem runRawtx_serialize (small : tx.serialize.length < 2 ^ 31)
    (queried : tx.outputs[position]? = some output)
    (short : output.scriptPubkey.length ≤ maxPrevoutScriptpubkeyLen) :
    ∃ next, runRawtx (startState uninitialised position outputs) tx.serialize = .done next [] ∧
      next.hashed = tx.baseBytes ∧ next.parserOutputs = outputs.report output := by
  obtain ⟨inside, _⟩ := List.getElem?_eq_some_iff.mp queried
  have isShort (other : TxOutput) (same : tx.outputs[position]? = some other) :
      other.scriptPubkey.length ≤ maxPrevoutScriptpubkeyLen := by
    rw [queried, Option.some.injEq] at same
    exact same ▸ short
  obtain ⟨next, consumes, hashed, reported⟩ := consumes_runRawtx
    (startState uninitialised position outputs) (Transaction.small_of_length small) inside isShort
    rfl rfl rfl
  refine ⟨next, ?_, hashed, ?_⟩
  · have whole := consumes []
    rwa [append_nil] at whole
  · rw [reported, TxidParserOutputs.reportAmong, queried]
    rfl

theorem describes_report {hashed : Bytes} (hashedEq : hashed = tx.baseBytes)
    (short : output.scriptPubkey.length ≤ maxPrevoutScriptpubkeyLen) :
    TxidParserOutputs.Describes H { outputs.report output with txid := H (H hashed).val } tx
      output where
  txid := by rw [hashedEq, Transaction.txid]
  value := rfl
  scriptLen := by
    have bound : output.scriptPubkey.length ≤ 34 := short
    simp only [TxidParserOutputs.report, UInt32.toNat_ofNat']
    omega
  fits := short
  script := by simp [TxidParserOutputs.report, memcpyAt]

variable (lookup : callGetMerkleizedMapValueHash H map key (Digest.ofNat 0) dc incoming =
    some ⟨(code, valueHash), found, answers ++ rest⟩) (present : 0 ≤ code)
  (delivers : Delivers lead first chunks answers)

include lookup present delivers

/-- The run on a delivered stream, once the hash of the value is known. -/
theorem callPsbtParseRawtx_of_delivers :
    ∃ outcome, callPsbtParseRawtx H map key outputIndex outputs uninitialised dc incoming =
        some outcome ∧
      (Refused H valueHash lead (first ++ chunks.flatten) → outcome.result.ret = -1) ∧
      (¬ Refused H valueHash lead (first ++ chunks.flatten) →
        let parserState := (processChunks (first :: chunks)
          ⟨[], startState uninitialised outputIndex outputs, false⟩).parserState
        outcome.result = ⟨0, { parserState.parserOutputs with
          txid := H (H parserState.hashed).val }⟩) := by
  obtain ⟨final, streamed, -⟩ := callStreamPreimage_of_delivers H valueHash none cbProcessData
    (PsbtParseRawtxState.start uninitialised outputIndex outputs) found delivers rest
  let state := processChunks (first :: chunks)
    ⟨[], startState uninitialised outputIndex outputs, false⟩
  have length : (first ++ chunks.flatten).length < 2 ^ 32 := by
    have small := delivers.small
    rw [length_append]
    omega
  have refusal : (((if H (lead :: (first ++ chunks.flatten)) = valueHash then
        toInt (first ++ chunks.flatten).length else -9) < 0 ∨ state.parserError = true) ↔
      Refused H valueHash lead (first ++ chunks.flatten)) := by
    rw [Refused]
    by_cases committed : H (lead :: (first ++ chunks.flatten)) = valueHash
    · rw [if_pos committed, toInt_neg_iff length, or_iff_right (not_not.mpr committed)]
      refine or_congr_right' fun short => ?_
      rw [not_le, ← flatten_cons] at short
      rw [(follows_processChunks rfl short).parserError_iff, runRawtx_error_iff rfl, flatten_cons]
    · rw [if_neg committed]
      exact iff_of_true (Or.inl (by decide)) (Or.inl committed)
  have run : callPsbtParseRawtx H map key outputIndex outputs uninitialised dc incoming =
      if ((if H (lead :: (first ++ chunks.flatten)) = valueHash then
        toInt (first ++ chunks.flatten).length else -9) < 0 ∨ state.parserError = true) then
        some ⟨⟨-1, state.parserState.parserOutputs⟩, final, rest⟩
      else some ⟨⟨0, { state.parserState.parserOutputs with
        txid := H (H state.parserState.hashed).val }⟩, final, rest⟩ := by
    rw [callPsbtParseRawtx, lookup]
    simp only
    rw [if_neg (not_lt.mpr present), streamed]
    rfl
  by_cases refused : Refused H valueHash lead (first ++ chunks.flatten)
  · rw [if_pos (refusal.mpr refused)] at run
    exact ⟨_, run, fun _ => rfl, fun accepted => absurd refused accepted⟩
  · rw [if_neg (fun failed => refused (refusal.mp failed))] at run
    exact ⟨_, run, fun isRefused => absurd isRefused refused, fun _ => rfl⟩

/-- The serialization of a transaction is parsed and described. -/
theorem callPsbtParseRawtx_describes
    (stream : first ++ chunks.flatten = tx.serialize) (small : tx.serialize.length < 2 ^ 31)
    (queried : tx.outputs[position]? = some output)
    (short : output.scriptPubkey.length ≤ maxPrevoutScriptpubkeyLen)
    (committed : H (lead :: tx.serialize) = valueHash) :
    ∃ outcome, callPsbtParseRawtx H map key position outputs uninitialised dc incoming =
        some outcome ∧ outcome.result.ret = 0 ∧ outcome.result.outputs.Describes H tx output := by
  obtain ⟨_, whole, hashed, reported⟩ :=
    runRawtx_serialize outputs uninitialised small queried short
  have atStart : (startState uninitialised position outputs).curStep = 0 := rfl
  have flattened : (first :: chunks).flatten = tx.serialize := stream
  have parsed := (follows_processChunks atStart (flattened ▸ small)).parserState_eq
  rw [flattened, whole] at parsed
  have right : ¬ WrongFlag tx.serialize := by
    rw [← runRawtx_error_iff atStart, whole]
    simp
  obtain ⟨outcome, run, _, accepted⟩ := callPsbtParseRawtx_of_delivers position outputs
    uninitialised lookup present delivers
  rw [stream, parsed] at accepted
  have result := accepted (by
    rintro (mismatch | _ | wrong)
    · exact mismatch committed
    · omega
    · exact right wrong)
  refine ⟨outcome, run, by rw [result], ?_⟩
  rw [result]
  simp only [Progress.state, reported]
  exact describes_report outputs hashed short

/-- Completeness: for every transaction shorter than `2 ^ 31` bytes, every index of an output
with a short script and every way of cutting the serialization into chunks, the flow succeeds
and describes the transaction and the output, and what is left unread after a chunk always
fits into the store. -/
theorem callPsbtParseRawtx_complete
    (stream : first ++ chunks.flatten = tx.serialize) (small : tx.serialize.length < 2 ^ 31)
    (queried : tx.outputs[position]? = some output)
    (short : output.scriptPubkey.length ≤ maxPrevoutScriptpubkeyLen)
    (committed : H (lead :: tx.serialize) = valueHash) :
    (∃ outcome, callPsbtParseRawtx H map key position outputs uninitialised dc incoming =
        some outcome ∧ outcome.result.ret = 0 ∧ outcome.result.outputs.Describes H tx output) ∧
      ∀ before chunk after parserState unread, first :: chunks = before ++ chunk :: after →
        let state := processChunks before ⟨[], startState uninitialised position outputs, false⟩
        runRawtx state.parserState (state.store ++ chunk) = .more parserState unread →
          unread.length ≤ storeSize := by
  refine ⟨callPsbtParseRawtx_describes outputs uninitialised lookup present delivers stream small
    queried short committed, ?_⟩
  intro before chunk after parserState unread chunksEq state stopped
  obtain ⟨next, whole, _⟩ := runRawtx_serialize outputs uninitialised small queried short
  have split : before.flatten ++ (chunk ++ after.flatten) = tx.serialize := by
    have flattened := congrArg List.flatten chunksEq
    simp only [flatten_append, flatten_cons] at flattened
    rw [← flattened, stream]
  rw [← split] at whole small
  have shorter : before.flatten.length < 2 ^ 31 := by
    rw [length_append] at small
    omega
  exact (follows_processChunks rfl shorter).length_unread_le small whole stopped

/-- Soundness, exactly: on a delivered stream a success is justified if and only if the stream
is refused, so that there is no success, or is one transaction of which the index is that of an
output with a short script. -/
theorem callPsbtParseRawtx_sound_iff :
    ∃ outcome, callPsbtParseRawtx H map key outputIndex outputs uninitialised dc incoming =
        some outcome ∧
      (outcome.result.Sound H (first ++ chunks.flatten) outputIndex ↔
        Refused H valueHash lead (first ++ chunks.flatten) ∨
          Parseable (first ++ chunks.flatten) outputIndex) := by
  obtain ⟨outcome, run, refusal, accepted⟩ := callPsbtParseRawtx_of_delivers outputIndex outputs
    uninitialised lookup present delivers
  refine ⟨outcome, run, ?_⟩
  by_cases refused : Refused H valueHash lead (first ++ chunks.flatten)
  · refine iff_of_true (fun success => ?_) (Or.inl refused)
    rw [refusal refused] at success
    exact absurd success (by decide)
  · rw [or_iff_right refused]
    constructor
    · intro sound
      obtain ⟨tx, position, output, stream, index, queried, describes⟩ :=
        sound (by rw [accepted refused])
      exact ⟨tx, position, output, stream, index, queried, describes.fits⟩
    · rintro ⟨tx, position, output, stream, rfl, queried, short⟩ _
      unfold Refused at refused
      rw [← stream, not_or, not_or, not_not, not_le] at refused
      obtain ⟨other, otherRun, _, describes⟩ := callPsbtParseRawtx_describes outputs uninitialised
        lookup present delivers stream.symm refused.2.1 queried short refused.1
      rw [run, Option.some.injEq] at otherRun
      exact ⟨tx, position, output, stream, rfl, queried, otherRun ▸ describes⟩

end Flow

/-! ## Sample runs -/

/-- A map with one entry: its key, its value and the answers up to the hash of the value. -/
structure SampleEntry where
  key : Bytes
  value : Bytes

/-- The commitment to a map with one entry. -/
def SampleEntry.commitment (H : HashFunction) (entry : SampleEntry) : MerkleizedMapCommitment :=
  ⟨1, merkleComputeElementHash H entry.key, merkleComputeElementHash H entry.value⟩

/-- The answers of a client that knows a map with one entry. -/
def SampleEntry.lookupAnswers (H : HashFunction) (entry : SampleEntry) : List Apdu :=
  [continueApdu 0 0 [0x01, 0x00],
    continueApdu 0 0 ((merkleComputeElementHash H entry.key).val ++ [0x00, 0x00]),
    continueApdu 0 0 ((merkleComputeElementHash H entry.value).val ++ [0x00, 0x00])]

/-- A segwit transaction with one input and one output. -/
def sampleTransaction : Transaction where
  version := ⟨[0x02, 0x00, 0x00, 0x00], rfl⟩
  inputs := [⟨⟨replicate 32 0x11, rfl⟩, ⟨[0x00, 0x00, 0x00, 0x00], rfl⟩, [],
    ⟨[0xFF, 0xFF, 0xFF, 0xFF], rfl⟩⟩]
  inputs_ne_nil := by simp
  outputs := [⟨⟨[0xE8, 0x03, 0x00, 0x00, 0x00, 0x00, 0x00, 0x00], rfl⟩, [0x51]⟩]
  witnesses := some ⟨[[[0x07]]], rfl⟩
  locktime := ⟨[0x00, 0x00, 0x00, 0x00], rfl⟩

def sampleEntry : SampleEntry := ⟨[0x00], sampleTransaction.serialize⟩

/-- SHA-256 on the strings that are hashed for the sample transaction. -/
def sampleRawtxHash : HashFunction :=
  tableHash [
    ([0x00, 0x00], 0x96a296d224f285c67bee93c30f8a309157f0daa35dc5b87e410b78630a09cfc7),
    (0x00 :: sampleTransaction.serialize,
      0x79c92eccdd7c31e461cd95272aeac4d6920f3794ec29c54987722ecf7fb13aec),
    (sampleTransaction.baseBytes,
      0xd50c25f740af092cc115965a317beae0d72397eabd2b0495148de1c5e6bd2c4e),
    (beBytes 32 0xd50c25f740af092cc115965a317beae0d72397eabd2b0495148de1c5e6bd2c4e,
      0xb16ffeb0b3b7510d3d30836c958b3784b5e7624c4fc278fea952482e98026111)]

def sampleOutputs : TxidParserOutputs := ⟨0, 0, replicate 34 0, Digest.ofNat 0⟩

def sampleParseState : ParseRawtxState :=
  ⟨[], 0, false, 0, 0, 0, 0, 0, 0, 0, 0, 0, 0, 0, 0, 0, 0, 0, false, false, 0, sampleOutputs⟩

/-- The sample transaction in two chunks, cut inside the previous transaction id. -/
def sampleStreamAnswers : List Apdu :=
  [continueApdu 0 0 (0x43 :: 0x1F :: 0x00 :: sampleTransaction.serialize.take 30),
    continueApdu 0 0 (0x24 :: 0x01 :: sampleTransaction.serialize.drop 30)]

theorem delivers_sampleStreamAnswers :
    Delivers 0x00 (sampleTransaction.serialize.take 30) [sampleTransaction.serialize.drop 30]
      sampleStreamAnswers where
  small := by decide
  answers_eq := ⟨_, _, rfl, ⟨0, 0, [0x43], [], 0x43, by decide, by decide, by decide, by decide⟩,
    .cons ⟨0, 0, [], by decide, by decide⟩ .nil⟩
  last_ne_nil := by decide

/-- The lookup of the sample entry. -/
theorem lookup_sampleEntry :
    ∃ found, callGetMerkleizedMapValueHash sampleRawtxHash
        (sampleEntry.commitment sampleRawtxHash) [0x00] (Digest.ofNat 0) .initial
        (sampleEntry.lookupAnswers sampleRawtxHash ++ sampleStreamAnswers) =
      some ⟨(0, merkleComputeElementHash sampleRawtxHash sampleTransaction.serialize), found,
        sampleStreamAnswers ++ []⟩ := by
  have lookups : (callGetMerkleizedMapValueHash sampleRawtxHash
      (sampleEntry.commitment sampleRawtxHash) [0x00] (Digest.ofNat 0) .initial
      (sampleEntry.lookupAnswers sampleRawtxHash ++ sampleStreamAnswers)).map
        (fun outcome => (outcome.result, outcome.pending)) =
      some ((0, merkleComputeElementHash sampleRawtxHash sampleTransaction.serialize),
        sampleStreamAnswers ++ []) := by
    decide +kernel
  obtain ⟨⟨_, found, _⟩, lookup, equal⟩ := Option.map_eq_some_iff.mp lookups
  simp only [Prod.mk.injEq] at equal
  obtain ⟨rfl, rfl⟩ := equal
  exact ⟨found, lookup⟩

theorem callPsbtParseRawtx_complete_sample :
    ∃ outcome, callPsbtParseRawtx sampleRawtxHash (sampleEntry.commitment sampleRawtxHash) [0x00]
        (0 : Nat) sampleOutputs sampleParseState .initial
        (sampleEntry.lookupAnswers sampleRawtxHash ++ sampleStreamAnswers) = some outcome ∧
      outcome.result.ret = 0 ∧ outcome.result.outputs.Describes sampleRawtxHash sampleTransaction
        ⟨⟨[0xE8, 0x03, 0x00, 0x00, 0x00, 0x00, 0x00, 0x00], rfl⟩, [0x51]⟩ := by
  obtain ⟨found, lookup⟩ := lookup_sampleEntry
  exact (callPsbtParseRawtx_complete sampleOutputs sampleParseState lookup le_rfl
    delivers_sampleStreamAnswers (by decide) (by decide) rfl (by decide) rfl).1

theorem callPsbtParseRawtx_sound_iff_sample :
    ∃ outcome, callPsbtParseRawtx sampleRawtxHash (sampleEntry.commitment sampleRawtxHash) [0x00]
        7 sampleOutputs sampleParseState .initial
        (sampleEntry.lookupAnswers sampleRawtxHash ++ sampleStreamAnswers) = some outcome ∧
      (outcome.result.Sound sampleRawtxHash sampleTransaction.serialize 7 ↔
        Refused sampleRawtxHash
            (merkleComputeElementHash sampleRawtxHash sampleTransaction.serialize) 0x00
            sampleTransaction.serialize ∨ Parseable sampleTransaction.serialize 7) := by
  obtain ⟨found, lookup⟩ := lookup_sampleEntry
  have stream : sampleTransaction.serialize.take 30 ++
      [sampleTransaction.serialize.drop 30].flatten = sampleTransaction.serialize := by simp
  have soundIff := callPsbtParseRawtx_sound_iff 7 sampleOutputs sampleParseState lookup le_rfl
    delivers_sampleStreamAnswers
  rwa [stream] at soundIff

/-- A map whose value is the version of a transaction and nothing else. -/
def truncatedEntry : SampleEntry := ⟨[0x00], [0x01, 0x00, 0x00, 0x00]⟩

/-- SHA-256 on the strings that are hashed for the truncated transaction. -/
def truncatedHash : HashFunction :=
  tableHash [
    ([0x00, 0x00], 0x96a296d224f285c67bee93c30f8a309157f0daa35dc5b87e410b78630a09cfc7),
    ([0x00, 0x01, 0x00, 0x00, 0x00],
      0x86f9649499b0080656c014aa244f654864bad4145c8513e9c8409f437d4a2b3b),
    ([0x01, 0x00, 0x00, 0x00],
      0x67abdd721024f0ff4e0b3f4c2fc13bc5bad42d0b7851d456d88d203d15aaa450),
    (beBytes 32 0x67abdd721024f0ff4e0b3f4c2fc13bc5bad42d0b7851d456d88d203d15aaa450,
      0x41f758f2e5cc078d3795b4fc0cb60c2d735fa92cc020572bdc982dd2d564d11b)]

/-- The double hash of the truncated transaction. -/
def truncatedTxid : Digest :=
  Digest.ofNat 0x41f758f2e5cc078d3795b4fc0cb60c2d735fa92cc020572bdc982dd2d564d11b

/-- Four bytes of a transaction are taken for a whole one: the flow reports success, with
the double hash of the four bytes as transaction id and an output that was never read. -/
theorem callPsbtParseRawtx_accepts_truncated :
    ∃ outcome, callPsbtParseRawtx truncatedHash (truncatedEntry.commitment truncatedHash) [0x00]
        0 sampleOutputs sampleParseState .initial
        (truncatedEntry.lookupAnswers truncatedHash ++
          [continueApdu 0 0 [0x05, 0x05, 0x00, 0x01, 0x00, 0x00, 0x00]]) = some outcome ∧
      outcome.result = ⟨0, { sampleOutputs with txid := truncatedTxid }⟩ ∧
      ¬ outcome.result.Sound truncatedHash [0x01, 0x00, 0x00, 0x00] 0 := by
  have results : (callPsbtParseRawtx truncatedHash (truncatedEntry.commitment truncatedHash)
      [0x00] 0 sampleOutputs sampleParseState .initial
      (truncatedEntry.lookupAnswers truncatedHash ++
        [continueApdu 0 0 [0x05, 0x05, 0x00, 0x01, 0x00, 0x00, 0x00]])).map (·.result) =
      some ⟨0, { sampleOutputs with txid := truncatedTxid }⟩ := by
    decide +kernel
  obtain ⟨outcome, run, resultEq⟩ := Option.map_eq_some_iff.mp results
  refine ⟨outcome, run, resultEq, fun sound => ?_⟩
  obtain ⟨tx, _, _, stream, _⟩ := sound (by rw [resultEq])
  have lengths := congrArg List.length (tx.serialize_eq.symm.trans stream)
  have version := tx.version.property
  have locktime := tx.locktime.property
  simp only [length_append, length_cons, length_nil] at lengths
  omega

end LedgerSyscoin.Handler
