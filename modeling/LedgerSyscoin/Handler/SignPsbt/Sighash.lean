import LedgerSyscoin.Handler.SignPsbt.Program

/-!
# Signature hashes

The hashes over the whole transaction are computed once, by fetching every field of
every input and output from the client; the hash that is signed for an input fetches
the fields of this input again. A hash context is the byte string that was fed to it.
-/

namespace LedgerSyscoin.Handler

open Foundation Common Boilerplate

open Program (refuse mapValue valueOfLength requireValue callGetMerkleizedMap)

variable (H : HashFunction) (st : SignPsbtState) (map : MerkleizedMapCommitment) (input : InputInfo)
  (curInputIndex i : Nat) (context : Bytes)

def sighashAll : UInt32 := 0x01
def sighashNone : UInt32 := 0x02
def sighashSingle : UInt32 := 0x03
def sighashAnyonecanpay : UInt32 := 0x80

/-! ## Hashing streamed values -/

/-- The contexts that are fed a value, with and without its length; both may be missing. -/
structure HashContexts where
  unprefixed : Option Bytes
  prefixed : Option Bytes

namespace HashContexts

def cbProcessLen (len : Nat) (contexts : HashContexts) : HashContexts :=
  { contexts with prefixed := contexts.prefixed.map (· ++ varintWrite len) }

def cbProcessData (data : Bytes) (contexts : HashContexts) : HashContexts :=
  { unprefixed := contexts.unprefixed.map (· ++ data)
    prefixed := contexts.prefixed.map (· ++ data) }

/-- The contexts after a stream. -/
def replay (contexts : HashContexts) (streamed : Streamed) : HashContexts :=
  let announced :=
    match streamed.announced with
    | some len => contexts.cbProcessLen len
    | none => contexts
  streamed.chunks.foldl (fun reached chunk => cbProcessData chunk reached) announced

end HashContexts

/-- Feed the value of a map to the contexts. -/
def updateHashesWithMapValue (key : UInt8)
    (contexts : HashContexts) : Program (Int × HashContexts) := do
  let streamed ← Dialogue.question (Question.streamMapValue map [key])
  return (streamed.ret, contexts.replay streamed)

/-! ## Outputs -/

/-- Feed an output to a hash context; `none` is the return code -1. A script that cannot be
received has another negative code, which is taken for its length. -/
def hashOutputN (hashContext : Bytes) (index : Nat) : Program (Option Bytes) := do
  if index ≥ st.nOutputs then return none
  let (res, map) ← callGetMerkleizedMap st.outputsRoot st.nOutputs index
  if res < 0 then return none
  match ← valueOfLength map psbtOutAmount 8 with
  | none => return none
  | some amountRaw =>
    match ← mapValue map psbtOutScript maxOutputScriptpubkeyLen with
    | .error code => if code = -1 then return none else Program.undefined
    | .ok outScript =>
      return some (hashContext ++ amountRaw ++ varintWrite outScript.length ++ outScript)

/-- The loop over the outputs from `index` on. -/
def hashOutputsLoop (st : SignPsbtState) : (remaining index : Nat) → Bytes → Program (Option Bytes)
  | 0, _, hashContext => return some hashContext
  | remaining + 1, index, hashContext => do
    match ← hashOutputN st hashContext index with
    | none => return none
    | some hashContext => hashOutputsLoop st remaining (index + 1) hashContext

/-- Feed all outputs to a hash context. -/
def hashOutputs (hashContext : Bytes) : Program (Option Bytes) :=
  hashOutputsLoop st st.nOutputs 0 hashContext

/-! ## Amounts and scripts of previous outputs -/

/-- The amount and the script of the witness UTXO of an input. -/
def getAmountScriptpubkeyFromPsbtWitness : Program (Option (Nat × Bytes)) := do
  match ← mapValue map psbtInWitnessUtxo (8 + 1 + maxPrevoutScriptpubkeyLen) with
  | .error _ => return none
  | .ok rawWitnessUtxo =>
    match rawWitnessUtxo[8]? with
    | none => return none
    | some scriptPubkeyLen =>
      if rawWitnessUtxo.length ≠ 8 + 1 + scriptPubkeyLen.toNat then return none
      else return some (leNat (rawWitnessUtxo.take 8), rawWitnessUtxo.drop 9)

/-- The amount and the script of the output that an input spends, from the previous transaction;
its id is checked if an expected one is given. -/
def getAmountScriptpubkeyFromPsbtNonwitness
    (expectedPrevoutHash : Option Bytes) : Program (Option (Nat × Bytes)) := do
  match ← valueOfLength map psbtInOutputIndex 4 with
  | none => return none
  | some prevoutN =>
    let (res, outputs) ← Dialogue.question
      (Question.parseRawtx map [psbtInNonWitnessUtxo] (UInt32.ofNat (leNat prevoutN)))
    if res < 0 then return none
    if expectedPrevoutHash.any (· ≠ outputs.txid.val) then return none
    if outputs.voutScriptpubkeyLen.toNat > maxPrevoutScriptpubkeyLen then Program.undefined
    return some (outputs.voutValue,
      outputs.voutScriptpubkey.take outputs.voutScriptpubkeyLen.toNat)

/-- The amount and the script of the output that an input spends. -/
def getAmountScriptpubkeyFromPsbt : Program (Option (Nat × Bytes)) := do
  match ← getAmountScriptpubkeyFromPsbtWitness map with
  | some found => return some found
  | none => getAmountScriptpubkeyFromPsbtNonwitness map none

/-! ## Hashes over the whole transaction -/

structure SegwitHashes where
  shaPrevouts : Digest
  shaAmounts : Digest
  shaScriptpubkeys : Digest
  shaSequences : Digest
  shaOutputs : Digest

/-- The map of an input. -/
def getInputMap (index : Nat) : Program MerkleizedMapCommitment := do
  let (res, map) ← callGetMerkleizedMap st.inputsRoot st.nInputs index
  if res < 0 then refuse swIncorrectData
  return map

/-- The sequence number of an input; if it cannot be received, it is taken to be final. -/
def getSequence : Program Bytes := do
  match ← valueOfLength map psbtInSequence 4 with
  | none => return List.replicate 4 0xFF
  | some nSequenceRaw => return nSequenceRaw

/-- The loop that hashes the previous outputs and the sequence numbers. -/
def hashPrevoutsLoop (st : SignPsbtState) :
    (remaining index : Nat) → (prevouts sequences : Bytes) → Program (Bytes × Bytes)
  | 0, _, prevouts, sequences => return (prevouts, sequences)
  | remaining + 1, index, prevouts, sequences => do
    let map ← getInputMap st index
    let prevoutHash ← requireValue map psbtInPreviousTxid 32
    let prevoutN ← requireValue map psbtInOutputIndex 4
    let nSequence ← getSequence map
    hashPrevoutsLoop st remaining (index + 1) (prevouts ++ prevoutHash ++ prevoutN)
      (sequences ++ nSequence)

/-- The loop that hashes the amounts and scripts of the previous outputs. -/
def hashAmountsLoop (st : SignPsbtState) :
    (remaining index : Nat) → (amounts scriptPubkeys : Bytes) → Program (Bytes × Bytes)
  | 0, _, amounts, scriptPubkeys => return (amounts, scriptPubkeys)
  | remaining + 1, index, amounts, scriptPubkeys => do
    let map ← getInputMap st index
    match ← getAmountScriptpubkeyFromPsbt map with
    | none => refuse swIncorrectData
    | some (inAmount, inScriptPubKey) =>
      hashAmountsLoop st remaining (index + 1) (amounts ++ leBytes 8 inAmount)
        (scriptPubkeys ++ varintWrite inScriptPubKey.length ++ inScriptPubKey)

def computeSegwitHashes : Program SegwitHashes := do
  let (prevouts, sequences) ← hashPrevoutsLoop st st.nInputs 0 [] []
  match ← hashOutputs st [] with
  | none => refuse swIncorrectData
  | some outputs =>
    let (amounts, scriptPubkeys) ← hashAmountsLoop st st.nInputs 0 [] []
    return {
      shaPrevouts := H prevouts
      shaAmounts := H amounts
      shaScriptpubkeys := H scriptPubkeys
      shaSequences := H sequences
      shaOutputs := H outputs }

/-! ## Segwit version 0 -/

def isP2wpkh (script : Bytes) : Bool :=
  script.length = 22 ∧ script[0]? = some 0x00 ∧ script[1]? = some 0x14

def isP2wsh (script : Bytes) : Bool :=
  script.length = 34 ∧ script[0]? = some 0x00 ∧ script[1]? = some 0x20

/-- Feed the script code of an input to the context. -/
def hashScriptCode : Program Bytes := do
  if isP2wpkh input.script then
    return context ++ beBytes 4 0x1976a914 ++ (input.script.drop 2).take 20 ++ beBytes 2 0x88ac
  else if isP2wsh input.script then
    let (witnessScriptLen, contexts) ← updateHashesWithMapValue input.inOut.map
      psbtInWitnessScript ⟨some [], some context⟩
    if witnessScriptLen < 0 then refuse swIncorrectData
    -- Both contexts are there, so they are after the stream.
    let witnessScriptHash := H (contexts.unprefixed.getD [])
    if (input.script.drop 2).take 32 ≠ witnessScriptHash.val then refuse swIncorrectData
    return contexts.prefixed.getD []
  else refuse swIncorrectData

/-- The hash of the outputs that a signature covers. -/
def signedOutputsHash (hashes : SegwitHashes)
    (sighashByte : UInt32) (curInputIndex : Nat) : Program Bytes := do
  if sighashByte &&& 0x1f ≠ sighashSingle ∧ sighashByte &&& 0x1f ≠ sighashNone then
    return (H hashes.shaOutputs.val).val
  else if sighashByte &&& 0x1f = sighashSingle ∧ curInputIndex < st.nOutputs then
    match ← hashOutputN st [] curInputIndex with
    | none => refuse swIncorrectData
    | some output => return (H (H output).val).val
  else return List.replicate 32 0

/-- The hash that is signed for an input with a witness program of version 0. -/
def computeSighashSegwitv0 (hashes : SegwitHashes)
    (input : InputInfo) (curInputIndex : Nat) : Program Digest := do
  let map := input.inOut.map
  let sighashByte := input.sighashType &&& 0xFF
  let hashPrevouts :=
    if sighashByte &&& sighashAnyonecanpay = 0 then (H hashes.shaPrevouts.val).val
    else List.replicate 32 0
  let hashSequence :=
    if sighashByte &&& sighashAnyonecanpay = 0 ∧ sighashByte &&& 0x1f ≠ sighashSingle ∧
        sighashByte &&& 0x1f ≠ sighashNone then (H hashes.shaSequences.val).val
    else List.replicate 32 0
  let prevoutHash ← requireValue map psbtInPreviousTxid 32
  let prevoutN ← requireValue map psbtInOutputIndex 4
  let context ← hashScriptCode H input
    (leBytes 4 st.txVersion.toNat ++ hashPrevouts ++ hashSequence ++ prevoutHash ++ prevoutN)
  match ← mapValue map psbtInWitnessUtxo (8 + 1 + maxPrevoutScriptpubkeyLen) with
  | .error _ => refuse swIncorrectData
  | .ok witnessUtxo =>
    if witnessUtxo.length < 8 then refuse swIncorrectData
    let nSequence ← getSequence map
    let hashOutputs ← signedOutputsHash H st hashes sighashByte curInputIndex
    return H (H (context ++ witnessUtxo.take 8 ++ nSequence ++ hashOutputs ++
      leBytes 4 st.locktime.toNat ++ leBytes 4 input.sighashType.toNat)).val

/-! ## Segwit version 1 -/

def bip0341SighashTag : Bytes := "TapSighash".toList.map ascii

/-- The fields of the input that is signed, if the signature covers no other one. -/
def signedInputFields : Program Bytes := do
  let map := input.inOut.map
  let prevoutHash ← requireValue map psbtInPreviousTxid 32
  let prevoutN ← requireValue map psbtInOutputIndex 4
  match ← mapValue map psbtInWitnessUtxo (8 + 1 + maxPrevoutScriptpubkeyLen) with
  | .error _ => refuse swIncorrectData
  | .ok witnessUtxo =>
    if witnessUtxo.length < 8 then refuse swIncorrectData
    match input.inOut.scriptPubKey with
    | none => Program.undefined
    | some scriptPubKey =>
      let nSequence ← getSequence map
      return prevoutHash ++ prevoutN ++ witnessUtxo.take 8 ++
        varintWrite scriptPubKey.length ++ scriptPubKey ++ nSequence

/-- The fields of the input that is signed if the signature covers no other one, or else its
index. -/
def signedInput (anyonecanpay : Bool) (input : InputInfo) (curInputIndex : Nat) : Program Bytes :=
  if anyonecanpay then signedInputFields input else return leBytes 4 curInputIndex

/-- The hash of the output at the index of the input, if the signature covers only this one. -/
def signedOutputFields (sighashByte : UInt32) (curInputIndex : Nat) : Program Bytes := do
  if sighashByte &&& 3 = sighashSingle then
    match ← hashOutputN st [] curInputIndex with
    | none => refuse swIncorrectData
    | some output => return (H output).val
  else return []

/-- The hash that is signed for a taproot input. -/
def computeSighashSegwitv1 (crypto : WalletCrypto) (st : SignPsbtState) (hashes : SegwitHashes)
    (input : InputInfo) (curInputIndex : Nat) (placeholderInfo : PlaceholderInfo) :
    Program Digest := do
  let sighashByte := input.sighashType &&& 0xFF
  let anyonecanpay : Bool := sighashByte &&& 0x80 = sighashAnyonecanpay
  let inputHashes :=
    if anyonecanpay then []
    else hashes.shaPrevouts.val ++ hashes.shaAmounts.val ++ hashes.shaScriptpubkeys.val ++
      hashes.shaSequences.val
  let outputHashes :=
    if sighashByte &&& 3 ≠ sighashNone ∧ sighashByte &&& 3 ≠ sighashSingle then
      hashes.shaOutputs.val
    else []
  let spendType : UInt8 := if placeholderInfo.isTapscript then 2 else 0
  let inputFields ← signedInput anyonecanpay input curInputIndex
  let outputFields ← signedOutputFields crypto.sha256 st sighashByte curInputIndex
  let extension :=
    if placeholderInfo.isTapscript then
      placeholderInfo.tapleafHash.val ++ [0x00] ++ beBytes 4 0xffffffff
    else []
  return trTaggedHash crypto bip0341SighashTag
    ([0x00, UInt8.ofNat sighashByte.toNat] ++ leBytes 4 st.txVersion.toNat ++
      leBytes 4 st.locktime.toNat ++ inputHashes ++ outputHashes ++ [spendType] ++ inputFields ++
      outputFields ++ extension)

/-! ## Legacy inputs -/

/-- Feed the script code of the input that is signed to the context. -/
def hashLegacyScriptCode : Program Bytes := do
  if ¬input.hasRedeemScript then
    match input.inOut.scriptPubKey with
    | none => Program.undefined
    | some scriptPubKey => return context ++ varintWrite scriptPubKey.length ++ scriptPubKey
  else
    let (redeemScriptLen, contexts) ← updateHashesWithMapValue input.inOut.map psbtInRedeemScript
      ⟨none, some context⟩
    Program.refuseIf (redeemScriptLen < 0) swIncorrectData
    return contexts.prefixed.getD []

/-- The map of an input; that of the input that is signed is already there. -/
def getLegacyInputMap : Program MerkleizedMapCommitment :=
  if i ≠ curInputIndex then getInputMap st i else return input.inOut.map

/-- Feed the script of an input to the context; only the one that is signed has one. -/
def hashLegacyScript : Program Bytes :=
  if i ≠ curInputIndex then return context ++ [0x00] else hashLegacyScriptCode input context

/-- Feed an input to the context. -/
def hashLegacyInput : Program Bytes := do
  let map ← getLegacyInputMap st input curInputIndex i
  let prevoutHash ← requireValue map psbtInPreviousTxid 32
  let prevoutN ← requireValue map psbtInOutputIndex 4
  let context ← hashLegacyScript input curInputIndex i (context ++ prevoutHash ++ prevoutN)
  let nSequence ← getSequence map
  return context ++ nSequence

/-- The loop over the inputs from `i` on. -/
def hashLegacyInputsLoop (st : SignPsbtState) (input : InputInfo) (curInputIndex : Nat) :
    (remaining i : Nat) → Bytes → Program Bytes
  | 0, _, context => return context
  | remaining + 1, i, context => do
    let context ← hashLegacyInput st input curInputIndex i context
    hashLegacyInputsLoop st input curInputIndex remaining (i + 1) context

/-- The hash that is signed for a legacy input. -/
def computeSighashLegacy : Program Digest := do
  let context ← hashLegacyInputsLoop st input curInputIndex st.nInputs 0
    (leBytes 4 st.txVersion.toNat ++ varintWrite st.nInputs)
  match ← hashOutputs st (context ++ varintWrite st.nOutputs) with
  | none => refuse swIncorrectData
  | some context =>
    return H (H (context ++ leBytes 4 st.locktime.toNat ++
      leBytes 4 input.sighashType.toNat)).val

/-! ## Version and lock time -/

/-- Read the version and the lock time of the transaction from the global map. -/
def processGlobalMap (globalMap : MerkleizedMapCommitment) : Program (UInt32 × UInt32) := do
  let (res, _) ← callCheckMerkleTreeSortedWithCallback Program.leafElement () globalMap.keysRoot
    (globalMap.size % 2 ^ 32) none globalMap
  if res < 0 then refuse swIncorrectData
  match ← mapValue globalMap psbtGlobalTxVersion 9 with
  | .error _ => refuse swIncorrectData
  | .ok txVersion =>
    if txVersion.length ≠ 4 then refuse swIncorrectData
    match ← mapValue globalMap psbtGlobalFallbackLocktime 9 with
    | .error code =>
      if code = -1 then return (UInt32.ofNat (leNat txVersion), 0)
      else refuse swIncorrectData
    | .ok locktime =>
      if locktime.length ≠ 4 then refuse swIncorrectData
      return (UInt32.ofNat (leNat txVersion), UInt32.ofNat (leNat locktime))

end LedgerSyscoin.Handler
