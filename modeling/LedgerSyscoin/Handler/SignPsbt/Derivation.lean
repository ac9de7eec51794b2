import LedgerSyscoin.Common.Wallet.KeyInfo
import LedgerSyscoin.Handler.SignPsbt.Program

/-!
# Derivation fields

A derivation field of an input or an output has a public key in its key, and the
fingerprint and the path of the key in its value. The value is streamed into a buffer
of 36 bytes. A field that matches the placeholder that is looked for tells whether the
script is one for change, and its address index.
-/

namespace LedgerSyscoin.Handler

open Foundation Common Boilerplate

variable (device : Device) (placeholderInfo : PlaceholderInfo) (site : Site) (isTap : Bool)

/-- Uninitialised memory. -/
def Device.uninitialized (length : Nat) : Bytes :=
  (List.range length).map device.stale

/-! ## Streaming a value -/

/-- The state of the callback: the output, the length of the part that is kept once it is known,
and whether an error happened. -/
structure FptDerCallbackData where
  out : Bytes
  outDataLength : Option Int
  failed : Bool

/-- The length of the fingerprint and the path; a taproot field has hashes before them. The first
result is `none` if an integer overflows, the second one if there is an error. -/
def fptDerDataLength (totalDataLength : Int) (data : Bytes) : Option (Option Int) :=
  if ¬isTap then some (some totalDataLength)
  else
    match bufferReadVarint (bufferCreate data) with
    | none => some none
    | some (nHashes, _) =>
      let hashesLength := 32 * toInt nHashes
      if hashesLength < -2 ^ 31 ∨ 2 ^ 31 ≤ hashesLength then none
      else if totalDataLength < varintSize nHashes + hashesLength then some none
      else
        let outDataLength := totalDataLength - varintSize nHashes - hashesLength
        if 2 ^ 31 ≤ outDataLength then none
        else if outDataLength > 4 * (1 + maxBip32PathSteps) then some none
        else some (some outDataLength)

/-- Keep the last `outDataLength` bytes that were streamed; `none` if the callback reads or writes
outside the buffer. -/
def keepLast (out : Bytes) (outDataLength : Int) (data : Bytes) : Option Bytes :=
  let length := outDataLength.toNat
  if outDataLength < 0 then none
  else if data.length ≥ length then
    if length > out.length then none
    else some (data.drop (data.length - length) ++ out.drop length)
  -- The bytes that are moved start one too far, so that the one at `length` is read.
  else if length ≥ out.length then none
  else some ((out.drop (data.length + 1)).take (length - data.length) ++ data ++ out.drop length)

/-- Process a chunk. -/
def fptDerDataCallback (totalDataLength : Int) (cs : FptDerCallbackData)
    (data : Bytes) : Option FptDerCallbackData :=
  if cs.failed then some cs
  else
    let length :=
      match cs.outDataLength with
      | some outDataLength => some (some outDataLength)
      | none => fptDerDataLength isTap totalDataLength data
    match length with
    | none => none
    | some none => some { cs with failed := true }
    | some (some outDataLength) =>
      (keepLast cs.out outDataLength data).map fun out =>
        { cs with out, outDataLength := some outDataLength }

/-- A list of four-byte words. -/
def readWords (read : Bytes → Nat) : (count : Nat) → Bytes → List UInt32
  | 0, _ => []
  | count + 1, bytes =>
    UInt32.ofNat (read (bytes.take 4)) :: readWords read count (bytes.drop 4)

/-- The fingerprint and the path in a value. The first result is `none` if the behaviour is
undefined, the second one for the return code -1. -/
def extractBip32Derivation (streamed : Streamed) : Option (Option (UInt32 × List UInt32)) :=
  let totalDataLength := toInt (streamed.announced.getD 0)
  let initial : FptDerCallbackData :=
    ⟨device.uninitialized (4 * (1 + maxBip32PathSteps)), none, false⟩
  match streamed.chunks.foldlM (fptDerDataCallback isTap totalDataLength) initial with
  | none => none
  | some cs =>
    match cs.outDataLength with
    | none => some none
    | some outDataLength =>
      if streamed.ret < 0 ∨ cs.failed ∨ outDataLength < 4 ∨ outDataLength % 4 ≠ 0 then some none
      else
        some (some (UInt32.ofNat (beNat (cs.out.take 4)),
          readWords leNat (outDataLength.toNat / 4 - 1) (cs.out.drop 4)))

/-! ## Matching a placeholder -/

/-- What comes of a field: an error, a field of another key, or a match. -/
inductive DerivationMatch where
  | failed
  | other
  | found (isChange : Bool) (addressIndex : UInt32)
  deriving DecidableEq

/-- Compare a fingerprint and a path with those of a placeholder; the key must be the one that can
be derived. -/
def matchPath (bip32DerivationPubkey : Bytes) (fingerprint : UInt32) (path : List UInt32) :
    DerivationMatch :=
  let keyDerivationLength := placeholderInfo.keyDerivation.length
  if path.length < 2 ∨ path.length > maxBip32PathSteps then .failed
  else if fingerprint ≠ placeholderInfo.fingerprint ∨ path.length ≠ keyDerivationLength + 2 then
    .other
  else if path.take keyDerivationLength ≠ placeholderInfo.keyDerivation then .other
  else
    let change := path.getD keyDerivationLength 0
    let addrIndex := path.getD (keyDerivationLength + 1) 0
    match (device.bip32CKDpub placeholderInfo.pubkey change).bind
        (device.bip32CKDpub · addrIndex) with
    | none => .failed
    | some pubkey =>
      if pubkey.compressedPubkey.drop (if isTap then 1 else 0) ≠ bip32DerivationPubkey then .other
      else if change = placeholderInfo.placeholder.numFirst then .found false addrIndex
      else if change = placeholderInfo.placeholder.numSecond then .found true addrIndex
      else .other

/-- What comes of a field whose value was streamed; `none` if the behaviour is undefined. -/
def matchDerivation
    (bip32DerivationPubkey : Bytes) (streamed : Streamed) : Option DerivationMatch :=
  match extractBip32Derivation device isTap streamed with
  | none => none
  | some none => some .failed
  | some (some (fingerprint, path)) =>
    some (matchPath device placeholderInfo isTap bip32DerivationPubkey fingerprint path)

def isTapDerivation (keyType : UInt8) : Bool :=
  keyType = psbtInTapBip32Derivation ∨ keyType = psbtOutTapBip32Derivation

/-- Read a derivation field with the given key, the one at `index`; the first result is negative
for an error. -/
def readChangeAndIndexFromPsbtBip32Derivation (inOut : InOutInfo) (psbtKeyType : UInt8)
    (data : Bytes) (mapCommitment : MerkleizedMapCommitment) (index : Nat) :
    Program (Int × InOutInfo) := do
  let isTap := isTapDerivation psbtKeyType
  if data.length ≠ (if isTap then 32 else 33) then
    return (-1, { inOut with unexpectedPubkeyError := true })
  let streamed ← Dialogue.question (Question.derivation site placeholderInfo (psbtKeyType :: data)
    mapCommitment.valuesRoot (mapCommitment.size % 2 ^ 32) index)
  match matchDerivation device placeholderInfo isTap data streamed with
  | none => Program.undefined
  | some .failed => return (-1, inOut)
  | some .other => return (0, inOut)
  | some (.found isChange addressIndex) =>
    return (1, { inOut with isChange, addressIndex, placeholderFound := true })

/-! ## Keys of inputs and outputs -/

/-- A field that cannot be read is an error of the input or output. -/
def readDerivation (inOut : InOutInfo) (psbtKeyType : UInt8) (data : Bytes)
    (mapCommitment : MerkleizedMapCommitment) (index : Nat) : Program InOutInfo := do
  let (ret, inOut) ← readChangeAndIndexFromPsbtBip32Derivation device placeholderInfo site inOut
    psbtKeyType data mapCommitment index
  return if ret < 0 then { inOut with unexpectedPubkeyError := true } else inOut

/-- Process a key of an input map. -/
def inputKeysCallback : ElementsCallback Program InputInfo
  | input, _, _, [] => return input
  | input, mapCommitment, i, keyType :: data =>
    if keyType = psbtInWitnessUtxo then return { input with hasWitnessUtxo := true }
    else if keyType = psbtInNonWitnessUtxo then return { input with hasNonWitnessUtxo := true }
    else if keyType = psbtInRedeemScript then return { input with hasRedeemScript := true }
    else if keyType = psbtInSighashType then return { input with hasSighashType := true }
    else if (keyType = psbtInBip32Derivation ∨ keyType = psbtInTapBip32Derivation) ∧
        ¬input.inOut.placeholderFound then do
      let inOut ← readDerivation device placeholderInfo site input.inOut keyType data
        mapCommitment i
      return { input with inOut }
    else return input

/-- Process a key of an output map. -/
def outputKeysCallback : ElementsCallback Program OutputInfo
  | output, _, _, [] => return output
  | output, mapCommitment, i, keyType :: data =>
    if (keyType = psbtOutBip32Derivation ∨ keyType = psbtOutTapBip32Derivation) ∧
        ¬output.inOut.placeholderFound then do
      let inOut ← readDerivation device placeholderInfo site output.inOut keyType data
        mapCommitment i
      return { output with inOut }
    else return output

/-- Receive the map of an input and process its keys. -/
def receiveInput (root : Digest) (size index : Nat) : Program (Int × InputInfo) := do
  let (res, map, input) ← callGetMerkleizedMapWithCallback Program.leafElement InputInfo.zero root
    size index (some (inputKeysCallback device placeholderInfo site)) Program.emptyMap
  return (res, { input with inOut := { input.inOut with map } })

/-- Receive the map of an output and process its keys. -/
def receiveOutput (root : Digest) (size index : Nat) : Program (Int × OutputInfo) := do
  let (res, map, output) ← callGetMerkleizedMapWithCallback Program.leafElement OutputInfo.zero root
    size index (some (outputKeysCallback device placeholderInfo site)) Program.emptyMap
  return (res, { output with inOut := { output.inOut with map } })

end LedgerSyscoin.Handler
