import LedgerSyscoin.Handler.SignPsbt.Outputs
import LedgerSyscoin.Handler.SignPsbt.Tapleaf

/-!
# Signing

For each placeholder with an internal key and each internal input, the map of the
input is received again, the hash that is signed is computed, and the signature is
yielded to the client. The derivation of the key is the one that the fields of the
input tell for this placeholder.
-/

namespace LedgerSyscoin.Handler

open Foundation Common Boilerplate

open Program (sendSw refuse refuseIf giveUp mapValue valueOfLength notice onRefusal orRefuse)

variable (device : Device) (st : SignPsbtState) (hashes : SegwitHashes) (signing : Signing)
  (internalInputs : Bytes) (tapleaf : Option PolicyNode) (placeholderIndex : Nat)
  (placeholderInfo : PlaceholderInfo) (input : InputInfo) (curInputIndex : Nat)

/-! ## Yielding signatures -/

/-- The message with a signature. The public key is left out in version 0 of the protocol. -/
def yieldMessage (protocolVersion curInputIndex : Nat) (pubkey tapleafHash sig : Bytes) : Bytes :=
  let augmented :=
    if protocolVersion ≥ 1 then
      UInt8.ofNat (pubkey.length + tapleafHash.length) :: pubkey ++ tapleafHash
    else []
  ccmdYield :: varintWrite curInputIndex ++ augmented ++ sig

/-- Yield a signature and wait for the client. -/
def yieldSignature (pubkey tapleafHash sig : Bytes) : Program Unit := do
  let resumed ← Dialogue.question (Question.yield signing
    (yieldMessage st.protocolVersion signing.curInputIndex pubkey tapleafHash sig))
  refuseIf (¬resumed) swBadState

/-- What is signed for, once the input was received. -/
def signingFor (placeholderInfo : PlaceholderInfo) (input : InputInfo) : Signing where
  wallet := st.wallet
  placeholderIndex := placeholderIndex
  curInputIndex := curInputIndex
  placeholderInfo := placeholderInfo
  isChange := input.inOut.isChange
  addressIndex := input.inOut.addressIndex
  sighashType := input.sighashType

/-- The path must fit its buffer. -/
def checkSignPath : Program Unit :=
  if signing.signPath.length > maxBip32PathSteps then Program.undefined else return ()

/-- Sign with ECDSA, append the type of the signature hash, and yield. -/
def signSighashEcdsaAndYield (sighash : Digest) : Program Unit := do
  checkSignPath signing
  let signed ← Dialogue.question (Question.signEcdsa signing sighash)
  let (pubkey, sig) ← orRefuse signed swBadState
  yieldSignature st signing pubkey [] (sig ++ [UInt8.ofNat (signing.sighashType &&& 0xFF).toNat])

/-- Sign with Schnorr, append the type of the signature hash unless it is 0, and yield. The key is
tweaked unless a leaf is signed for. -/
def signSighashSchnorrAndYield (tweak : Option Bytes) (sighash : Digest) : Program Unit := do
  refuseIf (st.wallet.policy.type ≠ .tr) swBadState
  checkSignPath signing
  let signed ← Dialogue.question (Question.signSchnorr signing tweak sighash)
  let (pubkey, sig) ← orRefuse signed swBadState
  refuseIf (sig.length ≠ 64) swBadState
  let sighashByte := UInt8.ofNat (signing.sighashType &&& 0xFF).toNat
  let tapleafHash :=
    if signing.placeholderInfo.isTapscript then signing.placeholderInfo.tapleafHash.val else []
  yieldSignature st signing pubkey tapleafHash
    (if sighashByte ≠ 0 then sig ++ [sighashByte] else sig)

/-! ## Signing an input -/

/-- Read the type of the signature hash, if there is one. -/
def readSighashType : Program InputInfo := do
  if ¬input.hasSighashType then return input
  match ← valueOfLength input.inOut.map psbtInSighashType 4 with
  | none => refuse swIncorrectData
  | some sighashType => return { input with sighashType := UInt32.ofNat (leNat sighashType) }

/-- The type of the signature hash where none is given. -/
def withDefaultSighash (sighashType : UInt32) : InputInfo :=
  if input.hasSighashType then input else { input with sighashType }

/-- Sign a legacy input. -/
def signLegacyInput : Program Unit := do
  match ← getAmountScriptpubkeyFromPsbtNonwitness input.inOut.map none with
  | none => refuse swIncorrectData
  | some (_, scriptPubKey) =>
    let input := withDefaultSighash
      { input with inOut := { input.inOut with scriptPubKey := scriptPubKey } } sighashAll
    let sighash ← computeSighashLegacy device.crypto.sha256 st input curInputIndex
    signSighashEcdsaAndYield st
      (signingFor st placeholderIndex curInputIndex placeholderInfo input) sighash

/-- The script that is signed for: the redeem script if there is one, which must be that of the
previous output. -/
def readWitnessProgram : Program InputInfo := do
  match ← getAmountScriptpubkeyFromPsbtWitness input.inOut.map with
  | none => refuse swIncorrectData
  | some (_, scriptPubKey) =>
    let input := { input with inOut := { input.inOut with scriptPubKey := scriptPubKey } }
    if ¬input.hasRedeemScript then return { input with script := scriptPubKey }
    match ← mapValue input.inOut.map psbtInRedeemScript maxPrevoutScriptpubkeyLen with
    | .error _ => refuse swIncorrectData
    | .ok redeemScript =>
      refuseIf (scriptPubKey ≠ p2shScript device.crypto (device.crypto.sha256 redeemScript))
        swIncorrectData
      return { input with script := redeemScript }

/-- What the key is tweaked with for a taproot input. -/
def taprootTweak : Program (Option Bytes) := do
  if placeholderInfo.isTapscript then return none
  match st.wallet.policy with
  | .tr _ (some tree) =>
    let hash ← Dialogue.question
      (Question.taptreeHash st.wallet input.inOut.isChange input.inOut.addressIndex tree)
    let taptreeHash ← orRefuse hash swBadState
    return some taptreeHash.val
  | _ => return some []

/-- Sign an input with a witness UTXO. -/
def signSegwitInput : Program Unit := do
  let input ← readWitnessProgram device input
  if getPolicySegwitVersion st.wallet.policy = 0 then
    let input := withDefaultSighash input sighashAll
    let sighash ← computeSighashSegwitv0 device.crypto.sha256 st hashes input curInputIndex
    signSighashEcdsaAndYield st
      (signingFor st placeholderIndex curInputIndex placeholderInfo input) sighash
  else if getPolicySegwitVersion st.wallet.policy = 1 then
    let input := withDefaultSighash input sighashDefault
    let sighash ← computeSighashSegwitv1 device.crypto st hashes input curInputIndex placeholderInfo
    let tweak ← taprootTweak st placeholderInfo input
    signSighashSchnorrAndYield st
      (signingFor st placeholderIndex curInputIndex placeholderInfo input) tweak sighash
  else refuse swBadState

/-- Sign an input; it is a segwit input if it has a witness UTXO. -/
def signTransactionInput : Program Unit := do
  let input ← readSighashType input
  if ¬input.hasWitnessUtxo then
    signLegacyInput device st placeholderIndex placeholderInfo input curInputIndex
  else signSegwitInput device st hashes placeholderIndex placeholderInfo input curInputIndex

/-! ## Signing the transaction -/

/-- Tell the user, unless the exchange application asked for the transaction. -/
def notifyTransaction (success : Bool) : Program Unit := do
  if device.swap.isNone then notice (.confirmTransaction success)

/-- Fill in the hash of the leaf that contains the placeholder. Without the hash, nothing is sent
to the client. -/
def withTapleafHash (placeholderInfo : PlaceholderInfo) : Program PlaceholderInfo := do
  match tapleaf with
  | none => return placeholderInfo
  | some tapleaf =>
    match ← Dialogue.question (Question.tapleafHash st.wallet input.inOut.isChange
        input.inOut.addressIndex tapleaf placeholderInfo.placeholder) with
    | none => giveUp
    | some tapleafHash => return { placeholderInfo with tapleafHash }

/-- Sign an internal input for a placeholder. -/
def signInternalInput (i : Nat) : Program Unit := do
  let (res, input) ← receiveInput device placeholderInfo (.signing placeholderIndex i)
    st.inputsRoot st.nInputs i
  onRefusal (refuseIf (res < 0) swIncorrectData) (notifyTransaction device false)
  let placeholderInfo ← withTapleafHash st tapleaf input placeholderInfo
  -- The status word of the failure has been sent before.
  onRefusal (signTransactionInput device st hashes placeholderIndex placeholderInfo input i) do
    sendSw swBadState
    notifyTransaction device false

/-- Sign an input for a placeholder if it is internal. -/
def signInputIfInternal (i : Nat) (_ : Unit) : Program Unit :=
  if bitvectorGet internalInputs i = some true then
    signInternalInput device st hashes tapleaf placeholderIndex placeholderInfo i
  else return ()

/-- Sign all internal inputs for a placeholder if its key is internal. -/
def signPlaceholder (_ : Unit) : Program Unit := do
  match (getKeyPlaceholderByIndex st.wallet.policy placeholderIndex).written with
  | none => return ()
  | some (placeholder, tapleaf) =>
    match ← fillPlaceholderInfoIfInternal device st
        (.ofPlaceholder placeholder 0 tapleaf.isSome) with
    | none => return ()
    | some placeholderInfo =>
      Dialogue.forRange (signInputIfInternal device st hashes internalInputs tapleaf
        placeholderIndex placeholderInfo) st.nInputs 0 ()

/-- Sign the transaction. -/
def signTransaction : Program Unit := do
  let hashes ← computeSegwitHashes device.crypto.sha256 st
  Dialogue.forRange (signPlaceholder device st hashes internalInputs)
    (getKeyPlaceholderByIndex st.wallet.policy 0).count 0 ()
  notifyTransaction device true

end LedgerSyscoin.Handler
