import LedgerSyscoin.Handler.SignPsbt.InternalKeys
import LedgerSyscoin.Handler.SignPsbt.Sighash

/-!
# Processing the inputs

Every input is received once before anything is signed. The amount and the script of its
previous output are read and checked, and it is internal if the script of the wallet at
the derivation of the first internal placeholder is that script. Afterwards the user is
warned about what is unusual.
-/

namespace LedgerSyscoin.Handler

open Foundation Common Boilerplate

open Program (refuse refuseIf mapValue valueOfLength confirm confirmIf)

variable (device : Device) (st : SignPsbtState) (input : InputInfo) (internalInputs : Bytes)

def sighashDefault : UInt32 := 0x00

/-- The version of segwit of a policy, -1 for a legacy one. -/
def getPolicySegwitVersion : PolicyNode → Int
  | .tr _ _ => 1
  | .sh (.withKey .wpkh _) => 0
  | .sh (.wsh _) => 0
  | .sh _ => -1
  | .withKey .wpkh _ => 0
  | .wsh _ => 0
  | _ => -1

/-! ## Internal inputs and outputs -/

/-- Compare a script with that of the wallet at a path; `none` is the return value -1. -/
def compareWalletScriptAtPath (wallet : WalletInUse) (check : ScriptCheck) :
    Program (Option Bool) := do
  match ← Dialogue.question (Question.walletScript wallet check) with
  | none => return none
  | some walletScript => return some (check.expected = some walletScript)

/-- Whether an input or an output is internal; `none` is the return value -1. An output is so only
on the change path. -/
def isInOutInternal (state : SignPsbtState) (inOutInfo : InOutInfo) (site : Site)
    (isInput : Bool) : Program (Option Bool) := do
  if ¬inOutInfo.placeholderFound then return some false
  if ¬isInput ∧ ¬inOutInfo.isChange then return some false
  compareWalletScriptAtPath state.wallet
    ⟨site, inOutInfo.isChange, inOutInfo.addressIndex, inOutInfo.scriptPubKey⟩

/-! ## Previous outputs -/

/-- The expected hash of the previous transaction. A value that is too short leaves a part of the
buffer as it was. -/
def getPrevoutHash (map : MerkleizedMapCommitment) : Program Bytes := do
  match ← mapValue map psbtInPreviousTxid 32 with
  | .error _ => refuse swIncorrectData
  | .ok prevoutHash => return prevoutHash ++ (device.uninitialized 32).drop prevoutHash.length

/-- Read the previous output from the previous transaction, if it is there. -/
def readNonWitnessUtxo : Program InputInfo := do
  if ¬input.hasNonWitnessUtxo then return input
  let prevoutHash ← getPrevoutHash device input.inOut.map
  match ← getAmountScriptpubkeyFromPsbtNonwitness input.inOut.map (some prevoutHash) with
  | none => refuse swIncorrectData
  | some (prevoutAmount, scriptPubKey) =>
    return { input with prevoutAmount, inOut := { input.inOut with scriptPubKey } }

/-- Read the previous output from the witness UTXO, if it is there, and compare it with the one
from the previous transaction. -/
def readWitnessUtxo : Program InputInfo := do
  if ¬input.hasWitnessUtxo then return input
  match ← getAmountScriptpubkeyFromPsbtWitness input.inOut.map with
  | none => refuse swIncorrectData
  | some (prevoutAmount, scriptPubKey) =>
    if input.hasNonWitnessUtxo then
      refuseIf (input.inOut.scriptPubKey ≠ some scriptPubKey ∨
        input.prevoutAmount ≠ prevoutAmount) swIncorrectData
      return input
    else return { input with prevoutAmount, inOut := { input.inOut with scriptPubKey } }

/-- Receive an input and read its previous output. -/
def readInput (placeholderInfo : PlaceholderInfo) (st : SignPsbtState)
    (curInputIndex : Nat) : Program InputInfo := do
  let (res, input) ← receiveInput device placeholderInfo (.input curInputIndex) st.inputsRoot
    st.nInputs curInputIndex
  refuseIf (res < 0) swIncorrectData
  refuseIf input.inOut.unexpectedPubkeyError swIncorrectData
  refuseIf (¬input.hasNonWitnessUtxo ∧ ¬input.hasWitnessUtxo) swIncorrectData
  let input ← readNonWitnessUtxo device input
  readWitnessUtxo input

/-! ## Internal inputs -/

/-- The types of signature hashes that only need a warning. -/
def isNondefaultSighash (sighashType : UInt32) : Bool :=
  sighashType = sighashNone ∨ sighashType = sighashSingle ∨
    sighashType = sighashAnyonecanpay ||| sighashAll ∨
    sighashType = sighashAnyonecanpay ||| sighashNone ∨
    sighashType = sighashAnyonecanpay ||| sighashSingle

/-- Whether the type of the signature hash of an internal input needs a warning. -/
def checkSighashType (sighashType : UInt32) (curInputIndex : Nat) : Program Bool := do
  let segwitVersion := getPolicySegwitVersion st.wallet.policy
  let isDefault : Bool :=
    (segwitVersion > 0 ∧ sighashType = sighashDefault) ∨ sighashType = sighashAll
  refuseIf (¬isDefault ∧ ¬(segwitVersion ≥ 0 ∧ isNondefaultSighash sighashType)) swNotSupported
  refuseIf (sighashType &&& sighashSingle = sighashSingle ∧ curInputIndex ≥ st.nOutputs)
    swNotSupported
  return !isDefault

/-- Whether an internal input needs a warning because of its type of signature hash. -/
def readNondefaultSighash (curInputIndex : Nat) : Program Bool := do
  if ¬input.hasSighashType then return false
  match ← valueOfLength input.inOut.map psbtInSighashType 4 with
  | none => refuse swIncorrectData
  | some sighashType => checkSighashType st (UInt32.ofNat (leNat sighashType)) curInputIndex

/-- Check that an internal input has the fields that its policy asks for. -/
def checkInternalInput (curInputIndex : Nat) : Program SignPsbtState := do
  let segwitVersion := getPolicySegwitVersion st.wallet.policy
  refuseIf (segwitVersion = -1 ∧ ¬input.hasNonWitnessUtxo) swIncorrectData
  let isUnverified : Bool := segwitVersion = 0 ∧ ¬input.hasNonWitnessUtxo
  refuseIf (segwitVersion ≥ 0 ∧ ¬input.hasWitnessUtxo) swIncorrectData
  let isNondefault ← readNondefaultSighash st input curInputIndex
  return { st with
    showMissingNonwitnessutxoWarning := st.showMissingNonwitnessutxoWarning || isUnverified
    showNondefaultSighashWarning := st.showNondefaultSighashWarning || isNondefault }

/-- Process an input. -/
def preprocessInput (placeholderInfo : PlaceholderInfo) (curInputIndex : Nat)
    (progress : SignPsbtState × Bytes) : Program (SignPsbtState × Bytes) := do
  let (st, internalInputs) := progress
  let input ← readInput device placeholderInfo st curInputIndex
  let st := { st with
    inputsTotalAmount := st.inputsTotalAmount + UInt64.ofNat input.prevoutAmount }
  match ← isInOutInternal st input.inOut (.input curInputIndex) true with
  | none => refuse swIncorrectData
  | some false => return (st, internalInputs)
  | some true =>
    match bitvectorSet internalInputs curInputIndex true with
    | none => Program.undefined
    | some internalInputs =>
      let st ← checkInternalInput st input curInputIndex
      return (st, internalInputs)

/-- Process all inputs; the second result is the set of internal ones. -/
def preprocessInputs : Program (SignPsbtState × Bytes) := do
  let placeholderInfo ← findFirstInternalKeyPlaceholder device st
  Dialogue.forRange (preprocessInput device placeholderInfo) st.nInputs 0
    (st, List.replicate (bitvectorRealSize maxNInputsCanSign) 0)

/-! ## Alerts -/

/-- An input that is not in the set of internal ones. -/
def isExternalInput (i : Nat) : Bool :=
  bitvectorGet internalInputs i ≠ some true

def countExternalInputs : Nat :=
  (List.range st.nInputs).countP (isExternalInput internalInputs)

/-- Warn about external inputs. -/
def alertExternalInputs : Program Unit := do
  let count := countExternalInputs st internalInputs
  refuseIf (count > 0 ∧ (count = st.nInputs ∨ device.swap.isSome)) swIncorrectData
  confirmIf (count > 0) .warnExternalInputs

/-- Warn about what is unusual in the inputs. -/
def showAlerts : Program Unit := do
  alertExternalInputs device st internalInputs
  confirmIf st.showMissingNonwitnessutxoWarning .warnUnverifiedSegwitInputs
  confirmIf st.showNondefaultSighashWarning .warnNondefaultSighash

end LedgerSyscoin.Handler
