import LedgerSyscoin.Handler.SignPsbt.Inputs

/-!
# Processing the outputs

Every output is one of the wallet on the change path, or it is shown to the user or, for
the exchange application, compared with what is expected. At the end the user confirms
the fee. On devices with a larger screen the outputs are read once before, in order to
count those that will be shown.
-/

namespace LedgerSyscoin.Handler

open Foundation Common Boilerplate

open Program (refuse refuseIf giveUp mapValue requireValue confirm confirmIf notice onRefusal
  orRefuse)

variable (device : Device) (placeholderInfo : PlaceholderInfo) (dryRun : Bool) (st : SignPsbtState)
  (curOutputIndex : Nat)

/-! ## Showing an output -/

def opReturn : UInt8 := 0x6a

def isOpreturn (script : Bytes) : Bool :=
  script.length > 0 ∧ script.length ≤ 83 ∧ script[0]? = some opReturn

/-- What is shown for a script, and whether it is an address. -/
inductive OutputDescription where
  | address (address : Bytes)
  | opReturn (description : Bytes)

/-- The text for an output. A script without contents has no type. -/
def describeScript (scriptPubKey : Option Bytes) : Option OutputDescription := do
  let script ← scriptPubKey
  match device.getScriptAddress script with
  | some address => return .address address
  | none =>
    guard (isOpreturn script)
    return .opReturn (← device.formatOpscriptScript script)

/-- The text without what it is. -/
def OutputDescription.text : OutputDescription → Bytes
  | .address shown => shown
  | .opReturn shown => shown

/-- Show an output, or compare its address with the one that the exchange application gave. -/
def displayOutput (externalOutputsCount : Nat) (output : OutputInfo) : Program Unit := do
  let description ← orRefuse (describeScript device output.inOut.scriptPubKey) swNotSupported
  match device.swap with
  | some request =>
    match description with
    | .address address => refuseIf (address ≠ request.destinationAddress) swIncorrectData
    | .opReturn _ => refuse swIncorrectData
  | none =>
    confirm (.validateOutput curOutputIndex externalOutputsCount st.outputs.nExternal
      description.text output.value)

/-! ## Reading the outputs -/

/-- Increment a counter of type `int`. -/
def incrementInt (counter : Nat) : Program Nat :=
  if counter + 1 < 2 ^ 31 then return counter + 1 else Program.undefined

/-- Read the script of an output. A negative code other than -1 is taken for its length. -/
def readOutputScript (map : MerkleizedMapCommitment) : Program (Option Bytes) := do
  match ← mapValue map psbtOutScript maxOutputScriptpubkeyLen with
  | .error code =>
    refuseIf (code = -1) swIncorrectData
    return none
  | .ok scriptPubKey => return some scriptPubKey

/-- Read the amount of an output, unless outputs are only counted. -/
def readOutputAmount (map : MerkleizedMapCommitment) : Program UInt64 :=
  if dryRun then return 0
  else do
    let rawResult ← requireValue map psbtOutAmount 8
    return UInt64.ofNat (leNat rawResult)

/-- Receive an output and read its amount and its script. -/
def readOutput : Program OutputInfo := do
  let (res, output) ← receiveOutput device placeholderInfo (.output dryRun curOutputIndex)
    st.outputsRoot st.nOutputs curOutputIndex
  refuseIf (res < 0) swIncorrectData
  refuseIf output.inOut.unexpectedPubkeyError swIncorrectData
  let value ← readOutputAmount dryRun output.inOut.map
  let scriptPubKey ← readOutputScript output.inOut.map
  return { output with value, inOut := { output.inOut with scriptPubKey } }

/-- Count an output of the wallet. -/
def addChange (output : OutputInfo) : Program SignPsbtState := do
  let nChange ← incrementInt st.outputs.nChange
  return { st with
    outputs := { st.outputs with
      changeTotalAmount := st.outputs.changeTotalAmount + output.value
      nChange } }

/-- Verify an output, or only count it if it is not of the wallet. -/
def verifyOutput (progress : SignPsbtState × Nat) : Program (SignPsbtState × Nat) := do
  let (st, externalOutputsCount) := progress
  let output ← readOutput device placeholderInfo dryRun st curOutputIndex
  let st := { st with
    outputs := { st.outputs with totalAmount := st.outputs.totalAmount + output.value } }
  match ← isInOutInternal st output.inOut (.output dryRun curOutputIndex) false with
  | none => refuse swIncorrectData
  | some false =>
    let externalOutputsCount ← incrementInt externalOutputsCount
    if dryRun then return (st, externalOutputsCount)
    displayOutput device st curOutputIndex externalOutputsCount output
    return (st, externalOutputsCount)
  | some true =>
    if dryRun then return (st, externalOutputsCount)
    let st ← addChange st output
    return (st, externalOutputsCount)

/-- Read all outputs. -/
def readOutputs : Program SignPsbtState := do
  let (st, externalOutputsCount) ← Dialogue.forRange (verifyOutput device placeholderInfo dryRun)
    st.nOutputs 0 (st, 0)
  return { st with outputs := { st.outputs with nExternal := externalOutputsCount } }

/-- Count the outputs that will be shown, on devices that need it. -/
def countOutputs : Program SignPsbtState := do
  if ¬device.haveNbgl then return st
  let st ← readOutputs device placeholderInfo true st
  confirmIf device.swap.isNone (.transactionPrompt st.outputs.nExternal)
  return st

/-- Verify all outputs. -/
def processOutputs : Program SignPsbtState := do
  let placeholderInfo ← findFirstInternalKeyPlaceholder device st
  let st ← countOutputs device placeholderInfo { st with outputs := .zero }
  readOutputs device placeholderInfo false st

/-! ## Confirmation -/

/-- Compare the sums with what the exchange application gave. -/
def confirmSwap (request : SwapRequest) (fee : UInt64) : Program Unit := do
  refuseIf (st.outputs.nExternal ≠ 1) swIncorrectData
  refuseIf (fee ≠ request.fees) swIncorrectData
  refuseIf (st.outputs.totalAmount - st.outputs.changeTotalAmount ≠ request.amount) swIncorrectData

/-- Ask the user, and tell them that the transaction is rejected if they deny. -/
def confirmOrNotify (screen : Screen) : Program Unit :=
  onRefusal (confirm screen) (notice (.confirmTransaction false))

/-- Let the user confirm the fee. -/
def confirmFee (fee : UInt64) : Program Unit := do
  if 10 * fee ≥ st.inputsTotalAmount ∧ st.inputsTotalAmount > 10000 then
    confirmOrNotify .warnHighFee
  confirmOrNotify (.validateTransaction fee (st.outputs.nExternal = 0))

/-- Confirm the transaction. -/
def confirmTransaction : Program Unit := do
  refuseIf (st.inputsTotalAmount < st.outputs.totalAmount) swIncorrectData
  refuseIf (st.outputs.nChange > 10) swNotSupported
  let fee := st.inputsTotalAmount - st.outputs.totalAmount
  match device.swap with
  | some request => confirmSwap st request fee
  | none => confirmFee st fee

end LedgerSyscoin.Handler
