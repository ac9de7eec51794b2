import LedgerSyscoin.Handler.Lib.WalletPolicy
import LedgerSyscoin.Handler.SignPsbt.Sign
import LedgerSyscoin.Handler.SignPsbt.Standard

/-!
# `handler_sign_psbt`

The request names the maps of the PSBT and the wallet policy. A policy that is not a
standard one needs the code that was given out at its registration, and the user's
approval. After that the inputs are processed, then the outputs, the transaction is
confirmed, and the inputs are signed.
-/

namespace LedgerSyscoin.Handler

open Foundation Common Boilerplate

open Program (sendSw refuseIf confirm notice onRefusal orRefuse)

variable (device : Device) (buffer : Buffer) (protocolVersion : Nat)

/-- What the data of the command says. -/
structure SignPsbtRequest where
  globalMap : MerkleizedMapCommitment
  nInputs : Nat
  inputsRoot : Digest
  nOutputs : Nat
  outputsRoot : Digest
  walletId : Digest
  walletHmac : Bytes
  deriving DecidableEq

/-- Read a number and a hash. -/
def readCountAndRoot : Option (Nat × Digest × Buffer) := do
  let (count, buffer) ← bufferReadVarint buffer
  let (root, buffer) ← bufferReadBytes 32 buffer
  return (count, Digest.ofBytes root, buffer)

/-- Read the commitment of the global map. -/
def readGlobalMap : Option (MerkleizedMapCommitment × Buffer) := do
  let (size, keysRoot, buffer) ← readCountAndRoot buffer
  let (valuesRoot, buffer) ← bufferReadBytes 32 buffer
  return (⟨size, keysRoot, Digest.ofBytes valuesRoot⟩, buffer)

/-- Read the id of a wallet and its code. -/
def readWalletIdAndHmac : Option (Digest × Bytes × Buffer) := do
  let (walletId, buffer) ← bufferReadBytes 32 buffer
  let (walletHmac, buffer) ← bufferReadBytes 32 buffer
  return (Digest.ofBytes walletId, walletHmac, buffer)

/-- Read the data of the command. -/
def readSignPsbtRequest : Program SignPsbtRequest := do
  let (globalMap, buffer) ← orRefuse (readGlobalMap buffer) swWrongDataLength
  let (nInputs, inputsRoot, buffer) ← orRefuse (readCountAndRoot buffer) swWrongDataLength
  refuseIf (nInputs > maxNInputsCanSign) swNotSupported
  let (nOutputs, outputsRoot, buffer) ← orRefuse (readCountAndRoot buffer) swWrongDataLength
  let (walletId, walletHmac, _) ← orRefuse (readWalletIdAndHmac buffer) swWrongDataLength
  return ⟨globalMap, nInputs, inputsRoot, nOutputs % 2 ^ 32, outputsRoot, walletId, walletHmac⟩

/-- A code with a byte that is not zero. -/
def hasHmac (walletHmac : Bytes) : Bool := walletHmac.any (· ≠ 0)

/-- Receive the header of the wallet policy and the policy. -/
def receiveWalletPolicy (walletId : Digest) : Program WalletPolicy := do
  let serialized ← Dialogue.question
    (Question.preimage walletId (device.uninitialized maxWalletPolicySerializedLength))
  refuseIf (serialized.ret < 0) swIncorrectData
  let walletPolicy ← readAndParseWalletPolicy
    (fun hash out => Dialogue.question (Question.preimage hash out)) device.target device.layout
    (bufferCreate (serialized.out.take serialized.ret.toNat))
    (device.uninitialized (maxDescriptorTemplateLength device.target))
  orRefuse walletPolicy swIncorrectData

/-- A policy without a code must be a standard one, without a name. -/
def requireStandard (walletPolicy : WalletPolicy) : Program Unit := do
  let standard ← isWalletPolicyStandard device walletPolicy.header walletPolicy.policy
  refuseIf (¬standard) swIncorrectData
  refuseIf (walletPolicy.header.name ≠ []) swIncorrectData

/-- Ask the user to approve the use of a registered policy. -/
def authorizeWalletSpend (name : Bytes) : Program Unit := do
  onRefusal (confirm (.authorizeWalletSpend name)) (notice (.confirmWalletSpend false))
  notice (.confirmWalletSpend true)

/-- Check that a wallet policy may be used. -/
def authorizePolicy (isWalletDefault : Bool) (walletPolicy : WalletPolicy) : Program Unit :=
  if isWalletDefault then requireStandard device walletPolicy
  else do
    refuseIf device.swap.isSome swIncorrectData
    authorizeWalletSpend walletPolicy.header.name

/-- The state before the inputs are processed. -/
def initialState (request : SignPsbtRequest) (txVersion locktime : UInt32)
    (walletPolicy : WalletPolicy) : SignPsbtState where
  txVersion := txVersion
  locktime := locktime
  nInputs := request.nInputs
  inputsRoot := request.inputsRoot
  nOutputs := request.nOutputs
  outputsRoot := request.outputsRoot
  inputsTotalAmount := 0
  outputs := .zero
  isWalletDefault := !hasHmac request.walletHmac
  protocolVersion := protocolVersion
  wallet := ⟨walletPolicy.policy, walletPolicy.header.version,
    walletPolicy.header.keysInfoMerkleRoot, walletPolicy.header.nKeys⟩
  showMissingNonwitnessutxoWarning := false
  showNondefaultSighashWarning := false

/-- Read the request and the wallet policy, and check that the policy may be used. -/
def initGlobalState (readBuffer : Buffer) : Program SignPsbtState := do
  let request ← readSignPsbtRequest readBuffer
  let (txVersion, locktime) ← processGlobalMap request.globalMap
  let isWalletDefault := !hasHmac request.walletHmac
  refuseIf (¬isWalletDefault ∧ ¬device.checkWalletHmac request.walletId request.walletHmac)
    swSignatureFail
  let walletPolicy ← receiveWalletPolicy device request.walletId
  authorizePolicy device isWalletDefault walletPolicy
  return initialState protocolVersion request txVersion locktime walletPolicy

/-- Review the transaction; the second result is the set of internal inputs. -/
def reviewTransaction (st : SignPsbtState) : Program (SignPsbtState × Bytes) := do
  let (st, internalInputs) ← preprocessInputs device st
  showAlerts device st internalInputs
  let st ← processOutputs device st
  confirmTransaction device st
  return (st, internalInputs)

def handlerSignPsbt (readBuffer : Buffer) : Program Unit := do
  refuseIf (¬device.pinValidated) swSecurityStatusNotSatisfied
  let st ← initGlobalState device protocolVersion readBuffer
  let (st, internalInputs) ← reviewTransaction device st
  signTransaction device st internalInputs
  sendSw swOk

end LedgerSyscoin.Handler
