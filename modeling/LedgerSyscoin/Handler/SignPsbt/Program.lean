import LedgerSyscoin.Common.Wallet.Header
import LedgerSyscoin.Common.Wallet.Template
import LedgerSyscoin.Foundation.Runs
import LedgerSyscoin.Handler.Lib.GetMerkleizedMap
import LedgerSyscoin.Handler.Lib.GetPreimage
import LedgerSyscoin.Handler.Lib.Policy.WalletScript
import LedgerSyscoin.Handler.Lib.PsbtParseRawtx.Stages

/-!
# Signing as a dialogue

The handler that signs a PSBT calls the flows of the library, computes scripts of the
wallet policy, asks the user, makes signatures and sends responses. Each such call is a
question here: what it returns is not determined by the handler. Where the source sends
a status word and returns `false` the handler stops; where it leaves its buffers the
behaviour is undefined.
-/

namespace LedgerSyscoin.Handler

open Foundation Common Boilerplate

def swOk : Nat := 0x9000
def swSecurityStatusNotSatisfied : Nat := 0x6982
def swDeny : Nat := 0x6985
def swNotSupported : Nat := 0x6A82
def swBadState : Nat := 0xB007
def swSignatureFail : Nat := 0xB008

/-! ## What is signed with -/

/-- A serialized extended public key. -/
abbrev ExtendedPubkey := { bs : Bytes // bs.length = 78 }

/-- The compressed public key at the end of an extended key. -/
def ExtendedPubkey.compressedPubkey (key : ExtendedPubkey) : Bytes := key.val.drop 45

/-- The wallet policy in use: the policy, the version of its header, and its keys. -/
structure WalletInUse where
  policy : PolicyNode
  version : WalletPolicyVersion
  keysInfoMerkleRoot : Digest
  nKeys : Nat

/-- A placeholder with its key, if the key is internal. -/
structure PlaceholderInfo where
  placeholder : KeyPlaceholder
  curIndex : Nat
  fingerprint : UInt32
  keyDerivation : List UInt32
  pubkey : ExtendedPubkey
  isTapscript : Bool
  tapleafHash : Digest

/-- What a signature is made for: an input and a placeholder of the wallet policy in use, the
derivation of the key, and the type of the signature hash. -/
structure Signing where
  wallet : WalletInUse
  placeholderIndex : Nat
  curInputIndex : Nat
  placeholderInfo : PlaceholderInfo
  isChange : Bool
  addressIndex : UInt32
  sighashType : UInt32

/-- The path of the key that signs. -/
def Signing.signPath (signing : Signing) : List UInt32 :=
  let info := signing.placeholderInfo
  info.keyDerivation ++ [if signing.isChange then info.placeholder.numSecond
    else info.placeholder.numFirst, signing.addressIndex]

/-- What the handler is looking at when it calls a flow: an input or an output that is being
processed, or an input that is being signed for a placeholder. -/
inductive Site where
  | input (curInputIndex : Nat)
  | output (dryRun : Bool) (curOutputIndex : Nat)
  | signing (placeholderIndex curInputIndex : Nat)
  deriving DecidableEq

/-- A script of the wallet that a script of the transaction is compared with. A script of the
transaction that could not be received has no contents. -/
structure ScriptCheck where
  site : Site
  isChange : Bool
  addressIndex : UInt32
  expected : Option Bytes

/-! ## Questions -/

/-- What a flow handed to its callbacks: the length, if it got that far, and the data in chunks. -/
structure Streamed where
  ret : Int
  announced : Option Nat
  chunks : List Bytes

/-- Screens on which the user decides. -/
inductive Screen where
  | authorizeWalletSpend (name : Bytes)
  | warnExternalInputs
  | warnUnverifiedSegwitInputs
  | warnNondefaultSighash
  | transactionPrompt (nExternal : Nat)
  | validateOutput (curOutputIndex externalOutputsCount nExternal : Nat) (address : Bytes)
      (value : UInt64)
  | warnHighFee
  | validateTransaction (fee : UInt64) (isSelfTransfer : Bool)
  | displayWalletAddress (name : Option Bytes) (address : Bytes)

/-- Screens that are only shown. -/
inductive Notice where
  | confirmWalletSpend (success : Bool)
  | confirmTransaction (success : Bool)

/-- A call of the handler that leaves it. A derivation is the element of the tree of values that
belongs to a key which was received; the key information is the element of the tree of keys of the
wallet that belongs to a placeholder. -/
inductive Question where
  | leafElement (root : Digest) (size index outLen : Nat)
  | mapValue (map : MerkleizedMapCommitment) (key : Bytes) (outLen : Nat)
  | derivation (site : Site) (placeholderInfo : PlaceholderInfo) (key : Bytes) (root : Digest)
      (size index : Nat)
  | keyInfo (wallet : WalletInUse) (index : Nat)
  | streamMapValue (map : MerkleizedMapCommitment) (key : Bytes)
  | parseRawtx (map : MerkleizedMapCommitment) (key : Bytes) (outputIndex : UInt32)
  | preimage (hash : Digest) (out : Bytes)
  | walletScript (wallet : WalletInUse) (check : ScriptCheck)
  | taptreeHash (wallet : WalletInUse) (isChange : Bool) (addressIndex : UInt32)
      (tree : PolicyTree)
  | tapleafHash (wallet : WalletInUse) (isChange : Bool) (addressIndex : UInt32)
      (tapleaf : PolicyNode) (placeholder : KeyPlaceholder)
  | screen (screen : Screen)
  | notice (notice : Notice)
  | signEcdsa (signing : Signing) (sighash : Digest)
  | signSchnorr (signing : Signing) (tweak : Option Bytes) (sighash : Digest)
  | yield (signing : Signing) (response : Bytes)
  | sendSw (sw : Nat)
  | sendResponse (response : Bytes) (sw : Nat)

/-- What a call returns: a negative code or the bytes received, for the flows that receive into a
buffer; a public key and a signature. -/
abbrev Answer : Question → Type
  | .leafElement _ _ _ _ => Except Int Bytes
  | .mapValue _ _ _ => Except Int Bytes
  | .derivation _ _ _ _ _ _ => Streamed
  | .keyInfo _ _ => Except Int Bytes
  | .streamMapValue _ _ => Streamed
  | .parseRawtx _ _ _ => Int × TxidParserOutputs
  | .preimage _ _ => Preimage
  | .walletScript _ _ => Option Bytes
  | .taptreeHash _ _ _ _ => Option Digest
  | .tapleafHash _ _ _ _ _ => Option Digest
  | .screen _ => Bool
  | .notice _ => Unit
  | .signEcdsa _ _ => Option (Bytes × Bytes)
  | .signSchnorr _ _ _ => Option (Bytes × Bytes)
  | .yield _ _ => Bool
  | .sendSw _ => Unit
  | .sendResponse _ _ => Unit

/-- A client that finds nothing, a user who denies, and a device that does not sign. -/
def noAnswers : (question : Question) → Answer question
  | .leafElement _ _ _ _ => .error (-1)
  | .mapValue _ _ _ => .error (-1)
  | .derivation _ _ _ _ _ _ => ⟨-1, none, []⟩
  | .keyInfo _ _ => .error (-1)
  | .streamMapValue _ _ => ⟨-1, none, []⟩
  | .parseRawtx _ _ _ => (-1, ⟨0, 0, [], Digest.ofNat 0⟩)
  | .preimage _ out => ⟨-1, out, []⟩
  | .walletScript _ _ => none
  | .taptreeHash _ _ _ _ => none
  | .tapleafHash _ _ _ _ _ => none
  | .screen _ => false
  | .notice _ => ()
  | .signEcdsa _ _ => none
  | .signSchnorr _ _ _ => none
  | .yield _ _ => false
  | .sendSw _ => ()
  | .sendResponse _ _ => ()

/-- How the handler ends early. -/
inductive Stop where
  | refused
  | undefined
  deriving DecidableEq

/-- A part of the handler. -/
abbrev Program (α : Type) := Dialogue Answer Stop α

/-- The calls of a run of the handler with what they returned. -/
abbrev Trace := List (Dialogue.Exchange Answer)

namespace Program

variable {α : Type}

def sendSw (sw : Nat) : Program Unit := Dialogue.question (Question.sendSw sw)

/-- Return `false`. -/
def giveUp : Program α := .fail .refused

/-- Send a status word and return `false`. -/
def refuse (sw : Nat) : Program α := do
  let _ ← Dialogue.question (Question.sendSw sw)
  giveUp

/-- Send a status word and return `false` under a condition. -/
def refuseIf (condition : Prop) [Decidable condition] (sw : Nat) : Program Unit :=
  if condition then refuse sw else return ()

/-- What was found, or a status word and `false`. -/
def orRefuse (found : Option α) (sw : Nat) : Program α :=
  match found with
  | some value => return value
  | none => refuse sw

/-- Behaviour that the source leaves undefined. -/
def undefined : Program α := .fail .undefined

/-- Do something more before returning `false`. -/
def onRefusal (program : Program α) (action : Program Unit) : Program α :=
  program.tryCatch fun
    | .refused => do
      action
      giveUp
    | .undefined => undefined

def notice (notice : Notice) : Program Unit := Dialogue.question (Question.notice notice)

/-- Ask the user, and refuse if they deny. -/
def confirm (screen : Screen) : Program Unit := do
  let approved ← Dialogue.question (Question.screen screen)
  refuseIf (¬approved) swDeny

/-- Ask the user under a condition. -/
def confirmIf (condition : Prop) [Decidable condition] (screen : Screen) : Program Unit :=
  if condition then confirm screen else return ()

def leafElement (root : Digest) (size index outLen : Nat) : Program (Except Int Bytes) :=
  Dialogue.question (Question.leafElement root size index outLen)

/-- Receive the value of a map at a key of one byte. -/
def mapValue (map : MerkleizedMapCommitment) (key : UInt8) (outLen : Nat) :
    Program (Except Int Bytes) :=
  Dialogue.question (Question.mapValue map [key] outLen)

/-- Receive a value of exactly the given length. -/
def valueOfLength (map : MerkleizedMapCommitment) (key : UInt8) (length : Nat) :
    Program (Option Bytes) := do
  match ← mapValue map key length with
  | .error _ => return none
  | .ok value => return if value.length = length then some value else none

/-- Receive a value of exactly the given length, or give up. -/
def requireValue (map : MerkleizedMapCommitment) (key : UInt8) (length : Nat) : Program Bytes := do
  match ← valueOfLength map key length with
  | none => refuse swIncorrectData
  | some value => return value

/-- A commitment before anything is received into it. -/
def emptyMap : MerkleizedMapCommitment := ⟨0, Digest.ofNat 0, Digest.ofNat 0⟩

/-- Receive a map without looking at its keys. -/
def callGetMerkleizedMap (root : Digest) (size index : Nat) :
    Program (Int × MerkleizedMapCommitment) := do
  let (res, map, _) ← callGetMerkleizedMapWithCallback leafElement () root size index none emptyMap
  return (res, map)

end Program

/-! ## Keys of the maps of a PSBT -/

def psbtGlobalTxVersion : UInt8 := 0x02
def psbtGlobalFallbackLocktime : UInt8 := 0x03

def psbtInNonWitnessUtxo : UInt8 := 0x00
def psbtInWitnessUtxo : UInt8 := 0x01
def psbtInSighashType : UInt8 := 0x03
def psbtInRedeemScript : UInt8 := 0x04
def psbtInWitnessScript : UInt8 := 0x05
def psbtInBip32Derivation : UInt8 := 0x06
def psbtInPreviousTxid : UInt8 := 0x0E
def psbtInOutputIndex : UInt8 := 0x0F
def psbtInSequence : UInt8 := 0x10
def psbtInTapBip32Derivation : UInt8 := 0x16

def psbtOutBip32Derivation : UInt8 := 0x02
def psbtOutAmount : UInt8 := 0x03
def psbtOutScript : UInt8 := 0x04
def psbtOutTapBip32Derivation : UInt8 := 0x07

/-! ## State of the handler -/

/-- The longest script of an output. -/
def maxOutputScriptpubkeyLen : Nat := 83

def maxNInputsCanSign : Nat := 512

/-- Sums and counts of the outputs. -/
structure OutputsInfo where
  totalAmount : UInt64
  changeTotalAmount : UInt64
  nChange : Nat
  nExternal : Nat

/-- The sums and counts before the outputs are read. -/
def OutputsInfo.zero : OutputsInfo := ⟨0, 0, 0, 0⟩

structure SignPsbtState where
  txVersion : UInt32
  locktime : UInt32
  nInputs : Nat
  inputsRoot : Digest
  nOutputs : Nat
  outputsRoot : Digest
  inputsTotalAmount : UInt64
  outputs : OutputsInfo
  isWalletDefault : Bool
  protocolVersion : Nat
  wallet : WalletInUse
  showMissingNonwitnessutxoWarning : Bool
  showNondefaultSighashWarning : Bool

/-- What is known about an input or an output. A script whose length is a negative code has no
contents. -/
structure InOutInfo where
  map : MerkleizedMapCommitment
  unexpectedPubkeyError : Bool
  placeholderFound : Bool
  isChange : Bool
  addressIndex : UInt32
  scriptPubKey : Option Bytes

/-- An input or an output before anything is known about it. -/
def InOutInfo.zero : InOutInfo := ⟨Program.emptyMap, false, false, false, 0, some []⟩

structure InputInfo where
  inOut : InOutInfo
  hasWitnessUtxo : Bool
  hasNonWitnessUtxo : Bool
  hasRedeemScript : Bool
  hasSighashType : Bool
  prevoutAmount : Nat
  script : Bytes
  sighashType : UInt32

/-- An input before anything is known about it. -/
def InputInfo.zero : InputInfo := ⟨.zero, false, false, false, false, 0, [], 0⟩

structure OutputInfo where
  inOut : InOutInfo
  value : UInt64

/-- An output before anything is known about it. -/
def OutputInfo.zero : OutputInfo := ⟨.zero, 0⟩

/-! ## The device -/

/-- The information on a key of a policy: its origin and the extended key. -/
structure PolicyMapKeyInfo where
  masterKeyDerivation : List UInt32
  masterKeyFingerprint : UInt32
  hasKeyOrigin : Bool
  extPubkey : ExtendedPubkey

/-- What is expected of a transaction that the exchange application asks for. -/
structure SwapRequest where
  destinationAddress : Bytes
  amount : UInt64
  fees : UInt64
deriving DecidableEq

/-- The device and the settings of the application: its keys, the functions that the handler takes
from elsewhere, and the contents of memory that was not written. -/
structure Device where
  crypto : WalletCrypto
  target : Target
  layout : Layout
  haveNbgl : Bool
  pinValidated : Bool
  swap : Option SwapRequest
  bip44CoinType : UInt32
  masterKeyFingerprint : UInt32
  parsePolicyMapKeyInfo : WalletPolicyVersion → Bytes → Option PolicyMapKeyInfo
  getExtendedPubkeyAtPath : List UInt32 → Option ExtendedPubkey
  bip32CKDpub : ExtendedPubkey → UInt32 → Option ExtendedPubkey
  checkWalletHmac : Digest → Bytes → Bool
  getScriptAddress : Bytes → Option Bytes
  formatOpscriptScript : Bytes → Option Bytes
  stale : Nat → UInt8

/-! ## Runs -/

namespace Program

open Dialogue (Runs runs_pure_iff runs_question_bind_iff)

variable {α β : Type} {exchanges : Trace} {sw length : Nat} {condition : Prop} {value : Unit}
  {screen : Screen} {map : MerkleizedMapCommitment} {key : UInt8}

theorem runs_refuseIf_ok_iff [Decidable condition] :
    Runs (refuseIf condition sw) exchanges (.ok value) ↔ ¬condition ∧ exchanges = [] := by
  rw [refuseIf]
  split_ifs with holds
  · simp only [holds, not_true_eq_false, false_and, iff_false]
    intro refuses
    obtain ⟨_, _, _, ⟨⟩⟩ := refuses.question
  · simp [holds, runs_pure_iff]

theorem runs_confirm_ok_iff :
    Runs (confirm screen) exchanges (.ok value) ↔ exchanges = [⟨.screen screen, true⟩] := by
  rw [confirm, runs_question_bind_iff]
  constructor
  · rintro ⟨_, _, rfl, run⟩
    obtain ⟨isApproved, rfl⟩ := runs_refuseIf_ok_iff.mp run
    rw [not_not.mp isApproved]
  · rintro rfl
    exact ⟨true, [], rfl, runs_refuseIf_ok_iff.mpr ⟨by simp, rfl⟩⟩

theorem runs_confirmIf_ok_iff [Decidable condition] :
    Runs (confirmIf condition screen) exchanges (.ok value) ↔
      exchanges = if condition then [⟨.screen screen, true⟩] else [] := by
  rw [confirmIf]
  split_ifs with holds
  · exact runs_confirm_ok_iff
  · simp [runs_pure_iff]

theorem runs_onRefusal_ok_iff {program : Program α} {action : Program Unit} {value : α} :
    Runs (onRefusal program action) exchanges (.ok value) ↔ Runs program exchanges (.ok value) := by
  constructor
  · intro run
    rcases run.tryCatch with ⟨_, run, ⟨⟩⟩ | ⟨error, _, _, _, _, handled⟩
    · exact run
    · cases error with
      | refused =>
        obtain ⟨_, _, _, _, _, ⟨⟩⟩ := handled.bind_ok
      | undefined => cases handled
  · exact Runs.tryCatch_ok

end Program

end LedgerSyscoin.Handler

/-! ## Runs that return -/

namespace LedgerSyscoin.Foundation.Dialogue.Runs

open Common Handler Handler.Program

variable {α β : Type} {exchanges : Trace} {sw : Nat} {condition : Prop}
  {map : MerkleizedMapCommitment} {key : UInt8} {length : Nat} {value : Bytes}

theorem refuse {result : Except Stop α} (run : Runs (Program.refuse sw) exchanges result) :
    exchanges = [⟨.sendSw sw, ()⟩] ∧ result = .error .refused := by
  obtain ⟨_, _, rfl, rest⟩ := run.question
  obtain ⟨rfl, rfl⟩ := runs_fail_iff.mp rest
  exact ⟨rfl, rfl⟩

theorem refused {value : α} (run : Runs (Program.refuse sw) exchanges (.ok value)) : False := by
  cases run.refuse.2

theorem undefined {value : α} (run : Runs (Program.undefined : Program α) exchanges (.ok value)) :
    False := by
  cases run

theorem refuseIf [Decidable condition] {value : Unit}
    (run : Runs (Program.refuseIf condition sw) exchanges (.ok value)) :
    ¬condition ∧ exchanges = [] :=
  runs_refuseIf_ok_iff.mp run

theorem refuseIf_bind [Decidable condition] {next : Unit → Program β} {value : β}
    (run : Runs (Program.refuseIf condition sw >>= next) exchanges (.ok value)) :
    ¬condition ∧ Runs (next ()) exchanges (.ok value) := by
  obtain ⟨_, _, _, rfl, checks, rest⟩ := run.bind_ok
  obtain ⟨fails, rfl⟩ := checks.refuseIf
  exact ⟨fails, rest⟩

theorem orRefuse_bind {found : Option α} {next : α → Program β} {value : β}
    (run : Runs (orRefuse found sw >>= next) exchanges (.ok value)) :
    ∃ present, found = some present ∧ Runs (next present) exchanges (.ok value) := by
  obtain ⟨present, _, _, rfl, finds, rest⟩ := run.bind_ok
  cases found with
  | none => exact finds.refused.elim
  | some found =>
    cases finds
    exact ⟨present, rfl, rest⟩

/-- A value of the given length was received. -/
theorem valueOfLength
    (run : Runs (Program.valueOfLength map key length) exchanges (.ok (some value))) :
    exchanges = [⟨.mapValue map [key] length, .ok value⟩] ∧ value.length = length := by
  obtain ⟨answer, _, rfl, returns⟩ := run.question
  cases answer with
  | error code => cases returns.pure.2
  | ok received =>
    obtain ⟨rfl, isValue⟩ := returns.pure
    split_ifs at isValue with sized
    · cases isValue
      exact ⟨rfl, sized⟩
    · cases isValue

theorem requireValue (run : Runs (Program.requireValue map key length) exchanges (.ok value)) :
    exchanges = [⟨.mapValue map [key] length, .ok value⟩] ∧ value.length = length := by
  obtain ⟨received, _, _, rfl, first, second⟩ := run.bind_ok
  cases received with
  | none => exact second.refused.elim
  | some received =>
    obtain ⟨rfl, ⟨⟩⟩ := second.pure
    rw [List.append_nil]
    exact first.valueOfLength

end LedgerSyscoin.Foundation.Dialogue.Runs
