import LedgerSyscoin.Handler.Lib.Policy.Placeholders
import LedgerSyscoin.Handler.SignPsbt.Derivation

/-!
# Internal keys

A placeholder is internal if its key information has the fingerprint of the device,
and the device derives the same extended key. Where the key information cannot be
received or parsed, a status word is sent; the caller is only told that the key is not
internal, and goes on.
-/

namespace LedgerSyscoin.Handler

open Foundation Common Boilerplate

open Program (sendSw refuse)

/-- The longest key information. -/
def maxPolicyKeyInfoLen : Nat := 162

def zeroPubkey : ExtendedPubkey := sizedBytes (List.replicate 78 0)

/-- A placeholder before anything is known about its key. -/
def PlaceholderInfo.ofPlaceholder (placeholder : KeyPlaceholder) (curIndex : Nat)
    (isTapscript : Bool) : PlaceholderInfo :=
  ⟨placeholder, curIndex, 0, [], zeroPubkey, isTapscript, Digest.ofNat 0⟩

/-- The information on a key that the parser returns. What it writes outside of its arrays is not
described here. -/
def receivedKeyInfo (H : HashFunction) (stack : ExtPubkeyCheck) (version : WalletPolicyVersion)
    (text : Bytes) : Option PolicyMapKeyInfo :=
  match Common.parsePolicyMapKeyInfo H version stack text with
  | .error _ => none
  | .ok out =>
    if sized : out.extPubkey.length = 78 then
      some ⟨out.masterKeyDerivation.take out.masterKeyDerivationLen,
        UInt32.ofNat (beNat out.masterKeyFingerprint), out.hasKeyOrigin, ⟨out.extPubkey, sized⟩⟩
    else none

/-- What the key information of a placeholder tells. -/
inductive KeyOwner where
  | unusable
  | external
  | internal (pubkey : ExtendedPubkey) (keyDerivation : List UInt32) (fingerprint : UInt32)

/-- Decide whether key information belongs to the device. -/
def keyOwner (device : Device) (version : WalletPolicyVersion) (keyInfoStr : Except Int Bytes) :
    KeyOwner :=
  match keyInfoStr with
  | .error _ => .unusable
  | .ok keyInfoStr =>
    match device.parsePolicyMapKeyInfo version keyInfoStr with
    | none => .unusable
    | some keyInfo =>
      if keyInfo.masterKeyFingerprint ≠ device.masterKeyFingerprint then .external
      else
        -- The fingerprint could be that of another key.
        match device.getExtendedPubkeyAtPath keyInfo.masterKeyDerivation with
        | none => .unusable
        | some pubkey =>
          if keyInfo.extPubkey ≠ pubkey then .external
          else .internal pubkey keyInfo.masterKeyDerivation keyInfo.masterKeyFingerprint

/-- Fill in the key of a placeholder if it is internal; `none` is the return value `false`. -/
def fillPlaceholderInfoIfInternal (device : Device) (st : SignPsbtState)
    (placeholderInfo : PlaceholderInfo) : Program (Option PlaceholderInfo) := do
  let keyInfoStr ← Dialogue.question
    (Question.keyInfo st.wallet placeholderInfo.placeholder.keyIndex)
  match keyOwner device st.wallet.version keyInfoStr with
  | .unusable =>
    sendSw swBadState
    return none
  | .external => return none
  | .internal pubkey keyDerivation fingerprint =>
    return some { placeholderInfo with pubkey, keyDerivation, fingerprint }

/-- The loop over the placeholders from `curIndex` on. -/
def findFirstInternalLoop (device : Device) (st : SignPsbtState) :
    (remaining curIndex : Nat) → Program PlaceholderInfo
  | 0, _ => refuse swIncorrectData
  | remaining + 1, curIndex => do
    match (getKeyPlaceholderByIndex st.wallet.policy curIndex).written with
    | none => refuse swIncorrectData
    | some (placeholder, _) =>
      match ← fillPlaceholderInfoIfInternal device st (.ofPlaceholder placeholder curIndex false)
        with
      | some placeholderInfo => return placeholderInfo
      | none => findFirstInternalLoop device st remaining (curIndex + 1)

/-- Find the first placeholder with an internal key. -/
def findFirstInternalKeyPlaceholder (device : Device) (st : SignPsbtState) :
    Program PlaceholderInfo :=
  findFirstInternalLoop device st (getKeyPlaceholderByIndex st.wallet.policy 0).count 0

end LedgerSyscoin.Handler
