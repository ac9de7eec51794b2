import LedgerSyscoin.Handler.SignPsbt.InternalKeys

/-!
# Standard wallet policies

A policy with a single key of the device, at the path that BIP-44 and its successors
recommend for its type of addresses, can be used without registration.
-/

namespace LedgerSyscoin.Handler

open Foundation Common Boilerplate

def maxBip44AccountRecommended : UInt32 := 100

/-- The purpose and the placeholder of a policy with a single key. -/
def bip44Candidate : PolicyNode → Option (UInt32 × KeyPlaceholder)
  | .withKey .pkh kp => some (44, kp)
  | .withKey .wpkh kp => some (84, kp)
  | .sh (.withKey .wpkh kp) => some (49, kp)
  | .tr kp none => some (86, kp)
  | _ => none

/-- The purpose of a standard template; `none` stands for the return value -1. -/
def getBip44Purpose (descriptorTemplate : PolicyNode) : Option UInt32 :=
  match bip44Candidate descriptorTemplate with
  | none => none
  | some (purpose, kp) =>
    if kp.keyIndex ≠ 0 ∨ kp.numFirst ≠ 0 ∨ kp.numSecond ≠ 1 then none else some purpose

/-- The recommended paths for a purpose. -/
def isStandardPath (device : Device) (purpose : UInt32) : List UInt32 → Bool
  | [first, second, third] =>
    first = bip32FirstHardenedChild + purpose ∧
      second = bip32FirstHardenedChild + device.bip44CoinType ∧
      bip32FirstHardenedChild ≤ third ∧
      third ≤ bip32FirstHardenedChild + maxBip44AccountRecommended
  | _ => false

/-- Check the key of a standard policy. -/
def isStandardKey (device : Device) (purpose : UInt32) (keyInfo : PolicyMapKeyInfo) : Bool :=
  keyInfo.hasKeyOrigin ∧ keyInfo.masterKeyFingerprint = device.masterKeyFingerprint ∧
    device.getExtendedPubkeyAtPath keyInfo.masterKeyDerivation = some keyInfo.extPubkey ∧
    isStandardPath device purpose keyInfo.masterKeyDerivation

def isWalletPolicyStandard (device : Device) (walletPolicyHeader : PolicyMapWalletHeader)
    (descriptorTemplate : PolicyNode) : Program Bool := do
  match getBip44Purpose descriptorTemplate with
  | none => return false
  | some purpose =>
    if walletPolicyHeader.nKeys ≠ 1 then return false
    match ← Program.leafElement walletPolicyHeader.keysInfoMerkleRoot walletPolicyHeader.nKeys 0
        maxPolicyKeyInfoLen with
    | .error _ => return false
    | .ok keyInfoStr =>
      match device.parsePolicyMapKeyInfo walletPolicyHeader.version keyInfoStr with
      | none => return false
      | some keyInfo => return isStandardKey device purpose keyInfo

end LedgerSyscoin.Handler
