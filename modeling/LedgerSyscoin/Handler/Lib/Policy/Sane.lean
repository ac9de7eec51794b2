import LedgerSyscoin.Common.Wallet.ExtInfo
import LedgerSyscoin.Common.Wallet.Types
import LedgerSyscoin.Handler.Lib.Policy.InternalScript
import LedgerSyscoin.Handler.Lib.Policy.Placeholders

/-!
# Sane policies

The checks of a policy at registration: the properties of the miniscript inside a
top-level `wsh`, that all the keys are different, and that placeholders of the
same key have different derivations. The keys come from the client.
-/

namespace LedgerSyscoin.Handler

open Foundation Common

def maxStandardP2wshStackItems : Int := 100
def maxStandardP2wshScriptSize : UInt16 := 3600
def maxOpsPerScript : Int := 201

/-- The checks of a miniscript. The sums of the source are 32-bit words. -/
def isMiniscriptSane (flags : MiniscriptFlags) (info : PolicyNodeExtInfo) : Bool :=
  flags.type = .B && info.m && info.s && info.k &&
    (info.ss.sat ≠ -1 && info.ss.sat % 2 ^ 32 ≤ maxStandardP2wshStackItems) &&
    info.ops.sat ≠ -1 &&
    (info.ops.count.toNat + info.ops.sat) % 2 ^ 32 ≤ maxOpsPerScript &&
    info.scriptSize ≤ maxStandardP2wshScriptSize

/-- The miniscript part of the check: only a miniscript inside a top-level `wsh` is
analysed. -/
def isWshSane (scratch : Nat → Int) : PolicyNode → Bool
  | .wsh inner =>
    match storedFlags inner with
    | some flags =>
      match computeMiniscriptPolicyExtInfo scratch inner with
      | some info => isMiniscriptSane flags info
      | none => false
    | none => true
  | _ => true

section Keys

variable {σ : Type}

/-- The public key of the extended key with the given index in the list of keys, as the
client provides it. -/
abbrev KeyLookup (σ : Type) := UInt32 → σ → Option (CompressedPubkey × σ)

/-- The inner loop over the keys: none of the `count` keys from `j` on is `pubkey`. -/
def checkKeyDiffers (lookup : KeyLookup σ) (pubkey : CompressedPubkey) :
    Nat → UInt32 → σ → Option σ
  | 0, _, client => some client
  | count + 1, j, client =>
    match lookup j client with
    | some (other, client) =>
      if pubkey = other then none else checkKeyDiffers lookup pubkey count (j + 1) client
    | none => none

/-- The outer loop: `count` keys from `i` on are compared with all the keys behind them. -/
def checkKeysDiffer (lookup : KeyLookup σ) (nKeys : UInt32) : Nat → UInt32 → σ → Option σ
  | 0, _, client => some client
  | count + 1, i, client =>
    match lookup i client with
    | some (pubkey, client) =>
      match checkKeyDiffers lookup pubkey (nKeys.toNat - (i.toNat + 1)) (i + 1) client with
      | some client => checkKeysDiffer lookup nKeys count (i + 1) client
      | none => none
    | none => none

end Keys

/-- Two placeholders of the same key must not share a derivation step. -/
def placeholdersConflict (left right : KeyPlaceholder) : Bool :=
  left.keyIndex = right.keyIndex &&
    (left.numFirst = right.numFirst || left.numFirst = right.numSecond ||
      left.numSecond = right.numFirst || left.numSecond = right.numSecond)

/-- The placeholders of a policy, in the order of their indices. -/
def placeholders (policy : PolicyNode) : List KeyPlaceholder :=
  (List.range (getKeyPlaceholderByIndex policy 0).count).filterMap fun i =>
    (getKeyPlaceholderByIndex policy i).written.map (·.1)

/-- The two loops over the placeholders: no placeholder conflicts with a later one. -/
def placeholdersSane : List KeyPlaceholder → Bool
  | [] => true
  | key :: rest => rest.all (fun other => !placeholdersConflict key other) && placeholdersSane rest

/-- The check of a policy over `nKeys` keys. The number of iterations over the keys is
computed with 32-bit words. -/
def isPolicySane {σ : Type} (scratch : Nat → Int) (lookup : KeyLookup σ) (policy : PolicyNode)
    (nKeys : UInt32) (client : σ) : Option σ :=
  if isWshSane scratch policy then
    match checkKeysDiffer lookup nKeys (nKeys - 1).toNat 0 client with
    | some client => if placeholdersSane (placeholders policy) then some client else none
    | none => none
  else none

/-- A sane miniscript inside a top-level `wsh` was analysed and passed all the checks. -/
theorem isMiniscriptSane_of_isPolicySane {σ : Type} {scratch : Nat → Int} {lookup : KeyLookup σ}
    {inner : PolicyNode} {nKeys : UInt32} {client client' : σ} {flags : MiniscriptFlags}
    (stored : storedFlags inner = some flags)
    (sane : isPolicySane scratch lookup (.wsh inner) nKeys client = some client') :
    ∃ info, Analysed scratch inner info ∧
      isMiniscriptSane flags info = true := by
  have wshSane : isWshSane scratch (.wsh inner) = true := by
    by_contra notSane
    rw [isPolicySane, if_neg notSane] at sane
    cases sane
  simp only [isWshSane, stored] at wshSane
  split at wshSane
  · rename_i info analysed
    exact ⟨info, analysed, wshSane⟩
  · cases wshSane

/-- A client with different keys at all the indices. -/
def sampleLookup : KeyLookup Unit :=
  fun index client => some (⟨beBytes 33 index.toNat, length_beBytes _ _⟩, client)

end LedgerSyscoin.Handler
