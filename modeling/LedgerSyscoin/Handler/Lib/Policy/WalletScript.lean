import LedgerSyscoin.Common.Varint
import LedgerSyscoin.Common.Wallet.Lexer
import LedgerSyscoin.Foundation.Fuel
import LedgerSyscoin.Foundation.Hash
import LedgerSyscoin.Handler.Lib.Policy.InternalScript

/-!
# Output scripts of wallet policies

`get_wallet_script` computes the script of an address of a wallet policy: from a derived
key, from the hash of a compiled script, or from an internal key that is tweaked with
the root of a tree of compiled scripts. Keys are derived by the branch of the
placeholder and the address index.
-/

namespace LedgerSyscoin.Handler

open Foundation Common

variable {σ : Type}

/-! ## Derived keys -/

/-- The parameters of a derivation that change within a wallet: whether a change address is
derived, and the address index. -/
structure WalletDerivationInfo where
  change : Bool
  addressIndex : UInt32
  deriving DecidableEq, Repr

/-- What the derivation of keys rests on: the extended keys of the policy, which come from the
client, the derivation of public children and the key hash. -/
structure KeyAccess (σ ExtPubkey : Type) where
  getExtendedPubkey : Nat → σ → Option (ExtPubkey × σ)
  bip32CKDpub : ExtPubkey → UInt32 → ExtPubkey
  compressedPubkey : ExtPubkey → CompressedPubkey
  cryptoHash160 : Bytes → Hash160
  staleByte : UInt8

section Derivation

variable {ExtPubkey : Type} (access : KeyAccess σ ExtPubkey)

/-- The `/<branch>/<address_index>` child of an extended key. -/
def deriveChild (wdi : WalletDerivationInfo) (keyPlaceholder : KeyPlaceholder)
    (extPubkey : ExtPubkey) : CompressedPubkey :=
  let branch := if wdi.change then keyPlaceholder.numSecond else keyPlaceholder.numFirst
  access.compressedPubkey
    (access.bip32CKDpub (access.bip32CKDpub extPubkey branch) wdi.addressIndex)

def getDerivedPubkey (wdi : WalletDerivationInfo) (keyPlaceholder : KeyPlaceholder)
    (client : σ) : Option (CompressedPubkey × σ) :=
  (access.getExtendedPubkey keyPlaceholder.keyIndex client).map fun (extPubkey, client) =>
    (deriveChild access wdi keyPlaceholder extPubkey, client)

/-- The surroundings of the compiler at a derivation. -/
def scriptContext (wdi : WalletDerivationInfo) : ScriptContext σ where
  getDerivedPubkey := getDerivedPubkey access wdi
  cryptoHash160 := access.cryptoHash160
  staleByte := access.staleByte

end Derivation

/-! ## Hashes of script trees -/

/-- The hash functions and the tweak of a public key. The result of the tweak is what the call
leaves in its output, since its return value is not looked at. -/
structure WalletCrypto where
  sha256 : HashFunction
  ripemd160 : Bytes → Hash160
  trTweakPubkey : Bytes → Bytes → Digest

section Trees

variable (crypto : WalletCrypto) (ctx : ScriptContext σ)

/-- The data behind the hash of a tag, twice. -/
def taggedMessage (tag data : Bytes) : Bytes :=
  (crypto.sha256 tag).val ++ (crypto.sha256 tag).val ++ data

def trTaggedHash (tag data : Bytes) : Digest :=
  crypto.sha256 (taggedMessage crypto tag data)

def tapleafTag : Bytes := "TapLeaf".toList.map ascii

def tapbranchTag : Bytes := "TapBranch".toList.map ascii

/-- A script with the leaf version `0xC0` and its length. -/
def tapleafData (length : Nat) (script : Bytes) : Bytes :=
  0xC0 :: varintWrite length ++ script

def tapleafHash (length : Nat) (script : Bytes) : Digest :=
  trTaggedHash crypto tapleafTag (tapleafData length script)

def trCombineTaptreeHashes (left right : Digest) : Digest :=
  if left.val < right.val then trTaggedHash crypto tapbranchTag (left.val ++ right.val)
  else trTaggedHash crypto tapbranchTag (right.val ++ left.val)

/-- The compiler as a part of a program. -/
def internalScript (policy : PolicyNode) (scriptType : InternalScriptType) (client : σ) :
    Fuelled ScriptFailure (InternalScript σ) :=
  fun fuel => getWalletInternalScriptHash ctx policy scriptType client fuel

/-- The hash of a leaf. The script is compiled twice, the first time only for its length. -/
def computeTapleafHash (script : PolicyNode) (client : σ) :
    Fuelled ScriptFailure (Digest × σ) := do
  let sized ← internalScript ctx script .tapscript client
  let hashed ← internalScript ctx script .tapscript sized.client
  return (tapleafHash crypto sized.length.toNat hashed.output, hashed.client)

def computeTaptreeHash : PolicyTree → σ → Fuelled ScriptFailure (Digest × σ)
  | .leaf script, client => computeTapleafHash crypto ctx script client
  | .branch leftTree rightTree, client => do
    let (left, client) ← computeTaptreeHash leftTree client
    let (right, client) ← computeTaptreeHash rightTree client
    return (trCombineTaptreeHashes crypto left right, client)

/-! ## Output scripts -/

/-- A derived key as a part of a program. -/
def derivedKey (keyPlaceholder : KeyPlaceholder) (client : σ) :
    Fuelled ScriptFailure (CompressedPubkey × σ) :=
  match ctx.getDerivedPubkey keyPlaceholder client with
  | some derived => pure derived
  | none => throw .failed

/-- `HASH160 <hash> EQUAL` of the SHA-256 hash of a script. -/
def p2shScript (scriptHash : Digest) : Bytes :=
  [opHash160, 20] ++ (crypto.ripemd160 scriptHash.val).val ++ [opEqual]

/-- The output script of a policy. -/
def getWalletScript (policy : PolicyNode) (client : σ) : Fuelled ScriptFailure (Bytes × σ) :=
  match policy with
  | .withKey .pkh key => do
    let (pubkey, client) ← derivedKey ctx key client
    return ([opDup, opHash160, 20] ++ (ctx.cryptoHash160 pubkey.val).val ++
      [opEqualverify, opChecksig], client)
  | .withKey .wpkh key => do
    let (pubkey, client) ← derivedKey ctx key client
    return ([op0, 20] ++ (ctx.cryptoHash160 pubkey.val).val, client)
  | .sh (.wsh core) => do
    let script ← internalScript ctx core .shWsh client
    let witnessProgram := [op0, 32] ++ (crypto.sha256 script.output).val
    return (p2shScript crypto (crypto.sha256 witnessProgram), script.client)
  | .sh core => do
    let script ← internalScript ctx core .sh client
    return (p2shScript crypto (crypto.sha256 script.output), script.client)
  | .wsh core => do
    let script ← internalScript ctx core .wsh client
    return ([op0, 32] ++ (crypto.sha256 script.output).val, script.client)
  | .tr key none => do
    let (pubkey, client) ← derivedKey ctx key client
    return ([op1, 32] ++ (crypto.trTweakPubkey (pubkey.val.drop 1) []).val, client)
  | .tr key (some tree) => do
    let (pubkey, client) ← derivedKey ctx key client
    let (root, client) ← computeTaptreeHash crypto ctx tree client
    return ([op1, 32] ++ (crypto.trTweakPubkey (pubkey.val.drop 1) root.val).val, client)
  | _ => throw .failed

end Trees

end LedgerSyscoin.Handler
