import Mathlib.Data.List.Sort
import LedgerSyscoin.Handler.Lib.Policy.InternalScript

/-!
# Compilation of a policy by recursion

The meaning of a policy as a script, by recursion over its syntax tree: each
fragment is a list of opcodes and pushes around the scripts of its children, and
`v:X` is the verifying form of the script of `X`. The compiler with the explicit
stack is compared with this definition.
-/

namespace LedgerSyscoin.Handler

open Foundation Common

/-- The keys of a policy at some change and address index, with the key hash. -/
structure KeySource where
  pubkey : KeyPlaceholder → CompressedPubkey
  hash160 : Bytes → Hash160

namespace KeySource

variable (keys : KeySource)

/-- The bytes of a key that a script holds: x-only within taproot. -/
def keyData (isTaproot : Bool) (keyPlaceholder : KeyPlaceholder) : Bytes :=
  if isTaproot then (keys.pubkey keyPlaceholder).val.drop 1 else (keys.pubkey keyPlaceholder).val

/-- The hash of a key. -/
def keyHash (keyPlaceholder : KeyPlaceholder) : Bytes :=
  (keys.hash160 (keys.pubkey keyPlaceholder).val).val

end KeySource

/-- The keys of a multisignature in the order of the script. -/
def multisigKeys (keys : KeySource) (token : MultisigToken)
    (keyPlaceholders : List KeyPlaceholder) : List Bytes :=
  match token with
  | .multi => keyPlaceholders.map (keys.keyData false)
  | .sortedmulti => (keyPlaceholders.map (keys.keyData false)).insertionSort (· ≤ ·)
  | .multiA => keyPlaceholders.map (keys.keyData true)
  | .sortedmultiA => (keyPlaceholders.map (keys.keyData true)).insertionSort (· ≤ ·)

/-- `<pk_1> CHECKSIG <pk_2> CHECKSIGADD ... <pk_n> CHECKSIGADD` -/
def checksigAdds : List Bytes → Script
  | [] => []
  | key :: rest =>
    [.push key, .op opChecksig] ++ rest.flatMap fun key => [.push key, .op opChecksigadd]

/-- `[X1] [X2] ADD ... [Xn] ADD` -/
def addScripts : List Script → Script
  | [] => []
  | script :: rest => script ++ rest.flatMap fun script => script ++ [.op opAdd]

def hash256Opcode : Hash256Token → UInt8
  | .sha256 => opSha256
  | .hash256 => opHash256

def hash160Opcode : Hash160Token → UInt8
  | .ripemd160 => opRipemd160
  | .hash160 => opHash160

def timelockOpcode : TimelockToken → UInt8
  | .older => opCsv
  | .after => opCltv

section Compile

variable (keys : KeySource) (isTaproot : Bool)

/-- The script of a node without children. -/
def compileLeaf : PolicyNode → Script
  | .constant .zero => [.op op0]
  | .constant .one => [.op op1]
  | .withKey .pkK key => [.push (keys.keyData isTaproot key)]
  | .withKey .pkH key =>
    [.op opDup, .op opHash160, .push (keys.keyHash key), .op opEqualverify]
  | .withKey .pk key => [.push (keys.keyData isTaproot key), .op opChecksig]
  | .withKey .pkh key =>
    [.op opDup, .op opHash160, .push (keys.keyHash key), .op opEqualverify, .op opChecksig]
  | .withKey .wpkh key => [.op op0, .push (keys.keyHash key)]
  | .withUint32 token n => [pushInteger n, .op (timelockOpcode token)]
  | .withHash256 token h =>
    [.op opSize, pushInteger 32, .op opEqualverify, .op (hash256Opcode token),
      .push h.val, .op opEqual]
  | .withHash160 token h =>
    [.op opSize, pushInteger 32, .op opEqualverify, .op (hash160Opcode token),
      .push h.val, .op opEqual]
  | .multisig token k keyPlaceholders =>
    let pubkeys := multisigKeys keys token keyPlaceholders
    match token with
    | .multi | .sortedmulti =>
      [pushInteger (UInt32.ofNat k)] ++ pubkeys.map .push ++
        [pushInteger (UInt32.ofNat pubkeys.length), .op opCheckmultisig]
    | .multiA | .sortedmultiA =>
      checksigAdds pubkeys ++ [pushInteger (UInt32.ofNat k), .op opNumequal]
  | _ => []

/-- The script of a wrapper around the script of its child. -/
def compileWrapper (x : Script) : WrapperToken → Script
  | .a => [.op opToaltstack] ++ x ++ [.op opFromaltstack]
  | .s => [.op opSwap] ++ x
  | .c => x ++ [.op opChecksig]
  | .t => x ++ [.op op1]
  | .d => [.op opDup, .op opIf] ++ x ++ [.op opEndif]
  | .v => Script.verify x
  | .j => [.op opSize, .op op0notequal, .op opIf] ++ x ++ [.op opEndif]
  | .n => x ++ [.op op0notequal]
  | .l => [.op opIf, .op op0, .op opElse] ++ x ++ [.op opEndif]
  | .u => [.op opIf] ++ x ++ [.op opElse, .op op0, .op opEndif]

/-- The script of a combinator around the scripts of its two children. -/
def compileScript2 (x y : Script) : Script2Token → Script
  | .andV => x ++ y
  | .andB => x ++ y ++ [.op opBooland]
  | .andN => x ++ [.op opNotif, .op op0, .op opElse] ++ y ++ [.op opEndif]
  | .orB => x ++ y ++ [.op opBoolor]
  | .orC => x ++ [.op opNotif] ++ y ++ [.op opEndif]
  | .orD => x ++ [.op opIfdup, .op opNotif] ++ y ++ [.op opEndif]
  | .orI => [.op opIf] ++ x ++ [.op opElse] ++ y ++ [.op opEndif]

mutual

/-- The script of a policy. The top-level script types are not compiled themselves. -/
def compile : PolicyNode → Script
  | .wrapper token script => compileWrapper (compile script) token
  | .withScript2 token first second => compileScript2 (compile first) (compile second) token
  | .andor first second third =>
    compile first ++ [.op opNotif] ++ compile third ++ [.op opElse] ++ compile second ++
      [.op opEndif]
  | .thresh k scriptlist =>
    addScripts (compileList scriptlist) ++ [pushInteger (UInt32.ofNat k), .op opEqual]
  | .sh _ => []
  | .wsh _ => []
  | .tr _ _ => []
  | node => compileLeaf keys isTaproot node

def compileList : List PolicyNode → List Script
  | [] => []
  | node :: rest => compile node :: compileList rest

end

theorem compileList_eq_map (nodes : List PolicyNode) :
    compileList keys isTaproot nodes = nodes.map (compile keys isTaproot) := by
  induction nodes with
  | nil => rfl
  | cons node rest ih => rw [compileList, ih, List.map_cons]

/-- The script of a node, as a VERIFY if asked for. -/
def compileFlagged (verify : Bool) (node : PolicyNode) : Script :=
  if verify then Script.verify (compile keys isTaproot node) else compile keys isTaproot node

end Compile

/-! ## Policies the stack compiler is meant for -/

/-- The fragments whose compilation obeys an inherited `v:`. The others are no argument of
`v:` in the type system of miniscript: they are of type K, V or W, or no miniscript. -/
def takesVerify : PolicyNode → Bool
  | .withKey .pkK _ | .withKey .pkH _ | .withKey .wpkh _ => false
  | .wrapper .a _ | .wrapper .s _ | .wrapper .v _ => false
  | .withScript2 .andV _ second => takesVerify second
  | .sh _ | .wsh _ | .tr _ _ => false
  | _ => true

/-- The bounds a single node has to respect: `v:` has an argument it applies to,
thresholds count their children in a byte, and the numbers of a multisignature are those of
the opcodes `OP_1` to `OP_16`; keys that are sorted are smaller than the initial value of the
search. -/
def WithinBounds (keys : KeySource) : PolicyNode → Prop
  | .wrapper .v script => takesVerify script = true
  | .thresh _ scriptlist => scriptlist.length ≤ 255
  | .multisig token k keyPlaceholders =>
    1 ≤ k ∧ k ≤ 16 ∧
      (token = .multi ∨ token = .sortedmulti →
        1 ≤ keyPlaceholders.length ∧ keyPlaceholders.length ≤ maxPubkeysPerMultisig) ∧
      (token = .sortedmulti →
        ∀ key ∈ keyPlaceholders, keys.keyData false key ≠ List.replicate 33 0xff) ∧
      (token = .sortedmultiA →
        ∀ key ∈ keyPlaceholders, keys.keyData true key ≠ List.replicate 32 0xff)
  | _ => True

end LedgerSyscoin.Handler
