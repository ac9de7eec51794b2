import LedgerSyscoin.Common.Wallet.Lexer
import LedgerSyscoin.Common.Wallet.Types
import LedgerSyscoin.Foundation.Attempt

/-!
# The descriptor template parser

The parser of the source is a recursive descent that allocates the nodes in an output
buffer of fixed size. The model keeps the unread input and the number of bytes
allocated; the nodes are a syntax tree. The sizes of the structures of the source are a
parameter. Running out of the fuel of the recursion is an error apart from the rejection
of the template.
-/

namespace LedgerSyscoin.Common

open Foundation

/-- The sizes of the structures that the parser allocates. -/
structure Layout where
  constant : Nat
  withKey : Nat
  withUint32 : Nat
  withHash256 : Nat
  withHash160 : Nat
  multisig : Nat
  withScript : Nat
  withScript2 : Nat
  withScript3 : Nat
  thresh : Nat
  scriptlist : Nat
  tr : Nat
  tree : Nat
  keyPlaceholder : Nat

/-- The sizes with a node header of two bytes and pointers of four bytes. -/
def deviceLayout : Layout where
  constant := 2
  withKey := 8
  withUint32 := 8
  withHash256 := 34
  withHash160 := 22
  multisig := 12
  withScript := 4
  withScript2 := 6
  withScript3 := 8
  thresh := 12
  scriptlist := 8
  tr := 12
  tree := 6
  keyPlaceholder := 12

/-- What is fixed during a run of the parser: the version of the policy, the sizes of
the structures and the size of the output buffer. -/
structure TemplateSettings where
  version : WalletPolicyVersion
  layout : Layout
  outLen : Nat

/-- The unread input and the number of bytes allocated in the output buffer. -/
structure TemplateState where
  input : Bytes
  allocated : Nat

inductive TemplateError where
  | rejected
  | outOfFuel
  deriving DecidableEq, Repr

abbrev TemplateParser (α : Type) := Attempt TemplateState TemplateError α

/-- A parsed script with its miniscript flags. -/
structure ParsedScript where
  node : PolicyNode
  flags : Option MiniscriptFlags

/-- Where a script stands: below `sh`, below `wsh`, in a script tree. -/
structure ScriptPlace where
  withinSh : Bool
  withinWsh : Bool
  withinTr : Bool
  deriving DecidableEq, Repr

def maxTaptreePolicyDepth : Nat := 4

/-! ## Elementary steps -/

section Steps

variable {α : Type} (settings : TemplateSettings)

def ensure (condition : Bool) : TemplateParser Unit :=
  if condition then pure () else throw .rejected

/-- Read a lexical element. -/
def readInput (reader : Bytes → Option (α × Bytes)) : TemplateParser α := fun state =>
  match reader state.input with
  | some (value, rest) => .ok (value, { state with input := rest })
  | none => .error .rejected

def expectCharacter (expected : Char) : TemplateParser Unit :=
  readInput fun input => (consumeCharacter expected input).map ((), ·)

/-- Skip a character if it is the expected one, and tell whether it was. -/
def acceptCharacter (expected : Char) : TemplateParser Bool :=
  readInput fun input =>
    match consumeCharacter expected input with
    | some rest => some (true, rest)
    | none => some (false, input)

def peekCharacter : TemplateParser (Option UInt8) := do
  return (← get).input.head?

/-- The bytes that bring the end of the allocated part to a multiple of four. -/
def alignmentPadding (allocated : Nat) : Nat := (4 - allocated % 4) % 4

/-- Allocate an aligned structure of the given size. -/
def bufferAlloc (size : Nat) : TemplateParser Unit := do
  let state ← get
  let allocated := state.allocated + alignmentPadding state.allocated + size
  if allocated ≤ settings.outLen then set { state with allocated }
  else throw .rejected

/-- Align the end of the allocated part. The source ignores a failure of this step. -/
def bufferAlign : TemplateParser Unit := do
  let state ← get
  let allocated := state.allocated + alignmentPadding state.allocated
  if allocated ≤ settings.outLen then set { state with allocated }

/-- The flags of a script that has to be miniscript. -/
def miniscriptFlags (script : ParsedScript) : TemplateParser MiniscriptFlags :=
  match script.flags with
  | some flags => pure flags
  | none => throw .rejected

/-- The flags computed by a typing rule. -/
def typed (flags : Option MiniscriptFlags) : TemplateParser MiniscriptFlags :=
  match flags with
  | some flags => pure flags
  | none => throw .rejected

end Steps

/-! ## Wrappers -/

def wrapperOfCharacter (c : UInt8) : Option WrapperToken :=
  if c = ascii 'a' then some .a
  else if c = ascii 's' then some .s
  else if c = ascii 'c' then some .c
  else if c = ascii 't' then some .t
  else if c = ascii 'd' then some .d
  else if c = ascii 'v' then some .v
  else if c = ascii 'j' then some .j
  else if c = ascii 'n' then some .n
  else if c = ascii 'l' then some .l
  else if c = ascii 'u' then some .u
  else none

/-- The wrapper characters at the start of the input. -/
def leadingWrappers : Bytes → List WrapperToken × Bytes
  | [] => ([], [])
  | c :: rest =>
    match wrapperOfCharacter c with
    | some token => (token :: (leadingWrappers rest).1, (leadingWrappers rest).2)
    | none => ([], c :: rest)

/-- The wrappers in front of a colon. Without a colon the characters belong to the
fragment's own name. -/
def readWrappers (input : Bytes) : List WrapperToken × Bytes :=
  let (wrappers, rest) := leadingWrappers input
  match consumeCharacter ':' rest with
  | some rest => (wrappers, rest)
  | none => ([], input)

def allocateWrappers (settings : TemplateSettings) : List WrapperToken → TemplateParser Unit
  | [] => pure ()
  | _ :: inner => do
    bufferAlloc settings settings.layout.withScript
    allocateWrappers settings inner

/-- Read the wrappers of a script and allocate their nodes. -/
def parseWrappers (settings : TemplateSettings) : TemplateParser (List WrapperToken) := do
  let wrappers ← readInput fun input => some (readWrappers input)
  allocateWrappers settings wrappers
  return wrappers

/-- Put the wrappers around a script, from the innermost one outwards. -/
def applyWrappers (script : ParsedScript) : List WrapperToken → TemplateParser ParsedScript
  | [] => pure script
  | token :: inner => do
    let wrapped ← applyWrappers script inner
    let flags ← typed (wrapperFlags token (← miniscriptFlags wrapped))
    return ⟨.wrapper token wrapped.node, some flags⟩

/-! ## Contexts -/

/-- Whether a token may stand at a place: the whitelists of script trees, of `sh` and of
`sh(wsh())`. -/
def tokenAllowed (place : ScriptPlace) (depth : Nat) (token : PolicyNodeType) : Bool :=
  (!place.withinTr || token ∈ [.pk, .multiA, .sortedmultiA]) &&
    (!place.withinSh || token ∈ [.pk, .pkh, .multi, .sortedmulti, .wpkh, .wsh]) &&
    (!(place.withinSh && place.withinWsh && depth = 2) ||
      token ∈ [.pk, .pkh, .multi, .sortedmulti])

/-- All tokens but the constants have parentheses. -/
def hasParentheses (token : PolicyNodeType) : Bool := token ≠ .zero && token ≠ .one

/-- The number of `sh` and `wsh` around a place. -/
def shWrappers (place : ScriptPlace) : Nat := place.withinSh.toNat + place.withinWsh.toNat

/-! ## Fragments

The functions below take the parser of the child scripts and the parser of script
trees as arguments. -/

section Fragments

variable (settings : TemplateSettings) (script : Nat → ScriptPlace → TemplateParser ParsedScript)
  (tree : Nat → TemplateParser PolicyTree) (depth : Nat) (place : ScriptPlace)

def parseConstant (token : ConstantToken) : TemplateParser ParsedScript := do
  bufferAlloc settings settings.layout.constant
  return ⟨.constant token, some (constantFlags token)⟩

def parseSh : TemplateParser ParsedScript := do
  ensure (depth = 0)
  bufferAlloc settings settings.layout.withScript
  bufferAlign settings
  let inner ← script (depth + 1) { place with withinSh := true }
  return ⟨.sh inner.node, none⟩

def parseWsh : TemplateParser ParsedScript := do
  ensure (depth = 0 || place.withinSh)
  bufferAlloc settings settings.layout.withScript
  bufferAlign settings
  let inner ← script (depth + 1) { place with withinWsh := true }
  return ⟨.wsh inner.node, none⟩

def parseHash256 (token : Hash256Token) : TemplateParser ParsedScript := do
  bufferAlloc settings settings.layout.withHash256
  let hash ← readInput (bufferReadHexHash 32)
  return ⟨.withHash256 token hash, some hashFlags⟩

def parseHash160 (token : Hash160Token) : TemplateParser ParsedScript := do
  bufferAlloc settings settings.layout.withHash160
  let hash ← readInput (bufferReadHexHash 20)
  return ⟨.withHash160 token hash, some hashFlags⟩

/-- Parse one child script, at an aligned position of the output buffer. -/
def parseChildScript : TemplateParser ParsedScript := do
  bufferAlign settings
  script (depth + 1) place

def parseAndor : TemplateParser ParsedScript := do
  bufferAlloc settings settings.layout.withScript3
  let x ← parseChildScript settings script depth place
  expectCharacter ','
  let y ← parseChildScript settings script depth place
  expectCharacter ','
  let z ← parseChildScript settings script depth place
  let flags ← typed (andorFlags (← miniscriptFlags x) (← miniscriptFlags y) (← miniscriptFlags z))
  return ⟨.andor x.node y.node z.node, some flags⟩

def parseScript2 (token : Script2Token) : TemplateParser ParsedScript := do
  bufferAlloc settings settings.layout.withScript2
  let x ← parseChildScript settings script depth place
  expectCharacter ','
  let y ← parseChildScript settings script depth place
  let flags ← typed (script2Flags token (← miniscriptFlags x) (← miniscriptFlags y))
  return ⟨.withScript2 token x.node y.node, some flags⟩

/-- The loop over the children of a threshold. -/
def parseThreshChildren : Nat → Bool → TemplateParser (List (PolicyNode × MiniscriptFlags))
  | 0, _ => throw .outOfFuel
  | fuel + 1, first => do
    let child ← parseChildScript settings script depth place
    let flags ← miniscriptFlags child
    ensure (threshChildAllowed first flags)
    if ← acceptCharacter ',' then
      bufferAlloc settings settings.layout.scriptlist
      let rest ← parseThreshChildren fuel false
      return (child.node, flags) :: rest
    else return [(child.node, flags)]

/-- Read a threshold, a number of at most 15 bits. -/
def parseThreshold : TemplateParser Nat := do
  let k ← readInput parseUnsignedDecimal
  ensure (k ≤ int16Max)
  return k.toNat

def parseThresh : TemplateParser ParsedScript := do
  bufferAlloc settings settings.layout.thresh
  let k ← parseThreshold
  expectCharacter ','
  ensure (1 ≤ k)
  bufferAlloc settings settings.layout.scriptlist
  let fuel := (← get).input.length + 1
  let children ← parseThreshChildren settings script depth place fuel true
  return ⟨.thresh k (children.map (·.1)), some (threshFlags (children.map (·.2)))⟩

def parseWithKey (token : KeyToken) : TemplateParser ParsedScript := do
  bufferAlloc settings settings.layout.withKey
  bufferAlloc settings settings.layout.keyPlaceholder
  ensure (token ≠ .wpkh || depth = 0 || place.withinSh)
  let keyPlaceholder ← readInput (parsePlaceholder settings.version)
  return ⟨.withKey token keyPlaceholder, keyFlags token⟩

def parseTr : TemplateParser ParsedScript := do
  ensure (depth ≤ 1)
  bufferAlloc settings settings.layout.tr
  bufferAlloc settings settings.layout.keyPlaceholder
  let keyPlaceholder ← readInput (parsePlaceholder settings.version)
  if ← acceptCharacter ',' then
    bufferAlign settings
    let scripts ← tree (depth + 1)
    return ⟨.tr keyPlaceholder (some scripts), none⟩
  else
    let c ← peekCharacter
    ensure (c = some (ascii ')'))
    return ⟨.tr keyPlaceholder none, none⟩

def parseWithUint32 (token : TimelockToken) : TemplateParser ParsedScript := do
  bufferAlloc settings settings.layout.withUint32
  let n ← readInput parseUnsignedDecimal
  ensure (1 ≤ n && n < 0x80000000)
  return ⟨.withUint32 token n, some timelockFlags⟩

/-- The loop over the key placeholders of a multisignature. -/
def parseKeyPlaceholders : Nat → TemplateParser (List KeyPlaceholder)
  | 0 => throw .outOfFuel
  | fuel + 1 => do
    if (← peekCharacter) = some (ascii ')') then return []
    else
      expectCharacter ','
      bufferAlloc settings settings.layout.keyPlaceholder
      let keyPlaceholder ← readInput (parsePlaceholder settings.version)
      let rest ← parseKeyPlaceholders fuel
      return keyPlaceholder :: rest

def parseMultisig (token : MultisigToken) : TemplateParser ParsedScript := do
  bufferAlloc settings settings.layout.multisig
  ensure (token ≠ .sortedmulti || depth = shWrappers place)
  let k ← parseThreshold
  bufferAlign settings
  let fuel := (← get).input.length + 1
  let keyPlaceholders ← parseKeyPlaceholders settings fuel
  ensure (1 ≤ k && k ≤ keyPlaceholders.length && keyPlaceholders.length ≤ maxPubkeysPerMultisig)
  return ⟨.multisig token k keyPlaceholders, multisigFlags token⟩

/-- The part of a script between the parentheses. -/
def parseFragment : PolicyNodeType → TemplateParser ParsedScript
  | .zero => parseConstant settings .zero
  | .one => parseConstant settings .one
  | .sh => parseSh settings script depth place
  | .wsh => parseWsh settings script depth place
  | .sha256 => parseHash256 settings .sha256
  | .hash256 => parseHash256 settings .hash256
  | .ripemd160 => parseHash160 settings .ripemd160
  | .hash160 => parseHash160 settings .hash160
  | .andor => parseAndor settings script depth place
  | .andV => parseScript2 settings script depth place .andV
  | .andB => parseScript2 settings script depth place .andB
  | .andN => parseScript2 settings script depth place .andN
  | .orB => parseScript2 settings script depth place .orB
  | .orC => parseScript2 settings script depth place .orC
  | .orD => parseScript2 settings script depth place .orD
  | .orI => parseScript2 settings script depth place .orI
  | .thresh => parseThresh settings script depth place
  | .pk => parseWithKey settings depth place .pk
  | .pkh => parseWithKey settings depth place .pkh
  | .pkK => parseWithKey settings depth place .pkK
  | .pkH => parseWithKey settings depth place .pkH
  | .wpkh => parseWithKey settings depth place .wpkh
  | .tr => parseTr settings tree depth
  | .older => parseWithUint32 settings .older
  | .after => parseWithUint32 settings .after
  | .multi => parseMultisig settings depth place .multi
  | .multiA => parseMultisig settings depth place .multiA
  | .sortedmulti => parseMultisig settings depth place .sortedmulti
  | .sortedmultiA => parseMultisig settings depth place .sortedmultiA
  | _ => throw .rejected

end Fragments

/-! ## Scripts and script trees -/

/-- Read the name of a fragment. -/
def readPolicyNodeType (input : Bytes) : Option (PolicyNodeType × Bytes) :=
  (parseToken input).1.map (·, (parseToken input).2)

/-- Miniscript wrappers are read only inside a top-level `wsh`. -/
def parseOptionalWrappers (settings : TemplateSettings) (place : ScriptPlace) :
    TemplateParser (List WrapperToken) :=
  if place.withinWsh && !place.withinSh then parseWrappers settings else pure []

def expectParenthesis (token : PolicyNodeType) (parenthesis : Char) : TemplateParser Unit :=
  if hasParentheses token then expectCharacter parenthesis else pure ()

/-- A script: the wrappers, the name of the fragment and its arguments. -/
def parseScriptWith (settings : TemplateSettings)
    (script : Nat → ScriptPlace → TemplateParser ParsedScript)
    (tree : Nat → TemplateParser PolicyTree) (depth : Nat) (place : ScriptPlace) :
    TemplateParser ParsedScript := do
  let wrappers ← parseOptionalWrappers settings place
  let token ← readInput readPolicyNodeType
  ensure (tokenAllowed place depth token)
  expectParenthesis token '('
  let parsed ← parseFragment settings script tree depth place token
  expectParenthesis token ')'
  -- nothing may follow the top-level script
  ensure (depth ≠ 0 || (← get).input = [])
  applyWrappers parsed wrappers

/-- A script tree: a script, or two trees in braces. -/
def parseTreeWith (settings : TemplateSettings)
    (script : Nat → ScriptPlace → TemplateParser ParsedScript)
    (tree : Nat → TemplateParser PolicyTree) (depth : Nat) : TemplateParser PolicyTree := do
  ensure (depth ≤ maxTaptreePolicyDepth)
  ensure ((← get).allocated % 4 = 0)
  bufferAlloc settings settings.layout.tree
  ensure (← peekCharacter).isSome
  if ← acceptCharacter '\x7b' then
    bufferAlign settings
    let leftTree ← tree (depth + 1)
    expectCharacter ','
    bufferAlign settings
    let rightTree ← tree (depth + 1)
    expectCharacter '\x7d'
    return .branch leftTree rightTree
  else
    bufferAlign settings
    let leaf ← script (depth + 1) ⟨false, false, true⟩
    return .leaf leaf.node

mutual

/-- The parser of scripts. -/
def parseScript (settings : TemplateSettings) :
    Nat → Nat → ScriptPlace → TemplateParser ParsedScript
  | 0 => fun _ _ => throw .outOfFuel
  | fuel + 1 => parseScriptWith settings (parseScript settings fuel) (parseTree settings fuel)

/-- The parser of script trees. -/
def parseTree (settings : TemplateSettings) : Nat → Nat → TemplateParser PolicyTree
  | 0 => fun _ => throw .outOfFuel
  | fuel + 1 => parseTreeWith settings (parseScript settings fuel) (parseTree settings fuel)

end

/-- Parse a descriptor template into an output buffer of `settings.outLen` bytes. -/
def parseDescriptorTemplate (settings : TemplateSettings) (template : Bytes) :
    Except TemplateError PolicyNode :=
  (parseScript settings (2 * template.length + 1) 0 ⟨false, false, false⟩ ⟨template, 0⟩).map
    (·.1.node)

end LedgerSyscoin.Common
