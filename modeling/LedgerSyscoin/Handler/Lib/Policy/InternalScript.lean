import LedgerSyscoin.Common.Bitvector
import LedgerSyscoin.Foundation.Loop
import LedgerSyscoin.Handler.Lib.Policy.Commands

/-!
# The script compiler

`get_wallet_internal_script_hash` compiles a wallet policy to Script without recursion:
a bounded stack holds the nodes being compiled, each with the bytes emitted for it, the
step of its processor and its flags. A turn of the loop runs the processor of the
topmost node, which emits bytes and then is done, goes to its next step, or pushes a
child. Keys are derived with the help of the client.
-/

namespace LedgerSyscoin.Handler

open Foundation Common

/-- A compressed public key. -/
abbrev CompressedPubkey := { bytes : Bytes // bytes.length = 33 }

/-- How the compiler can stop without a script: with a negative return value, or with an
access outside an array, after which the behaviour of the program is undefined. -/
inductive ScriptFailure where
  | failed
  | undefined
  deriving DecidableEq, Repr

/-- What the compiler uses from its surroundings: key derivation at a fixed change and
address index, the key hash, and the memory in which `process_multi_a_sortedmulti_a_node`
places the second byte of its bitvector. -/
structure ScriptContext (σ : Type) where
  getDerivedPubkey : KeyPlaceholder → σ → Option (CompressedPubkey × σ)
  cryptoHash160 : Bytes → Hash160
  staleByte : UInt8

def maxPolicyDepth : Nat := 10

/-- The last opcode must be processed as a VERIFY. -/
def processorFlagV : UInt8 := 1

/-- The state of a node being compiled. -/
structure NodeState where
  policyNode : PolicyNode
  length : UInt16
  step : UInt8
  flags : UInt8

/-- The state of the compiler: the stack of nodes, topmost first, the bytes fed to the
hash so far and the client. -/
structure ParserState (σ : Type) where
  nodes : List NodeState
  output : Bytes
  client : σ

/-- The compiled script and the returned length. -/
structure InternalScript (σ : Type) where
  length : UInt16
  output : Bytes
  client : σ

/-- What a processor does after emitting its bytes. -/
inductive Action where
  | done
  | next
  | push (policyNode : PolicyNode) (flags : UInt8)

/-- The result of a call of a processor. -/
structure Emission (σ : Type) where
  action : Action
  bytes : Bytes
  client : σ

/-- A processor looks at the topmost node and may talk to the client. -/
abbrev Processor (σ : Type) := NodeState → σ → Except ScriptFailure (Emission σ)

/-! ## Output -/

/-- The minimal push of an unsigned 32-bit integer. -/
def outputPushU32 (n : UInt32) : Bytes :=
  if n = 0 then [op0]
  else if n ≤ 16 then [0x50 + n.toUInt8]
  else
    let nLe := leBytes 4 n.toNat
    let byteSize :=
      if n ≤ 0x7f then 1
      else if n ≤ 0x7fff then 2
      else if n ≤ 0x7fffff then 3
      else if n ≤ 0x7fffffff then 4
      else 5
    -- script numbers are signed, so the largest integers need an extra zero byte
    UInt8.ofNat byteSize :: (if byteSize < 5 then nLe.take byteSize else nLe ++ [0])

/-- An opcode, as a VERIFY if the flag asks for it. -/
def outputOpV (flags op : UInt8) : Bytes :=
  if flags &&& processorFlagV ≠ 0 then
    if op = opChecksig ∨ op = opCheckmultisig ∨ op = opNumequal ∨ op = opEqual then [op + 1]
    else [op, opVerify]
  else [op]

section Compiler

variable {σ : Type} (ctx : ScriptContext σ)

/-- Derive a key; a failure makes the compiler fail. -/
def derivePubkey (keyPlaceholder : KeyPlaceholder) (client : σ) :
    Except ScriptFailure (CompressedPubkey × σ) :=
  match ctx.getDerivedPubkey keyPlaceholder client with
  | none => .error .failed
  | some derived => .ok derived

/-! ## The generic processor -/

/-- The push of a key: x-only within taproot. -/
def pushPubkey (isTaproot : Bool) (compressedPubkey : CompressedPubkey) : Bytes :=
  if isTaproot then 32 :: compressedPubkey.val.drop 1 else 33 :: compressedPubkey.val

/-- Execute one command for a node. The data a command pushes and the children it
processes are those of the node's own kind. -/
def executeCommand (isTaproot : Bool) (node : NodeState) (client : σ) :
    Command → Except ScriptFailure (Emission σ)
  | .op data => .ok ⟨.next, [data], client⟩
  | .opV data => .ok ⟨.next, outputOpV node.flags data, client⟩
  | .pushPk =>
    match node.policyNode with
    | .withKey _ keyPlaceholder => do
      let (compressedPubkey, client) ← derivePubkey ctx keyPlaceholder client
      .ok ⟨.next, pushPubkey isTaproot compressedPubkey, client⟩
    | _ => .error .undefined
  | .pushPkh =>
    match node.policyNode with
    | .withKey _ keyPlaceholder => do
      let (compressedPubkey, client) ← derivePubkey ctx keyPlaceholder client
      .ok ⟨.next, 20 :: (ctx.cryptoHash160 compressedPubkey.val).val, client⟩
    | _ => .error .undefined
  | .pushUint32 =>
    match node.policyNode with
    | .withUint32 _ n => .ok ⟨.next, outputPushU32 n, client⟩
    | _ => .error .undefined
  | .pushHash20 =>
    match node.policyNode with
    | .withHash160 _ h => .ok ⟨.next, 20 :: h.val, client⟩
    | _ => .error .undefined
  | .pushHash32 =>
    match node.policyNode with
    | .withHash256 _ h => .ok ⟨.next, 32 :: h.val, client⟩
    | _ => .error .undefined
  | .processChild index =>
    match node.policyNode.scripts[index]? with
    | some child => .ok ⟨.push child 0, [], client⟩
    | none => .error .undefined
  | .processChildV index =>
    match node.policyNode.scripts[index]? with
    | some child => .ok ⟨.push child node.flags, [], client⟩
    | none => .error .undefined
  | .processChildVV index =>
    match node.policyNode.scripts[index]? with
    | some child => .ok ⟨.push child (node.flags ||| processorFlagV), [], client⟩
    | none => .error .undefined

def processGenericNode (isTaproot : Bool) (commands : List Command) : Processor σ :=
  fun node client =>
    if commands.length < node.step.toNat then .error .failed
    else
      match commands[node.step.toNat]? with
      | none => .ok ⟨.done, [], client⟩
      | some command => executeCommand ctx isTaproot node client command

/-! ## Processors of their own -/

def processPkhWpkhNode : Processor σ := fun node client =>
  if node.step ≠ 0 then .error .failed
  else
    match node.policyNode with
    | .withKey token keyPlaceholder => do
      let (compressedPubkey, client) ← derivePubkey ctx keyPlaceholder client
      let keyHash := (ctx.cryptoHash160 compressedPubkey.val).val
      if token = .pkh then
        .ok ⟨.done,
          [opDup, opHash160, 20] ++ keyHash ++ [opEqualverify] ++ outputOpV node.flags opChecksig,
          client⟩
      else
        .ok ⟨.done, [op0, 20] ++ keyHash, client⟩
    | _ => .error .undefined

/-- A step for each child, `[X1] / [X2] / ADD [X3] / ... / ADD [Xn]`, and a last step
`ADD <k> EQUAL`, without the `ADD` for a single child. -/
def processThreshNode : Processor σ := fun node client =>
  match node.policyNode with
  | .thresh k scriptlist =>
    if node.step.toNat < scriptlist.length then
      match scriptlist[node.step.toNat]? with
      | some child =>
        .ok ⟨.push child 0, if node.step > 1 then [opAdd] else [], client⟩
      | none => .error .undefined
    else
      .ok ⟨.done,
        (if scriptlist.length ≥ 2 then [opAdd] else []) ++ outputPushU32 (UInt32.ofNat k) ++
          outputOpV node.flags opEqual,
        client⟩
  | _ => .error .undefined

/-- The difference of the first bytes that differ. -/
def cmpArrays : Bytes → Bytes → Int
  | a :: as, b :: bs =>
    let diff : Int := a.toNat - b.toNat
    if diff ≠ 0 then diff else cmpArrays as bs
  | _, _ => 0

/-- Scan the keys from position `j` on for the smallest one not used yet, comparing from
byte `offset` on; the keys are derived one after the other. -/
def findSmallestUnused (offset : Nat) (used : Bytes) :
    List KeyPlaceholder → Nat → Bytes → Option Nat → σ →
      Except ScriptFailure (Bytes × Option Nat × σ)
  | [], _, smallest, smallestIndex, client => .ok (smallest, smallestIndex, client)
  | keyPlaceholder :: rest, j, smallest, smallestIndex, client =>
    match bitvectorGet used j with
    | none => .error .undefined
    | some true => findSmallestUnused offset used rest (j + 1) smallest smallestIndex client
    | some false => do
      let (current, client) ← derivePubkey ctx keyPlaceholder client
      if cmpArrays (smallest.drop offset) (current.val.drop offset) > 0 then
        findSmallestUnused offset used rest (j + 1) current.val (some j) client
      else
        findSmallestUnused offset used rest (j + 1) smallest smallestIndex client

/-- The key of round `i`: the `i`-th key, or when sorting the smallest unused one, which is
then marked. Without an unused key below the initial value the mark is set at index `-1`. -/
def nextMultisigKey (sorted : Bool) (offset : Nat) (keyPlaceholders : List KeyPlaceholder)
    (i : Nat) (used : Bytes) (client : σ) : Except ScriptFailure (Bytes × Bytes × σ) :=
  if sorted then do
    let (smallest, smallestIndex, client) ←
      findSmallestUnused ctx offset used keyPlaceholders 0 (List.replicate 33 0xff) none client
    match smallestIndex with
    | none => .error .undefined
    | some index =>
      match bitvectorSet used index true with
      | none => .error .undefined
      | some used => .ok (smallest, used, client)
  else
    match keyPlaceholders[i]? with
    | none => .error .undefined
    | some keyPlaceholder => do
      let (compressedPubkey, client) ← derivePubkey ctx keyPlaceholder client
      .ok (compressedPubkey.val, used, client)

/-- The key pushes of a multisignature in `rounds` rounds from round `i` on. -/
def emitMultisigKeys (sorted : Bool) (offset : Nat) (keyPlaceholders : List KeyPlaceholder)
    (pushKey : Nat → Bytes → Bytes) :
    Nat → Nat → Bytes → σ → Except ScriptFailure (Bytes × σ)
  | 0, _, _, client => .ok ([], client)
  | rounds + 1, i, used, client => do
    let (key, used, client) ←
      nextMultisigKey ctx sorted offset keyPlaceholders i used client
    let (bytes, client) ←
      emitMultisigKeys sorted offset keyPlaceholders pushKey rounds (i + 1) used client
    .ok (pushKey i key ++ bytes, client)

def processMultiSortedmultiNode : Processor σ := fun node client =>
  match node.policyNode with
  | .multisig token k keyPlaceholders =>
    if keyPlaceholders.length > maxPubkeysPerMultisig then .error .failed
    else do
      let used := List.replicate (bitvectorRealSize maxPubkeysPerMultisig) 0
      let (keys, client) ←
        emitMultisigKeys ctx (token ≠ .multi) 0 keyPlaceholders (fun _ key => 0x21 :: key)
          keyPlaceholders.length 0 used client
      .ok ⟨.done,
        [UInt8.ofNat (0x50 + k)] ++ keys ++ [UInt8.ofNat (0x50 + keyPlaceholders.length)] ++
          outputOpV node.flags opCheckmultisig,
        client⟩
  | _ => .error .undefined

/-- The bitvector of used keys is cleared with `sizeof(memset)`, which is one byte: its
second byte keeps what was in memory. -/
def processMultiASortedmultiANode : Processor σ := fun node client =>
  match node.policyNode with
  | .multisig token k keyPlaceholders =>
    if k > 16 then .error .failed
    else do
      let used := [0, ctx.staleByte]
      let (keys, client) ←
        emitMultisigKeys ctx (token ≠ .multiA) 1 keyPlaceholders
          (fun i key => 0x20 :: key.drop 1 ++ [if i = 0 then opChecksig else opChecksigadd])
          keyPlaceholders.length 0 used client
      .ok ⟨.done, keys ++ [UInt8.ofNat (0x50 + k)] ++ outputOpV node.flags opNumequal, client⟩
  | _ => .error .undefined

/-! ## The main loop -/

/-- The processor of a node; the top-level script types have none. -/
def processorOf (isTaproot : Bool) (type : PolicyNodeType) : Option (Processor σ) :=
  match type with
  | .pkh | .wpkh => some (processPkhWpkhNode ctx)
  | .thresh => some processThreshNode
  | .multi | .sortedmulti => some (processMultiSortedmultiNode ctx)
  | .multiA | .sortedmultiA => some (processMultiASortedmultiANode ctx)
  | type => (commandsOf type).map (processGenericNode ctx isTaproot)

variable {ctx}

/-- Push a node; fails when the stack is exhausted. -/
def stateStackPush (state : ParserState σ) (policyNode : PolicyNode) (flags : UInt8) :
    Except ScriptFailure (ParserState σ) :=
  if state.nodes.length ≥ maxPolicyDepth then .error .failed
  else .ok { state with nodes := ⟨policyNode, 0, 0, flags⟩ :: state.nodes }

/-- Pop a node off the stack below it, to which its length is added. The loop ends with
the length of the last node. -/
def stateStackPop (node : NodeState) (below : List NodeState) (output : Bytes) (client : σ) :
    ParserState σ ⊕ InternalScript σ :=
  match below with
  | [] => .inr ⟨node.length, output, client⟩
  | parent :: below =>
    .inl ⟨{ parent with length := parent.length + node.length } :: below, output, client⟩

variable (ctx)

/-- One turn of the main loop. -/
def scriptTurn (scriptType : InternalScriptType) (state : ParserState σ) :
    Except ScriptFailure (ParserState σ ⊕ InternalScript σ) :=
  match state.nodes with
  | [] => .error .failed
  | node :: below =>
    if node.policyNode.type ∉ fragmentWhitelist scriptType then .error .failed
    else
      match processorOf ctx (scriptType = .tapscript) node.policyNode.type with
      | none => .error .failed
      | some processor => do
        let emission ← processor node state.client
        let length := node.length + UInt16.ofNat emission.bytes.length
        let output := state.output ++ emission.bytes
        match emission.action with
        | .done =>
          .ok (stateStackPop { node with length := length } below output emission.client)
        | .next =>
          .ok (.inl ⟨{ node with length := length, step := node.step + 1 } :: below, output,
            emission.client⟩)
        | .push child flags => do
          let pushed ←
            stateStackPush
              ⟨{ node with length := length, step := node.step + 1 } :: below, output,
                emission.client⟩
              child flags
          .ok (.inl pushed)

/-- The compiler starts with the root on its stack. -/
def initialParserState (policy : PolicyNode) (client : σ) : ParserState σ :=
  ⟨[⟨policy, 0, 0, 0⟩], [], client⟩

/-- Compile a policy within a number of turns. -/
def getWalletInternalScriptHash (policy : PolicyNode) (scriptType : InternalScriptType)
    (client : σ) (fuel : Nat) : Option (Except ScriptFailure (InternalScript σ)) :=
  runLoop (scriptTurn ctx scriptType) fuel (initialParserState policy client)

end Compiler

end LedgerSyscoin.Handler
