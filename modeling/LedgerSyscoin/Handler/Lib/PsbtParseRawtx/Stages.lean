import LedgerSyscoin.Common.Parser
import LedgerSyscoin.Foundation.Hash

/-!
# The raw transaction parser

The stages of `psbt_parse_rawtx.c`: a table for a whole transaction, with nested tables
for each input and output and nested loops for the witnesses. Counters and sizes are
32-bit words, into which 64-bit varints are truncated. The result of a nested table is
stored in a `bool`, so its failure counts as completion of the input or output.
-/

namespace LedgerSyscoin.Handler

open Foundation Common

def maxPrevoutScriptpubkeyLen : Nat := 34

/-- Size of the store for bytes that a stop leaves unread. -/
def storeSize : Nat := 32

/-- What the parser reports about one output, and the transaction id. -/
structure TxidParserOutputs where
  voutValue : Nat
  voutScriptpubkeyLen : UInt32
  voutScriptpubkey : Bytes
  txid : Digest
  deriving DecidableEq

/-- State of the parser of a raw transaction. -/
structure ParseRawtxState where
  hashed : Bytes
  curStep : Nat
  isSegwit : Bool
  nInputs : UInt32
  nOutputs : UInt32
  inCounter : UInt32
  inputStep : Nat
  scriptsigSize : UInt32
  scriptsigCounter : UInt32
  outCounter : UInt32
  outputStep : Nat
  scriptpubkeySize : UInt32
  scriptpubkeyCounter : UInt32
  witCounter : UInt32
  witStackElCounter : UInt32
  curWitStackElements : UInt32
  curWitElemLen : UInt32
  curWitElBytesRead : UInt32
  isCurWitStackElementsRead : Bool
  isCurWitElemLenRead : Bool
  outputIndex : Int
  parserOutputs : TxidParserOutputs
  deriving DecidableEq

namespace ParseRawtxState

/-- Feed bytes to the hash context. -/
def hash (state : ParseRawtxState) (bytes : Bytes) : ParseRawtxState :=
  { state with hashed := state.hashed ++ bytes }

/-- Whether the output being parsed is the queried one. -/
def isQueried (state : ParseRawtxState) : Bool :=
  state.outputIndex ≠ -1 ∧ state.outCounter = UInt32.ofInt state.outputIndex

end ParseRawtxState

/-- Read `width` bytes and feed them to the hash context. -/
def hashBytesStage (width : Nat) : Stage ParseRawtxState :=
  readStage (fun _ => width) ParseRawtxState.hash

/-- Number of bytes to read next of a field of `size` bytes of which `counter` were
read: at most 32, but a remainder that is negative as an `int` stays as it is. -/
def chunkLen (size counter : UInt32) : Nat :=
  let remainingLen := (size - counter).toNat
  if remainingLen < 2 ^ 31 then min 32 remainingLen else remainingLen

/-! ## Inputs -/

def parseRawtxinputTxid : Stage ParseRawtxState := hashBytesStage 32

def parseRawtxinputVout : Stage ParseRawtxState := hashBytesStage 4

def parseRawtxinputScriptsigSize : Stage ParseRawtxState :=
  varintStage fun state size =>
    { state.hash (varintWrite size) with scriptsigSize := UInt32.ofNat size }

def parseRawtxinputScriptsigInit : Stage ParseRawtxState :=
  pureStage fun state => { state with scriptsigCounter := 0 }

/-- Take in one piece of the script of an input. -/
def storeScriptsigPiece (state : ParseRawtxState) (data : Bytes) : ParseRawtxState :=
  { state.hash data with scriptsigCounter := state.scriptsigCounter + UInt32.ofNat data.length }

/-- Read one piece of the script of an input. -/
def scriptsigPiece : Stage ParseRawtxState :=
  readStage (fun state => chunkLen state.scriptsigSize state.scriptsigCounter) storeScriptsigPiece

def parseRawtxinputScriptsig : Stage ParseRawtxState :=
  iterate (fun state => (state.scriptsigSize - state.scriptsigCounter).toNat)
    (untilTurn (fun state => state.scriptsigCounter = state.scriptsigSize) scriptsigPiece)

def parseRawtxinputSequence : Stage ParseRawtxState := hashBytesStage 4

def parseRawtxinputSteps : List (Stage ParseRawtxState) :=
  [parseRawtxinputTxid, parseRawtxinputVout, parseRawtxinputScriptsigSize,
    parseRawtxinputScriptsigInit, parseRawtxinputScriptsig, parseRawtxinputSequence]

/-! ## Outputs -/

/-- Take in the value of an output. -/
def storeValue (state : ParseRawtxState) (valueBytes : Bytes) : ParseRawtxState :=
  if state.isQueried then
    { state.hash valueBytes with parserOutputs.voutValue := leNat valueBytes }
  else state.hash valueBytes

def parseRawtxoutputValue : Stage ParseRawtxState := readStage (fun _ => 8) storeValue

/-- Take in the size of the script of an output. -/
def storeScriptpubkeySize (state : ParseRawtxState) (size : Nat) : ParseRawtxState :=
  let hashed := { state.hash (varintWrite size) with scriptpubkeySize := UInt32.ofNat size }
  if state.isQueried then
    { hashed with parserOutputs.voutScriptpubkeyLen := UInt32.ofNat size }
  else hashed

def parseRawtxoutputScriptpubkeySize : Stage ParseRawtxState := varintStage storeScriptpubkeySize

def parseRawtxoutputScriptpubkeyInit : Stage ParseRawtxState :=
  pureStage fun state => { state with scriptpubkeyCounter := 0 }

/-- Store bytes at an offset of an array. -/
def memcpyAt (array : Bytes) (offset : Nat) (data : Bytes) : Bytes :=
  array.take offset ++ data ++ array.drop (offset + data.length)

/-- Take in one piece of the script of an output. A queried script that is too long is
refused after its first piece was hashed. -/
def storeScriptpubkeyPiece (state : ParseRawtxState) (data : Bytes) : Bool × ParseRawtxState :=
  let counted := state.scriptpubkeyCounter + UInt32.ofNat data.length
  let state := state.hash data
  if state.isQueried then
    if state.parserOutputs.voutScriptpubkeyLen.toNat > maxPrevoutScriptpubkeyLen then
      (false, state)
    else
      (true, { state with
        parserOutputs.voutScriptpubkey := memcpyAt state.parserOutputs.voutScriptpubkey
          state.scriptpubkeyCounter.toNat data
        scriptpubkeyCounter := counted })
  else (true, { state with scriptpubkeyCounter := counted })

/-- Read one piece of the script of an output. -/
def scriptpubkeyPiece : Stage ParseRawtxState :=
  checkedStage (fun state => chunkLen state.scriptpubkeySize state.scriptpubkeyCounter)
    storeScriptpubkeyPiece

def parseRawtxoutputScriptpubkey : Stage ParseRawtxState :=
  iterate (fun state => (state.scriptpubkeySize - state.scriptpubkeyCounter).toNat)
    (untilTurn (fun state => state.scriptpubkeyCounter = state.scriptpubkeySize)
      scriptpubkeyPiece)

def parseRawtxoutputSteps : List (Stage ParseRawtxState) :=
  [parseRawtxoutputValue, parseRawtxoutputScriptpubkeySize, parseRawtxoutputScriptpubkeyInit,
    parseRawtxoutputScriptpubkey]

/-! ## Transactions -/

def parseRawtxVersion : Stage ParseRawtxState := hashBytesStage 4

/-- Tell the two encodings apart by the byte where a legacy transaction has its number
of inputs. The marker and the flag are consumed but not hashed. -/
def parseRawtxCheckSegwit : Stage ParseRawtxState := fun state input =>
  match input with
  | [] => .more state []
  | firstByte :: rest =>
    if firstByte ≠ 0 then .done { state with isSegwit := false } (firstByte :: rest)
    else
      match rest with
      | [] => .more state [firstByte]
      | flag :: rest =>
        if flag ≠ 1 then .error state rest else .done { state with isSegwit := true } rest

def parseRawtxInputCount : Stage ParseRawtxState :=
  varintStage fun state count =>
    { state.hash (varintWrite count) with nInputs := UInt32.ofNat count }

def parseRawtxInputsInit : Stage ParseRawtxState :=
  pureStage fun state => { state with inCounter := 0, inputStep := 0 }

/-- Run the parser of one input. -/
def runInput : Stage ParseRawtxState :=
  runTable ParseRawtxState.inputStep (fun state => { state with inputStep := state.inputStep + 1 })
    parseRawtxinputSteps

def parseRawtxInputs : Stage ParseRawtxState :=
  iterate (fun state => (state.nInputs - state.inCounter).toNat)
    (whileTurn (fun state => state.inCounter < state.nInputs) runInput fun state =>
      { state with inCounter := state.inCounter + 1, inputStep := 0 })

def parseRawtxOutputCount : Stage ParseRawtxState :=
  varintStage fun state count =>
    { state.hash (varintWrite count) with nOutputs := UInt32.ofNat count }

def parseRawtxOutputsInit : Stage ParseRawtxState :=
  pureStage fun state => { state with outCounter := 0, outputStep := 0 }

/-- Run the parser of one output. -/
def runOutput : Stage ParseRawtxState :=
  runTable ParseRawtxState.outputStep
    (fun state => { state with outputStep := state.outputStep + 1 }) parseRawtxoutputSteps

def parseRawtxOutputs : Stage ParseRawtxState :=
  iterate (fun state => (state.nOutputs - state.outCounter).toNat)
    (whileTurn (fun state => state.outCounter < state.nOutputs) runOutput fun state =>
      { state with outCounter := state.outCounter + 1, outputStep := 0 })

def parseRawtxWitnessesInit : Stage ParseRawtxState :=
  pureStage fun state => { state with witCounter := 0, isCurWitStackElementsRead := false }

/-- Read the number of elements of the current witness stack, once. -/
def readWitStackElements : Stage ParseRawtxState :=
  unlessStage ParseRawtxState.isCurWitStackElementsRead <| varintStage fun state count =>
    { state with
      isCurWitStackElementsRead := true
      curWitStackElements := UInt32.ofNat count
      isCurWitElemLenRead := false
      witStackElCounter := 0 }

/-- Read the length of the current stack element, once. -/
def readWitElemLen : Stage ParseRawtxState :=
  unlessStage ParseRawtxState.isCurWitElemLenRead <| varintStage fun state len =>
    { state with
      isCurWitElemLenRead := true
      curWitElemLen := UInt32.ofNat len
      curWitElBytesRead := 0 }

/-- Read one piece of the current stack element. -/
def witElemPiece : Stage ParseRawtxState :=
  readStage (fun state => chunkLen state.curWitElemLen state.curWitElBytesRead) fun state data =>
    { state with curWitElBytesRead := state.curWitElBytesRead + UInt32.ofNat data.length }

/-- Read the bytes of the current stack element. -/
def witElemBytes : Stage ParseRawtxState :=
  iterate (fun state => (state.curWitElemLen - state.curWitElBytesRead).toNat)
    (whileTurn (fun state => state.curWitElBytesRead < state.curWitElemLen) witElemPiece id)

/-- Read the elements of the current witness stack. -/
def witStack : Stage ParseRawtxState :=
  iterate (fun state => (state.curWitStackElements - state.witStackElCounter).toNat)
    (whileTurn (fun state => state.witStackElCounter < state.curWitStackElements)
      (andThen readWitElemLen witElemBytes) fun state =>
        { state with
          witStackElCounter := state.witStackElCounter + 1
          isCurWitElemLenRead := false })

/-- The loop over the witness stacks of a segwit transaction. -/
def witFields : Stage ParseRawtxState :=
  iterate (fun state => (state.nInputs - state.witCounter).toNat)
    (whileTurn (fun state => state.witCounter < state.nInputs)
      (andThen readWitStackElements witStack) fun state =>
        { state with
          witCounter := state.witCounter + 1
          isCurWitStackElementsRead := false })

def parseRawtxWitnesses : Stage ParseRawtxState :=
  unlessStage (fun state => ¬ state.isSegwit) witFields

def parseRawtxLocktime : Stage ParseRawtxState := hashBytesStage 4

def parseRawtxSteps : List (Stage ParseRawtxState) :=
  [parseRawtxVersion, parseRawtxCheckSegwit, parseRawtxInputCount, parseRawtxInputsInit,
    parseRawtxInputs, parseRawtxOutputCount, parseRawtxOutputsInit, parseRawtxOutputs,
    parseRawtxWitnessesInit, parseRawtxWitnesses, parseRawtxLocktime]

/-- Go on with the next step. -/
def ParseRawtxState.advance (state : ParseRawtxState) : ParseRawtxState :=
  { state with curStep := state.curStep + 1 }

/-- Run the parser of a transaction from its current step on. -/
def runRawtx : Stage ParseRawtxState :=
  runTable ParseRawtxState.curStep ParseRawtxState.advance parseRawtxSteps

end LedgerSyscoin.Handler
