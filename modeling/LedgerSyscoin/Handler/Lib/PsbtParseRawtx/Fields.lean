import LedgerSyscoin.Handler.Lib.PsbtParseRawtx.Resume
import LedgerSyscoin.Handler.Lib.PsbtParseRawtx.Transaction

/-!
# The raw transaction parser on single fields, inputs and outputs

The stages that read a field in pieces take in exactly that field, and the tables
for one input and one output take in exactly its serialization.
-/

namespace LedgerSyscoin.Handler

open Foundation Common List

variable {size counter : UInt32} {field script element : Bytes} (state : ParseRawtxState)
  (data : Bytes)

/-! ## Fields read in pieces -/

/-- The next piece of a field of which `tail` is still to be read. -/
theorem exists_piece {tail : Bytes} (remains : (size - counter).toNat = tail.length) :
    ∃ data left, tail = data ++ left ∧ data.length = chunkLen size counter ∧
      (tail ≠ [] → data ≠ []) := by
  have pieceLe := chunkLen_le size counter
  have length : (tail.take (chunkLen size counter)).length = chunkLen size counter := by
    rw [length_take]
    omega
  refine ⟨_, _, (take_append_drop _ tail).symm, length, fun nonempty => ?_⟩
  have positive := length_pos_iff.mpr nonempty
  have piecePos : 0 < chunkLen size counter := chunkLen_pos (by omega)
  exact ne_nil_of_length_pos (by omega)

/-- A field that is read in pieces, the state being `after head` once `head` is read. -/
theorem consumes_pieces {size counter : ParseRawtxState → UInt32} {piece : Stage ParseRawtxState}
    (decreases : Decreases (fun state => (size state - counter state).toNat)
      (untilTurn (fun state => counter state = size state) piece)) (after : Bytes → ParseRawtxState)
    (remains : ∀ head tail, head ++ tail = field →
      (size (after head) - counter (after head)).toNat = tail.length)
    (reads : ∀ head data tail, head ++ (data ++ tail) = field →
      data.length = chunkLen (size (after head)) (counter (after head)) →
        Consumes piece (after head) data (after (head ++ data))) :
    Consumes (iterate (fun state => (size state - counter state).toNat)
      (untilTurn (fun state => counter state = size state) piece)) (after []) field
      (after field) := by
  refine consumes_iterate decreases after fun head tail split => ?_
  obtain ⟨data, left, rfl, length, nonempty⟩ := exists_piece (remains head tail split)
  have read := reads head data left split length
  rw [← append_assoc] at split
  have finished :=
    toNat_sub_eq_zero_iff (size (after (head ++ data))) (counter (after (head ++ data)))
  rw [remains _ left split, length_eq_zero_iff] at finished
  by_cases ended : left = []
  · subst ended
    rw [append_nil] at split ⊢
    refine Or.inl fun rest => ?_
    rw [untilTurn, read, ← split]
    simp [finished.mp rfl]
  · refine Or.inr ⟨data, left, rfl, nonempty (by simp [ended]), fun rest => ?_⟩
    rw [untilTurn, read]
    simp [mt finished.mpr ended]

theorem storeScriptsigPiece_append (head : Bytes) :
    storeScriptsigPiece (storeScriptsigPiece state head) data =
      storeScriptsigPiece state (head ++ data) := by
  simp [storeScriptsigPiece, ParseRawtxState.hash, UInt32.ofNat_add, UInt32.add_assoc]

theorem consumes_scriptsig
    (remains : (state.scriptsigSize - state.scriptsigCounter).toNat = script.length) :
    Consumes parseRawtxinputScriptsig state script (storeScriptsigPiece state script) := by
  have start : storeScriptsigPiece state [] = state := by
    simp [storeScriptsigPiece, ParseRawtxState.hash]
  rw [← start, storeScriptsigPiece_append, nil_append]
  refine consumes_pieces decreases_scriptsig (storeScriptsigPiece state) ?_ ?_
  · rintro head tail rfl
    rw [length_append] at remains
    change (state.scriptsigSize - (state.scriptsigCounter + UInt32.ofNat head.length)).toNat = _
    rw [toNat_sub_add (by omega), remains, Nat.add_sub_cancel_left]
  · intro head data tail _ length
    rw [← storeScriptsigPiece_append]
    exact consumes_readStage storeScriptsigPiece length

/-- Storing right behind what was stored from the start on. -/
theorem memcpyAt_append (array written data : Bytes) :
    memcpyAt (memcpyAt array 0 written) written.length data =
      memcpyAt array 0 (written ++ data) := by
  simp only [memcpyAt, take_zero, nil_append, Nat.zero_add]
  rw [take_left, drop_append, drop_of_length_le (by omega)]
  simp [drop_drop]

/-- The state after the first bytes of an output script that is not refused. -/
def afterScriptpubkey (head : Bytes) : ParseRawtxState :=
  { state.hash head with
    parserOutputs.voutScriptpubkey :=
      if state.isQueried then memcpyAt state.parserOutputs.voutScriptpubkey 0 head
      else state.parserOutputs.voutScriptpubkey
    scriptpubkeyCounter := UInt32.ofNat head.length }

/-- A piece of a script that is not queried, or short enough, is taken in. -/
theorem storeScriptpubkeyPiece_of_short {state : ParseRawtxState} {head : Bytes}
    (small : head.length < 2 ^ 32) (short : state.isQueried = true →
      state.parserOutputs.voutScriptpubkeyLen.toNat ≤ maxPrevoutScriptpubkeyLen) :
    storeScriptpubkeyPiece (afterScriptpubkey state head) data =
      (true, afterScriptpubkey state (head ++ data)) := by
  have sameQuery : ((afterScriptpubkey state head).hash data).isQueried = state.isQueried := rfl
  have counted : (UInt32.ofNat head.length).toNat = head.length := by
    rw [UInt32.toNat_ofNat', Nat.mod_eq_of_lt small]
  rw [storeScriptpubkeyPiece]
  by_cases queried : state.isQueried = true
  · have notLong :
      ¬ ((afterScriptpubkey state head).hash data).parserOutputs.voutScriptpubkeyLen.toNat
        > maxPrevoutScriptpubkeyLen := not_lt.mpr (short queried)
    simp only [sameQuery, queried, notLong, if_true, if_false]
    simp [afterScriptpubkey, ParseRawtxState.hash, queried, counted, memcpyAt_append]
  · simp only [sameQuery, queried]
    simp [afterScriptpubkey, ParseRawtxState.hash, queried]

theorem consumes_scriptpubkey (length : state.scriptpubkeySize.toNat = script.length)
    (fresh : state.scriptpubkeyCounter = 0) (short : state.isQueried = true →
      state.parserOutputs.voutScriptpubkeyLen.toNat ≤ maxPrevoutScriptpubkeyLen) :
    Consumes parseRawtxoutputScriptpubkey state script (afterScriptpubkey state script) := by
  have small := state.scriptpubkeySize.toNat_lt
  have start : afterScriptpubkey state [] = state := by
    have sameCounter : UInt32.ofNat ([] : Bytes).length = state.scriptpubkeyCounter := fresh.symm
    simp only [afterScriptpubkey, sameCounter, memcpyAt]
    simp [ParseRawtxState.hash]
  have whole : Consumes parseRawtxoutputScriptpubkey (afterScriptpubkey state []) script
      (afterScriptpubkey state script) := by
    refine consumes_pieces decreases_scriptpubkey (afterScriptpubkey state) ?_ ?_
    · rintro head tail rfl
      rw [length_append] at length
      change (state.scriptpubkeySize - UInt32.ofNat head.length).toNat = _
      rw [toNat_sub_ofNat (by omega), length, Nat.add_sub_cancel_left]
    · rintro head data tail rfl pieceLength
      rw [length_append] at length
      exact consumes_checkedStage pieceLength
        (storeScriptpubkeyPiece_of_short data (by omega) short)
  rwa [start] at whole

theorem consumes_witElemBytes (length : state.curWitElemLen.toNat = element.length)
    (fresh : state.curWitElBytesRead = 0) :
    Consumes witElemBytes state element
      { state with curWitElBytesRead := UInt32.ofNat element.length } := by
  have small := state.curWitElemLen.toNat_lt
  have start : { state with curWitElBytesRead := UInt32.ofNat ([] : Bytes).length } = state :=
    congrArg (fun count => { state with curWitElBytesRead := count }) fresh.symm
  have whole : Consumes witElemBytes
      { state with curWitElBytesRead := UInt32.ofNat ([] : Bytes).length } element
      { state with curWitElBytesRead := UInt32.ofNat element.length } := by
    refine consumes_iterate decreases_witElemBytes
      (fun head => { state with curWitElBytesRead := UInt32.ofNat head.length }) ?_
    rintro head tail rfl
    rw [length_append] at length
    have below : UInt32.ofNat head.length < state.curWitElemLen ↔ tail ≠ [] := by
      rw [UInt32.lt_iff_toNat_lt, UInt32.toNat_ofNat', ← length_pos_iff]
      omega
    by_cases empty : tail = []
    · subst empty
      refine Or.inl fun rest => ?_
      simp [whileTurn, below]
    · have remains : (state.curWitElemLen - UInt32.ofNat head.length).toNat = tail.length := by
        rw [toNat_sub_ofNat (by omega), length, Nat.add_sub_cancel_left]
      obtain ⟨data, left, rfl, pieceLength, nonempty⟩ := exists_piece remains
      refine Or.inr ⟨data, left, rfl, nonempty empty, fun rest => ?_⟩
      have piece : witElemPiece { state with curWitElBytesRead := UInt32.ofNat head.length }
          (data ++ rest) = _ := readStage_append pieceLength
      rw [whileTurn, if_pos (decide_eq_true (below.mpr empty)), piece]
      simp [UInt32.ofNat_add]
  rwa [start] at whole

/-! ## Inputs -/

theorem consumes_hashBytesStage {width : Nat} {bytes : Bytes} (length : bytes.length = width) :
    Consumes (hashBytesStage width) state bytes (state.hash bytes) :=
  fun _ => readStage_append length

theorem consumes_runInput {input : TxInput} (start : state.inputStep = 0)
    (small : input.scriptSig.length < 2 ^ 31) :
    Consumes runInput state input.serialize
      { state.hash input.serialize with
        inputStep := 6
        scriptsigSize := UInt32.ofNat input.scriptSig.length
        scriptsigCounter := UInt32.ofNat input.scriptSig.length } := by
  have parts : input.serialize = input.txid.val ++ (input.vout.val ++
      (varintWrite input.scriptSig.length ++ ([] ++ (input.scriptSig ++
        (input.sequence.val ++ []))))) := by
    simp [TxInput.serialize, varBytes]
  rw [parts]
  refine Consumes.runTable ?_ start
  refine (consumes_hashBytesStage _ input.txid.property).runSteps_cons ?_
  refine (consumes_hashBytesStage _ input.vout.property).runSteps_cons ?_
  refine (consumes_varintStage _ _ (by omega)).runSteps_cons ?_
  refine (consumes_pureStage _ _).runSteps_cons ?_
  refine (consumes_scriptsig _ ?_).runSteps_cons ?_
  · rw [UInt32.sub_zero, UInt32.toNat_ofNat']
    omega
  refine (consumes_hashBytesStage _ input.sequence.property).runSteps_cons ?_
  exact fun _ => by simp [runSteps, storeScriptsigPiece, ParseRawtxState.hash, start]

/-! ## Outputs -/

/-- What the parser reports when `output` is the queried output. -/
def TxidParserOutputs.report (outputs : TxidParserOutputs) (output : TxOutput) :
    TxidParserOutputs :=
  { outputs with
    voutValue := leNat output.value.val
    voutScriptpubkeyLen := UInt32.ofNat output.scriptPubkey.length
    voutScriptpubkey := memcpyAt outputs.voutScriptpubkey 0 output.scriptPubkey }

theorem storeValue_eq : storeValue state data = { state.hash data with
      parserOutputs.voutValue :=
        if state.isQueried then leNat data else state.parserOutputs.voutValue } := by
  unfold storeValue
  split <;> rfl

theorem storeScriptpubkeySize_eq (size : Nat) : storeScriptpubkeySize state size =
    { state.hash (varintWrite size) with
      scriptpubkeySize := UInt32.ofNat size
      parserOutputs.voutScriptpubkeyLen :=
        if state.isQueried then UInt32.ofNat size
        else state.parserOutputs.voutScriptpubkeyLen } := by
  unfold storeScriptpubkeySize
  split <;> rfl

theorem consumes_runOutput {output : TxOutput} (start : state.outputStep = 0)
    (small : output.scriptPubkey.length < 2 ^ 31)
    (short : state.isQueried = true → output.scriptPubkey.length ≤ maxPrevoutScriptpubkeyLen) :
    Consumes runOutput state output.serialize
      { state.hash output.serialize with
        outputStep := 4
        scriptpubkeySize := UInt32.ofNat output.scriptPubkey.length
        scriptpubkeyCounter := UInt32.ofNat output.scriptPubkey.length
        parserOutputs := if state.isQueried then state.parserOutputs.report output
          else state.parserOutputs } := by
  have parts : output.serialize = output.value.val ++
      (varintWrite output.scriptPubkey.length ++ ([] ++ (output.scriptPubkey ++ []))) := by
    simp [TxOutput.serialize, varBytes]
  have sizeEq : (UInt32.ofNat output.scriptPubkey.length).toNat = output.scriptPubkey.length := by
    rw [UInt32.toNat_ofNat']
    omega
  have length := output.value.property
  rw [parts]
  refine Consumes.runTable ?_ start
  refine (consumes_readStage storeValue length).runSteps_cons ?_
  rw [storeValue_eq]
  refine (consumes_varintStage storeScriptpubkeySize _ (by omega)).runSteps_cons ?_
  rw [storeScriptpubkeySize_eq]
  refine (consumes_pureStage _ _).runSteps_cons ?_
  refine (consumes_scriptpubkey _ sizeEq rfl fun queried => ?_).runSteps_cons fun _ => ?_
  · exact (congrArg UInt32.toNat (if_pos queried)).trans_le (sizeEq.trans_le (short queried))
  · by_cases queried : state.outputIndex ≠ -1 ∧ state.outCounter = UInt32.ofInt state.outputIndex
    all_goals simp [runSteps, afterScriptpubkey, ParseRawtxState.hash, ParseRawtxState.isQueried,
      queried, start, TxidParserOutputs.report]

/-! ## Elements of witness stacks -/

theorem consumes_witElem (unread : state.isCurWitElemLenRead = false)
    (small : element.length < 2 ^ 31) :
    Consumes (andThen readWitElemLen witElemBytes) state (varBytes element)
      { state with
        isCurWitElemLenRead := true
        curWitElemLen := UInt32.ofNat element.length
        curWitElBytesRead := UInt32.ofNat element.length } := by
  refine ((consumes_varintStage _ _ (by omega)).unlessStage unread).andThen
    (consumes_witElemBytes _ ?_ rfl)
  rw [UInt32.toNat_ofNat']
  omega

end LedgerSyscoin.Handler
