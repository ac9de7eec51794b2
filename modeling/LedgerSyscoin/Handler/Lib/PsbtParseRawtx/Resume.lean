import LedgerSyscoin.Handler.Lib.PsbtParseRawtx.Stages

/-!
# The raw transaction parser is resumable

Every stage of the parser consumes a whole item or nothing, and keeps the counters that
say where it is. Hence the whole table is resumable. Where it stops it leaves at most 32
bytes unread, which fit into the store, or it waits for a piece that is longer than any
stream.
-/

namespace LedgerSyscoin.Handler

open Foundation Common List

variable {size counter : UInt32} (state : ParseRawtxState)

/-! ## Pieces of a field -/

theorem chunkLen_le (size counter : UInt32) : chunkLen size counter ≤ (size - counter).toNat := by
  simp only [chunkLen]
  split_ifs <;> omega

theorem chunkLen_le_or (size counter : UInt32) :
    chunkLen size counter ≤ storeSize ∨ 2 ^ 31 ≤ chunkLen size counter := by
  simp only [chunkLen, storeSize]
  split_ifs <;> omega

theorem chunkLen_pos (unfinished : (size - counter).toNat ≠ 0) : 0 < chunkLen size counter := by
  simp only [chunkLen]
  split_ifs <;> omega

/-- Advancing a counter by no more than what remains lowers what remains by as much. -/
theorem toNat_sub_add {count : Nat} (inside : count ≤ (size - counter).toNat) :
    (size - (counter + UInt32.ofNat count)).toNat = (size - counter).toNat - count := by
  have sizeLt := size.toNat_lt
  have counterLt := counter.toNat_lt
  rw [UInt32.toNat_sub] at inside ⊢
  rw [UInt32.toNat_sub, UInt32.toNat_add, UInt32.toNat_ofNat']
  omega

theorem toNat_sub_ofNat {count : Nat} (inside : count ≤ size.toNat) :
    (size - UInt32.ofNat count).toNat = size.toNat - count := by
  have advanced := toNat_sub_add (show count ≤ (size - 0).toNat by rwa [UInt32.sub_zero])
  rwa [UInt32.zero_add, UInt32.sub_zero] at advanced

/-- Reading a piece lowers what remains of the field by its length. -/
theorem remaining_after_piece (size counter : UInt32) :
    (size - (counter + UInt32.ofNat (chunkLen size counter))).toNat =
      (size - counter).toNat - chunkLen size counter :=
  toNat_sub_add (chunkLen_le size counter)

theorem toNat_sub_eq_zero_iff (size counter : UInt32) :
    (size - counter).toNat = 0 ↔ counter = size := by
  have sizeLt := size.toNat_lt
  have counterLt := counter.toNat_lt
  rw [UInt32.toNat_sub, ← UInt32.toNat_inj]
  omega

theorem toNat_sub_succ_lt {limit : UInt32} (below : counter < limit) :
    (limit - (counter + 1)).toNat < (limit - counter).toNat := by
  have difference := UInt32.toNat_sub_of_le limit counter (UInt32.le_of_lt below)
  have counterLt := UInt32.lt_iff_toNat_lt.mp below
  have inside : 1 ≤ (limit - counter).toNat := by omega
  have step : (limit - (counter + 1)).toNat = (limit - counter).toNat - 1 := toNat_sub_add inside
  omega

/-- A round of a piecewise read that does not finish the field lowers what remains. -/
theorem remaining_after_piece_lt
    (unfinished : counter + UInt32.ofNat (chunkLen size counter) ≠ size) :
    (size - (counter + UInt32.ofNat (chunkLen size counter))).toNat < (size - counter).toNat := by
  have after := remaining_after_piece size counter
  have pieceLe := chunkLen_le size counter
  rw [ne_eq, ← toNat_sub_eq_zero_iff] at unfinished
  have remains : (size - counter).toNat ≠ 0 := by omega
  have piecePos := chunkLen_pos remains
  omega

/-! ## Every stage consumes a whole item or nothing -/

theorem decreases_scriptsig :
    Decreases (fun state : ParseRawtxState => (state.scriptsigSize - state.scriptsigCounter).toNat)
      (untilTurn (fun state => state.scriptsigCounter = state.scriptsigSize) scriptsigPiece) := by
  apply untilTurn_decreases
  intro state input next rest piece unfinished
  unfold scriptsigPiece readStage at piece
  split_ifs at piece with enough
  cases piece
  have lengthEq : (input.take (chunkLen state.scriptsigSize state.scriptsigCounter)).length =
      chunkLen state.scriptsigSize state.scriptsigCounter := by
    rw [length_take]
    exact Nat.min_eq_left enough
  simp only [storeScriptsigPiece, ParseRawtxState.hash, lengthEq, decide_eq_false_iff_not]
    at unfinished ⊢
  exact remaining_after_piece_lt unfinished

theorem resumable_hashBytesStage {width : Nat} (small : width ≤ storeSize) :
    Resumable storeSize (2 ^ 31) (hashBytesStage width) :=
  resumable_readStage _ fun _ => Or.inl small

theorem resumable_scriptsig : Resumable storeSize (2 ^ 31) parseRawtxinputScriptsig :=
  resumable_until decreases_scriptsig (resumable_readStage _ fun _ => chunkLen_le_or _ _)

/-- The three ways in which a piece of an output script is taken in. -/
theorem storeScriptpubkeyPiece_cases (data : Bytes) :
    storeScriptpubkeyPiece state data = (false, state.hash data) ∨
    ∃ script, storeScriptpubkeyPiece state data =
      (true, { state.hash data with
        parserOutputs.voutScriptpubkey := script
        scriptpubkeyCounter := state.scriptpubkeyCounter + UInt32.ofNat data.length }) := by
  rw [storeScriptpubkeyPiece]
  by_cases queried : (state.hash data).isQueried = true
  · by_cases long :
      (state.hash data).parserOutputs.voutScriptpubkeyLen.toNat > maxPrevoutScriptpubkeyLen
    · exact Or.inl (by simp only [queried, long, if_true])
    · refine Or.inr ⟨memcpyAt state.parserOutputs.voutScriptpubkey
        state.scriptpubkeyCounter.toNat data, ?_⟩
      simp only [queried, long, if_true, if_false]
      rfl
  · refine Or.inr ⟨state.parserOutputs.voutScriptpubkey, ?_⟩
    simp only [queried]
    rfl

theorem decreases_scriptpubkey :
    Decreases
      (fun state : ParseRawtxState => (state.scriptpubkeySize - state.scriptpubkeyCounter).toNat)
      (untilTurn (fun state => state.scriptpubkeyCounter = state.scriptpubkeySize)
        scriptpubkeyPiece) := by
  apply untilTurn_decreases
  intro state input next rest piece unfinished
  unfold scriptpubkeyPiece checkedStage at piece
  split_ifs at piece with enough
  have lengthEq : (input.take (chunkLen state.scriptpubkeySize state.scriptpubkeyCounter)).length =
      chunkLen state.scriptpubkeySize state.scriptpubkeyCounter := by
    rw [length_take]
    exact Nat.min_eq_left enough
  split at piece
  · rename_i stored
    cases piece
    rcases storeScriptpubkeyPiece_cases state (input.take
      (chunkLen state.scriptpubkeySize state.scriptpubkeyCounter)) with refused | ⟨script, accepted⟩
    · rw [refused] at stored
      cases stored
    · rw [accepted] at stored
      cases stored
      simp only [lengthEq, decide_eq_false_iff_not] at unfinished ⊢
      exact remaining_after_piece_lt unfinished
  · cases piece

theorem resumable_scriptpubkey : Resumable storeSize (2 ^ 31) parseRawtxoutputScriptpubkey :=
  resumable_until decreases_scriptpubkey (resumable_checkedStage _ fun _ => chunkLen_le_or _ _)

/-! ## Loops that count their rounds -/

/-- The body of a loop leaves its counter and the number of its rounds alone, and each round is
counted afterwards. -/
structure Counts (counter limit : ParseRawtxState → UInt32) (body : Stage ParseRawtxState)
    (after : ParseRawtxState → ParseRawtxState) : Prop where
  kept : Preserves (fun state => (counter state, limit state)) body
  counter_after : ∀ state, counter (after state) = counter state + 1
  limit_after : ∀ state, limit (after state) = limit state

namespace Counts

variable {counter limit : ParseRawtxState → UInt32} {body : Stage ParseRawtxState}
  {after : ParseRawtxState → ParseRawtxState} (counts : Counts counter limit body after)

include counts

theorem decreases : Decreases (fun state => (limit state - counter state).toNat)
    (whileTurn (fun state => counter state < limit state) body after) := by
  apply whileTurn_decreases
  intro state input below
  have frame := counts.kept state input
  rw [Prod.mk.injEq] at frame
  rw [counts.counter_after, counts.limit_after, frame.1, frame.2]
  exact toNat_sub_succ_lt (of_decide_eq_true below)

theorem resumable (resumable : Resumable storeSize (2 ^ 31) body) :
    Resumable storeSize (2 ^ 31) (iterate (fun state => (limit state - counter state).toNat)
      (whileTurn (fun state => counter state < limit state) body after)) := by
  refine resumable_while counts.decreases resumable ?_
  intro state input next rest below stopped
  have frame := counts.kept.more stopped
  rw [Prod.mk.injEq] at frame
  simpa only [frame.1, frame.2] using below

end Counts

/-! ## The parser of one input -/

/-- The step, and what is reported about which output. -/
def stepFrame : Nat × Int × TxidParserOutputs :=
  (state.curStep, state.outputIndex, state.parserOutputs)

/-- What the stages of an input leave alone. -/
def inputFrame : ((Nat × Int × TxidParserOutputs) × UInt32 × UInt32) × Nat :=
  ((stepFrame state, state.inCounter, state.nInputs), state.inputStep)

theorem preserves_inputFrame : ∀ step ∈ parseRawtxinputSteps, Preserves inputFrame step :=
  forall_iff_forall_mem.mp
    ⟨preserves_readStage _ fun _ _ => rfl, preserves_readStage _ fun _ _ => rfl,
      preserves_varintStage fun _ _ => rfl, preserves_pureStage fun _ => rfl,
      preserves_iterate (untilTurn_preserves (preserves_readStage _ fun _ _ => rfl)),
      preserves_readStage _ fun _ _ => rfl⟩

theorem countsSteps_input :
    CountsSteps ParseRawtxState.inputStep
      (fun state => { state with inputStep := state.inputStep + 1 }) parseRawtxinputSteps where
  current_next _ := rfl
  current_step step member :=
    (preserves_inputFrame step member).map Prod.snd

theorem resumable_runInput : Resumable storeSize (2 ^ 31) runInput :=
  resumable_runTable countsSteps_input <| forall_iff_forall_mem.mp
    ⟨resumable_hashBytesStage (by decide), resumable_hashBytesStage (by decide),
      resumable_varintStage (by decide) _, resumable_pureStage _, resumable_scriptsig,
      resumable_hashBytesStage (by decide)⟩

/-- What the parser of an input leaves alone. -/
theorem preserves_runInput : Preserves (fun state => (inputFrame state).1) runInput :=
  preserves_runTable (fun _ => rfl) fun step member =>
    (preserves_inputFrame step member).map Prod.fst

theorem counts_inputs : Counts ParseRawtxState.inCounter ParseRawtxState.nInputs runInput
    fun state => { state with inCounter := state.inCounter + 1, inputStep := 0 } where
  kept := preserves_runInput.map Prod.snd
  counter_after _ := rfl
  limit_after _ := rfl

/-! ## The parser of one output -/

/-- What the stages of an output leave alone. -/
def outputFrame : ((Nat × Int) × UInt32 × UInt32) × Nat :=
  (((state.curStep, state.outputIndex), state.outCounter, state.nOutputs), state.outputStep)

theorem preserves_outputFrame : ∀ step ∈ parseRawtxoutputSteps, Preserves outputFrame step := by
  refine forall_iff_forall_mem.mp ⟨?_, ?_, ?_, ?_⟩
  · apply preserves_readStage
    intro state bytes
    unfold storeValue
    split_ifs <;> rfl
  · apply preserves_varintStage
    intro state size
    unfold storeScriptpubkeySize
    split_ifs <;> rfl
  · exact preserves_pureStage fun _ => rfl
  · apply preserves_iterate
    apply untilTurn_preserves
    apply preserves_checkedStage
    intro state data
    rcases storeScriptpubkeyPiece_cases state data with refused | ⟨_, accepted⟩
    · rw [refused]
      rfl
    · rw [accepted]
      rfl

theorem countsSteps_output :
    CountsSteps ParseRawtxState.outputStep
      (fun state => { state with outputStep := state.outputStep + 1 }) parseRawtxoutputSteps where
  current_next _ := rfl
  current_step step member :=
    (preserves_outputFrame step member).map Prod.snd

theorem resumable_runOutput : Resumable storeSize (2 ^ 31) runOutput :=
  resumable_runTable countsSteps_output <| forall_iff_forall_mem.mp
    ⟨resumable_readStage _ fun _ => Or.inl (by decide), resumable_varintStage (by decide) _,
      resumable_pureStage _, resumable_scriptpubkey⟩

/-- What the parser of an output leaves alone. -/
theorem preserves_runOutput : Preserves (fun state => (outputFrame state).1) runOutput :=
  preserves_runTable (fun _ => rfl) fun step member =>
    (preserves_outputFrame step member).map Prod.fst

theorem counts_outputs : Counts ParseRawtxState.outCounter ParseRawtxState.nOutputs runOutput
    fun state => { state with outCounter := state.outCounter + 1, outputStep := 0 } where
  kept := preserves_runOutput.map Prod.snd
  counter_after _ := rfl
  limit_after _ := rfl

/-! ## Witnesses -/

theorem decreases_witElemBytes :
    Decreases (fun state : ParseRawtxState => (state.curWitElemLen - state.curWitElBytesRead).toNat)
      (whileTurn (fun state => state.curWitElBytesRead < state.curWitElemLen) witElemPiece id) := by
  intro state input next rest round
  unfold whileTurn witElemPiece readStage at round
  split_ifs at round with below enough
  · cases round
    have lengthEq : (input.take (chunkLen state.curWitElemLen state.curWitElBytesRead)).length =
        chunkLen state.curWitElemLen state.curWitElBytesRead := by
      rw [length_take]
      exact Nat.min_eq_left enough
    have difference := UInt32.toNat_sub_of_le state.curWitElemLen state.curWitElBytesRead
      (UInt32.le_of_lt (by simpa using below))
    have counterLt := UInt32.lt_iff_toNat_lt.mp (of_decide_eq_true below)
    have remains : (state.curWitElemLen - state.curWitElBytesRead).toNat ≠ 0 := by omega
    have piecePos := chunkLen_pos remains
    have after := remaining_after_piece state.curWitElemLen state.curWitElBytesRead
    simp only [id_eq, lengthEq]
    omega

theorem keeps_witElemBytes :
    Keeps (fun state => state.curWitElBytesRead < state.curWitElemLen) witElemPiece := by
  intro state input next rest below stopped
  unfold witElemPiece readStage at stopped
  split_ifs at stopped
  cases stopped
  exact below

theorem resumable_witElemBytes : Resumable storeSize (2 ^ 31) witElemBytes :=
  resumable_while decreases_witElemBytes (resumable_readStage _ fun _ => chunkLen_le_or _ _)
    keeps_witElemBytes

/-- A varint read that sets its own flag is a resumable first half of a sequence whose
second half leaves the flag alone. -/
theorem resumable_flagged {flag : ParseRawtxState → Bool}
    {update : ParseRawtxState → Nat → ParseRawtxState} {second : Stage ParseRawtxState}
    (sets : ∀ state value, flag (update state value) = true) (kept : Preserves flag second)
    (resumable : Resumable storeSize (2 ^ 31) second) :
    Resumable storeSize (2 ^ 31) (andThen (unlessStage flag (varintStage update)) second) :=
  resumable_andThen (resumable_unlessStage (resumable_varintStage (by decide) update)
    (keepsFlag_varintStage _)) resumable (skips_unlessStage_varintStage sets kept)

/-- What reading the elements of a stack leaves alone. -/
def stackFrame : ((Bool × Nat × Int × TxidParserOutputs) × UInt32 × UInt32) × Bool :=
  (((state.isSegwit, stepFrame state), state.witCounter, state.nInputs),
    state.isCurWitStackElementsRead)

/-- What reading the bytes of a stack element leaves alone. -/
def elemFrame : ((((Bool × Nat × Int × TxidParserOutputs) × UInt32 × UInt32) × Bool) ×
    UInt32 × UInt32) × Bool :=
  ((stackFrame state, state.witStackElCounter, state.curWitStackElements),
    state.isCurWitElemLenRead)

theorem preserves_witElemBytes : Preserves elemFrame witElemBytes :=
  preserves_iterate
    (whileTurn_preserves (preserves_readStage _ fun _ _ => rfl) fun _ => rfl)

theorem preserves_witElem :
    Preserves (fun state => (elemFrame state).1) (andThen readWitElemLen witElemBytes) :=
  preserves_andThen (preserves_unlessStage (preserves_varintStage fun _ _ => rfl))
    (preserves_witElemBytes.map Prod.fst)

theorem counts_witStack :
    Counts ParseRawtxState.witStackElCounter ParseRawtxState.curWitStackElements
      (andThen readWitElemLen witElemBytes) fun state =>
        { state with
          witStackElCounter := state.witStackElCounter + 1
          isCurWitElemLenRead := false } where
  kept := preserves_witElem.map Prod.snd
  counter_after _ := rfl
  limit_after _ := rfl

theorem resumable_witStack : Resumable storeSize (2 ^ 31) witStack :=
  counts_witStack.resumable (resumable_flagged (fun _ _ => rfl)
    (preserves_witElemBytes.map Prod.snd) resumable_witElemBytes)

theorem preserves_witStack : Preserves stackFrame witStack :=
  preserves_iterate (whileTurn_preserves (preserves_witElem.map Prod.fst) fun _ => rfl)

/-- What reading a whole witness stack leaves alone. -/
theorem preserves_witField :
    Preserves (fun state => (stackFrame state).1) (andThen readWitStackElements witStack) :=
  preserves_andThen (preserves_unlessStage (preserves_varintStage fun _ _ => rfl))
    (preserves_witStack.map Prod.fst)

theorem counts_witFields : Counts ParseRawtxState.witCounter ParseRawtxState.nInputs
    (andThen readWitStackElements witStack) fun state =>
      { state with
        witCounter := state.witCounter + 1
        isCurWitStackElementsRead := false } where
  kept := preserves_witField.map Prod.snd
  counter_after _ := rfl
  limit_after _ := rfl

theorem preserves_witFields :
    Preserves (fun state => (state.isSegwit, stepFrame state)) witFields :=
  preserves_iterate (whileTurn_preserves (preserves_witField.map Prod.fst) fun _ => rfl)

theorem keepsFlag_witFields :
    KeepsFlag (fun state : ParseRawtxState => ¬ state.isSegwit) witFields := by
  intro state input next rest stopped
  have same := (preserves_witFields.map Prod.fst).more stopped
  exact congrArg (fun segwit => decide ¬ segwit = true) same

theorem resumable_witnesses : Resumable storeSize (2 ^ 31) parseRawtxWitnesses :=
  resumable_unlessStage (counts_witFields.resumable (resumable_flagged (fun _ _ => rfl)
    (preserves_witStack.map Prod.snd) resumable_witStack))
    keepsFlag_witFields

/-! ## The whole transaction -/

theorem resumable_checkSegwit : Resumable storeSize (2 ^ 31) parseRawtxCheckSegwit := by
  intro state input
  rcases input with _ | ⟨firstByte, _ | ⟨flag, _⟩⟩
  · exact ⟨le_rfl, fun _ => rfl, Or.inl (by decide)⟩
  · by_cases legacy : firstByte = 0
    · subst legacy
      exact ⟨le_rfl, fun _ => rfl, Or.inl (by decide)⟩
    · simp [parseRawtxCheckSegwit, legacy, Progress.Resumes]
  · by_cases legacy : firstByte = 0 <;> by_cases right : flag = 1 <;>
      simp [parseRawtxCheckSegwit, legacy, right, Progress.Resumes] <;> omega

/-- No step changes the number of the step, and only the parser of the outputs changes the
report. -/
theorem preserves_stepFrame {index : Nat} {step : Stage ParseRawtxState}
    (found : parseRawtxSteps[index]? = some step) (other : index ≠ 7) :
    Preserves stepFrame step := by
  rcases index with _ | _ | _ | _ | _ | _ | _ | _ | _ | _ | _ | index <;>
    simp only [parseRawtxSteps, getElem?_cons_zero, getElem?_cons_succ,
      Option.some.injEq, getElem?_nil, reduceCtorEq] at found <;> subst found
  · exact preserves_readStage _ fun _ _ => rfl
  · intro state input
    unfold parseRawtxCheckSegwit
    split
    · rfl
    · split_ifs
      · rfl
      · split
        · rfl
        · split_ifs <;> rfl
  · exact preserves_varintStage fun _ _ => rfl
  · exact preserves_pureStage fun _ => rfl
  · exact preserves_iterate (whileTurn_preserves (preserves_runInput.map Prod.fst) fun _ => rfl)
  · exact preserves_varintStage fun _ _ => rfl
  · exact preserves_pureStage fun _ => rfl
  · exact absurd rfl other
  · exact preserves_pureStage fun _ => rfl
  · exact preserves_unlessStage (preserves_witFields.map Prod.snd)
  · exact preserves_readStage _ fun _ _ => rfl

theorem countsSteps_rawtx :
    CountsSteps ParseRawtxState.curStep ParseRawtxState.advance parseRawtxSteps where
  current_next _ := rfl
  current_step step member := by
    obtain ⟨index, found⟩ := mem_iff_getElem?.mp member
    by_cases outputs : index = 7
    · subst outputs
      cases found
      exact preserves_iterate
        (whileTurn_preserves (preserves_runOutput.map fun frame => frame.1.1) fun _ => rfl)
    · exact (preserves_stepFrame found outputs).map Prod.fst

/-- The parser of a transaction may be stopped at any byte boundary. It leaves at most 32 bytes
unread where it stops, unless it waits for a piece of `2 ^ 31` bytes or more. -/
theorem resumable_runRawtx : Resumable storeSize (2 ^ 31) runRawtx :=
  resumable_runTable countsSteps_rawtx <| forall_iff_forall_mem.mp
    ⟨resumable_hashBytesStage (by decide), resumable_checkSegwit,
      resumable_varintStage (by decide) _, resumable_pureStage _,
      counts_inputs.resumable resumable_runInput, resumable_varintStage (by decide) _,
      resumable_pureStage _, counts_outputs.resumable resumable_runOutput, resumable_pureStage _,
      resumable_witnesses, resumable_hashBytesStage (by decide)⟩

/-- After the kind of the transaction is known, no stage fails. -/
theorem neverFails_after_checkSegwit : ∀ step ∈ parseRawtxSteps.drop 2, NeverFails step := by
  refine forall_iff_forall_mem.mp ⟨neverFails_varintStage _, neverFails_pureStage _,
    neverFails_iterate (whileTurn_ne_error _ _ _), neverFails_varintStage _,
    neverFails_pureStage _, neverFails_iterate (whileTurn_ne_error _ _ _),
    neverFails_pureStage _, ?_, neverFails_readStage _ _⟩
  intro state input next rest failed
  unfold parseRawtxWitnesses unlessStage at failed
  split_ifs at failed
  exact neverFails_iterate (whileTurn_ne_error _ _ _) _ _ _ _ failed

end LedgerSyscoin.Handler
