import LedgerSyscoin.Handler.Lib.PsbtParseRawtx.Correctness

/-!
# The buffer for the queried script

The parser copies the script of the queried output into a buffer of 34 bytes, and
records its length before the length is checked. No copy leaves the buffer. But the
recorded length may be larger than the buffer on a success, since the failed check only
skips the output.
-/

namespace LedgerSyscoin.Handler

open Foundation Common Boilerplate

variable (index : Nat) (step : Stage ParseRawtxState)

/-! ## Copies stay inside the buffer -/

/-- The buffer for the queried script has its size. -/
def ParseRawtxState.HasBuffer (state : ParseRawtxState) : Prop :=
  state.parserOutputs.voutScriptpubkey.length = maxPrevoutScriptpubkeyLen

/-- What holds at a step of the parser of an output. -/
structure OutputSafe (step : Nat) (state : ParseRawtxState) : Prop where
  buffer : state.HasBuffer
  sized : state.isQueried = true → 2 ≤ step →
    state.parserOutputs.voutScriptpubkeyLen = state.scriptpubkeySize
  counted : 3 ≤ step → state.scriptpubkeyCounter ≤ state.scriptpubkeySize

theorem OutputSafe.early {step : Nat} (early : step < 2) {state : ParseRawtxState}
    (buffer : state.HasBuffer) : OutputSafe step state where
  buffer := buffer
  sized _ late := absurd late (by omega)
  counted late := absurd late (by omega)

theorem length_memcpyAt {array data : Bytes} {offset : Nat}
    (fits : offset + data.length ≤ array.length) :
    (memcpyAt array offset data).length = array.length := by
  rw [memcpyAt, List.length_append, List.length_append, List.length_take, List.length_drop]
  omega

/-- A piece of a field ends inside the field. -/
theorem toNat_counter_add_le {size counter : UInt32} (inside : counter ≤ size) {count : Nat}
    (piece : count = chunkLen size counter) :
    counter.toNat + count ≤ size.toNat ∧ counter + UInt32.ofNat count ≤ size := by
  have pieceLe := chunkLen_le size counter
  have difference := UInt32.toNat_sub_of_le size counter inside
  have insideNat := UInt32.le_iff_toNat_le.mp inside
  have sizeLt := size.toNat_lt
  have sum : counter.toNat + count ≤ size.toNat := by omega
  refine ⟨sum, UInt32.le_iff_toNat_le.mpr ?_⟩
  rw [UInt32.toNat_add, UInt32.toNat_ofNat']
  omega

/-- A piece of the script of an output is copied inside the buffer. -/
theorem OutputSafe.piece {state : ParseRawtxState} (safe : OutputSafe 3 state) {data : Bytes}
    (length : data.length = chunkLen state.scriptpubkeySize state.scriptpubkeyCounter) :
    if (storeScriptpubkeyPiece state data).1 then OutputSafe 3 (storeScriptpubkeyPiece state data).2
    else (storeScriptpubkeyPiece state data).2.HasBuffer := by
  obtain ⟨sum, counted⟩ := toNat_counter_add_le (safe.counted le_rfl) length
  rw [storeScriptpubkeyPiece]
  by_cases queried : (state.hash data).isQueried = true
  · by_cases long :
      (state.hash data).parserOutputs.voutScriptpubkeyLen.toNat > maxPrevoutScriptpubkeyLen
    · simp only [queried, long, if_true]
      exact safe.buffer
    · simp only [queried, long, if_true, if_false]
      have sized := safe.sized queried (by decide)
      have inside : state.scriptpubkeyCounter.toNat + data.length ≤
          state.parserOutputs.voutScriptpubkey.length := by
        rw [show state.parserOutputs.voutScriptpubkey.length = maxPrevoutScriptpubkeyLen from
          safe.buffer]
        refine sum.trans ?_
        rw [← sized]
        exact not_lt.mp long
      exact ⟨(length_memcpyAt inside).trans safe.buffer, fun _ _ => sized, fun _ => counted⟩
  · simp only [queried]
    exact ⟨safe.buffer, safe.sized, fun _ => counted⟩

/-- Every step of the parser of an output keeps the copies inside the buffer. -/
theorem maintains_outputSteps (found : parseRawtxoutputSteps[index]? = some step) :
    Maintains (OutputSafe index) step
      (fun state => OutputSafe (index + 1) { state with outputStep := state.outputStep + 1 })
      ParseRawtxState.HasBuffer := by
  rcases index with _ | _ | _ | _ | index <;>
    simp only [parseRawtxoutputSteps, List.getElem?_cons_zero, List.getElem?_cons_succ,
      Option.some.injEq, List.getElem?_nil, reduceCtorEq] at found <;> subst found
  · apply maintains_readStage
    intro state bytes safe _
    unfold storeValue
    split_ifs
    · exact .early (by decide) safe.buffer
    · exact .early (by decide) safe.buffer
  · intro state input safe
    unfold parseRawtxoutputScriptpubkeySize varintStage
    split
    · exact safe
    · rw [storeScriptpubkeySize]
      split_ifs with queried
      · exact ⟨safe.buffer, fun _ _ => rfl, fun late => absurd late (by decide)⟩
      · exact ⟨safe.buffer, fun isQueried => absurd isQueried queried,
          fun late => absurd late (by decide)⟩
  · apply maintains_pureStage
    intro state safe
    exact ⟨safe.buffer, fun queried _ => safe.sized queried le_rfl, fun _ => UInt32.zero_le⟩
  · intro state input safe
    have kept : Maintains (OutputSafe 3) parseRawtxoutputScriptpubkey (OutputSafe 3)
        ParseRawtxState.HasBuffer :=
      maintains_untilTurn (maintains_checkedStage fun _ _ safe length => safe.piece length)
    have ends := kept state input safe
    cases result : parseRawtxoutputScriptpubkey state input with
    | done next rest =>
      rw [result] at ends
      exact ⟨ends.buffer, fun queried _ => ends.sized queried (by decide),
        fun _ => ends.counted le_rfl⟩
    | more next rest | error next rest =>
      rw [result] at ends
      exact ends

/-- What holds at a step of the parser of a transaction. -/
structure RawtxSafe (step : Nat) (state : ParseRawtxState) : Prop where
  buffer : state.HasBuffer
  output : step = 7 → OutputSafe state.outputStep state

theorem maintains_outputs :
    Maintains (fun state => OutputSafe state.outputStep state) parseRawtxOutputs
      (fun state => OutputSafe state.outputStep state) ParseRawtxState.HasBuffer := by
  have ends : Maintains (fun state => OutputSafe state.outputStep state) runOutput
      ParseRawtxState.HasBuffer ParseRawtxState.HasBuffer := by
    intro state input safe
    have result :=
      maintains_runTable OutputSafe countsSteps_output maintains_outputSteps state input safe
    change (runOutput state input).EndsIn _ _ _ at result
    revert result
    cases runOutput state input with
    | done next rest => exact fun safe => safe.buffer
    | more next rest | error next rest => exact id
  apply maintains_whileTurn ends
  intro state buffer
  exact .early Nat.zero_lt_two buffer

theorem maintains_rawtxSteps (found : parseRawtxSteps[index]? = some step) :
    Maintains (RawtxSafe index) step (fun state => RawtxSafe (index + 1) state.advance)
      ParseRawtxState.HasBuffer := by
  intro state input safe
  by_cases outputs : index = 7
  · subst outputs
    simp only [parseRawtxSteps, List.getElem?_cons_zero, List.getElem?_cons_succ,
      Option.some.injEq] at found
    subst found
    have ends := maintains_outputs state input (safe.output rfl)
    revert ends
    cases parseRawtxOutputs state input with
    | done next rest => exact fun safe => ⟨safe.buffer, fun wrong => absurd wrong (by decide)⟩
    | more next rest => exact fun safe => ⟨safe.buffer, fun _ => safe⟩
    | error next rest => exact id
  by_cases outputsInit : index = 6
  · subst outputsInit
    simp only [parseRawtxSteps, List.getElem?_cons_zero, List.getElem?_cons_succ,
      Option.some.injEq] at found
    subst found
    exact ⟨safe.buffer, fun _ => .early Nat.zero_lt_two safe.buffer⟩
  · have same := (preserves_stepFrame found outputs).map
      (fun frame => frame.2.2.voutScriptpubkey.length) state input
    have buffer : (step state input).state.HasBuffer := same.trans safe.buffer
    revert buffer
    cases step state input with
    | done next rest => exact fun buffer => ⟨buffer, fun late => absurd late (by omega)⟩
    | more next rest => exact fun buffer => ⟨buffer, fun late => absurd late outputs⟩
    | error next rest => exact id

/-- What holds of the flow after any number of chunks. -/
structure PsbtParseRawtxState.Safe (state : PsbtParseRawtxState) : Prop where
  buffer : state.parserState.HasBuffer
  parser : state.parserError = false → RawtxSafe state.parserState.curStep state.parserState

/-- Parsing a chunk keeps the copies inside the buffer. -/
theorem PsbtParseRawtxState.Safe.chunk (data : Bytes) {state : PsbtParseRawtxState}
    (safe : state.Safe) : (cbProcessData data state).Safe := by
  unfold cbProcessData
  split_ifs with error
  · exact safe
  · have ends :=
      maintains_runTable RawtxSafe countsSteps_rawtx maintains_rawtxSteps state.parserState
      (state.store ++ data) (safe.parser (by simpa using error))
    change (runRawtx state.parserState (state.store ++ data)).EndsIn _ _ _ at ends
    revert ends
    cases runRawtx state.parserState (state.store ++ data) with
    | done next rest | more next rest => exact fun safe => ⟨safe.buffer, fun _ => safe⟩
    | error next rest => exact fun buffer => ⟨buffer, fun wrong => absurd wrong (by simp)⟩

/-- In every run, complete or not, successful or not, nothing is written outside the buffer:
a copy that left it would make it longer. -/
theorem length_voutScriptpubkey_callPsbtParseRawtx {H : HashFunction}
    {map : MerkleizedMapCommitment} {key : Bytes} {outputIndex : Int}
    {outputs : TxidParserOutputs} {uninitialised : ParseRawtxState} {dc : DispatcherContext}
    {incoming : List Apdu} {outcome : Outcome ParsedRawtx}
    (buffer : outputs.voutScriptpubkey.length = maxPrevoutScriptpubkeyLen)
    (run : callPsbtParseRawtx H map key outputIndex outputs uninitialised dc incoming =
      some outcome) :
    outcome.result.outputs.voutScriptpubkey.length = maxPrevoutScriptpubkeyLen := by
  unfold callPsbtParseRawtx at run
  split at run
  · cases run
  split_ifs at run
  · cases run
    exact buffer
  split at run
  · cases run
  rename_i code state final pending streamed
  have start : (PsbtParseRawtxState.start uninitialised outputIndex outputs).Safe :=
    ⟨buffer, fun _ => ⟨buffer, fun wrong => absurd wrong (Nat.zero_ne_add_one 6)⟩⟩
  have safe := callStreamPreimage_invariant (fun data _ => .chunk data) start streamed
  simp only at run
  split_ifs at run
  · cases run
    exact safe.buffer
  · cases run
    exact safe.buffer

end LedgerSyscoin.Handler
