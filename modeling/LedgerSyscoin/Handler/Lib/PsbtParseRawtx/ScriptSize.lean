import LedgerSyscoin.Handler.Lib.PsbtParseRawtx.ScriptBuffer

/-!
# The recorded length of the queried script

A plain reader skips the fields of a stream up to the size of the script of the queried
output. The parser records this size, and keeps what it had recorded before if the reader
finds none. So after a success the recorded length fits the buffer of 34 bytes exactly if
the size that the reader finds does.
-/

namespace LedgerSyscoin.Handler

open Foundation Common Boilerplate List

variable {rest stream : Bytes} {first : Option Bytes}
  {update : ParseRawtxState → Nat → ParseRawtxState}

/-! ## Skipping fields -/

/-- Skip a field of known width. -/
def skipBytes (count : Nat) (bytes : Bytes) : Option Bytes :=
  if count ≤ bytes.length then some (bytes.drop count) else none

/-- Read a varint. -/
def readVarint (bytes : Bytes) : Option (Nat × Bytes) :=
  (varintRead bytes).map fun read => (read.1, bytes.drop read.2)

/-- Skip a script, whose size counts modulo `2 ^ 32`. -/
def skipScript (bytes : Bytes) : Option Bytes :=
  (readVarint bytes).bind fun read => skipBytes (UInt32.ofNat read.1).toNat read.2

def skipInput (bytes : Bytes) : Option Bytes :=
  (skipBytes 32 bytes).bind fun rest =>
    (skipBytes 4 rest).bind fun rest => (skipScript rest).bind (skipBytes 4)

def skipOutput (bytes : Bytes) : Option Bytes := (skipBytes 8 bytes).bind skipScript

/-- Skip a number of items. -/
def skipMany (skip : Bytes → Option Bytes) : Nat → Bytes → Option Bytes
  | 0, bytes => some bytes
  | count + 1, bytes => (skip bytes).bind (skipMany skip count)

/-- Skip the marker and the flag of a segwit transaction. -/
def skipMarker : Bytes → Option Bytes
  | [] => none
  | first :: rest => if first ≠ 0 then some (first :: rest) else skipBytes 1 rest

/-- The number of outputs, and what follows it. -/
def readOutputCount (stream : Bytes) : Option (Nat × Bytes) :=
  (skipBytes 4 stream).bind fun rest => (skipMarker rest).bind fun rest =>
    (readVarint rest).bind fun read =>
      (skipMany skipInput (UInt32.ofNat read.1).toNat read.2).bind readVarint

/-- The size of the script of the output `skipped` outputs further on. -/
def scriptSizeAfter (skipped : Nat) (bytes : Bytes) : Option UInt32 :=
  (skipMany skipOutput skipped bytes).bind fun rest => (skipBytes 8 rest).bind fun rest =>
    (readVarint rest).map fun read => UInt32.ofNat read.1

/-- The size of the script of the queried output, if there is one and the stream reaches it. -/
def queriedScriptSize (outputIndex : Int) (stream : Bytes) : Option UInt32 :=
  (readOutputCount stream).bind fun read =>
    if outputIndex ≠ -1 ∧ UInt32.ofInt outputIndex < UInt32.ofNat read.1 then
      scriptSizeAfter (UInt32.ofInt outputIndex).toNat read.2
    else none

/-- The recorded length fits the buffer: the size of the queried script does, or none is found
and the length that was recorded before does. -/
def RecordedLengthFits (outputIndex : Int) (recorded : UInt32) (stream : Bytes) : Prop :=
  ((queriedScriptSize outputIndex stream).getD recorded).toNat ≤ maxPrevoutScriptpubkeyLen

instance (outputIndex : Int) (recorded : UInt32) (stream : Bytes) :
    Decidable (RecordedLengthFits outputIndex recorded stream) :=
  inferInstanceAs (Decidable (_ ≤ _))

/-! ## Stages that skip what the reader skips -/

section Matches

variable {σ : Type} {read : Option Bytes}

/-- The stage is done where the reader succeeds, with the same bytes left, and stops where the
reader fails. -/
def Matches : Progress σ → Option Bytes → Prop
  | .done _ rest, read => read = some rest
  | .more _ _, read => read = none
  | .error _ _, _ => False

theorem matches_readStage (width : σ → Nat) (update : σ → Bytes → σ) (state : σ) (input : Bytes) :
    Matches (readStage width update state input) (skipBytes (width state) input) := by
  unfold readStage skipBytes
  split_ifs <;> rfl

theorem matches_runSteps_nil (next : σ → σ) (state : σ) (input : Bytes) :
    Matches (runSteps next [] state input) (some input) := rfl

/-- A step that skips what `first` skips, before steps that skip what `later` skips. -/
theorem matches_runSteps_cons {next : σ → σ} {step : Stage σ} {steps : List (Stage σ)} {state : σ}
    {input : Bytes} {later : Bytes → Option Bytes} (follows : Matches (step state input) first)
    (goesOn : ∀ middle rest, step state input = .done middle rest →
      Matches (runSteps next steps (next middle) rest) (later rest)) :
    Matches (runSteps next (step :: steps) state input) (first.bind later) := by
  rw [runSteps]
  cases result : step state input with
  | done middle rest =>
    rw [result] at follows
    cases follows
    exact goesOn middle rest result
  | more middle rest =>
    rw [result] at follows
    cases follows
    rfl
  | error middle rest =>
    rw [result] at follows
    cases follows

/-- A varint, before steps that skip what its value tells. -/
theorem matches_runSteps_varint {next : σ → σ} {update : σ → Nat → σ} {steps : List (Stage σ)}
    {state : σ} {input : Bytes} {later : Nat × Bytes → Option Bytes}
    (goesOn : ∀ value rest,
      Matches (runSteps next steps (next (update state value)) rest) (later (value, rest))) :
    Matches (runSteps next (varintStage update :: steps) state input)
      ((readVarint input).bind later) := by
  rw [runSteps, varintStage, readVarint]
  cases varintRead input with
  | none => rfl
  | some read => exact goesOn _ _

/-- A resumable stage that takes in every field of a given length skips the field. -/
theorem matches_of_consumes {stage : Stage σ} {state : σ} {bound limit count : Nat}
    (resumable : Resumable bound limit stage)
    (consumes : ∀ field : Bytes, count = field.length → ∃ next, Consumes stage state field next)
    (input : Bytes) : Matches (stage state input) (skipBytes count input) := by
  unfold skipBytes
  split_ifs with enough
  · obtain ⟨next, takes⟩ := consumes (input.take count) (by simp [enough])
    have done := takes (input.drop count)
    rw [take_append_drop] at done
    rw [done]
    rfl
  · -- the missing bytes would be taken in, too
    obtain ⟨next, takes⟩ := consumes (input ++ replicate (count - input.length) 0)
      (by simp; omega)
    have done := takes []
    rw [append_nil] at done
    have missing : replicate (count - input.length) (0 : UInt8) ≠ [] := by simp; omega
    cases result : stage state input with
    | done reached rest =>
      rw [resumable.done result] at done
      simp only [Progress.done.injEq, append_eq_nil_iff] at done
      exact absurd done.2.2 missing
    | more reached rest => rfl
    | error reached rest =>
      rw [resumable.error result] at done
      cases done

end Matches

/-! ## Inputs -/

theorem matches_hashBytesStage (width : Nat) (state : ParseRawtxState) (input : Bytes) :
    Matches (hashBytesStage width state input) (skipBytes width input) :=
  matches_readStage (fun _ => width) _ state input

variable {state : ParseRawtxState}

theorem matches_scriptsig (fresh : state.scriptsigCounter = 0) (input : Bytes) :
    Matches (parseRawtxinputScriptsig state input) (skipBytes state.scriptsigSize.toNat input) :=
  matches_of_consumes resumable_scriptsig (fun _ length =>
    ⟨_, consumes_scriptsig _ (by rw [fresh, UInt32.sub_zero, length])⟩) input

theorem matches_runInput (atStart : state.inputStep = 0) (input : Bytes) :
    Matches (runInput state input) (skipInput input) := by
  rw [runInput, runTable, atStart, drop_zero, parseRawtxinputSteps]
  refine matches_runSteps_cons (matches_hashBytesStage 32 _ _) fun _ rest _ => ?_
  refine matches_runSteps_cons (matches_hashBytesStage 4 _ _) fun _ rest _ => ?_
  rw [skipScript, Option.bind_assoc]
  refine matches_runSteps_varint fun size rest => ?_
  change Matches (runSteps _ [parseRawtxinputScriptsig, parseRawtxinputSequence] _ rest) _
  refine matches_runSteps_cons (matches_scriptsig rfl rest) fun _ rest _ => ?_
  rw [← Option.bind_fun_some (skipBytes 4 rest)]
  exact matches_runSteps_cons (matches_hashBytesStage 4 _ _) fun _ _ _ => matches_runSteps_nil _ _ _

theorem matches_inputs {left : Nat} (atStart : state.inputStep = 0)
    (isLeft : state.nInputs.toNat = state.inCounter.toNat + left) (input : Bytes) :
    Matches (parseRawtxInputs state input) (skipMany skipInput left input) := by
  induction left generalizing state input with
  | zero =>
    rw [parseRawtxInputs,
      while_of_not counts_inputs.decreases (by simp [UInt32.toNat_inj.mp isLeft])]
    rfl
  | succ left ih =>
    have below : state.inCounter < state.nInputs := UInt32.lt_iff_toNat_lt.mpr (by omega)
    have countLt := state.nInputs.toNat_lt
    have read := matches_runInput atStart input
    have frame := counts_inputs.kept state input
    rw [parseRawtxInputs, while_of_holds counts_inputs.decreases (by simpa using below), skipMany]
    cases result : runInput state input with
    | done next rest =>
      rw [result] at frame read
      rw [show skipInput input = some rest from read]
      simp only [Prod.mk.injEq, Progress.state] at frame
      refine ih rfl ?_ rest
      simp only [frame.1, frame.2, UInt32.toNat_add, UInt32.toNat_one]
      omega
    | more next rest =>
      rw [result] at read
      rw [show skipInput input = none from read]
      rfl
    | error next rest =>
      rw [result] at read
      cases read

/-! ## Outputs -/

theorem matches_scriptpubkey (other : state.isQueried = false)
    (fresh : state.scriptpubkeyCounter = 0) (input : Bytes) :
    Matches (parseRawtxoutputScriptpubkey state input)
      (skipBytes state.scriptpubkeySize.toNat input) :=
  matches_of_consumes resumable_scriptpubkey (fun _ length =>
    ⟨_, consumes_scriptpubkey _ length fresh fun queried => by simp [other] at queried⟩) input

theorem preserves_isQueried_value : Preserves ParseRawtxState.isQueried parseRawtxoutputValue := by
  apply preserves_readStage
  intro state bytes
  unfold storeValue
  split_ifs <;> rfl

/-- An output that is not queried. -/
theorem matches_runOutput (atStart : state.outputStep = 0)
    (other : state.isQueried = false) (input : Bytes) :
    Matches (runOutput state input) (skipOutput input) := by
  rw [runOutput, runTable, atStart, drop_zero, parseRawtxoutputSteps, skipOutput]
  refine matches_runSteps_cons (matches_readStage (fun _ => 8) _ _ _) fun middle rest done => ?_
  have middleOther : middle.isQueried = false := (preserves_isQueried_value.done done).trans other
  refine matches_runSteps_varint fun size rest => ?_
  change Matches (runSteps _ [parseRawtxoutputScriptpubkey] _ rest) _
  rw [← Option.bind_fun_some (skipBytes _ rest)]
  have stored (state : ParseRawtxState) (isOther : state.isQueried = false) :
      storeScriptpubkeySize state size =
        { state.hash (varintWrite size) with scriptpubkeySize := UInt32.ofNat size } := by
    rw [storeScriptpubkeySize, if_neg (Bool.eq_false_iff.mp isOther)]
  rw [stored]
  · exact matches_runSteps_cons (matches_scriptpubkey (by exact middleOther) rfl rest)
      fun _ _ _ => matches_runSteps_nil _ _ _
  · exact middleOther

/-- The recorded length of the queried script. -/
def ParseRawtxState.recorded (state : ParseRawtxState) : UInt32 :=
  state.parserOutputs.voutScriptpubkeyLen

/-- Reading a script does not change the recorded length. -/
theorem preserves_recorded_script (next : ParseRawtxState → ParseRawtxState)
    (same : ∀ state, (next state).recorded = state.recorded) :
    Preserves ParseRawtxState.recorded
      (runSteps next [parseRawtxoutputScriptpubkeyInit, parseRawtxoutputScriptpubkey]) := by
  apply preserves_runSteps same
  simp only [forall_mem_cons, not_mem_nil, false_implies, implies_true, and_true]
  refine ⟨preserves_pureStage fun _ => rfl, ?_⟩
  apply preserves_iterate
  apply untilTurn_preserves
  apply preserves_checkedStage
  intro state data
  rcases storeScriptpubkeyPiece_cases state data with refused | ⟨_, accepted⟩
  · rw [refused]
    rfl
  · rw [accepted]
    rfl

section Recorded

variable {next : ParseRawtxState → ParseRawtxState} {steps : List (Stage ParseRawtxState)}
  {state : ParseRawtxState} {input : Bytes}

/-- A step that leaves the recorded length alone and skips what `first` skips. -/
theorem recorded_runSteps_cons {step : Stage ParseRawtxState} {later : Bytes → Option UInt32}
    (kept : Preserves ParseRawtxState.recorded step) (follows : Matches (step state input) first)
    (goesOn : ∀ middle rest, step state input = .done middle rest →
      middle.recorded = state.recorded → (runSteps next steps (next middle) rest).state.recorded =
        (later rest).getD state.recorded) :
    (runSteps next (step :: steps) state input).state.recorded =
      (first.bind later).getD state.recorded := by
  have same := kept state input
  rw [runSteps]
  cases result : step state input with
  | done middle rest =>
    rw [result] at same follows
    cases follows
    exact goesOn middle rest result same
  | more middle rest =>
    rw [result] at same follows
    cases follows
    exact same
  | error middle rest =>
    rw [result] at follows
    cases follows

/-- A varint, which the following steps use. -/
theorem recorded_runSteps_varint {later : Nat × Bytes → Option UInt32}
    (goesOn : ∀ value rest, (runSteps next steps (next (update state value)) rest).state.recorded =
      (later (value, rest)).getD state.recorded) :
    (runSteps next (varintStage update :: steps) state input).state.recorded =
      ((readVarint input).bind later).getD state.recorded := by
  rw [runSteps, varintStage, readVarint]
  cases varintRead input with
  | none => rfl
  | some read => exact goesOn _ _

end Recorded

/-- The size of the script of the queried output is recorded, whether it is accepted or not. -/
theorem recorded_runOutput (atStart : state.outputStep = 0)
    (queried : state.isQueried = true) (input : Bytes) :
    (runOutput state input).state.recorded = (scriptSizeAfter 0 input).getD state.recorded := by
  have value : Preserves ParseRawtxState.recorded parseRawtxoutputValue := by
    apply preserves_readStage
    intro state bytes
    unfold storeValue
    split_ifs <;> rfl
  have kept := preserves_recorded_script (fun state =>
    { state with outputStep := state.outputStep + 1 }) fun _ => rfl
  rw [runOutput, runTable, atStart, drop_zero, parseRawtxoutputSteps, scriptSizeAfter, skipMany,
    Option.bind_some]
  refine recorded_runSteps_cons value (matches_readStage (fun _ => 8) _ _ _)
    fun middle rest done same => ?_
  have sets (state : ParseRawtxState) (queried : state.isQueried = true) (size : Nat) :
      (storeScriptpubkeySize state size).recorded = UInt32.ofNat size := by
    rw [storeScriptpubkeySize, if_pos queried]
    rfl
  rw [← same, Option.map_eq_bind]
  refine recorded_runSteps_varint fun size rest => (kept _ _).trans (sets _ ?_ size)
  exact (preserves_isQueried_value.done done).trans queried

/-- The size that is recorded while the outputs that are left are read, from a counter on. -/
def sizeWithin (outputIndex : Int) : (left : Nat) → (counter : UInt32) → Bytes → Option UInt32
  | 0, _, _ => none
  | left + 1, counter, input =>
    if outputIndex ≠ -1 ∧ counter = UInt32.ofInt outputIndex then scriptSizeAfter 0 input
    else (skipOutput input).bind (sizeWithin outputIndex left (counter + 1))

/-- It is the size for the queried output, if that is one of them. -/
theorem sizeWithin_eq {outputIndex : Int} {left : Nat} {counter : UInt32}
    (fits : counter.toNat + left < 2 ^ 32) (input : Bytes) :
    sizeWithin outputIndex left counter input =
      if outputIndex ≠ -1 ∧ counter.toNat ≤ (UInt32.ofInt outputIndex).toNat ∧
          (UInt32.ofInt outputIndex).toNat < counter.toNat + left then
        scriptSizeAfter ((UInt32.ofInt outputIndex).toNat - counter.toNat) input
      else none := by
  induction left generalizing counter input with
  | zero => rw [if_neg (by omega), sizeWithin]
  | succ left ih =>
    have next : (counter + 1).toNat = counter.toNat + 1 := by
      rw [UInt32.toNat_add, UInt32.toNat_one]
      omega
    rw [sizeWithin]
    by_cases here : outputIndex ≠ -1 ∧ counter = UInt32.ofInt outputIndex
    · rw [if_pos here, ← here.2, if_pos ⟨here.1, by omega⟩, Nat.sub_self]
    · rw [if_neg here, show sizeWithin outputIndex left (counter + 1) = _ from
        funext (ih (by omega)), next]
      have distinct (valid : outputIndex ≠ -1) :
          counter.toNat ≠ (UInt32.ofInt outputIndex).toNat := fun same =>
        here ⟨valid, UInt32.toNat_inj.mp same⟩
      split_ifs with later now now
      · obtain ⟨distance, isDistance⟩ := Nat.exists_eq_add_of_le later.2.1
        rw [isDistance, show counter.toNat + 1 + distance - counter.toNat = distance + 1 by omega,
          Nat.add_sub_cancel_left, scriptSizeAfter, skipMany, Option.bind_assoc]
        rfl
      · exact absurd ⟨later.1, by omega⟩ now
      · exact absurd ⟨now.1, by have := distinct now.1; omega⟩ later
      · exact Option.bind_fun_none _

/-- What no stage of an output changes: which one it is and, unless it is the queried one, the
recorded length. -/
def outputView (state : ParseRawtxState) : Int × UInt32 × Option UInt32 :=
  (state.outputIndex, state.outCounter, if state.isQueried then none else some state.recorded)

theorem preserves_outputView : Preserves outputView runOutput := by
  refine preserves_runTable (fun _ => rfl) ?_
  simp only [parseRawtxoutputSteps, forall_mem_cons, not_mem_nil, false_implies,
    implies_true, and_true]
  refine ⟨preserves_readStage _ fun state bytes => ?_, preserves_varintStage fun state size => ?_,
    preserves_pureStage fun _ => rfl, preserves_iterate (untilTurn_preserves
      (preserves_checkedStage _ fun state data => ?_))⟩
  · unfold storeValue
    split_ifs <;> rfl
  · unfold storeScriptpubkeySize
    split_ifs with queried
    · have stillQueried : ParseRawtxState.isQueried { state.hash (varintWrite size) with
          scriptpubkeySize := UInt32.ofNat size
          parserOutputs.voutScriptpubkeyLen := UInt32.ofNat size } = true := queried
      simp only [outputView, stillQueried, queried]
      rfl
    · rfl
  · rcases storeScriptpubkeyPiece_cases state data with refused | ⟨_, accepted⟩
    · rw [refused]
      rfl
    · rw [accepted]
      rfl

/-- The loop over the outputs records the size of the script of the queried one. -/
theorem recorded_outputs {left : Nat} (atStart : state.outputStep = 0)
    (isLeft : state.nOutputs.toNat = state.outCounter.toNat + left) (input : Bytes) :
    (parseRawtxOutputs state input).state.recorded =
      (sizeWithin state.outputIndex left state.outCounter input).getD state.recorded := by
  induction left generalizing state input with
  | zero =>
    rw [parseRawtxOutputs,
      while_of_not counts_outputs.decreases (by simp [UInt32.toNat_inj.mp isLeft])]
    rfl
  | succ left ih =>
    have below : state.outCounter < state.nOutputs := UInt32.lt_iff_toNat_lt.mpr (by omega)
    have countLt := state.nOutputs.toNat_lt
    have succ : (state.outCounter + 1).toNat = state.outCounter.toNat + 1 := by
      rw [UInt32.toNat_add, UInt32.toNat_one]
      omega
    have frame := counts_outputs.kept state input
    have view := preserves_outputView state input
    simp only [Prod.mk.injEq] at frame
    simp only [outputView, Prod.mk.injEq] at view
    obtain ⟨sameCounter, sameCount⟩ := frame
    obtain ⟨index, -, unlessQueried⟩ := view
    -- the rest of the loop, from the state that the parser of this output reaches
    have later (next : ParseRawtxState) (rest : Bytes)
        (same : next.outputIndex = state.outputIndex ∧ next.nOutputs = state.nOutputs ∧
          next.outCounter = state.outCounter) :
        (parseRawtxOutputs
          { next with outCounter := next.outCounter + 1, outputStep := 0 } rest).state.recorded =
        (sizeWithin state.outputIndex left (state.outCounter + 1) rest).getD next.recorded := by
      rw [← same.1, ← same.2.2]
      refine ih rfl ?_ rest
      simp only [same.2.1, same.2.2]
      omega
    rw [parseRawtxOutputs, while_of_holds counts_outputs.decreases (by simpa using below),
      sizeWithin]
    by_cases queried : state.isQueried = true
    · have here : state.outputIndex ≠ -1 ∧ state.outCounter = UInt32.ofInt state.outputIndex := by
        simpa [ParseRawtxState.isQueried] using queried
      -- the queried output is behind
      have behind (rest : Bytes) :
          sizeWithin state.outputIndex left (state.outCounter + 1) rest = none := by
        rw [sizeWithin_eq (by omega), if_neg]
        rw [← here.2]
        omega
      rw [if_pos here, ← recorded_runOutput atStart queried input]
      cases result : runOutput state input with
      | more next rest => rfl
      | done next rest | error next rest =>
        rw [result] at index sameCount sameCounter
        exact (later next rest ⟨index, sameCount, sameCounter⟩).trans (by rw [behind]; rfl)
    · rw [Bool.not_eq_true] at queried
      have elsewhere : ¬ (state.outputIndex ≠ -1 ∧
          state.outCounter = UInt32.ofInt state.outputIndex) := by
        simpa [ParseRawtxState.isQueried] using queried
      have read := matches_runOutput atStart queried input
      have same : (runOutput state input).state.recorded = state.recorded := by
        rw [queried, if_neg Bool.false_ne_true] at unlessQueried
        split_ifs at unlessQueried
        exact Option.some.inj unlessQueried
      rw [if_neg elsewhere]
      cases result : runOutput state input with
      | done next rest =>
        rw [result] at index sameCount sameCounter same read
        rw [read, ← same]
        exact later next rest ⟨index, sameCount, sameCounter⟩
      | more next rest =>
        rw [result] at same read
        rw [read]
        exact same
      | error next rest =>
        rw [result] at read
        cases read

/-! ## Transactions -/

/-- The last steps leave the recorded length alone. -/
theorem recorded_lastSteps (state : ParseRawtxState) (input : Bytes) :
    (runSteps ParseRawtxState.advance (parseRawtxSteps.drop 7) state input).state.recorded =
      (parseRawtxOutputs state input).state.recorded := by
  have kept : Preserves ParseRawtxState.recorded
      (runSteps ParseRawtxState.advance (parseRawtxSteps.drop 8)) := by
    refine preserves_runSteps (fun _ => rfl) fun step member => ?_
    obtain ⟨_, found⟩ := mem_iff_getElem?.mp member
    rw [getElem?_drop] at found
    exact (preserves_stepFrame found (by omega)).map fun frame => frame.2.2.voutScriptpubkeyLen
  change (runSteps _ (parseRawtxOutputs :: parseRawtxSteps.drop 8) _ _).state.recorded = _
  rw [runSteps]
  cases parseRawtxOutputs state input with
  | done next rest => exact kept next.advance rest
  | more next rest | error next rest => rfl

theorem flag_of_skipBytes (right : ¬ WrongFlag stream)
    (skipped : skipBytes 4 stream = some rest) (flag : UInt8) (following : Bytes)
    (marked : rest = 0x00 :: flag :: following) : flag = 0x01 := by
  unfold skipBytes at skipped
  split_ifs at skipped with enough
  by_contra wrong
  refine right ⟨stream.take 4, flag, following, by simpa using enough, ?_, wrong⟩
  rw [← marked, ← Option.some.inj skipped, take_append_drop]

theorem matches_checkSegwit (state : ParseRawtxState) {input : Bytes}
    (right : ∀ flag rest, input = 0x00 :: flag :: rest → flag = 0x01) :
    Matches (parseRawtxCheckSegwit state input) (skipMarker input) := by
  rcases input with _ | ⟨first, rest⟩
  · rfl
  by_cases legacy : first = 0
  · subst legacy
    rcases rest with _ | ⟨flag, rest⟩
    · rfl
    · obtain rfl := right flag rest rfl
      rfl
  · simp only [parseRawtxCheckSegwit, skipMarker, if_pos (show first ≠ 0 from legacy)]
    rfl

theorem recorded_outputs_all (atStart : state.outputStep = 0)
    (fresh : state.outCounter = 0) (input : Bytes) :
    (parseRawtxOutputs state input).state.recorded =
      (if state.outputIndex ≠ -1 ∧ UInt32.ofInt state.outputIndex < state.nOutputs then
        scriptSizeAfter (UInt32.ofInt state.outputIndex).toNat input else none).getD
          state.recorded := by
  rw [recorded_outputs atStart (by rw [fresh, UInt32.toNat_zero, Nat.zero_add]), fresh,
    sizeWithin_eq (by simpa using state.nOutputs.toNat_lt)]
  simp [UInt32.lt_iff_toNat_lt]

/-- The parser records the size that the reader finds. -/
theorem recorded_runRawtx {start : ParseRawtxState} (atStart : start.curStep = 0)
    (right : ¬ WrongFlag stream) : (runRawtx start stream).state.recorded =
      (queriedScriptSize start.outputIndex stream).getD start.recorded := by
  have kept {index : Nat} {step : Stage ParseRawtxState}
      (found : parseRawtxSteps[index]? = some step) (other : index ≠ 7) :
      Preserves ParseRawtxState.recorded step :=
    (preserves_stepFrame found other).map fun frame => frame.2.2.voutScriptpubkeyLen
  have index {index : Nat} {step : Stage ParseRawtxState}
      (found : parseRawtxSteps[index]? = some step) (other : index ≠ 7) :
      Preserves ParseRawtxState.outputIndex step :=
    (preserves_stepFrame found other).map fun frame => frame.2.1
  rw [runRawtx, runTable, atStart, drop_zero, queriedScriptSize, readOutputCount, Option.bind_assoc]
  refine recorded_runSteps_cons (@kept 0 _ rfl (by decide)) (matches_hashBytesStage 4 _ _)
    fun versioned rest version sameVersioned => ?_
  have skipped : skipBytes 4 stream = some rest := by
    have follows := matches_hashBytesStage 4 start stream
    rwa [show hashBytesStage 4 start stream = _ from version] at follows
  rw [Option.bind_assoc, ← sameVersioned]
  refine recorded_runSteps_cons (@kept 1 _ rfl (by decide))
    (matches_checkSegwit _ (flag_of_skipBytes right skipped))
    fun checked rest check sameChecked => ?_
  rw [Option.bind_assoc, show versioned.advance.recorded = checked.advance.recorded from
    sameChecked.symm]
  refine recorded_runSteps_varint fun nInputs rest => ?_
  rw [Option.bind_assoc]
  change (runSteps _ (parseRawtxInputs :: parseRawtxSteps.drop 5) _ rest).state.recorded = _
  refine recorded_runSteps_cons (@kept 4 _ rfl (by decide))
    (matches_inputs rfl (Nat.zero_add _).symm rest)
    fun parsed rest parse sameParsed => ?_
  change (runSteps _ (parseRawtxOutputCount :: parseRawtxSteps.drop 6) _ rest).state.recorded =
    Option.getD _ checked.advance.recorded
  rw [show checked.advance.recorded = parsed.advance.recorded from sameParsed.symm]
  refine recorded_runSteps_varint fun nOutputs rest => ?_
  change (runSteps _ (parseRawtxSteps.drop 7) _ rest).state.recorded = _
  rw [recorded_lastSteps, recorded_outputs_all rfl rfl]
  have sameIndex : parsed.outputIndex = start.outputIndex := by
    have first := (@index 0 _ rfl (by decide)).done version
    have second := (@index 1 _ rfl (by decide)).done check
    have third := (@index 4 _ rfl (by decide)).done parse
    exact third.trans (second.trans first)
  rw [← sameIndex]
  rfl

/-! ## The flow -/

/-- On every stream, however it is cut into chunks, nothing is written outside the buffer for
the queried script. The length that a success reports fits the buffer if and only if the stream
is refused, so that there is no success, or the size of the queried script fits, or none is
found and the length recorded before fits. -/
theorem callPsbtParseRawtx_scriptLen_iff {H : HashFunction} {map : MerkleizedMapCommitment}
    {key : Bytes} (outputIndex : Int) {outputs : TxidParserOutputs}
    (uninitialised : ParseRawtxState) {dc found : DispatcherContext}
    {incoming answers rest : List Apdu} {code : Int} {valueHash : Digest} {lead : UInt8}
    {first : Bytes} {chunks : List Bytes}
    (buffer : outputs.voutScriptpubkey.length = maxPrevoutScriptpubkeyLen)
    (lookup : callGetMerkleizedMapValueHash H map key (Digest.ofNat 0) dc incoming =
      some ⟨(code, valueHash), found, answers ++ rest⟩) (present : 0 ≤ code)
    (delivers : Delivers lead first chunks answers) :
    ∃ outcome, callPsbtParseRawtx H map key outputIndex outputs uninitialised dc incoming =
        some outcome ∧
      outcome.result.outputs.voutScriptpubkey.length = maxPrevoutScriptpubkeyLen ∧
      ((outcome.result.ret = 0 →
          outcome.result.outputs.voutScriptpubkeyLen.toNat ≤ maxPrevoutScriptpubkeyLen) ↔
        Refused H valueHash lead (first ++ chunks.flatten) ∨
          RecordedLengthFits outputIndex outputs.voutScriptpubkeyLen (first ++ chunks.flatten))
      := by
  obtain ⟨outcome, run, refusal, accepted⟩ := callPsbtParseRawtx_of_delivers outputIndex outputs
    uninitialised lookup present delivers
  refine ⟨outcome, run, length_voutScriptpubkey_callPsbtParseRawtx buffer run, ?_⟩
  by_cases refused : Refused H valueHash lead (first ++ chunks.flatten)
  · refine iff_of_true (fun success => ?_) (Or.inl refused)
    rw [refusal refused] at success
    exact absurd success (by decide)
  · rw [or_iff_right refused, accepted refused, RecordedLengthFits]
    unfold Refused at refused
    rw [not_or, not_or, not_le, ← flatten_cons] at refused
    have atStart : (startState uninitialised outputIndex outputs).curStep = 0 := rfl
    have recorded := recorded_runRawtx atStart refused.2.2
    rw [← (follows_processChunks atStart refused.2.1).parserState_eq, flatten_cons] at recorded
    simp only [forall_const]
    exact iff_of_eq (congrArg (fun length : UInt32 => length.toNat ≤ maxPrevoutScriptpubkeyLen)
      recorded)

theorem callPsbtParseRawtx_scriptLen_iff_sample :
    ∃ outcome, callPsbtParseRawtx sampleRawtxHash (sampleEntry.commitment sampleRawtxHash) [0x00]
        0 sampleOutputs sampleParseState .initial
        (sampleEntry.lookupAnswers sampleRawtxHash ++ sampleStreamAnswers) = some outcome ∧
      outcome.result.outputs.voutScriptpubkey.length = maxPrevoutScriptpubkeyLen ∧
      (outcome.result.ret = 0 →
        outcome.result.outputs.voutScriptpubkeyLen.toNat ≤ maxPrevoutScriptpubkeyLen) := by
  obtain ⟨found, lookup⟩ := lookup_sampleEntry
  have fits : RecordedLengthFits 0 sampleOutputs.voutScriptpubkeyLen
      (sampleTransaction.serialize.take 30 ++ [sampleTransaction.serialize.drop 30].flatten) := by
    decide
  obtain ⟨outcome, run, length, fitsIff⟩ := callPsbtParseRawtx_scriptLen_iff 0 sampleParseState
    (show sampleOutputs.voutScriptpubkey.length = maxPrevoutScriptpubkeyLen from rfl) lookup le_rfl
    delivers_sampleStreamAnswers
  exact ⟨outcome, run, length, fitsIff.mpr (Or.inr fits)⟩

/-- A transaction whose only output has a script of 35 bytes. -/
def longScriptTransaction : Transaction :=
  { sampleTransaction with
    outputs := sampleTransaction.outputs.map fun output =>
      { output with scriptPubkey := replicate 35 0x51 }
    witnesses := none }

def longScriptEntry : SampleEntry := ⟨[0x00], longScriptTransaction.serialize⟩

/-- SHA-256 on the strings that are hashed for the transaction with the long script. What is
hashed for the transaction id lacks the last three bytes, which are never read. -/
def longScriptHash : HashFunction :=
  tableHash [
    ([0x00, 0x00], 0x96a296d224f285c67bee93c30f8a309157f0daa35dc5b87e410b78630a09cfc7),
    (0x00 :: longScriptTransaction.serialize,
      0x3846ed7b6421e347eaf5bf2fb5a099e211047a0f0d3966b8ef2ee49a20690d8e),
    (longScriptTransaction.serialize.take 92,
      0xce079f5d57b271bbd4d1fe8f25187da2fcdb14c44948c5db351f197873b3a825),
    (beBytes 32 0xce079f5d57b271bbd4d1fe8f25187da2fcdb14c44948c5db351f197873b3a825,
      0x9d96085404e5fff686a29961635e8cb02f7acec917886a3572376f452d222a8b)]

/-- The check that refuses the long script ends the parser of the output, not that of the
transaction: the flow succeeds and reports a length of 35 for a buffer of 34 bytes. -/
theorem callPsbtParseRawtx_reports_long_script :
    ∃ outcome, callPsbtParseRawtx longScriptHash (longScriptEntry.commitment longScriptHash) [0x00]
        0 sampleOutputs sampleParseState .initial
        (longScriptEntry.lookupAnswers longScriptHash ++
          [continueApdu 0 0 (0x60 :: 0x60 :: 0x00 :: longScriptTransaction.serialize)]) =
        some outcome ∧
      outcome.result.ret = 0 ∧ outcome.result.outputs.voutScriptpubkeyLen = 35 ∧
      maxPrevoutScriptpubkeyLen < 35 := by
  have results : (callPsbtParseRawtx longScriptHash (longScriptEntry.commitment longScriptHash)
      [0x00] 0 sampleOutputs sampleParseState .initial
      (longScriptEntry.lookupAnswers longScriptHash ++
        [continueApdu 0 0 (0x60 :: 0x60 :: 0x00 :: longScriptTransaction.serialize)])).map
        (fun outcome => (outcome.result.ret, outcome.result.outputs.voutScriptpubkeyLen)) =
      some (0, 35) := by
    decide +kernel
  obtain ⟨outcome, run, result⟩ := Option.map_eq_some_iff.mp results
  rw [Prod.mk.injEq] at result
  exact ⟨outcome, run, result.1, result.2, by decide⟩

end LedgerSyscoin.Handler
