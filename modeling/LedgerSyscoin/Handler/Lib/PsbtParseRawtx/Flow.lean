import LedgerSyscoin.Handler.Lib.GetMerkleizedMapValueHash
import LedgerSyscoin.Handler.Lib.PsbtParseRawtx.Resume
import LedgerSyscoin.Handler.Lib.StreamPreimage

/-!
# `call_psbt_parse_rawtx`

The value of a map is streamed to the parser of raw transactions. After each chunk the
bytes left unread are kept in a store of 32 bytes; if they do not fit, the store stays
as it was. A failure of the parser is remembered, but not whether it was done. However a
stream is cut into chunks, the parser ends where a run over the whole stream ends.
-/

namespace LedgerSyscoin.Handler

open Foundation Common Boilerplate List

/-- State of the flow: the unread bytes, the parser and whether it failed. -/
structure PsbtParseRawtxState where
  store : Bytes
  parserState : ParseRawtxState
  parserError : Bool

/-- Parse one more chunk. -/
def cbProcessData (data : Bytes) (state : PsbtParseRawtxState) : PsbtParseRawtxState :=
  if state.parserError then state
  else
    match runRawtx state.parserState (state.store ++ data) with
    | .done parserState _ => { state with parserState }
    | .more parserState unread =>
      { state with
        parserState
        store := if unread.length > storeSize then state.store else unread }
    | .error parserState _ => { state with parserState, parserError := true }

/-- The flow before the first chunk; the other fields of the parser are not initialised. -/
def PsbtParseRawtxState.start (uninitialised : ParseRawtxState) (outputIndex : Int)
    (outputs : TxidParserOutputs) : PsbtParseRawtxState :=
  { store := []
    parserState := { uninitialised with
      hashed := []
      curStep := 0
      outputIndex
      parserOutputs := outputs }
    parserError := false }

/-- Return code of the flow and what it reports. -/
structure ParsedRawtx where
  ret : Int
  outputs : TxidParserOutputs
  deriving DecidableEq

/-- Parse the transaction that a map has at `key`. -/
def callPsbtParseRawtx (H : HashFunction) (map : MerkleizedMapCommitment) (key : Bytes)
    (outputIndex : Int) (outputs : TxidParserOutputs) (uninitialised : ParseRawtxState)
    (dc : DispatcherContext) (incoming : List Apdu) : Option (Outcome ParsedRawtx) :=
  match callGetMerkleizedMapValueHash H map key (Digest.ofNat 0) dc incoming with
  | none => none
  | some ⟨(code, valueHash), dc, pending⟩ =>
    if code < 0 then some ⟨⟨-1, outputs⟩, dc, pending⟩
    else
      match callStreamPreimage H valueHash none cbProcessData
          (PsbtParseRawtxState.start uninitialised outputIndex outputs) dc pending with
      | none => none
      | some ⟨(code, state), dc, pending⟩ =>
        let outputs := state.parserState.parserOutputs
        if code < 0 ∨ state.parserError then some ⟨⟨-1, outputs⟩, dc, pending⟩
        else
          let txid := H (H state.parserState.hashed).val
          some ⟨⟨0, { outputs with txid }⟩, dc, pending⟩

/-! ## The parser over the chunks of a stream -/

/-- The flow after a list of chunks. -/
def processChunks (chunks : List Bytes) (state : PsbtParseRawtxState) : PsbtParseRawtxState :=
  chunks.foldl (fun reached chunk => cbProcessData chunk reached) state

section Chunks

variable {start next : ParseRawtxState} {consumed : Bytes} {state : PsbtParseRawtxState}

/-- How the flow stands to a run over everything it received: it goes on like it, it stays where
the run waits or is done, or it has failed with it. -/
inductive Follows (start : ParseRawtxState) (consumed : Bytes) (state : PsbtParseRawtxState) : Prop
  | goesOn (noError : state.parserError = false)
      (stopped : runRawtx start consumed = .more state.parserState state.store)
  | waits {rest : Bytes} (noError : state.parserError = false)
      (small : state.store.length ≤ consumed.length)
      (stopped : runRawtx start consumed = .more state.parserState rest)
      (waits : Waits (2 ^ 31) runRawtx state.parserState)
  | ended {rest : Bytes} (noError : state.parserError = false)
      (done : runRawtx start consumed = .done state.parserState rest)
  | failed {rest : Bytes} (error : state.parserError = true)
      (failed : runRawtx start consumed = .error state.parserState rest)

theorem Follows.parserState_eq (follows : Follows start consumed state) :
    state.parserState = (runRawtx start consumed).state := by
  cases follows with
  | goesOn _ result | waits _ _ result _ | ended _ result | failed _ result =>
    rw [result]
    rfl

theorem Follows.parserError_iff (follows : Follows start consumed state) :
    state.parserError = true ↔ ∃ next rest, runRawtx start consumed = .error next rest := by
  cases follows with
  | goesOn noError result | waits noError _ result _ | ended noError result =>
    simp [noError, result]
  | failed error failed => exact iff_of_true error ⟨_, _, failed⟩

/-- A parser that is done stays so. -/
theorem runRawtx_of_done {rest : Bytes} (done : runRawtx start consumed = .done next rest)
    (input : Bytes) : runRawtx next input = .done next input := by
  have ended : parseRawtxSteps.drop next.curStep = [] :=
    drop_eq_nil_iff.mpr (length_le_current_of_done countsSteps_rawtx rfl done)
  rw [runRawtx, runTable, ended]
  rfl

theorem Follows.chunk (follows : Follows start consumed state) {data : Bytes}
    (short : (consumed ++ data).length < 2 ^ 31) :
    Follows start (consumed ++ data) (cbProcessData data state) := by
  have lengths : (consumed ++ data).length = consumed.length + data.length := length_append
  rw [cbProcessData]
  cases follows with
  | goesOn noError stopped =>
    obtain ⟨left, goesOn, _⟩ := resumable_runRawtx.more stopped
    rw [noError, if_neg Bool.false_ne_true, ← goesOn]
    cases result : runRawtx start (consumed ++ data) with
    | done next rest => exact .ended rfl result
    | more next rest =>
      by_cases fits : rest.length ≤ storeSize
      · simp only [if_neg (not_lt.mpr fits)]
        exact .goesOn rfl result
      · simp only [if_pos (not_le.mp fits)]
        exact .waits rfl (by simp only; omega) result
          ((resumable_runRawtx.more result).2.2.resolve_left fits)
    | error next rest => exact .failed rfl result
  | waits noError small stopped waits =>
    obtain ⟨left, goesOn, _⟩ := resumable_runRawtx.more stopped
    have stays {unread : Bytes} (inside : unread.length ≤ consumed.length) :
        runRawtx state.parserState (unread ++ data) = .more state.parserState (unread ++ data) :=
      waits _ (by rw [length_append]; omega)
    rw [noError, if_neg Bool.false_ne_true, stays small]
    refine .waits rfl ?_ ((goesOn data).trans (stays left)) waits
    simp only
    split_ifs
    · omega
    · rw [length_append]
      omega
  | ended noError done =>
    rw [noError, if_neg Bool.false_ne_true, runRawtx_of_done done]
    exact .ended rfl (resumable_runRawtx.done done data)
  | failed error failed =>
    rw [error, if_pos rfl]
    exact .failed error (resumable_runRawtx.error failed data)

theorem Follows.chunks (follows : Follows start consumed state) {chunks : List Bytes}
    (short : (consumed ++ chunks.flatten).length < 2 ^ 31) :
    Follows start (consumed ++ chunks.flatten) (processChunks chunks state) := by
  induction chunks generalizing consumed state with
  | nil => simpa [processChunks] using follows
  | cons chunk chunks ih =>
    rw [flatten_cons, ← append_assoc] at short ⊢
    refine ih (follows.chunk ?_) short
    rw [length_append] at short
    omega

/-- However a stream is cut into chunks, the flow follows a run over the whole stream. -/
theorem follows_processChunks (atStart : start.curStep = 0) {chunks : List Bytes}
    (short : chunks.flatten.length < 2 ^ 31) :
    Follows start chunks.flatten (processChunks chunks ⟨[], start, false⟩) := by
  have initial : Follows start [] ⟨[], start, false⟩ :=
    .goesOn rfl (by rw [runRawtx, runTable, atStart]; rfl)
  exact initial.chunks short

/-- After every chunk of a stream on which the parser is done, the unread bytes fit into the
store. -/
theorem Follows.length_unread_le (follows : Follows start consumed state)
    {chunk later unread rest : Bytes} {last : ParseRawtxState}
    (short : (consumed ++ (chunk ++ later)).length < 2 ^ 31)
    (whole : runRawtx start (consumed ++ (chunk ++ later)) = .done last rest)
    (stopped : runRawtx state.parserState (state.store ++ chunk) = .more next unread) :
    unread.length ≤ storeSize := by
  simp only [length_append] at short
  cases follows with
  | goesOn _ pending =>
    have reached := (resumable_runRawtx.more pending).2.1 chunk
    rw [stopped] at reached
    obtain ⟨left, goesOn, fits | waits⟩ := resumable_runRawtx.more reached
    · exact fits
    · rw [length_append] at left
      rw [← append_assoc, goesOn, waits _ (by rw [length_append]; omega)] at whole
      cases whole
  | waits _ _ pending waits =>
    obtain ⟨left, goesOn, _⟩ := resumable_runRawtx.more pending
    rw [goesOn, waits _ (by simp only [length_append]; omega)] at whole
    cases whole
  | ended _ done =>
    rw [runRawtx_of_done done] at stopped
    cases stopped
  | failed _ failed =>
    rw [resumable_runRawtx.error failed] at whole
    cases whole

end Chunks

/-! ## Streams that the parser refuses -/

/-- The stream has the marker of a segwit transaction with a wrong flag. -/
def WrongFlag (stream : Bytes) : Prop :=
  ∃ version flag rest, version.length = 4 ∧ stream = version ++ 0x00 :: flag :: rest ∧ flag ≠ 0x01

theorem wrongFlag_append_iff {version tail : Bytes} (length : version.length = 4) :
    WrongFlag (version ++ tail) ↔ ∃ flag rest, tail = 0x00 :: flag :: rest ∧ flag ≠ 0x01 := by
  constructor
  · rintro ⟨_, flag, rest, otherLength, split, wrong⟩
    have tails := (append_inj split (length.trans otherLength.symm)).2
    exact ⟨flag, rest, tails, wrong⟩
  · rintro ⟨flag, rest, rfl, wrong⟩
    exact ⟨version, flag, rest, length, rfl, wrong⟩

/-- The parser fails exactly at a wrong flag: once the kind of the transaction is known, no stage
fails. -/
theorem runRawtx_error_iff {start : ParseRawtxState} (atStart : start.curStep = 0)
    (input : Bytes) : (∃ next rest, runRawtx start input = .error next rest) ↔ WrongFlag input := by
  have table : runRawtx start input = runSteps ParseRawtxState.advance
      (parseRawtxVersion :: parseRawtxCheckSegwit :: parseRawtxSteps.drop 2) start input := by
    rw [runRawtx, runTable, atStart]
    rfl
  have known (state : ParseRawtxState) (input : Bytes) : ¬ ∃ next rest,
      runSteps ParseRawtxState.advance (parseRawtxSteps.drop 2) state input = .error next rest := by
    rintro ⟨next, rest, failed⟩
    exact neverFails_runSteps neverFails_after_checkSegwit state input next rest failed
  rw [table, runSteps]
  by_cases short : input.length < 4
  · have stopped : parseRawtxVersion start input = .more start input := by
      rw [parseRawtxVersion, hashBytesStage, readStage, if_neg (not_le.mpr short)]
    rw [stopped]
    refine iff_of_false (by simp) ?_
    rintro ⟨version, flag, rest, length, rfl, _⟩
    rw [length_append] at short
    omega
  · obtain ⟨version, tail, rfl, length⟩ : ∃ version tail, input = version ++ tail ∧
        version.length = 4 :=
      ⟨input.take 4, input.drop 4, (take_append_drop 4 input).symm, by simp; omega⟩
    have read : parseRawtxVersion start (version ++ tail) = .done (start.hash version) tail := by
      rw [parseRawtxVersion, hashBytesStage]
      exact readStage_append length
    rw [wrongFlag_append_iff length, read]
    simp only [runSteps]
    rcases tail with _ | ⟨first, tail⟩
    · exact iff_of_false (by simp [parseRawtxCheckSegwit]) (by simp)
    by_cases legacy : first = 0x00
    · subst legacy
      rcases tail with _ | ⟨flag, rest⟩
      · exact iff_of_false (by simp [parseRawtxCheckSegwit]) (by simp)
      by_cases wrong : flag = 0x01
      · subst wrong
        exact iff_of_false (known _ rest) (by simp)
      · exact iff_of_true (by simp [parseRawtxCheckSegwit, wrong]) ⟨flag, rest, rfl, wrong⟩
    · have looks : parseRawtxCheckSegwit (start.hash version).advance (first :: tail) =
          .done { (start.hash version).advance with isSegwit := false } (first :: tail) := by
        simp [parseRawtxCheckSegwit, legacy]
      rw [looks]
      exact iff_of_false (known _ _) (by simp [legacy])

end LedgerSyscoin.Handler
