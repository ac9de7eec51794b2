import LedgerSyscoin.Foundation.Preserve

/-!
# Resumable stages

A stage is resumable when stopping for more input at any byte boundary makes no
difference: going on with the unread bytes followed by the new ones gives what the whole
input would have given. Where it stops it leaves few bytes unread, unless it waits for a
field so long that no input shorter than a limit holds it; then it stays where it is.
-/

namespace LedgerSyscoin.Foundation

open List

universe u

variable {σ : Type u} {bound limit : Nat}

/-- The stage waits at `state`: an input shorter than `limit` changes nothing. -/
def Waits (limit : Nat) (stage : Stage σ) (state : σ) : Prop :=
  ∀ input, input.length < limit → stage state input = .more state input

/-- How a stage ended on `input` tells how it ends on more input. It has left no more bytes than
it was given, and where it stopped it has left at most `bound` bytes or waits. -/
def Progress.Resumes (bound limit : Nat) (stage : Stage σ) (state : σ) (input : Bytes) :
    Progress σ → Prop
  | .done next rest => rest.length ≤ input.length ∧
    ∀ more, stage state (input ++ more) = .done next (rest ++ more)
  | .more next rest => rest.length ≤ input.length ∧
    (∀ more, stage state (input ++ more) = stage next (rest ++ more)) ∧
      (rest.length ≤ bound ∨ Waits limit stage next)
  | .error next rest => rest.length ≤ input.length ∧
    ∀ more, stage state (input ++ more) = .error next (rest ++ more)

/-- Splitting the input of a stage makes no difference. -/
def Resumable (bound limit : Nat) (stage : Stage σ) : Prop :=
  ∀ state input, (stage state input).Resumes bound limit stage state input

section Ends

variable {stage : Stage σ} {state next : σ} {input rest : Bytes}

theorem Resumable.done (resumable : Resumable bound limit stage)
    (result : stage state input = .done next rest) (more : Bytes) :
    stage state (input ++ more) = .done next (rest ++ more) := by
  have ended := resumable state input
  rw [result] at ended
  exact ended.2 more

theorem Resumable.more (resumable : Resumable bound limit stage)
    (result : stage state input = .more next rest) :
    (Progress.more next rest).Resumes bound limit stage state input :=
  result ▸ resumable state input

theorem Resumable.error (resumable : Resumable bound limit stage)
    (result : stage state input = .error next rest) (more : Bytes) :
    stage state (input ++ more) = .error next (rest ++ more) := by
  have ended := resumable state input
  rw [result] at ended
  exact ended.2 more

/-- A stage that goes on like another one, on a part of its input. -/
theorem Progress.Resumes.of_inner {progress : Progress σ} {inner outer : Stage σ} {start : σ}
    {part : Bytes} (ended : progress.Resumes bound limit inner start part)
    (length : part.length ≤ input.length)
    (enters : ∀ more, outer state (input ++ more) = inner start (part ++ more))
    (same : ∀ next rest, progress = .more next rest → outer next = inner next) :
    progress.Resumes bound limit outer state input := by
  cases progress with
  | done next rest | error next rest =>
    exact ⟨ended.1.trans length, fun more => (enters more).trans (ended.2 more)⟩
  | more next rest =>
    obtain ⟨left, goesOn, _⟩ := ended
    refine ⟨left.trans length, fun more => ?_, ?_⟩
    · rw [enters, goesOn, same next rest rfl]
    · rwa [Waits, same next rest rfl]

end Ends

/-! ## Single reads -/

theorem resumable_pureStage (update : σ → σ) : Resumable bound limit (pureStage update) :=
  fun _ _ => ⟨le_rfl, fun _ => rfl⟩

theorem resumable_checkedStage {width : σ → Nat} (update : σ → Bytes → Bool × σ)
    (widths : ∀ state, width state ≤ bound ∨ limit ≤ width state) :
    Resumable bound limit (checkedStage width update) := by
  intro state input
  by_cases enough : width state ≤ input.length
  · have enoughBoth (more : Bytes) : width state ≤ (input ++ more).length := by
      rw [length_append]
      omega
    rw [checkedStage, if_pos enough]
    rcases stored : update state (input.take (width state)) with ⟨_ | _, next⟩ <;>
      refine ⟨by simp, fun more => ?_⟩ <;>
      rw [checkedStage, if_pos (enoughBoth more), take_append_of_le_length enough,
        drop_append_of_le_length enough, stored]
  · rw [checkedStage, if_neg enough]
    refine ⟨le_rfl, fun _ => rfl, (widths state).imp (fun small => by omega) ?_⟩
    intro large other short
    rw [checkedStage, if_neg (by omega)]

theorem resumable_readStage {width : σ → Nat} (update : σ → Bytes → σ)
    (widths : ∀ state, width state ≤ bound ∨ limit ≤ width state) :
    Resumable bound limit (readStage width update) :=
  resumable_checkedStage (fun state bytes => (true, update state bytes)) widths

/-- A stage that stops for more input does not change the flag. -/
def KeepsFlag (flag : σ → Bool) (stage : Stage σ) : Prop :=
  ∀ state input next rest, stage state input = .more next rest → flag next = flag state

theorem resumable_unlessStage {flag : σ → Bool} {stage : Stage σ}
    (resumable : Resumable bound limit stage) (keeps : KeepsFlag flag stage) :
    Resumable bound limit (unlessStage flag stage) := by
  have unset {state : σ} (unset : flag state = false) :
      unlessStage flag stage state = stage state := by
    funext input
    rw [unlessStage, if_neg (by simp [unset])]
  intro state input
  cases set : flag state with
  | true =>
    rw [unlessStage_of_flag set]
    exact ⟨le_rfl, fun more => unlessStage_of_flag set _⟩
  | false =>
    rw [unset set]
    exact (resumable state input).of_inner le_rfl (fun more => by rw [unset set])
      fun next rest stopped => unset ((keeps _ _ _ _ stopped).trans set)

/-! ## Sequences -/

/-- When `second` stops for more input, `first` has nothing left to do. -/
def Skips (first second : Stage σ) : Prop :=
  ∀ state input middle unread next rest, first state input = .done middle unread →
    second middle unread = .more next rest → ∀ following,
      first next following = .done next following

theorem resumable_andThen {first second : Stage σ} (resumableFirst : Resumable bound limit first)
    (resumableSecond : Resumable bound limit second) (skips : Skips first second) :
    Resumable bound limit (andThen first second) := by
  intro state input
  have ended := resumableFirst state input
  rw [andThen]
  cases result : first state input with
  | done middle unread =>
    rw [result] at ended
    refine (resumableSecond middle unread).of_inner ended.1 (fun more => ?_) ?_
    · rw [andThen, ended.2]
    · intro next rest stopped
      funext following
      rw [andThen, skips _ _ _ _ _ _ result stopped]
  | more next rest =>
    rw [result] at ended
    refine ⟨ended.1, fun more => ?_, ended.2.2.imp_right fun waits other short => ?_⟩
    · rw [andThen, ended.2.1, andThen]
    · rw [andThen, waits other short]
  | error next rest =>
    rw [result] at ended
    exact ⟨ended.1, fun more => by rw [andThen, ended.2]⟩

section Table

variable {current : σ → Nat} {next : σ → σ} {table steps : List (Stage σ)} {state : σ}

/-- A table that stops is at the step that stopped. -/
theorem runSteps_resumes (counts : CountsSteps current next table)
    (resumable : ∀ step ∈ table, Resumable bound limit step)
    (stepsEq : table.drop (current state) = steps) (input : Bytes) :
    (runSteps next steps state input).Resumes bound limit (runTable current next table) state
      input := by
  induction steps generalizing state input with
  | nil =>
    refine ⟨le_rfl, fun more => ?_⟩
    rw [runTable, stepsEq, runSteps]
  | cons step steps ih =>
    have member : step ∈ table := mem_of_mem_drop (by rw [stepsEq]; exact mem_cons_self)
    have counted := counts.current_step step member state input
    have ended := resumable step member state input
    have table_eq (reached : σ) (same : current reached = current state) (following : Bytes) :
        runTable current next table reached following =
          runSteps next (step :: steps) reached following := by
      rw [runTable, same, stepsEq]
    rw [runSteps]
    cases result : step state input with
    | done middle unread =>
      rw [result] at ended
      have laterEq := counts.drop_next stepsEq result
      refine (ih laterEq unread).of_inner ended.1 (fun more => ?_) fun _ _ _ => rfl
      rw [table_eq _ rfl, runSteps, ended.2, runTable, laterEq]
    | more middle unread =>
      rw [result] at ended counted
      refine ⟨ended.1, fun more => ?_, ended.2.2.imp_right fun waits other short => ?_⟩
      · rw [table_eq _ rfl, table_eq middle counted, runSteps, runSteps, ended.2.1]
      · rw [table_eq middle counted, runSteps, waits other short]
    | error middle unread =>
      rw [result] at ended
      exact ⟨ended.1, fun more => by rw [table_eq _ rfl, runSteps, ended.2]⟩

theorem resumable_runTable (counts : CountsSteps current next table)
    (resumable : ∀ step ∈ table, Resumable bound limit step) :
    Resumable bound limit (runTable current next table) :=
  fun _ input => runSteps_resumes counts resumable rfl input

/-- A table that is done has no step left. -/
theorem length_le_current_of_done (counts : CountsSteps current next table) {reached : σ}
    (stepsEq : table.drop (current state) = steps) {input rest : Bytes}
    (done : runSteps next steps state input = .done reached rest) :
    table.length ≤ current reached := by
  induction steps generalizing state input with
  | nil =>
    cases done
    exact drop_eq_nil_iff.mp stepsEq
  | cons step steps ih =>
    rw [runSteps] at done
    cases result : step state input with
    | done middle unread =>
      rw [result] at done
      exact ih (counts.drop_next stepsEq result) done
    | more middle unread | error middle unread =>
      rw [result] at done
      cases done

end Table

/-! ## Loops -/

section Loops

variable {measure : σ → Nat} {body : Stage σ}

/-- A stopped body leaves the loop condition true. -/
def Keeps (condition : σ → Bool) (body : Stage σ) : Prop :=
  ∀ state input next rest, condition state = true → body state input = .more next rest →
    condition next = true

theorem resumable_while {condition : σ → Bool} {after : σ → σ}
    (decreases : Decreases measure (whileTurn condition body after))
    (resumable : Resumable bound limit body) (keeps : Keeps condition body) :
    Resumable bound limit (iterate measure (whileTurn condition body after)) := by
  intro state input
  induction size : measure state using Nat.strong_induction_on generalizing state input with
  | _ size' ih =>
    subst size
    cases holds : condition state with
    | false =>
      rw [while_of_not decreases holds]
      exact ⟨le_rfl, fun more => while_of_not decreases holds _⟩
    | true =>
      have ended := resumable state input
      have smaller (next : σ) (rest : Bytes)
          (round : whileTurn condition body after state input = .again next rest) :=
        decreases state input next rest round
      rw [while_of_holds decreases holds]
      rw [whileTurn, if_pos holds] at smaller
      cases result : body state input with
      | done next rest | error next rest =>
        rw [result] at ended smaller
        refine (ih _ (smaller _ _ rfl) _ rest rfl).of_inner ended.1 (fun more => ?_)
          fun _ _ _ => rfl
        rw [while_of_holds decreases holds, ended.2]
      | more next rest =>
        rw [result] at ended
        have stays := keeps state input next rest holds result
        refine ⟨ended.1, fun more => ?_, ended.2.2.imp_right fun waits other short => ?_⟩
        · rw [while_of_holds decreases holds, while_of_holds decreases stays, ended.2.1]
        · rw [while_of_holds decreases stays, waits other short]

theorem resumable_until {finished : σ → Bool}
    (decreases : Decreases measure (untilTurn finished body))
    (resumable : Resumable bound limit body) :
    Resumable bound limit (iterate measure (untilTurn finished body)) := by
  intro state input
  induction size : measure state using Nat.strong_induction_on generalizing state input with
  | _ size' ih =>
    subst size
    have ended := resumable state input
    have smaller (next : σ) (rest : Bytes)
        (round : untilTurn finished body state input = .again next rest) :=
      decreases state input next rest round
    rw [until_eq decreases]
    rw [untilTurn] at smaller
    cases result : body state input with
    | done next rest =>
      rw [result] at ended smaller
      have split (more : Bytes) := until_eq decreases state (input ++ more)
      simp only [ended.2] at split
      cases last : finished next with
      | true =>
        simp only [last, if_true] at split ⊢
        exact ⟨ended.1, split⟩
      | false =>
        simp only [last] at split smaller ⊢
        exact (ih _ (smaller _ _ rfl) _ rest rfl).of_inner ended.1 split fun _ _ _ => rfl
    | more next rest =>
      rw [result] at ended
      refine ⟨ended.1, fun more => ?_, ended.2.2.imp_right fun waits other short => ?_⟩
      · rw [until_eq decreases, until_eq decreases, ended.2.1]
      · rw [until_eq decreases, waits other short]
    | error next rest =>
      rw [result] at ended
      exact ⟨ended.1, fun more => by rw [until_eq decreases, ended.2]⟩

end Loops

end LedgerSyscoin.Foundation
