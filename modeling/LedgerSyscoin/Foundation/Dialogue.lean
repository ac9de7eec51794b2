import Mathlib.Logic.Basic

/-!
# Programs that ask questions

A dialogue asks questions, one after the other, and goes on with the answers; it ends
with a value or fails. Which answers are given is not part of it. If every question
has one answer only, a dialogue has one result; in general its results are those of
performing each question in some monad.
-/

namespace LedgerSyscoin.Foundation

variable {Question : Type} {Answer : Question → Type} {ε α β : Type}

/-- A program that asks questions and may fail. -/
inductive Dialogue (Answer : Question → Type) (ε α : Type) : Type
  | done (value : α)
  | fail (error : ε)
  | ask (question : Question) (next : Answer question → Dialogue Answer ε α)

namespace Dialogue

protected def bind (program : Dialogue Answer ε α) (next : α → Dialogue Answer ε β) :
    Dialogue Answer ε β :=
  match program with
  | done value => next value
  | fail error => fail error
  | ask question rest => ask question fun answer => (rest answer).bind next

instance : Monad (Dialogue Answer ε) where
  pure := done
  bind := Dialogue.bind

/-- Go on with a handler where a dialogue fails. -/
protected def tryCatch (program : Dialogue Answer ε α) (handler : ε → Dialogue Answer ε α) :
    Dialogue Answer ε α :=
  match program with
  | done value => done value
  | fail error => handler error
  | ask question rest => ask question fun answer => (rest answer).tryCatch handler

/-- Ask one question. -/
def question (question : Question) : Dialogue Answer ε (Answer question) := ask question done

/-! ## One answer for each question -/

/-- The result of a dialogue in which each question has one answer. -/
def run (answers : (question : Question) → Answer question) : Dialogue Answer ε α → Except ε α
  | done value => .ok value
  | fail error => .error error
  | ask question next => (next (answers question)).run answers

variable {answers : (question : Question) → Answer question}

@[simp]
theorem run_pure (value : α) : run answers (pure value : Dialogue Answer ε α) = .ok value := rfl

@[simp]
theorem run_done (value : α) : run answers (done value : Dialogue Answer ε α) = .ok value := rfl

@[simp]
theorem run_fail (error : ε) : run answers (fail error : Dialogue Answer ε α) = .error error := rfl

@[simp]
theorem run_question (asked : Question) :
    run answers (question asked : Dialogue Answer ε (Answer asked)) = .ok (answers asked) := rfl

theorem run_bind (program : Dialogue Answer ε α) (next : α → Dialogue Answer ε β) :
    run answers (program >>= next) =
      match run answers program with
      | .ok value => run answers (next value)
      | .error error => .error error := by
  induction program with
  | done value | fail error => rfl
  | ask question rest ih => exact ih (answers question)

variable {program : Dialogue Answer ε α}

/-- A dialogue goes on after a part that returns. -/
theorem run_bind_of_ok {value : α}
    (returns : run answers program = .ok value) (next : α → Dialogue Answer ε β) :
    run answers (program >>= next) = run answers (next value) := by
  rw [run_bind, returns]

theorem run_bind_of_error {error : ε}
    (fails : run answers program = .error error) (next : α → Dialogue Answer ε β) :
    run answers (program >>= next) = .error error := by
  rw [run_bind, fails]

/-- The exchanges of a dialogue in which each question has one answer. -/
def transcript (answers : (question : Question) → Answer question) :
    Dialogue Answer ε α → List ((question : Question) × Answer question)
  | done _ => []
  | fail _ => []
  | ask question next =>
    ⟨question, answers question⟩ :: (next (answers question)).transcript answers

@[simp]
theorem run_question_bind (asked : Question) (next : Answer asked → Dialogue Answer ε β) :
    run answers (question asked >>= next) = run answers (next (answers asked)) := rfl

/-! ## Exchanges -/

/-- A question with the answer that it got. -/
abbrev Exchange (Answer : Question → Type) := (question : Question) × Answer question

/-- The exchanges of a dialogue, for some answers, and its result. -/
inductive Runs : Dialogue Answer ε α → List (Exchange Answer) → Except ε α → Prop
  | done (value : α) : Runs (.done value) [] (.ok value)
  | fail (error : ε) : Runs (.fail error) [] (.error error)
  | ask {asked : Question} {next : Answer asked → Dialogue Answer ε α} {answer : Answer asked}
      {exchanges : List (Exchange Answer)} {result : Except ε α}
      (rest : Runs (next answer) exchanges result) :
      Runs (.ask asked next) (⟨asked, answer⟩ :: exchanges) result

variable {exchanges : List (Exchange Answer)} {result : Except ε α}

theorem runs_pure_iff {value : α} :
    Runs (pure value : Dialogue Answer ε α) exchanges result ↔
      exchanges = [] ∧ result = .ok value := by
  constructor
  · rintro ⟨⟩
    exact ⟨rfl, rfl⟩
  · rintro ⟨rfl, rfl⟩
    exact .done value

theorem runs_fail_iff {error : ε} :
    Runs (fail error : Dialogue Answer ε α) exchanges result ↔
      exchanges = [] ∧ result = .error error := by
  constructor
  · rintro ⟨⟩
    exact ⟨rfl, rfl⟩
  · rintro ⟨rfl, rfl⟩
    exact .fail error

theorem runs_ask_iff {asked : Question} {next : Answer asked → Dialogue Answer ε α} :
    Runs (ask asked next) exchanges result ↔
      ∃ answer rest, exchanges = ⟨asked, answer⟩ :: rest ∧ Runs (next answer) rest result := by
  constructor
  · rintro ⟨⟩
    exact ⟨_, _, rfl, ‹_›⟩
  · rintro ⟨answer, rest, rfl, run⟩
    exact .ask run

theorem runs_question_bind_iff {asked : Question} {next : Answer asked → Dialogue Answer ε α} :
    Runs (question asked >>= next) exchanges result ↔
      ∃ answer rest, exchanges = ⟨asked, answer⟩ :: rest ∧ Runs (next answer) rest result :=
  runs_ask_iff

variable {next : α → Dialogue Answer ε β}

namespace Runs

theorem pure {value : α} (run : Runs (Pure.pure value : Dialogue Answer ε α) exchanges result) :
    exchanges = [] ∧ result = .ok value :=
  runs_pure_iff.mp run

theorem question {asked : Question} {next : Answer asked → Dialogue Answer ε α}
    (run : Runs (Dialogue.question asked >>= next) exchanges result) :
    ∃ answer rest, exchanges = ⟨asked, answer⟩ :: rest ∧ Runs (next answer) rest result :=
  runs_ask_iff.mp run

/-- One dialogue after the other: the first one fails, or it returns and the second one runs. -/
theorem bind {result : Except ε β} (run : Runs (program >>= next) exchanges result) :
    (∃ error, Runs program exchanges (.error error) ∧ result = .error error) ∨
      ∃ value before after, exchanges = before ++ after ∧ Runs program before (.ok value) ∧
        Runs (next value) after result := by
  induction program generalizing exchanges with
  | done value => exact .inr ⟨value, [], exchanges, rfl, .done value, run⟩
  | fail error =>
    cases run
    exact .inl ⟨error, .fail error, rfl⟩
  | ask asked rest ih =>
    obtain ⟨answer, _, rfl, restRun⟩ := runs_ask_iff.mp run
    rcases ih answer restRun with
      ⟨error, failed, rfl⟩ | ⟨value, before, after, rfl, first, second⟩
    · exact .inl ⟨error, .ask failed, rfl⟩
    · exact .inr ⟨value, ⟨asked, answer⟩ :: before, after, rfl, .ask first, second⟩

theorem bind_ok {result : β} (run : Runs (program >>= next) exchanges (.ok result)) :
    ∃ value before after, exchanges = before ++ after ∧ Runs program before (.ok value) ∧
      Runs (next value) after (.ok result) := by
  rcases run.bind with ⟨_, _, ⟨⟩⟩ | run
  exact run

theorem andThen {value : α} {result : Except ε β} {after : List (Exchange Answer)}
    (first : Runs program exchanges (.ok value)) (second : Runs (next value) after result) :
    Runs (program >>= next) (exchanges ++ after) result := by
  induction program generalizing exchanges with
  | done value =>
    cases first
    exact second
  | fail error => cases first
  | ask asked rest ih =>
    obtain ⟨answer, _, rfl, restRun⟩ := runs_ask_iff.mp first
    exact .ask (ih answer restRun)

variable {handler : ε → Dialogue Answer ε α}

/-- A dialogue with a handler: it returns, or it fails and the handler runs. -/
theorem tryCatch (run : Runs (program.tryCatch handler) exchanges result) :
    (∃ value, Runs program exchanges (.ok value) ∧ result = .ok value) ∨
      ∃ error before after, exchanges = before ++ after ∧ Runs program before (.error error) ∧
        Runs (handler error) after result := by
  induction program generalizing exchanges with
  | done value =>
    cases run
    exact .inl ⟨value, .done value, rfl⟩
  | fail error => exact .inr ⟨error, [], exchanges, rfl, .fail error, run⟩
  | ask asked rest ih =>
    obtain ⟨answer, _, rfl, restRun⟩ := runs_ask_iff.mp run
    rcases ih answer restRun with
      ⟨value, returned, rfl⟩ | ⟨error, before, after, rfl, first, second⟩
    · exact .inl ⟨value, .ask returned, rfl⟩
    · exact .inr ⟨error, ⟨asked, answer⟩ :: before, after, rfl, .ask first, second⟩

theorem tryCatch_ok {value : α} (run : Runs program exchanges (.ok value)) :
    Runs (program.tryCatch handler) exchanges (.ok value) := by
  induction program generalizing exchanges with
  | done value => exact run
  | fail error => cases run
  | ask asked rest ih =>
    obtain ⟨answer, _, rfl, restRun⟩ := runs_ask_iff.mp run
    exact .ask (ih answer restRun)

end Runs

end Dialogue

end LedgerSyscoin.Foundation
