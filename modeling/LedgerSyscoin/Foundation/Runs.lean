import LedgerSyscoin.Foundation.Dialogue
import Mathlib.Data.List.Basic

/-!
# Properties of the runs of a dialogue

A run of one dialogue after the other is cut where the second one starts. Properties of
the exchanges of a run that hold of the parts hold of the whole, so they are proved part
by part; a loop over a range of indices keeps what each turn keeps.
-/

namespace LedgerSyscoin.Foundation.Dialogue

open List

variable {Question : Type} {Answer : Question → Type} {ε α β σ : Type}
  {exchanges before after : List (Exchange Answer)}

/-- The transcript of a dialogue is one of its runs. -/
theorem runs_transcript (answers : (question : Question) → Answer question)
    (program : Dialogue Answer ε α) :
    Runs program (program.transcript answers) (program.run answers) := by
  induction program with
  | done value => exact .done value
  | fail error => exact .fail error
  | ask question next ih => exact .ask (ih (answers question))

/-- The answers of some exchanges are the given ones. -/
def AnsweredBy (answers : (question : Question) → Answer question)
    (exchanges : List (Exchange Answer)) : Prop :=
  ∀ exchange ∈ exchanges, exchange.2 = answers exchange.1

variable {answers : (question : Question) → Answer question}

theorem answeredBy_append_iff {first second : List (Exchange Answer)} :
    AnsweredBy answers (first ++ second) ↔ AnsweredBy answers first ∧ AnsweredBy answers second :=
  forall_mem_append

theorem answeredBy_transcript (answers : (question : Question) → Answer question)
    (program : Dialogue Answer ε α) : AnsweredBy answers (program.transcript answers) := by
  induction program with
  | done value | fail error => exact forall_mem_nil _
  | ask question next ih => exact forall_mem_cons.mpr ⟨rfl, ih (answers question)⟩

variable {program : Dialogue Answer ε α}

/-- The answers determine what a program returns. -/
theorem Runs.run_eq {exchanges : List (Exchange Answer)} {result : Except ε α}
    (run : Runs program exchanges result) (answered : AnsweredBy answers exchanges) :
    program.run answers = result := by
  induction run with
  | done value | fail error => rfl
  | ask rest ih =>
    obtain ⟨isAnswer, later⟩ := forall_mem_cons.mp answered
    dsimp only at isAnswer
    subst isAnswer
    exact ih later

/-! ## Where an exchange takes place -/

variable {next : α → Dialogue Answer ε β}

/-- An exchange takes place in the first of two dialogues, or in the second one after the first
one has returned. -/
theorem runs_bind_at {exchange : Exchange Answer} {result : Except ε β}
    (run : Runs (program >>= next) (before ++ exchange :: after) result) :
    (∃ after' result', Runs program (before ++ exchange :: after') result') ∨
      ∃ value first second, before = first ++ second ∧ Runs program first (.ok value) ∧
        Runs (next value) (second ++ exchange :: after) result := by
  rcases run.bind with ⟨_, failed, -⟩ | ⟨value, first, second, cut, ran, rest⟩
  · exact .inl ⟨after, _, failed⟩
  · rcases append_eq_append_iff.mp cut with
      ⟨middle, rfl, remaining⟩ | ⟨middle, rfl, remaining⟩
    · cases middle with
      | nil =>
        rw [nil_append] at remaining
        rw [append_nil] at ran
        exact .inr ⟨value, before, [], (append_nil _).symm, ran, by rwa [nil_append, remaining]⟩
      | cons head middle =>
        rw [cons_append, List.cons.injEq] at remaining
        rw [← remaining.1] at ran
        exact .inl ⟨middle, _, ran⟩
    · exact .inr ⟨value, first, middle, rfl, ran, remaining ▸ rest⟩

/-! ## Compositional properties -/

/-- How a dialogue failed, if it did. -/
def failure : Except ε α → Option ε
  | .ok _ => none
  | .error error => some error

/-- A property of exchanges and of how the dialogue failed that holds of the whole if it holds of
the parts. -/
structure Compositional (property : List (Exchange Answer) → Option ε → Prop) : Prop where
  nil : property [] none
  append : ∀ {first second failed}, property first none → property second failed →
    property (first ++ second) failed

/-- Every run has the property. -/
def Satisfies (property : List (Exchange Answer) → Option ε → Prop)
    (program : Dialogue Answer ε α) : Prop :=
  ∀ exchanges result, Runs program exchanges result → property exchanges (failure result)

variable {property : List (Exchange Answer) → Option ε → Prop}

theorem Satisfies.ite {condition : Prop}
    [Decidable condition] {first second : Dialogue Answer ε α} (holds : Satisfies property first)
    (fails : Satisfies property second) :
    Satisfies property (if condition then first else second) := by
  split_ifs
  · exact holds
  · exact fails

theorem Satisfies.question {asked : Question} (each : ∀ answer, property [⟨asked, answer⟩] none) :
    Satisfies property (question asked : Dialogue Answer ε (Answer asked)) := by
  intro exchanges result run
  obtain ⟨answer, _, rfl, ⟨⟩⟩ := runs_ask_iff.mp run
  exact each answer

namespace Compositional

variable {property : List (Exchange Answer) → Option ε → Prop}
  (compositional : Compositional property)

include compositional

theorem pure (value : α) : Satisfies property (Pure.pure value : Dialogue Answer ε α) := by
  intro exchanges result run
  obtain ⟨rfl, rfl⟩ := run.pure
  exact compositional.nil

theorem bind
    (first : Satisfies property program) (second : ∀ value, Satisfies property (next value)) :
    Satisfies property (program >>= next) := by
  intro exchanges result run
  rcases run.bind with ⟨_, failed, rfl⟩ | ⟨value, _, _, rfl, ran, rest⟩
  · exact first _ _ failed
  · exact compositional.append (first _ _ ran) (second value _ _ rest)

theorem bindOption {program : Dialogue Answer ε (Option α)} {next : Option α → Dialogue Answer ε β}
    (first : Satisfies property program) (absent : Satisfies property (next none))
    (present : ∀ value, Satisfies property (next (some value))) :
    Satisfies property (program >>= next) :=
  compositional.bind first (Option.rec absent present)

theorem bindExcept {δ : Type} {program : Dialogue Answer ε (Except δ α)}
    {next : Except δ α → Dialogue Answer ε β} (first : Satisfies property program)
    (failed : ∀ error, Satisfies property (next (.error error)))
    (returned : ∀ value, Satisfies property (next (.ok value))) :
    Satisfies property (program >>= next) :=
  compositional.bind first (Except.rec failed returned)

end Compositional

/-! ## Loops -/

/-- Run the body for each of the `remaining` indices from `index` on. -/
def forRange (body : Nat → σ → Dialogue Answer ε σ) :
    (remaining index : Nat) → σ → Dialogue Answer ε σ
  | 0, _, state => pure state
  | remaining + 1, index, state => do
    let state ← body index state
    forRange body remaining (index + 1) state

variable {body : Nat → σ → Dialogue Answer ε σ}

theorem Compositional.forRange (compositional : Compositional property)
    (each : ∀ index state, Satisfies property (body index state)) (remaining index : Nat)
    (state : σ) : Satisfies property (forRange body remaining index state) := by
  induction remaining generalizing index state with
  | zero => exact compositional.pure state
  | succ remaining ih => exact compositional.bind (each index state) fun next => ih (index + 1) next

/-- What holds before a loop that returns, and is kept by each turn, holds after the loop. -/
theorem forRange_returns (invariant : Nat → σ → List (Exchange Answer) → Prop)
    {remaining index : Nat} {state final : σ}
    (run : Runs (forRange body remaining index state) exchanges (.ok final))
    (initially : invariant index state before)
    (kept : ∀ {i current next done turn}, index ≤ i → i < index + remaining →
      invariant i current done → Runs (body i current) turn (.ok next) →
        invariant (i + 1) next (done ++ turn)) :
    invariant (index + remaining) final (before ++ exchanges) := by
  induction remaining generalizing index state before exchanges with
  | zero =>
    obtain ⟨rfl, ⟨⟩⟩ := run.pure
    rwa [append_nil]
  | succ remaining ih =>
    obtain ⟨next, turn, _, rfl, ran, loop⟩ := run.bind_ok
    have reached := kept (Nat.le_refl _) (by omega) initially ran
    rw [← append_assoc, Nat.add_comm remaining 1, ← Nat.add_assoc]
    exact ih loop reached fun later inside => kept (by omega) (by omega)

/-- The same for what only depends on the index and the state. -/
theorem forRange_keeps (invariant : Nat → σ → Prop) {remaining index : Nat} {state final : σ}
    (run : Runs (forRange body remaining index state) exchanges (.ok final))
    (initially : invariant index state)
    (kept : ∀ {i current next turn}, invariant i current → Runs (body i current) turn (.ok next) →
      invariant (i + 1) next) :
    invariant (index + remaining) final := by
  exact @forRange_returns _ _ _ _ _ [] _ (fun i current _ => invariant i current) _ _ _ _ run
    initially fun _ _ => kept

/-- An exchange of a loop takes place in one of its turns, after the earlier ones have returned. -/
theorem forRange_at {remaining index : Nat} {state : σ} {exchange : Exchange Answer}
    {result : Except ε σ}
    (run : Runs (forRange body remaining index state) (before ++ exchange :: after) result) :
    ∃ turns current first second after' result', turns < remaining ∧ before = first ++ second ∧
      Runs (forRange body turns index state) first (.ok current) ∧
        Runs (body (index + turns) current) (second ++ exchange :: after') result' := by
  induction remaining generalizing index state before with
  | zero =>
    have absurdity := run.pure.1
    simp at absurdity
  | succ remaining ih =>
    rcases runs_bind_at run with ⟨after', result', ran⟩ | ⟨_, first, second, rfl, ran, loop⟩
    · exact ⟨0, state, [], before, after', result', Nat.succ_pos _, rfl, .done state, ran⟩
    · obtain ⟨turns, current, first', second', after', result', _, rfl, earlier, _⟩ :=
        ih loop
      refine ⟨turns + 1, current, first ++ first', second', after', result', by omega, by simp,
        ran.andThen earlier, ?_⟩
      rwa [Nat.add_comm turns 1, ← Nat.add_assoc]

/-! ## Unrolled loops -/

/-- The turns of a loop one after the other, and what was observed in each of them: `turn` relates
the index, the state before a turn, its exchanges, the state after it and what is observed. -/
inductive Unrolls {γ : Type} (turn : Nat → σ → List (Exchange Answer) → σ → γ → Prop)
    (start : σ) : List (Exchange Answer) → σ → List γ → Prop
  | nil : Unrolls turn start [] start []
  | snoc {earlier exchanges : List (Exchange Answer)} {current next : σ} {seen : List γ}
      {observed : γ} (unrolled : Unrolls turn start earlier current seen)
      (last : turn seen.length current exchanges next observed) :
      Unrolls turn start (earlier ++ exchanges) next (seen ++ [observed])

/-- A loop that returns is unrolled if something is observed in each turn that returns. -/
theorem forRange_unrolls {γ : Type} (turn : Nat → σ → List (Exchange Answer) → σ → γ → Prop)
    {remaining : Nat} {state final : σ}
    (run : Runs (forRange body remaining 0 state) exchanges (.ok final))
    (observes : ∀ {i current next turned}, Runs (body i current) turned (.ok next) →
      ∃ observed, turn i current turned next observed) :
    ∃ seen, seen.length = remaining ∧ Unrolls turn state exchanges final seen := by
  have unrolled := forRange_returns (fun i current done => ∃ seen, seen.length = i ∧
    Unrolls turn state done current seen) run ⟨[], rfl, .nil⟩ ?_
  · rwa [nil_append, Nat.zero_add] at unrolled
  · rintro i current next done turned - - ⟨seen, rfl, earlier⟩ ran
    obtain ⟨observed, last⟩ := observes ran
    exact ⟨seen ++ [observed], by simp, .snoc earlier last⟩

/-- Every observation is made in a turn, after the earlier ones. -/
theorem Unrolls.get {γ : Type} {turn : Nat → σ → List (Exchange Answer) → σ → γ → Prop}
    {start final : σ} {seen : List γ} (unrolls : Unrolls turn start exchanges final seen)
    {index : Nat} {observed : γ} (isSeen : seen[index]? = some observed) :
    ∃ current next first middle last, exchanges = first ++ (middle ++ last) ∧
      Unrolls turn start first current (seen.take index) ∧
        turn index current middle next observed := by
  induction unrolls with
  | nil => cases isSeen
  | @snoc earlier turned current next seen last unrolled lastTurn ih =>
    rcases Nat.lt_or_ge index seen.length with inside | _
    · rw [getElem?_append_left inside] at isSeen
      obtain ⟨before, after, first, middle, rest, rfl, _, atTurn⟩ := ih isSeen
      refine ⟨before, after, first, middle, rest ++ turned, by simp, ?_, atTurn⟩
      rwa [take_append_of_le_length (Nat.le_of_lt inside)]
    · have isLast : index = seen.length := by
        have bound := (List.getElem?_eq_some_iff.mp isSeen).1
        rw [length_append, length_singleton] at bound
        omega
      subst isLast
      rw [getElem?_append_right (Nat.le_refl _), Nat.sub_self] at isSeen
      cases isSeen
      refine ⟨current, next, earlier, turned, [], by simp, ?_, lastTurn⟩
      rwa [take_left']
      rfl

end LedgerSyscoin.Foundation.Dialogue
