import LedgerSyscoin.Foundation.Bytes

/-!
# Stages of resumable parsers

A stage consumes bytes from the front of its input while it updates a state: it is done,
needs more input, or failed. Stages are single reads, tables of stages with a step
counter in the state, and loops whose number of rounds a measure of the state bounds.
-/

namespace LedgerSyscoin.Foundation

open List

universe u

/-- How a stage ended, with the state reached and the bytes not consumed. -/
inductive Progress (σ : Type u) where
  | done (state : σ) (rest : Bytes)
  | more (state : σ) (rest : Bytes)
  | error (state : σ) (rest : Bytes)
  deriving DecidableEq

/-- A stage of a parser. -/
abbrev Stage (σ : Type u) := σ → Bytes → Progress σ

section Stages

variable {σ : Type u} {input field rest : Bytes}

/-- The state reached. -/
def Progress.state : Progress σ → σ
  | .done state _ => state
  | .more state _ => state
  | .error state _ => state

/-! ## Single reads -/

/-- Read exactly `width state` bytes and update the state by them. -/
def readStage (width : σ → Nat) (update : σ → Bytes → σ) : Stage σ := fun state input =>
  if width state ≤ input.length then
    .done (update state (input.take (width state))) (input.drop (width state))
  else .more state input

variable {width : σ → Nat}

theorem readStage_of_le {update : σ → Bytes → σ} {state : σ}
    (enough : width state ≤ input.length) : readStage width update state input =
      .done (update state (input.take (width state))) (input.drop (width state)) := by
  rw [readStage, if_pos enough]

/-- A read takes exactly a leading field of its width. -/
theorem readStage_append {update : σ → Bytes → σ} {state : σ} (fits : field.length = width state) :
    readStage width update state (field ++ rest) = .done (update state field) rest := by
  rw [readStage_of_le (by simp [← fits]), ← fits, take_left, drop_left]

/-- A stage that only updates the state. -/
def pureStage (update : σ → σ) : Stage σ := fun state input => .done (update state) input

/-- Read exactly `width state` bytes; `update` may refuse them after having changed the
state. -/
def checkedStage (width : σ → Nat) (update : σ → Bytes → Bool × σ) : Stage σ :=
  fun state input =>
    if width state ≤ input.length then
      match update state (input.take (width state)) with
      | (true, next) => .done next (input.drop (width state))
      | (false, next) => .error next (input.drop (width state))
    else .more state input

/-- A checked read takes exactly a leading field of its width that it accepts. -/
theorem checkedStage_append {update : σ → Bytes → Bool × σ} {state next : σ}
    (fits : field.length = width state)
    (accepted : update state field = (true, next)) :
    checkedStage width update state (field ++ rest) = .done next rest := by
  rw [checkedStage, if_pos (by simp [← fits]), ← fits, take_left, drop_left, accepted]

/-- A stage that is skipped once its flag is set. -/
def unlessStage (flag : σ → Bool) (stage : Stage σ) : Stage σ := fun state input =>
  if flag state then .done state input else stage state input

theorem unlessStage_of_flag {flag : σ → Bool} {stage : Stage σ} {state : σ}
    (set : flag state = true) (input : Bytes) :
    unlessStage flag stage state input = .done state input := by
  rw [unlessStage, if_pos set]

/-! ## Sequences -/

/-- Run `second` after `first`. A stop inside `second` resumes at `first`. -/
def andThen (first second : Stage σ) : Stage σ := fun state input =>
  match first state input with
  | .done state rest => second state rest
  | .more state rest => .more state rest
  | .error state rest => .error state rest

/-- Run the stages of a list in turn, counting the completed ones. -/
def runSteps (next : σ → σ) : List (Stage σ) → Stage σ
  | [], state, input => .done state input
  | step :: steps, state, input =>
    match step state input with
    | .done state rest => runSteps next steps (next state) rest
    | .more state rest => .more state rest
    | .error state rest => .error state rest

/-- Run the stages of a table from the current step on. -/
def runTable (current : σ → Nat) (next : σ → σ) (table : List (Stage σ)) : Stage σ :=
  fun state input => runSteps next (table.drop (current state)) state input

/-- What a table needs for its counter to mean something: advancing adds one, and no
stage of the table changes the counter. -/
structure CountsSteps (current : σ → Nat) (next : σ → σ) (table : List (Stage σ)) : Prop where
  current_next : ∀ state, current (next state) = current state + 1
  current_step : ∀ step ∈ table, ∀ state input, current (step state input).state = current state

/-- The steps that follow a completed one. -/
theorem CountsSteps.drop_next {current : σ → Nat} {next : σ → σ} {step : Stage σ}
    {table steps : List (Stage σ)} (counts : CountsSteps current next table) {state reached : σ}
    (stepsEq : table.drop (current state) = step :: steps)
    (result : step state input = .done reached rest) :
    table.drop (current (next reached)) = steps := by
  have member : step ∈ table := mem_of_mem_drop (by rw [stepsEq]; exact mem_cons_self)
  have counted := counts.current_step step member state input
  rw [result] at counted
  rw [counts.current_next, show current reached = current state from counted, ← drop_drop, stepsEq]
  rfl

/-! ## Loops -/

/-- How one round of a loop ended. -/
inductive Turn (σ : Type u) where
  | again (state : σ) (rest : Bytes)
  | exit (state : σ) (rest : Bytes)
  | more (state : σ) (rest : Bytes)
  | error (state : σ) (rest : Bytes)

/-- The state reached by a round. -/
def Turn.state : Turn σ → σ
  | .again state _ => state
  | .exit state _ => state
  | .more state _ => state
  | .error state _ => state

/-- At most `fuel` rounds of a loop. -/
def iterateFuel (body : σ → Bytes → Turn σ) : Nat → Stage σ
  | 0, state, input => .more state input
  | fuel + 1, state, input =>
    match body state input with
    | .again state rest => iterateFuel body fuel state rest
    | .exit state rest => .done state rest
    | .more state rest => .more state rest
    | .error state rest => .error state rest

/-- Repeat `body` until it exits; `measure` bounds the number of further rounds. -/
def iterate (measure : σ → Nat) (body : σ → Bytes → Turn σ) : Stage σ := fun state input =>
  iterateFuel body (measure state + 1) state input

/-- Every further round makes the measure smaller. -/
def Decreases (measure : σ → Nat) (body : σ → Bytes → Turn σ) : Prop :=
  ∀ state input next rest, body state input = .again next rest → measure next < measure state

variable {body : σ → Bytes → Turn σ}

theorem iterateFuel_eq_iterate {measure : σ → Nat}
    (decreases : Decreases measure body) {fuel : Nat} {state : σ} (enough : measure state < fuel)
    (input : Bytes) : iterateFuel body fuel state input = iterate measure body state input := by
  induction fuel using Nat.strong_induction_on generalizing state input with
  | _ fuel ih =>
    obtain ⟨fuel, rfl⟩ := Nat.exists_eq_succ_of_ne_zero (show fuel ≠ 0 by omega)
    rw [iterate, iterateFuel, iterateFuel]
    cases round : body state input with
    | again next rest =>
      have smaller := decreases state input next rest round
      simp only
      rw [ih fuel (by omega) (by omega)]
      by_cases tight : measure state = fuel
      · rw [tight]
        exact (ih fuel (by omega) (by omega) rest).symm
      · exact (ih (measure state) (by omega) smaller rest).symm
    | exit next rest | more next rest | error next rest => rfl

/-- One round of a loop whose measure decreases. -/
theorem iterate_eq {measure : σ → Nat}
    (decreases : Decreases measure body) (state : σ) (input : Bytes) :
    iterate measure body state input =
      match body state input with
      | .again next rest => iterate measure body next rest
      | .exit next rest => .done next rest
      | .more next rest => .more next rest
      | .error next rest => .error next rest := by
  rw [iterate, iterateFuel]
  cases round : body state input with
  | again next rest =>
    exact iterateFuel_eq_iterate decreases (decreases state input next rest round) rest
  | exit next rest | more next rest | error next rest => rfl

/-! ## Guarded loops over a stage -/

section Guarded

variable {measure : σ → Nat} {condition finished : σ → Bool} {body : Stage σ} {after : σ → σ}

/-- One round of a loop that runs `body` while `condition` holds and then `after`. The
result of `body` is taken as a truth value, so a failure counts as completion. -/
def whileTurn (condition : σ → Bool) (body : Stage σ) (after : σ → σ) :
    σ → Bytes → Turn σ := fun state input =>
  if condition state then
    match body state input with
    | .done state rest => .again (after state) rest
    | .more state rest => .more state rest
    | .error state rest => .again (after state) rest
  else .exit state input

theorem whileTurn_decreases (shrinks : ∀ state input, condition state = true →
      measure (after (body state input).state) < measure state) :
    Decreases measure (whileTurn condition body after) := by
  intro state input next rest round
  unfold whileTurn at round
  split_ifs at round with holds
  have smaller := shrinks state input holds
  split at round
  · rename_i result
    cases round
    rw [result] at smaller
    exact smaller
  · cases round
  · rename_i result
    cases round
    rw [result] at smaller
    exact smaller

theorem while_of_holds (decreases : Decreases measure (whileTurn condition body after)) {state : σ}
    (holds : condition state = true) (input : Bytes) :
    iterate measure (whileTurn condition body after) state input =
      match body state input with
      | .done next rest => iterate measure (whileTurn condition body after) (after next) rest
      | .more next rest => .more next rest
      | .error next rest => iterate measure (whileTurn condition body after) (after next) rest := by
  rw [iterate_eq decreases, whileTurn, if_pos holds]
  cases body state input <;> rfl

theorem while_of_not (decreases : Decreases measure (whileTurn condition body after)) {state : σ}
    (ended : condition state = false) (input : Bytes) :
    iterate measure (whileTurn condition body after) state input = .done state input := by
  rw [iterate_eq decreases, whileTurn, if_neg (by simp [ended])]

/-- One round of a loop that runs `body` until `finished` holds after it. -/
def untilTurn (finished : σ → Bool) (body : Stage σ) : σ → Bytes → Turn σ :=
  fun state input =>
    match body state input with
    | .done state rest => if finished state then .exit state rest else .again state rest
    | .more state rest => .more state rest
    | .error state rest => .error state rest

theorem until_eq (decreases : Decreases measure (untilTurn finished body)) (state : σ)
    (input : Bytes) :
    iterate measure (untilTurn finished body) state input =
      match body state input with
      | .done next rest =>
        if finished next then .done next rest
        else iterate measure (untilTurn finished body) next rest
      | .more next rest => .more next rest
      | .error next rest => .error next rest := by
  rw [iterate_eq decreases, untilTurn]
  cases body state input with
  | done next rest =>
    dsimp only
    split_ifs <;> rfl
  | more next rest | error next rest => rfl

theorem untilTurn_decreases (shrinks : ∀ state input next rest, body state input = .done next rest →
      finished next = false → measure next < measure state) :
    Decreases measure (untilTurn finished body) := by
  intro state input next rest round
  unfold untilTurn at round
  split at round
  · rename_i result
    split_ifs at round with ended
    cases round
    exact shrinks _ _ _ _ result (by simpa using ended)
  · cases round
  · cases round

end Guarded

end Stages

end LedgerSyscoin.Foundation
