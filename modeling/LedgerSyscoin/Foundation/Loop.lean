import Mathlib.Logic.Relation

/-!
# Loops run step by step

A loop body returns an error, the result of the loop, or the state of its next turn.
Nothing bounds the number of turns, so running a loop takes fuel, and a loop *stops*
when some amount of fuel gives a result. A long run is assembled from the runs of its
parts: a part *ends* in the outcome of its last turn, which stops the loop or hands over
to the next part.
-/

namespace LedgerSyscoin.Foundation

variable {σ α ε : Type}

/-- Run `body` for at most `fuel` turns; `none` when the fuel is used up. -/
def runLoop (body : σ → Except ε (σ ⊕ α)) : Nat → σ → Option (Except ε α)
  | 0, _ => none
  | fuel + 1, state =>
    match body state with
    | .error error => some (.error error)
    | .ok (.inr result) => some (.ok result)
    | .ok (.inl next) => runLoop body fuel next

/-- The loop started in `state` stops with `result`. -/
def LoopStops (body : σ → Except ε (σ ⊕ α)) (state : σ) (result : Except ε α) : Prop :=
  ∃ fuel, runLoop body fuel state = some result

/-- One turn from a state to the next. -/
def LoopStep (body : σ → Except ε (σ ⊕ α)) (state next : σ) : Prop :=
  body state = .ok (.inl next)

/-- A run from `state` whose last turn has the given outcome. -/
def LoopEnds (body : σ → Except ε (σ ⊕ α)) (state : σ) (outcome : Except ε (σ ⊕ α)) : Prop :=
  ∃ last, Relation.ReflTransGen (LoopStep body) state last ∧ body last = outcome

variable {body : σ → Except ε (σ ⊕ α)} {state : σ} {result : Except ε α}

theorem runLoop_add {fuel : Nat} (run : runLoop body fuel state = some result) (extra : Nat) :
    runLoop body (fuel + extra) state = some result := by
  induction fuel generalizing state with
  | zero => simp [runLoop] at run
  | succ fuel ih =>
    rw [Nat.succ_add]
    unfold runLoop at run ⊢
    split
    · rename_i error turn
      simpa [turn] using run
    · rename_i value turn
      simpa [turn] using run
    · rename_i next turn
      rw [turn] at run
      exact ih run

/-- A loop stops with at most one result. -/
theorem LoopStops.unique {left right : Except ε α}
    (leftStops : LoopStops body state left) (rightStops : LoopStops body state right) :
    left = right := by
  obtain ⟨leftFuel, leftRun⟩ := leftStops
  obtain ⟨rightFuel, rightRun⟩ := rightStops
  have leftMore := runLoop_add leftRun rightFuel
  have rightMore := runLoop_add rightRun leftFuel
  rw [Nat.add_comm] at rightMore
  exact Option.some.inj (leftMore.symm.trans rightMore)

variable {state next : σ}

theorem LoopStops.of_step (step : LoopStep body state next) (stops : LoopStops body next result) :
    LoopStops body state result := by
  obtain ⟨fuel, run⟩ := stops
  refine ⟨fuel + 1, ?_⟩
  have turn : body state = .ok (.inl next) := step
  simp only [runLoop, turn]
  exact run

theorem LoopStops.of_steps (steps : Relation.ReflTransGen (LoopStep body) state next)
    (stops : LoopStops body next result) : LoopStops body state result := by
  induction steps using Relation.ReflTransGen.head_induction_on with
  | refl => exact stops
  | head step _ ih => exact ih.of_step step

/-! ## Composing runs -/

variable {outcome : Except ε (σ ⊕ α)}

/-- A single turn is a run. -/
theorem LoopEnds.turn (turn : body state = outcome) : LoopEnds body state outcome :=
  ⟨state, .refl, turn⟩

/-- A run that hands over to a state is followed by any run from that state. -/
theorem LoopEnds.trans
    (first : LoopEnds body state (.ok (.inl next))) (second : LoopEnds body next outcome) :
    LoopEnds body state outcome := by
  obtain ⟨_, toMiddle, handOver⟩ := first
  obtain ⟨last, toLast, final⟩ := second
  exact ⟨last, (toMiddle.tail handOver).trans toLast, final⟩

theorem LoopEnds.cons (turn : body state = .ok (.inl next)) (rest : LoopEnds body next outcome) :
    LoopEnds body state outcome :=
  (LoopEnds.turn turn).trans rest

/-- A run that ends in an error stops the loop with it. -/
theorem LoopEnds.stops_error {error : ε}
    (ends : LoopEnds body state (.error error)) : LoopStops body state (.error error) := by
  obtain ⟨_, steps, final⟩ := ends
  exact LoopStops.of_steps steps ⟨1, by simp [runLoop, final]⟩

/-- A run that ends in a result stops the loop with it. -/
theorem LoopEnds.stops_ok {result : α}
    (ends : LoopEnds body state (.ok (.inr result))) : LoopStops body state (.ok result) := by
  obtain ⟨_, steps, final⟩ := ends
  exact LoopStops.of_steps steps ⟨1, by simp [runLoop, final]⟩

end LedgerSyscoin.Foundation
