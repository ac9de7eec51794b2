import LedgerSyscoin.Foundation.Loop

/-!
# Programs with fuel

A program that calls loops has their fuel as a parameter. Its results do not
depend on the fuel, as soon as there is enough of it: they are the results of its
parts, one after the other.
-/

namespace LedgerSyscoin.Foundation

variable {ε α β : Type}

/-- A program that may fail, and that returns nothing if it runs out of fuel. -/
abbrev Fuelled (ε α : Type) := ReaderT Nat (ExceptT ε Option) α

namespace Fuelled

/-- A loop as a part of a program. -/
def ofLoop {σ : Type} (body : σ → Except ε (σ ⊕ α)) (state : σ) : Fuelled ε α :=
  fun fuel => runLoop body fuel state

/-- With enough fuel the program returns the given result. -/
def Returns (program : Fuelled ε α) (result : Except ε α) : Prop :=
  ∃ fuel, program fuel = some result

/-- More fuel does not change a result. -/
def Settled (program : Fuelled ε α) : Prop :=
  ∀ fuel result, program fuel = some result → ∀ more, program (fuel + more) = some result

theorem bind_eq (program : Fuelled ε α) (next : α → Fuelled ε β) (fuel : Nat) :
    (program >>= next) fuel =
      match program fuel with
      | none => none
      | some (.error error) => some (.error error)
      | some (.ok value) => next value fuel := by
  change Option.bind (program fuel) _ = _
  cases program fuel with
  | none => rfl
  | some result => cases result <;> rfl

variable {program : Fuelled ε α}

theorem Settled.returns_unique (settled : Settled program)
    {left right : Except ε α} (leftReturns : Returns program left)
    (rightReturns : Returns program right) : left = right := by
  obtain ⟨leftFuel, leftRun⟩ := leftReturns
  obtain ⟨rightFuel, rightRun⟩ := rightReturns
  have first := settled leftFuel left leftRun rightFuel
  have second := settled rightFuel right rightRun leftFuel
  rw [Nat.add_comm] at second
  exact Option.some.inj (first.symm.trans second)

/-- A value that a program returns, known by a part of it. -/
theorem exists_returns_of_map {fuel : Nat} {part : α → β} {seen : β}
    (run : Option.map (fun result : Except ε α => result.toOption.map part) (program fuel) =
      some (some seen)) :
    ∃ value, Returns program (.ok value) ∧ part value = seen := by
  obtain ⟨result, returned, isOk⟩ := Option.map_eq_some_iff.mp run
  obtain ⟨value, isValue, rfl⟩ := Option.map_eq_some_iff.mp isOk
  cases result with
  | error error => cases isValue
  | ok other =>
    cases isValue
    exact ⟨_, ⟨fuel, returned⟩, rfl⟩

theorem settled_pure (value : α) : Settled (pure value : Fuelled ε α) :=
  fun _ _ returned _ => returned

theorem settled_throw (error : ε) : Settled (throw error : Fuelled ε α) :=
  fun _ _ returned _ => returned

theorem settled_ofLoop {σ : Type} (body : σ → Except ε (σ ⊕ α)) (state : σ) :
    Settled (ofLoop body state) :=
  fun _ _ returned more => runLoop_add returned more

theorem Settled.bind (settled : Settled program)
    {next : α → Fuelled ε β} (each : ∀ value, Settled (next value)) :
    Settled (program >>= next) := by
  intro fuel result returned more
  rw [bind_eq] at returned ⊢
  cases run : program fuel with
  | none => simp [run] at returned
  | some outcome =>
    rw [settled fuel outcome run more]
    rw [run] at returned
    cases outcome with
    | error error => exact returned
    | ok value => exact each value fuel result returned more

theorem returns_pure {value : α} {result : Except ε α} :
    Returns (pure value : Fuelled ε α) result ↔ result = .ok value := by
  constructor
  · rintro ⟨_, returned⟩
    exact (Option.some.inj returned).symm
  · rintro rfl
    exact ⟨0, rfl⟩

theorem returns_throw {error : ε} {result : Except ε α} :
    Returns (throw error : Fuelled ε α) result ↔ result = .error error := by
  constructor
  · rintro ⟨_, returned⟩
    exact (Option.some.inj returned).symm
  · rintro rfl
    exact ⟨0, rfl⟩

section Bind

variable {program : Fuelled ε α} {next : α → Fuelled ε β} (settled : Settled program)
  (each : ∀ value, Settled (next value))

include settled each

/-- A sequence returns a value exactly if its parts do. -/
theorem returns_bind_ok {value : β} :
    Returns (program >>= next) (.ok value) ↔
      ∃ middle, Returns program (.ok middle) ∧ Returns (next middle) (.ok value) := by
  constructor
  · rintro ⟨fuel, returned⟩
    rw [bind_eq] at returned
    split at returned
    · cases returned
    · cases returned
    · rename_i middle run
      exact ⟨middle, ⟨fuel, run⟩, fuel, returned⟩
  · rintro ⟨middle, ⟨first, firstRun⟩, second, secondRun⟩
    refine ⟨first + second, ?_⟩
    have later := each middle second _ secondRun first
    rw [Nat.add_comm] at later
    rw [bind_eq, settled first _ firstRun second]
    exact later

end Bind

end Fuelled

end LedgerSyscoin.Foundation
