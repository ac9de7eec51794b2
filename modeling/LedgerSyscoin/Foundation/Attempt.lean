import Mathlib.Logic.Basic

/-!
# Computations that carry a state and may fail

`Ensures` is the weakest precondition of such a computation: it either returns a value
and a state that satisfy the postcondition, or fails with an error that satisfies the
condition on errors. The rules compute it along the structure of a program, so that a
proof follows its text.
-/

namespace LedgerSyscoin.Foundation

universe u

variable {σ ε α β : Type u}

@[simp]
theorem ok_bind (value : α) (next : α → Except ε β) : (Except.ok value >>= next) = next value :=
  rfl

@[simp]
theorem error_bind (error : ε) (next : α → Except ε β) :
    (Except.error error >>= next) = .error error :=
  rfl

theorem bind_eq_ok_iff {result : Except ε α} {next : α → Except ε β} {value : β} :
    (result >>= next) = .ok value ↔ ∃ first, result = .ok first ∧ next first = .ok value := by
  cases result with
  | ok first => simp [ok_bind]
  | error error => simp [error_bind]

theorem toOption_bind_pure (result : Except ε α) (next : α → β) :
    (result >>= fun value => pure (next value)).toOption = result.toOption.map next := by
  cases result <;> rfl

/-- A result that satisfies `post`, or an error that satisfies `fails`. -/
def Settles (post : α → Prop) (fails : ε → Prop) : Except ε α → Prop
  | .ok value => post value
  | .error error => fails error

theorem Settles.bind {result : Except ε α} {next : α → Except ε β} {post : α → Prop}
    {final : β → Prop} {fails : ε → Prop} (first : Settles post fails result)
    (later : ∀ value, post value → Settles final fails (next value)) :
    Settles final fails (result >>= next) := by
  cases result with
  | ok value => exact later value first
  | error error => exact first

theorem Settles.of_ok {result : Except ε α} {post : α → Prop} {fails : ε → Prop} {value : α}
    (settles : Settles post fails result) (run : result = .ok value) : post value := by
  rw [run] at settles
  exact settles

/-- A result that is excluded leaves the errors. -/
theorem Settles.eq_error {result : Except ε α} {error : ε}
    (settles : Settles (fun _ => False) (· = error) result) : result = .error error := by
  cases result with
  | ok value => exact settles.elim
  | error error => exact congrArg _ settles

theorem Settles.mono {result : Except ε α} {post weaker : α → Prop} {fails weakerFails : ε → Prop}
    (settles : Settles post fails result) (weaken : ∀ value, post value → weaker value)
    (weakenFails : ∀ error, fails error → weakerFails error) :
    Settles weaker weakerFails result := by
  cases result with
  | ok value => exact weaken value settles
  | error error => exact weakenFails error settles

/-- A computation that reads and writes a state of type `σ` and may fail. -/
abbrev Attempt (σ ε α : Type u) := StateT σ (Except ε) α

/-- The computation returns only results that satisfy `post`, and fails only with errors
that satisfy `fails`. -/
def Ensures (program : Attempt σ ε α) (state : σ) (post : α → σ → Prop) (fails : ε → Prop) : Prop :=
  match program state with
  | .ok (value, next) => post value next
  | .error error => fails error

variable {program : Attempt σ ε α} {state next : σ} {post weaker : α → σ → Prop}
  {fails weakerFails : ε → Prop}

theorem Ensures.of_ok {value : α} (ensures : Ensures program state post fails)
    (run : program state = .ok (value, next)) : post value next := by
  rw [Ensures, run] at ensures
  exact ensures

theorem Ensures.of_error {error : ε} (ensures : Ensures program state post fails)
    (run : program state = .error error) : fails error := by
  rw [Ensures, run] at ensures
  exact ensures

/-- A postcondition and a condition on errors may be weakened. -/
theorem Ensures.mono (ensures : Ensures program state post fails)
    (weakenPost : ∀ value next, post value next → weaker value next)
    (weakenFails : ∀ error, fails error → weakerFails error) :
    Ensures program state weaker weakerFails := by
  unfold Ensures at ensures ⊢
  cases run : program state with
  | ok result =>
    rw [run] at ensures
    exact weakenPost _ _ ensures
  | error error =>
    rw [run] at ensures
    exact weakenFails _ ensures

@[simp]
theorem ensures_bind {rest : α → Attempt σ ε β} {post : β → σ → Prop} :
    Ensures (program >>= rest) state post fails ↔
      Ensures program state (fun value next => Ensures (rest value) next post fails) fails := by
  simp only [Ensures, bind, StateT.bind, Except.bind]
  cases program state <;> rfl

@[simp]
theorem ensures_pure {value : α} : Ensures (pure value) state post fails ↔ post value state :=
  Iff.rfl

@[simp]
theorem ensures_throw {error : ε} :
    Ensures (throw error : Attempt σ ε α) state post fails ↔ fails error :=
  Iff.rfl

@[simp]
theorem ensures_get {post : σ → σ → Prop} :
    Ensures (get : Attempt σ ε σ) state post fails ↔ post state state :=
  Iff.rfl

@[simp]
theorem ensures_set {post : PUnit → σ → Prop} :
    Ensures (set next : Attempt σ ε PUnit) state post fails ↔ post ⟨⟩ next :=
  Iff.rfl

theorem ensures_ite {condition : Prop} [Decidable condition] {first second : Attempt σ ε α} :
    Ensures (if condition then first else second) state post fails ↔
      (condition → Ensures first state post fails) ∧
        (¬ condition → Ensures second state post fails) := by
  split <;> simp_all

end LedgerSyscoin.Foundation
