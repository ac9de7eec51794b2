import LedgerSyscoin.Foundation.Stage

/-!
# Stages that take in a given byte string

`Consumes stage state bytes next` says that the stage, given `bytes` and anything
behind it, is done right after `bytes` in the state `next`. The rules below follow
the ways in which stages are built.
-/

namespace LedgerSyscoin.Foundation

open List

variable {σ : Type*} {head tail bytes : Bytes}

/-- The stage takes in exactly `bytes`, whatever follows. -/
def Consumes (stage : Stage σ) (state : σ) (bytes : Bytes) (next : σ) : Prop :=
  ∀ rest, stage state (bytes ++ rest) = .done next rest

/-! ## Single reads -/

theorem consumes_readStage {width : σ → Nat} (update : σ → Bytes → σ) {state : σ}
    (length : bytes.length = width state) :
    Consumes (readStage width update) state bytes (update state bytes) :=
  fun _ => readStage_append length

theorem consumes_checkedStage {width : σ → Nat} {update : σ → Bytes → Bool × σ} {state next : σ}
    (length : bytes.length = width state) (accepted : update state bytes = (true, next)) :
    Consumes (checkedStage width update) state bytes next :=
  fun _ => checkedStage_append length accepted

theorem consumes_pureStage (update : σ → σ) (state : σ) :
    Consumes (pureStage update) state [] (update state) :=
  fun _ => rfl

theorem Consumes.unlessStage {flag : σ → Bool} {stage : Stage σ} {state next : σ}
    (consumes : Consumes stage state bytes next) (unset : flag state = false) :
    Consumes (unlessStage flag stage) state bytes next := by
  intro rest
  rw [Foundation.unlessStage, if_neg (by simp [unset])]
  exact consumes rest

/-! ## Sequences -/

theorem Consumes.andThen {first second : Stage σ} {state middle next : σ}
    (consumesHead : Consumes first state head middle)
    (consumesTail : Consumes second middle tail next) :
    Consumes (andThen first second) state (head ++ tail) next := by
  intro rest
  rw [append_assoc, Foundation.andThen, consumesHead]
  exact consumesTail rest

theorem Consumes.runSteps_cons {next : σ → σ} {step : Stage σ} {steps : List (Stage σ)}
    {state middle last : σ} (consumesHead : Consumes step state head middle)
    (consumesTail : Consumes (runSteps next steps) (next middle) tail last) :
    Consumes (runSteps next (step :: steps)) state (head ++ tail) last := by
  intro rest
  rw [append_assoc, runSteps, consumesHead]
  exact consumesTail rest

theorem Consumes.runTable {current : σ → Nat} {next : σ → σ} {table : List (Stage σ)}
    {state last : σ} (consumes : Consumes (runSteps next table) state bytes last)
    (start : current state = 0) : Consumes (runTable current next table) state bytes last := by
  intro rest
  rw [Foundation.runTable, start, drop_zero]
  exact consumes rest

/-! ## Loops -/

section Loops

variable {measure : σ → Nat} {state last : σ}

theorem Consumes.while_cons {condition : σ → Bool} {body : Stage σ} {after : σ → σ}
    (decreases : Decreases measure (whileTurn condition body after)) {next : σ}
    (holds : condition state = true) (round : Consumes body state head next)
    (rounds : Consumes (iterate measure (whileTurn condition body after)) (after next) tail last) :
    Consumes (iterate measure (whileTurn condition body after)) state (head ++ tail) last := by
  intro rest
  rw [append_assoc, while_of_holds decreases holds, round]
  exact rounds rest

/-- A byte string that is read in pieces, the state being `after head` once `head` is read: each
round reads a piece or exits behind the last one. -/
theorem consumes_iterate {turn : σ → Bytes → Turn σ} (decreases : Decreases measure turn)
    (after : Bytes → σ)
    (reads : ∀ head tail, head ++ tail = bytes →
      (∀ rest, turn (after head) (tail ++ rest) = .exit (after bytes) rest) ∨
      ∃ piece left, tail = piece ++ left ∧ piece ≠ [] ∧
        ∀ rest, turn (after head) (piece ++ rest) = .again (after (head ++ piece)) rest) :
    Consumes (iterate measure turn) (after []) bytes (after bytes) := by
  suffices goesOn : ∀ tail head, head ++ tail = bytes →
      Consumes (iterate measure turn) (after head) tail (after bytes) from goesOn bytes [] rfl
  intro tail
  induction size : tail.length using Nat.strong_induction_on generalizing tail with
  | _ size' ih =>
    subst size
    intro head split rest
    rw [iterate_eq decreases]
    rcases reads head tail split with ends | ⟨piece, left, rfl, nonempty, again⟩
    · rw [ends]
    · have positive := length_pos_iff.mpr nonempty
      rw [append_assoc, again]
      exact ih left.length (by rw [length_append]; omega) left rfl (head ++ piece)
        (by rw [append_assoc, split]) rest

end Loops

end LedgerSyscoin.Foundation
