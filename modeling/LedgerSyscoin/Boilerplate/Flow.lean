import LedgerSyscoin.Boilerplate.Dispatcher

/-!
# Sequences of flows

A flow takes the state of the dispatcher and the answers to come, and leaves its
outcome behind. One flow after the other is a flow again, which runs exactly if
its parts do.
-/

namespace LedgerSyscoin.Boilerplate

variable {α β : Type}

/-- A flow that asks the client for answers. -/
def Flow (α : Type) := DispatcherContext → List Apdu → Option (Outcome α)

namespace Flow

variable {dc : DispatcherContext} {incoming : List Apdu}

instance : Monad Flow where
  pure value dc incoming := some ⟨value, dc, incoming⟩
  bind first next dc incoming :=
    match first dc incoming with
    | none => none
    | some outcome => next outcome.result outcome.dc outcome.pending

theorem pure_eq_some_iff {value : α} {outcome : Outcome α} :
    (pure value : Flow α) dc incoming = some outcome ↔ outcome = ⟨value, dc, incoming⟩ := by
  change some _ = some _ ↔ _
  rw [Option.some.injEq, eq_comm]

/-- A sequence of flows returns exactly if its parts return one after the other. -/
theorem bind_eq_some_iff {first : Flow α} {next : α → Flow β} {outcome : Outcome β} :
    (first >>= next) dc incoming = some outcome ↔
      ∃ middle, first dc incoming = some middle ∧
        next middle.result middle.dc middle.pending = some outcome := by
  change (match first dc incoming with
    | none => none
    | some outcome => next outcome.result outcome.dc outcome.pending) = _ ↔ _
  cases first dc incoming <;> simp

end Flow

end LedgerSyscoin.Boilerplate
