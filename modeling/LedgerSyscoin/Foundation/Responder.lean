import Mathlib.Data.List.Basic

/-!
# Parties that answer requests

A responder answers a request in a state and moves on to another state, or fails and
stays where it is. Two responders whose states are related answer alike if every request
leads related states to equal answers and to related states again.
-/

namespace LedgerSyscoin.Foundation

/-- The answer to a request and the next state, unless the request fails. -/
abbrev Responder (σ Request Response : Type) := σ → Request → Option (Response × σ)

namespace Responder

variable {σ τ Request Request' Response : Type}

/-- The answers to all requests and the final state; there are none if one request fails. -/
def serve (party : Responder σ Request Response) :
    σ → List Request → Option (List Response × σ)
  | state, [] => some ([], state)
  | state, request :: requests =>
    match party state request with
    | none => none
    | some (response, next) =>
      (serve party next requests).map fun served => (response :: served.1, served.2)

/-- The answer to each request, where a request that fails leaves the state unchanged. -/
def answers (party : Responder σ Request Response) : σ → List Request → List (Option Response)
  | _, [] => []
  | state, request :: requests =>
    match party state request with
    | none => none :: answers party state requests
    | some (response, next) => some response :: answers party next requests

theorem serve_cons {party : Responder σ Request Response} {state next final : σ}
    {request : Request} {requests : List Request} {response : Response}
    {responses : List Response} (first : party state request = some (response, next))
    (later : serve party next requests = some (responses, final)) :
    serve party state (request :: requests) = some (response :: responses, final) := by
  rw [serve, first]
  simp only [later, Option.map_some]

/-- Equal answers that lead to related states. -/
def Agree (related : σ → τ → Prop) : Option (Response × σ) → Option (Response × τ) → Prop
  | none, none => True
  | some left, some right => left.1 = right.1 ∧ related left.2 right.2
  | _, _ => False

/-- Two ways to go on with one result. -/
theorem agree_map {α : Type} {related : σ → τ → Prop} {result : Option α}
    {first : α → Response × σ} {second : α → Response × τ}
    (same : ∀ value, result = some value →
      (first value).1 = (second value).1 ∧ related (first value).2 (second value).2) :
    Agree related (result.map first) (result.map second) := by
  cases result with
  | none => trivial
  | some value => exact same value rfl

theorem Agree.and {related : σ → τ → Prop} {kept : σ → Prop} {own : Option (Response × σ)}
    {other : Option (Response × τ)} (agree : Agree related own other)
    (keeps : ∀ response next, own = some (response, next) → kept next) :
    Agree (fun state state' => kept state ∧ related state state') own other := by
  cases own with
  | none =>
    cases other with
    | none => trivial
    | some moved' => exact agree.elim
  | some moved =>
    cases other with
    | none => exact agree.elim
    | some moved' => exact ⟨agree.1, keeps _ _ rfl, agree.2⟩

section Simulation

variable {party : Responder σ Request Response} {party' : Responder τ Request' Response}
  {encode : Request → Request'} {related : σ → τ → Prop} {requests : List Request}

/-- Parties whose states stay related give the same answers. -/
theorem answers_eq_of_agree (step : ∀ request ∈ requests, ∀ state state', related state state' →
      Agree related (party state request) (party' state' (encode request)))
    {state : σ} {state' : τ} (start : related state state') :
    answers party' state' (requests.map encode) = answers party state requests := by
  induction requests generalizing state state' with
  | nil => rfl
  | cons request requests ih =>
    have agree := step request List.mem_cons_self state state' start
    have later : ∀ {state state'}, related state state' →
        answers party' state' (requests.map encode) = answers party state requests :=
      ih fun later member => step later (List.mem_cons_of_mem _ member)
    rw [List.map_cons, answers, answers]
    cases own : party state request with
    | none =>
      cases other : party' state' (encode request) with
      | none => exact congrArg (none :: ·) (later start)
      | some moved =>
        rw [own, other] at agree
        exact agree.elim
    | some moved =>
      cases other : party' state' (encode request) with
      | none =>
        rw [own, other] at agree
        exact agree.elim
      | some moved' =>
        rw [own, other] at agree
        exact congrArg₂ List.cons (congrArg some agree.1.symm) (later agree.2)

end Simulation

end Responder

end LedgerSyscoin.Foundation
