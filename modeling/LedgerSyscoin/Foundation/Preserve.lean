import LedgerSyscoin.Foundation.Stage

/-!
# What stages leave alone

The parts of the state that no run of a stage changes, whatever the input, the
invariants that hold wherever a stage stops, and the stages that no input makes fail.
-/

namespace LedgerSyscoin.Foundation

universe u

variable {σ : Type u}

/-! ## Parts of the state that a stage leaves alone -/

/-- The stage does not change the part of the state that `view` shows. -/
def Preserves {τ : Type*} (view : σ → τ) (stage : Stage σ) : Prop :=
  ∀ state input, view (stage state input).state = view state

variable {update : σ → Bytes → Bool × σ} {next : σ → σ} {measure : σ → Nat}
  {body : σ → Bytes → Turn σ}

section Preserve

variable {τ : Type*} {view : σ → τ}

theorem preserves_checkedStage (width : σ → Nat)
    (same : ∀ state bytes, view (update state bytes).2 = view state) :
    Preserves view (checkedStage width update) := by
  intro state input
  have kept := same state (input.take (width state))
  unfold checkedStage
  split_ifs
  · split
    · rename_i result
      rw [result] at kept
      exact kept
    · rename_i result
      rw [result] at kept
      exact kept
  · rfl

theorem preserves_readStage (width : σ → Nat) {update : σ → Bytes → σ}
    (same : ∀ state bytes, view (update state bytes) = view state) :
    Preserves view (readStage width update) := by
  change Preserves view (checkedStage width fun state bytes => (true, update state bytes))
  exact preserves_checkedStage width same

theorem preserves_pureStage {update : σ → σ} (same : ∀ state, view (update state) = view state) :
    Preserves view (pureStage update) := by
  intro state input
  exact same state

variable {stage : Stage σ}

theorem preserves_unlessStage {flag : σ → Bool} (kept : Preserves view stage) :
    Preserves view (unlessStage flag stage) := by
  intro state input
  unfold unlessStage
  split_ifs
  · rfl
  · exact kept state input

theorem preserves_runSteps {steps : List (Stage σ)}
    (advance : ∀ state, view (next state) = view state)
    (kept : ∀ step ∈ steps, Preserves view step) : Preserves view (runSteps next steps) := by
  induction steps with
  | nil =>
    intro state input
    rfl
  | cons step steps ih =>
    rw [List.forall_mem_cons] at kept
    intro state input
    have first := kept.1 state input
    rw [runSteps]
    cases result : step state input with
    | done reached rest =>
      rw [result] at first
      exact (ih kept.2 _ _).trans ((advance reached).trans first)
    | more reached rest | error reached rest =>
      rw [result] at first
      exact first

theorem preserves_runTable {current : σ → Nat} {table : List (Stage σ)}
    (advance : ∀ state, view (next state) = view state)
    (kept : ∀ step ∈ table, Preserves view step) :
    Preserves view (runTable current next table) := by
  intro state input
  exact preserves_runSteps advance (fun step member => kept step (List.mem_of_mem_drop member)) _ _

theorem preserves_andThen {first second : Stage σ} (keptFirst : Preserves view first)
    (keptSecond : Preserves view second) : Preserves view (andThen first second) := by
  intro state input
  have kept := keptFirst state input
  unfold andThen
  cases result : first state input with
  | done next rest =>
    rw [result] at kept
    exact (keptSecond next rest).trans kept
  | more next rest | error next rest =>
    rw [result] at kept
    exact kept

theorem preserves_iterate (kept : ∀ state input, view (body state input).state = view state) :
    Preserves view (iterate measure body) := by
  intro state input
  unfold iterate
  generalize measure state + 1 = fuel
  induction fuel generalizing state input with
  | zero => rfl
  | succ fuel ih =>
    have round := kept state input
    rw [iterateFuel]
    cases result : body state input with
    | again next rest =>
      rw [result] at round
      exact (ih next rest).trans round
    | exit next rest | more next rest | error next rest =>
      rw [result] at round
      exact round

theorem whileTurn_preserves {condition : σ → Bool} {body : Stage σ} {after : σ → σ}
    (kept : Preserves view body) (same : ∀ state, view (after state) = view state) (state : σ)
    (input : Bytes) : view (whileTurn condition body after state input).state = view state := by
  have inner := kept state input
  unfold whileTurn
  split_ifs
  · cases result : body state input with
    | done next rest | error next rest =>
      rw [result] at inner
      exact (same next).trans inner
    | more next rest =>
      rw [result] at inner
      exact inner
  · rfl

theorem untilTurn_preserves {finished : σ → Bool} {body : Stage σ} (kept : Preserves view body)
    (state : σ) (input : Bytes) :
    view (untilTurn finished body state input).state = view state := by
  have inner := kept state input
  unfold untilTurn
  cases result : body state input with
  | done next rest =>
    rw [result] at inner
    simp only
    split_ifs
    · exact inner
    · exact inner
  | more next rest | error next rest =>
    rw [result] at inner
    exact inner

/-- What is computed from a part that is left alone is left alone, too. -/
theorem Preserves.map {υ : Type*} (kept : Preserves view stage) (f : τ → υ) :
    Preserves (fun state => f (view state)) stage :=
  fun state input => congrArg f (kept state input)

theorem Preserves.done (kept : Preserves view stage) {state next : σ}
    {input rest : Bytes} (result : stage state input = .done next rest) :
    view next = view state := by
  have same := kept state input
  rw [result] at same
  exact same

theorem Preserves.more (kept : Preserves view stage) {state next : σ}
    {input rest : Bytes} (result : stage state input = .more next rest) :
    view next = view state := by
  have same := kept state input
  rw [result] at same
  exact same

end Preserve

/-! ## Invariants of resumable stages -/

/-- However a stage ended, `inv` holds where it stopped, `post` where it is done and `failed`
where it failed. -/
def Progress.EndsIn (post inv failed : σ → Prop) : Progress σ → Prop
  | .done next _ => post next
  | .more next _ => inv next
  | .error next _ => failed next

/-- From `inv` the stage leads to `post`, having kept `inv` wherever it stops. -/
def Maintains (inv : σ → Prop) (stage : Stage σ) (post failed : σ → Prop) : Prop :=
  ∀ state input, inv state → (stage state input).EndsIn post inv failed

section Maintain

variable {inv post failed : σ → Prop}

theorem maintains_checkedStage {width : σ → Nat}
    (leads : ∀ state bytes, inv state → bytes.length = width state →
      if (update state bytes).1 then post (update state bytes).2
      else failed (update state bytes).2) :
    Maintains inv (checkedStage width update) post failed := by
  intro state input holds
  unfold checkedStage
  split_ifs with enough
  · have result := leads state _ holds
      (show (input.take (width state)).length = width state by
        rw [List.length_take, Nat.min_eq_left enough])
    split
    · rename_i accepted
      rw [accepted, if_pos rfl] at result
      exact result
    · rename_i refused
      rw [refused, if_neg (by simp)] at result
      exact result
  · exact holds

theorem maintains_readStage {width : σ → Nat} {update : σ → Bytes → σ}
    (leads : ∀ state bytes, inv state → bytes.length = width state → post (update state bytes)) :
    Maintains inv (readStage width update) post failed := by
  change Maintains inv (checkedStage width fun state bytes => (true, update state bytes)) post
    failed
  exact maintains_checkedStage leads

theorem maintains_pureStage {update : σ → σ} (leads : ∀ state, inv state → post (update state)) :
    Maintains inv (pureStage update) post failed := by
  intro state input holds
  exact leads state holds

theorem maintains_untilTurn {finished : σ → Bool} {body : Stage σ}
    (kept : Maintains inv body inv failed) :
    Maintains inv (iterate measure (untilTurn finished body)) inv failed := by
  intro state input holds
  unfold iterate
  generalize measure state + 1 = fuel
  induction fuel generalizing state input with
  | zero => exact holds
  | succ fuel ih =>
    have round := kept state input holds
    rw [iterateFuel, untilTurn]
    cases result : body state input with
    | done next rest =>
      rw [result] at round
      simp only
      by_cases ended : finished next = true
      · rw [if_pos ended]
        exact round
      · rw [if_neg ended]
        exact ih next rest round
    | more next rest | error next rest =>
      rw [result] at round
      exact round

/-- A loop whose body may end in any way, since a failure counts as completion. -/
theorem maintains_whileTurn {condition : σ → Bool} {body : Stage σ}
    {after : σ → σ} {ended : σ → Prop}
    (kept : Maintains inv body ended ended) (leads : ∀ state, ended state → inv (after state)) :
    Maintains inv (iterate measure (whileTurn condition body after)) inv failed := by
  intro state input holds
  unfold iterate
  generalize measure state + 1 = fuel
  induction fuel generalizing state input with
  | zero => exact holds
  | succ fuel ih =>
    have round := kept state input holds
    rw [iterateFuel, whileTurn]
    by_cases goesOn : condition state = true
    · rw [if_pos goesOn]
      cases result : body state input with
      | done next rest | error next rest =>
        rw [result] at round
        exact ih _ _ (leads next round)
      | more next rest =>
        rw [result] at round
        exact round
    · rw [if_neg goesOn]
      exact holds

/-- The invariant of a table depends on the step at which it is. -/
theorem maintains_runTable {current : σ → Nat} {table : List (Stage σ)}
    (invAt : Nat → σ → Prop) (counts : CountsSteps current next table)
    (kept : ∀ index step, table[index]? = some step →
      Maintains (invAt index) step (fun state => invAt (index + 1) (next state)) failed) :
    Maintains (fun state => invAt (current state) state) (runTable current next table)
      (fun state => invAt (current state) state) failed := by
  intro state input holds
  unfold runTable
  generalize stepsEq : table.drop (current state) = steps
  induction steps generalizing state input with
  | nil => exact holds
  | cons step steps ih =>
    have found : table[current state]? = some step := by
      rw [← List.head?_drop, stepsEq, List.head?_cons]
    have counted := counts.current_step step (List.mem_of_getElem? found) state input
    have round := kept _ _ found state input holds
    rw [runSteps]
    cases result : step state input with
    | done reached rest =>
      rw [result] at round counted
      refine ih (next reached) rest ?_ (counts.drop_next stepsEq result)
      rw [counts.current_next, show current reached = current state from counted]
      exact round
    | more reached rest =>
      rw [result] at round counted
      change invAt (current reached) reached
      rw [show current reached = current state from counted]
      exact round
    | error reached rest =>
      rw [result] at round
      exact round

end Maintain

/-! ## Stages that never fail -/

/-- The stage never ends in an error. -/
def NeverFails (stage : Stage σ) : Prop :=
  ∀ state input next rest, stage state input ≠ .error next rest

theorem neverFails_readStage (width : σ → Nat) (update : σ → Bytes → σ) :
    NeverFails (readStage width update) := by
  intro state input next rest failed
  unfold readStage at failed
  split_ifs at failed

theorem neverFails_pureStage (update : σ → σ) : NeverFails (pureStage update) := by
  intro state input next rest failed
  cases failed

theorem neverFails_iterate (turns : ∀ state input next rest, body state input ≠ .error next rest) :
    NeverFails (iterate measure body) := by
  intro state input next rest
  unfold iterate
  generalize measure state + 1 = fuel
  induction fuel generalizing state input with
  | zero =>
    intro failed
    cases failed
  | succ fuel ih =>
    rw [iterateFuel]
    split
    · exact ih _ _
    · simp
    · simp
    · rename_i failed
      exact absurd failed (turns _ _ _ _)

theorem whileTurn_ne_error (condition : σ → Bool) (body : Stage σ) (after : σ → σ) (state : σ)
    (input : Bytes) (next : σ) (rest : Bytes) :
    whileTurn condition body after state input ≠ .error next rest := by
  unfold whileTurn
  split_ifs
  · split <;> simp
  · simp

theorem neverFails_runSteps {steps : List (Stage σ)}
    (safe : ∀ step ∈ steps, NeverFails step) : NeverFails (runSteps next steps) := by
  induction steps with
  | nil =>
    intro state input reached rest failed
    cases failed
  | cons step steps ih =>
    rw [List.forall_mem_cons] at safe
    intro state input reached rest failed
    rw [runSteps] at failed
    split at failed
    · exact ih safe.2 _ _ _ _ failed
    · cases failed
    · rename_i result
      exact safe.1 _ _ _ _ result

end LedgerSyscoin.Foundation
