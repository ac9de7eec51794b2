import Mathlib.Algebra.Group.Nat.Defs
import Mathlib.Algebra.Group.Pointwise.Set.Basic
import Mathlib.Order.Bounds.Basic

/-!
# Saturating costs

Numbers that stand for the largest cost in a set of alternatives: `-1` says that there
is none, and no number exceeds a cap. Sequences add their costs and choices take the
larger one. A number may be exact for a set of costs, or only a bound; a table of
thresholds, computed row by row, preserves either relation.
-/

namespace LedgerSyscoin.Foundation

open scoped Pointwise

/-- The sum of two costs, if there are both, at most `cap`. -/
def cappedSum (cap a b : Int) : Int :=
  if a < 0 ∨ b < 0 then -1 else if a + b > cap then cap else a + b

/-- The larger one of the costs that there are. -/
def largerCost (a b : Int) : Int :=
  if a < 0 then b else if a > b then a else b

/-- The largest cost in a set, at most `cap`, or `-1` for the empty set. -/
def ExactCost (cap : Nat) (costs : Set Nat) (value : Int) : Prop :=
  (costs = ∅ ∧ value = -1) ∨ ∃ largest, IsGreatest costs largest ∧ value = min largest cap

/-- No cost in a set exceeds a number, as long as it is below `cap`. A negative number bounds
only the empty set. -/
def BoundsCosts (cap : Nat) (costs : Set Nat) (value : Int) : Prop :=
  ∀ cost ∈ costs, (min cost cap : Nat) ≤ value

/-- A relation between sets of costs and numbers that sums and maxima preserve. -/
structure CostRelation (cap : Nat) (relation : Set Nat → Int → Prop) : Prop where
  empty : relation ∅ (-1)
  zero : relation {0} 0
  add {S T : Set Nat} {a b : Int} :
    relation S a → relation T b → relation (S + T) (cappedSum cap a b)
  union {S T : Set Nat} {a b : Int} :
    relation S a → relation T b → relation (S ∪ T) (largerCost a b)

section Exact

variable {cap : Nat} {S T : Set Nat} {a b : Int}

theorem exactCost_empty : ExactCost cap ∅ (-1) :=
  .inl ⟨rfl, rfl⟩

theorem exactCost_singleton {cost : Nat} (small : cost ≤ cap) : ExactCost cap {cost} cost :=
  .inr ⟨cost, isGreatest_singleton, by rw [Nat.min_eq_left small]⟩

theorem isGreatest_add_set {m n : Nat} (left : IsGreatest S m) (right : IsGreatest T n) :
    IsGreatest (S + T) (m + n) := by
  refine ⟨Set.add_mem_add left.1 right.1, ?_⟩
  rintro _ ⟨_, sMem, _, tMem, rfl⟩
  exact Nat.add_le_add (left.2 sMem) (right.2 tMem)

theorem ExactCost.add (left : ExactCost cap S a) (right : ExactCost cap T b) :
    ExactCost cap (S + T) (cappedSum cap a b) := by
  rcases left with ⟨rfl, rfl⟩ | ⟨m, greatestS, rfl⟩
  · exact .inl ⟨Set.empty_add, if_pos (.inl (by decide))⟩
  · rcases right with ⟨rfl, rfl⟩ | ⟨n, greatestT, rfl⟩
    · exact .inl ⟨Set.add_empty, if_pos (.inr (by decide))⟩
    · refine .inr ⟨m + n, isGreatest_add_set greatestS greatestT, ?_⟩
      simp only [cappedSum]
      split_ifs <;> omega

theorem ExactCost.union (left : ExactCost cap S a) (right : ExactCost cap T b) :
    ExactCost cap (S ∪ T) (largerCost a b) := by
  rcases left with ⟨rfl, rfl⟩ | ⟨m, greatestS, rfl⟩
  · rw [Set.empty_union]
    exact right
  · rcases right with ⟨rfl, rfl⟩ | ⟨n, greatestT, rfl⟩
    · refine .inr ⟨m, by rwa [Set.union_empty], ?_⟩
      simp only [largerCost]
      split_ifs <;> omega
    · refine .inr ⟨m ⊔ n, greatestS.union greatestT, ?_⟩
      simp only [largerCost]
      split_ifs <;> omega

theorem exactCost_relation (cap : Nat) : CostRelation cap (ExactCost cap) where
  empty := exactCost_empty
  zero := exactCost_singleton (Nat.zero_le cap)
  add := ExactCost.add
  union := ExactCost.union

end Exact

section Bounds

variable {cap : Nat} {S T : Set Nat} {a b : Int}

theorem BoundsCosts.mono (bound : BoundsCosts cap S a) (subset : T ⊆ S) (le : a ≤ b) :
    BoundsCosts cap T b :=
  fun cost mem => (bound cost (subset mem)).trans le

theorem boundsCosts_singleton (cost : Nat) : BoundsCosts cap {cost} cost := by
  rintro _ rfl
  exact Int.ofNat_le.mpr (Nat.min_le_left _ _)

theorem BoundsCosts.add (left : BoundsCosts cap S a) (right : BoundsCosts cap T b) :
    BoundsCosts cap (S + T) (cappedSum cap a b) := by
  rintro _ ⟨s, sMem, t, tMem, rfl⟩
  have leftBound := left s sMem
  have rightBound := right t tMem
  simp only [cappedSum]
  split_ifs <;> omega

theorem BoundsCosts.union (left : BoundsCosts cap S a) (right : BoundsCosts cap T b) :
    BoundsCosts cap (S ∪ T) (largerCost a b) := by
  rintro cost (mem | mem)
  · have bound := left cost mem
    simp only [largerCost]
    split_ifs <;> omega
  · have bound := right cost mem
    simp only [largerCost]
    split_ifs <;> omega

theorem BoundsCosts.both (left : BoundsCosts cap S a) (right : BoundsCosts cap T a) :
    BoundsCosts cap (S ∪ T) a :=
  fun cost mem => mem.elim (left cost) (right cost)

/-- A negative number bounds only the empty set. -/
theorem BoundsCosts.eq_empty (bound : BoundsCosts cap S (-1)) : S = ∅ := by
  refine Set.eq_empty_of_forall_notMem fun cost mem => ?_
  have := bound cost mem
  omega

theorem BoundsCosts.of_le (bound : BoundsCosts cap S a) {cost other : Nat} (mem : other ∈ S)
    (le : cost ≤ other) : (min cost cap : Nat) ≤ a := by
  have := bound other mem
  omega

theorem ExactCost.bounds (exact : ExactCost cap S a) : BoundsCosts cap S a := by
  intro cost mem
  rcases exact with ⟨rfl, -⟩ | ⟨_, ⟨-, upper⟩, rfl⟩
  · cases mem
  · have := upper mem
    omega

theorem boundsCosts_relation (cap : Nat) : CostRelation cap (BoundsCosts cap) where
  empty := fun _ mem => nomatch mem
  zero := boundsCosts_singleton 0
  add := BoundsCosts.add
  union := BoundsCosts.union

end Bounds

/-- Sums and maxima of numbers up to the cap stay below it. -/
theorem atMost_relation (cap : Nat) : CostRelation cap fun _ value => value ≤ cap where
  empty := by omega
  zero := by omega
  add {_ _ a b} _ _ := by
    simp only [cappedSum]
    split_ifs <;> omega
  union {_ _ a b} left right := by
    simp only [largerCost]
    split_ifs <;> omega

/-! ## Thresholds -/

/-- The costs of taking the first alternative of exactly `k` elements of a list, and the second
one of the others. -/
def chooseCosts : List (Set Nat × Set Nat) → Nat → Set Nat
  | [], 0 => {0}
  | [], _ + 1 => ∅
  | (_, off) :: rest, 0 => off + chooseCosts rest 0
  | (on, off) :: rest, k + 1 => (on + chooseCosts rest k) ∪ (off + chooseCosts rest (k + 1))

theorem chooseCosts_zero_append (options : List (Set Nat × Set Nat)) (on off : Set Nat) :
    chooseCosts (options ++ [(on, off)]) 0 = chooseCosts options 0 + off := by
  induction options with
  | nil => simp [chooseCosts, add_comm]
  | cons option rest ih => simp [chooseCosts, ih, add_assoc]

theorem chooseCosts_succ_append (options : List (Set Nat × Set Nat)) (on off : Set Nat) (k : Nat) :
    chooseCosts (options ++ [(on, off)]) (k + 1) =
      (chooseCosts options (k + 1) + off) ∪ (chooseCosts options k + on) := by
  induction options generalizing k with
  | nil => cases k <;> simp [chooseCosts, add_comm]
  | cons option rest ih =>
    cases k with
    | zero =>
      simp only [List.cons_append, chooseCosts, ih, chooseCosts_zero_append, Set.add_union,
        Set.union_add, add_assoc]
      rw [Set.union_assoc]
    | succ k =>
      simp only [List.cons_append, chooseCosts, ih, Set.add_union, Set.union_add]
      rw [Set.union_union_union_comm]
      simp only [add_assoc]

/-- The next row of a table of thresholds, where `k` of the elements seen so far are taken. -/
def nextEntry (cap : Int) (row : Nat → Int) (on off : Int) : Nat → Int
  | 0 => cappedSum cap (row 0) off
  | k + 1 => largerCost (cappedSum cap (row (k + 1)) off) (cappedSum cap (row k) on)

/-- A row that is related to the choices from a list extends to one for a longer list. -/
theorem CostRelation.nextEntry {cap : Nat} {relation : Set Nat → Int → Prop}
    (respects : CostRelation cap relation) {options : List (Set Nat × Set Nat)} {row : Nat → Int}
    (related : ∀ k, relation (chooseCosts options k) (row k)) {on off : Set Nat} {a b : Int}
    (onRelated : relation on a) (offRelated : relation off b) (k : Nat) :
    relation (chooseCosts (options ++ [(on, off)]) k) (nextEntry cap row a b k) := by
  cases k with
  | zero =>
    rw [chooseCosts_zero_append]
    exact respects.add (related 0) offRelated
  | succ k =>
    rw [chooseCosts_succ_append]
    exact respects.union (respects.add (related (k + 1)) offRelated)
      (respects.add (related k) onRelated)

end LedgerSyscoin.Foundation
