import Mathlib.Data.List.Sort

/-!
# Selection by marks

Sorting by repeated selection over a list that stays where it is: each round picks
a smallest item at a position that carries no mark and marks the position. The
picks come out in ascending order, and once every position is marked they are the
sorted list.
-/

namespace LedgerSyscoin.Foundation

open List

variable {α : Type} {start offset : Nat}

/-- The items at positions without a mark, the first item being at position `start`. -/
def unmarked (marked : Nat → Bool) : Nat → List α → List α
  | _, [] => []
  | start, item :: items =>
    if marked start then unmarked marked (start + 1) items
    else item :: unmarked marked (start + 1) items

/-- Add a mark. -/
def addMark (marked : Nat → Bool) (position : Nat) : Nat → Bool := fun other =>
  other = position || marked other

@[simp]
theorem unmarked_nil (marked : Nat → Bool) (start : Nat) :
    unmarked marked start ([] : List α) = [] := rfl

variable {items : List α}

theorem unmarked_congr {left right : Nat → Bool}
    (equal : ∀ position, start ≤ position → left position = right position) :
    unmarked left start items = unmarked right start items := by
  induction items generalizing start with
  | nil => rfl
  | cons item items ih =>
    have later : unmarked left (start + 1) items = unmarked right (start + 1) items :=
      ih (fun position after => equal position (by omega))
    simp only [unmarked, equal start (le_refl start), later]

variable {marked : Nat → Bool}

theorem unmarked_eq_self (none : ∀ offset < items.length, marked (start + offset) = false) :
    unmarked marked start items = items := by
  induction items generalizing start with
  | nil => rfl
  | cons item items ih =>
    have first := none 0 (by simp)
    have rest : unmarked marked (start + 1) items = items := ih (fun offset within => by
      have next := none (offset + 1) (by simpa using within)
      rwa [show start + 1 + offset = start + (offset + 1) by omega])
    simp only [Nat.add_zero] at first
    rw [unmarked, first, rest]
    rfl

theorem unmarked_sublist (marked : Nat → Bool) (start : Nat) (items : List α) :
    (unmarked marked start items).Sublist items := by
  induction items generalizing start with
  | nil => exact .slnil
  | cons item items ih =>
    rw [unmarked]
    split_ifs
    · exact (ih (start + 1)).cons item
    · exact (ih (start + 1)).cons_cons item

/-- A mark at one of the positions makes the unmarked items fewer. -/
theorem length_unmarked_lt
    (within : offset < items.length) (isMarked : marked (start + offset) = true) :
    (unmarked marked start items).length < items.length := by
  induction items generalizing start offset with
  | nil => simp at within
  | cons item items ih =>
    rw [unmarked, length_cons]
    cases offset with
    | zero =>
      rw [Nat.add_zero] at isMarked
      rw [if_pos isMarked]
      exact Nat.lt_succ_of_le (unmarked_sublist marked (start + 1) items).length_le
    | succ offset =>
      have rest : (unmarked marked (start + 1) items).length < items.length :=
        ih (Nat.lt_of_succ_lt_succ within) (by
          rwa [show start + 1 + offset = start + (offset + 1) by omega])
      split_ifs
      · exact Nat.lt_succ_of_lt rest
      · exact Nat.succ_lt_succ rest

/-- Marking a position takes its item away. -/
theorem unmarked_addMark_perm (start : Nat) {item : α} (found : items[offset]? = some item)
    (free : marked (start + offset) = false) :
    (item :: unmarked (addMark marked (start + offset)) start items).Perm
      (unmarked marked start items) := by
  induction items generalizing start offset with
  | nil => simp at found
  | cons first items ih =>
    cases offset with
    | zero =>
      have firstEq : first = item := by simpa using found
      have same : unmarked (addMark marked start) (start + 1) items =
          unmarked marked (start + 1) items :=
        unmarked_congr (fun position after => by simp [addMark]; omega)
      rw [Nat.add_zero] at free ⊢
      have taken : addMark marked start start = true := by simp [addMark]
      rw [unmarked, unmarked, taken, free, same, firstEq]
      exact List.Perm.refl _
    | succ offset =>
      have shifted : start + (offset + 1) = start + 1 + offset := by omega
      rw [shifted] at free ⊢
      have rest := ih (start + 1) (by simpa using found) free
      have other : addMark marked (start + 1 + offset) start = marked start := by
        simp [addMark]
        omega
      rw [unmarked, unmarked, other]
      cases marked start with
      | true => exact rest
      | false => exact (List.Perm.swap _ _ _).trans (rest.cons first)

/-- A run of selections over `items`: the items picked, starting with the given marks. -/
inductive Selects (le : α → α → Prop) (items : List α) : (Nat → Bool) → List α → Prop where
  | nil {marked : Nat → Bool} : Selects le items marked []
  | cons {marked : Nat → Bool} {position : Nat} {item : α} {picks : List α}
      (found : items[position]? = some item) (free : marked position = false)
      (smallest : ∀ other ∈ unmarked marked 0 items, le item other)
      (rest : Selects le items (addMark marked position) picks) :
      Selects le items marked (item :: picks)

section Sorting

variable {le : α → α → Prop} {items : List α} {marked : Nat → Bool} {picks : List α}

theorem Selects.mem_unmarked (selects : Selects le items marked picks) :
    ∀ pick ∈ picks, pick ∈ unmarked marked 0 items := by
  induction selects with
  | nil => simp
  | cons found free smallest rest ih =>
    have perm := unmarked_addMark_perm 0 found (by simpa using free)
    rw [Nat.zero_add] at perm
    intro pick mem
    rcases mem_cons.mp mem with rfl | later
    · exact perm.subset (mem_cons_self)
    · exact perm.subset (mem_cons_of_mem _ (ih pick later))

theorem Selects.pairwise (selects : Selects le items marked picks) : picks.Pairwise le := by
  induction selects with
  | nil => exact List.Pairwise.nil
  | cons found free smallest rest ih =>
    have perm := unmarked_addMark_perm 0 found (by simpa using free)
    rw [Nat.zero_add] at perm
    refine List.Pairwise.cons (fun pick mem => smallest pick ?_) ih
    exact perm.subset (mem_cons_of_mem _ (rest.mem_unmarked pick mem))

theorem Selects.perm (selects : Selects le items marked picks)
    (complete : picks.length = (unmarked marked 0 items).length) :
    picks.Perm (unmarked marked 0 items) := by
  induction selects with
  | nil => rw [eq_nil_of_length_eq_zero complete.symm]
  | cons found free smallest rest ih =>
    have perm := unmarked_addMark_perm 0 found (by simpa using free)
    rw [Nat.zero_add] at perm
    have lengthEq := perm.length_eq
    simp only [length_cons] at complete lengthEq
    exact (ih (by omega)).cons _ |>.trans perm

/-- Selecting until every position is marked sorts the items that carried no mark. -/
theorem Selects.eq_insertionSort [DecidableRel le] [Std.Total le] [IsTrans α le]
    [Std.Antisymm le] (selects : Selects le items marked picks)
    (complete : picks.length = (unmarked marked 0 items).length) :
    picks = (unmarked marked 0 items).insertionSort le := by
  refine List.Perm.eq_of_pairwise ?_ selects.pairwise (pairwise_insertionSort le _) ?_
  · intro left right _ _ leftLe rightLe
    exact Std.Antisymm.antisymm left right leftLe rightLe
  · exact (selects.perm complete).trans (perm_insertionSort le _).symm

end Sorting

end LedgerSyscoin.Foundation
