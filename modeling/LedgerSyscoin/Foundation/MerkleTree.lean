import Mathlib.Data.Nat.Log
import Mathlib.Data.Set.Function
import Mathlib.Tactic.Ring

/-!
# Hash trees and authentication paths

A hash tree is a binary tree with values at its leaves and a combining function at its
internal nodes. An authentication path lists, from the root downwards, the directions
and the siblings. When the combining function is injective on the pairs really combined,
a path that leads to the root authenticates the root of the subtree it points to. The
left-complete tree of a list splits it at the largest power of two strictly below its
length.
-/

namespace LedgerSyscoin.Foundation

open List

variable {size : Nat}

universe u

/-- A binary tree with values at its leaves. -/
inductive HashTree (α : Type u) where
  | leaf (value : α)
  | node (left right : HashTree α)

namespace HashTree

variable {α : Type u} (combine : α → α → α) {directions : List Bool}

/-- The value at the root. -/
def root : HashTree α → α
  | leaf value => value
  | node left right => combine left.root right.root

/-- All pairs combined to compute the root. -/
def pairs : HashTree α → List (α × α)
  | leaf _ => []
  | node left right => (left.root combine, right.root combine) :: (left.pairs ++ right.pairs)

/-- The subtree below a sequence of directions; `true` is right. -/
def subtree : HashTree α → List Bool → Option (HashTree α)
  | tree, [] => some tree
  | leaf _, _ :: _ => none
  | node left _, false :: directions => left.subtree directions
  | node _ right, true :: directions => right.subtree directions

/-- The two children of a step, in order. -/
def arrange (direction : Bool) (own sibling : α) : α × α :=
  if direction then (sibling, own) else (own, sibling)

/-- The root recomputed from a value and its authentication path. -/
def climb : List (Bool × α) → α → α
  | [], value => value
  | (direction, sibling) :: path, value =>
    let children := arrange direction (climb path value) sibling
    combine children.1 children.2

/-- All pairs combined while climbing. -/
def climbPairs : List (Bool × α) → α → List (α × α)
  | [], _ => []
  | (direction, sibling) :: path, value =>
    arrange direction (climb combine path value) sibling :: climbPairs path value

variable {tree target : HashTree α}

/-- Binding: a path that leads to the root of a tree carries the root of the
subtree it points to. -/
theorem root_subtree_of_climb_eq {path : List (Bool × α)} {value : α}
    (injective : Set.InjOn (Function.uncurry combine)
      {pair | pair ∈ tree.pairs combine ∨ pair ∈ climbPairs combine path value})
    (climbs : climb combine path value = tree.root combine)
    (points : tree.subtree (path.map Prod.fst) = some target) :
    target.root combine = value := by
  induction path generalizing tree with
  | nil =>
    simp only [map_nil, subtree, Option.some.injEq] at points
    rw [← points]
    exact climbs.symm
  | cons step path ih =>
    obtain ⟨direction, sibling⟩ := step
    cases tree with
    | leaf _ => simp [subtree] at points
    | node left right =>
      have children : arrange direction (climb combine path value) sibling =
          (left.root combine, right.root combine) :=
        injective (Or.inr mem_cons_self) (Or.inl mem_cons_self) climbs
      have injectiveBelow (child : HashTree α)
          (below : child.pairs combine ⊆ (node left right).pairs combine) :
          Set.InjOn (Function.uncurry combine)
            {pair | pair ∈ child.pairs combine ∨ pair ∈ climbPairs combine path value} := by
        apply injective.mono
        rintro pair (inTree | inPath)
        · exact Or.inl (below inTree)
        · exact Or.inr (mem_cons_of_mem _ inPath)
      cases direction with
      | false =>
        rw [arrange, if_neg (by decide), Prod.mk.injEq] at children
        refine ih (injectiveBelow left ?_) children.1 points
        exact fun pair member => mem_cons_of_mem _ (mem_append_left _ member)
      | true =>
        rw [arrange, if_pos rfl, Prod.mk.injEq] at children
        refine ih (injectiveBelow right ?_) children.2 points
        exact fun pair member => mem_cons_of_mem _ (mem_append_right _ member)

/-- The authentication path of the subtree below a sequence of directions. -/
def opening : HashTree α → List Bool → List (Bool × α)
  | _, [] => []
  | leaf _, _ :: _ => []
  | node left right, false :: directions => (false, right.root combine) :: left.opening directions
  | node left right, true :: directions => (true, left.root combine) :: right.opening directions

theorem map_fst_opening (points : tree.subtree directions = some target) :
    (tree.opening combine directions).map Prod.fst = directions := by
  induction directions generalizing tree with
  | nil => cases tree <;> rfl
  | cons direction directions ih =>
    cases tree with
    | leaf _ => simp [subtree] at points
    | node left right =>
      cases direction with
      | false => exact congrArg (false :: ·) (ih points)
      | true => exact congrArg (true :: ·) (ih points)

/-- Completeness: the authentication path of a subtree leads from its root to the root of the
tree. -/
theorem climb_opening (points : tree.subtree directions = some target) :
    climb combine (tree.opening combine directions) (target.root combine) = tree.root combine := by
  induction directions generalizing tree with
  | nil =>
    simp only [subtree, Option.some.injEq] at points
    subst points
    cases tree <;> rfl
  | cons direction directions ih =>
    cases tree with
    | leaf _ => simp [subtree] at points
    | node left right =>
      cases direction with
      | false | true => simp [opening, climb, arrange, ih points, root]

/-- The root of an internal node is a combination of one of its pairs. -/
theorem exists_pair_of_subtree_node {tree left right : HashTree α}
    (points : tree.subtree directions = some (node left right)) :
    (left.root combine, right.root combine) ∈ tree.pairs combine := by
  induction directions generalizing tree with
  | nil =>
    simp only [subtree, Option.some.injEq] at points
    subst points
    exact mem_cons_self
  | cons direction directions ih =>
    cases tree with
    | leaf _ => simp [subtree] at points
    | node first second =>
      cases direction with
      | false => exact mem_cons_of_mem _ (mem_append_left _ (ih points))
      | true => exact mem_cons_of_mem _ (mem_append_right _ (ih points))

/-- Stopping a path early leaves an internal node. -/
theorem exists_node_of_subtree_append {rest : List Bool}
    (proper : rest ≠ []) (points : tree.subtree (directions ++ rest) = some target) :
    ∃ left right, tree.subtree directions = some (node left right) := by
  induction directions generalizing tree with
  | nil =>
    cases rest with
    | nil => exact absurd rfl proper
    | cons direction rest =>
      cases tree with
      | leaf _ => simp [subtree] at points
      | node left right => exact ⟨left, right, rfl⟩
  | cons direction directions ih =>
    cases tree with
    | leaf _ => simp [subtree] at points
    | node left right =>
      cases direction with
      | false | true => exact ih points

/-- The values at the leaves, from left to right. -/
def leaves : HashTree α → List α
  | leaf value => [value]
  | node left right => left.leaves ++ right.leaves

/-- No leaf of one tree looks like an internal node of the other. -/
def Separate (first second : HashTree α) : Prop :=
  ∀ value ∈ first.leaves, ∀ pair ∈ second.pairs combine, value ≠ combine pair.1 pair.2

/-- The root determines the whole tree. -/
theorem eq_of_root_eq {first second : HashTree α} (injective : Set.InjOn (Function.uncurry combine)
      {pair | pair ∈ first.pairs combine ∨ pair ∈ second.pairs combine})
    (separate : Separate combine first second) (separate' : Separate combine second first)
    (same : first.root combine = second.root combine) : first = second := by
  induction first generalizing second with
  | leaf value =>
    cases second with
    | leaf value' => exact congrArg leaf same
    | node left right =>
      exact absurd same (separate value mem_cons_self _ mem_cons_self)
  | node left right leftIh rightIh =>
    cases second with
    | leaf value =>
      exact absurd same.symm (separate' value mem_cons_self _ mem_cons_self)
    | node left' right' =>
      have children := injective (Or.inl mem_cons_self) (Or.inr mem_cons_self) same
      rw [Prod.mk.injEq] at children
      have sub : ∀ {tree tree' : HashTree α} {pair}, pair ∈ tree.pairs combine →
          pair ∈ (node tree tree').pairs combine := fun member =>
        mem_cons_of_mem _ (mem_append_left _ member)
      have sub' : ∀ {tree tree' : HashTree α} {pair}, pair ∈ tree'.pairs combine →
          pair ∈ (node tree tree').pairs combine := fun member =>
        mem_cons_of_mem _ (mem_append_right _ member)
      refine congrArg₂ node ?_ ?_
      · refine leftIh (injective.mono fun pair => Or.imp sub sub) ?_ ?_ children.1
        · exact fun value member pair below =>
            separate value (mem_append_left _ member) pair (sub below)
        · exact fun value member pair below =>
            separate' value (mem_append_left _ member) pair (sub below)
      · refine rightIh (injective.mono fun pair => Or.imp sub' sub') ?_ ?_ children.2
        · exact fun value member pair below =>
            separate value (mem_append_right _ member) pair (sub' below)
        · exact fun value member pair below =>
            separate' value (mem_append_right _ member) pair (sub' below)

end HashTree

/-! ## Left-complete trees -/

/-- The largest power of two strictly below a size of at least two. -/
def splitPoint (size : Nat) : Nat := 2 ^ (Nat.clog 2 size - 1)

theorem splitPoint_pos (size : Nat) : 0 < splitPoint size := Nat.two_pow_pos _

theorem splitPoint_lt (large : 2 ≤ size) : splitPoint size < size :=
  Nat.pow_pred_clog_lt_self (by decide) (by omega)

theorem two_mul_splitPoint (large : 2 ≤ size) : 2 * splitPoint size = 2 ^ Nat.clog 2 size := by
  have positive : 0 < Nat.clog 2 size := Nat.clog_pos (by decide) large
  rw [splitPoint, ← Nat.pow_succ', Nat.succ_eq_add_one, Nat.sub_add_cancel positive]

theorem le_two_mul_splitPoint (large : 2 ≤ size) : size ≤ 2 * splitPoint size := by
  rw [two_mul_splitPoint large]
  exact Nat.le_pow_clog (by decide) size

theorem clog_splitPoint (large : 2 ≤ size) :
    Nat.clog 2 (splitPoint size) + 1 = Nat.clog 2 size := by
  have positive : 0 < Nat.clog 2 size := Nat.clog_pos (by decide) large
  rw [splitPoint, Nat.clog_pow _ _ (by decide)]
  omega

section LeftComplete

variable {α : Type u}

/-- The left-complete tree over a list; `fallback` stands for the empty list. -/
def leftComplete (fallback : α) (leaves : List α) : HashTree α :=
  if single : leaves.length ≤ 1 then .leaf (leaves.headD fallback)
  else
    have below := splitPoint_lt (show 2 ≤ leaves.length by omega)
    have positive := splitPoint_pos leaves.length
    .node (leftComplete fallback (leaves.take (splitPoint leaves.length)))
      (leftComplete fallback (leaves.drop (splitPoint leaves.length)))
termination_by leaves.length
decreasing_by
  · rw [length_take]
    omega
  · rw [length_drop]
    omega

/-- Directions from the root of the left-complete tree of `size` leaves to the leaf
at `index`. -/
def pathTo (size index : Nat) : List Bool :=
  if single : size ≤ 1 then []
  else
    have below := splitPoint_lt (show 2 ≤ size by omega)
    have positive := splitPoint_pos size
    if index < splitPoint size then false :: pathTo (splitPoint size) index
    else true :: pathTo (size - splitPoint size) (index - splitPoint size)
termination_by size

theorem pathTo_of_le_one (single : size ≤ 1) (index : Nat) : pathTo size index = [] := by
  rw [pathTo, dif_pos single]

theorem pathTo_of_two_le (large : 2 ≤ size) (index : Nat) : pathTo size index =
      if index < splitPoint size then false :: pathTo (splitPoint size) index
      else true :: pathTo (size - splitPoint size) (index - splitPoint size) := by
  rw [pathTo, dif_neg (by omega)]

theorem length_pathTo_le (size index : Nat) : (pathTo size index).length ≤ Nat.clog 2 size := by
  induction size using Nat.strong_induction_on generalizing index with
  | _ size ih =>
    by_cases single : size ≤ 1
    · rw [pathTo_of_le_one single]
      exact Nat.zero_le _
    · have large : 2 ≤ size := by omega
      have below := splitPoint_lt large
      have half := le_two_mul_splitPoint large
      rw [pathTo_of_two_le large, ← clog_splitPoint large]
      split_ifs with left
      · exact Nat.succ_le_succ (ih _ below _)
      · have smaller := ih (size - splitPoint size)
          (by have positive := splitPoint_pos size; omega) (index - splitPoint size)
        exact Nat.succ_le_succ (smaller.trans (Nat.clog_mono_right 2 (by omega)))

variable {leaves : List α}

theorem leftComplete_of_two_le (fallback : α) (large : 2 ≤ leaves.length) :
    leftComplete fallback leaves =
      .node (leftComplete fallback (leaves.take (splitPoint leaves.length)))
        (leftComplete fallback (leaves.drop (splitPoint leaves.length))) := by
  rw [leftComplete, dif_neg (by omega)]

/-- The path to an index ends at the leaf with that index. -/
theorem subtree_pathTo (fallback : α) {index : Nat} (inside : index < leaves.length) :
    (leftComplete fallback leaves).subtree (pathTo leaves.length index) =
      some (.leaf leaves[index]) := by
  induction sizeEq : leaves.length using Nat.strong_induction_on generalizing leaves index with
  | _ size ih =>
    subst sizeEq
    by_cases single : leaves.length ≤ 1
    · obtain ⟨_, rfl⟩ := length_eq_one_iff.mp (show leaves.length = 1 by omega)
      have indexEq : index = 0 := by simpa using inside
      subst indexEq
      rw [pathTo_of_le_one (by simp), leftComplete, dif_pos (by simp)]
      rfl
    · have large : 2 ≤ leaves.length := by omega
      have below := splitPoint_lt large
      have positive := splitPoint_pos leaves.length
      rw [pathTo_of_two_le large, leftComplete_of_two_le fallback large]
      split_ifs with left
      · have takeLength : (leaves.take (splitPoint leaves.length)).length =
            splitPoint leaves.length := by
          rw [length_take]
          omega
        have found := ih _ below (by rw [takeLength]; exact left) takeLength
        rw [getElem_take] at found
        exact found
      · have dropLength : (leaves.drop (splitPoint leaves.length)).length =
            leaves.length - splitPoint leaves.length := length_drop
        have found := ih _ (by omega)
          (show index - splitPoint leaves.length <
            (leaves.drop (splitPoint leaves.length)).length by omega) dropLength
        rw [getElem_drop] at found
        have indexEq : splitPoint leaves.length + (index - splitPoint leaves.length) = index := by
          omega
        simp only [indexEq] at found
        exact found

/-- The leaves of the tree over a list are the list. -/
theorem leaves_leftComplete (fallback : α) (nonempty : leaves ≠ []) :
    (leftComplete fallback leaves).leaves = leaves := by
  induction sizeEq : leaves.length using Nat.strong_induction_on generalizing leaves with
  | _ size ih =>
    subst sizeEq
    have positive := length_pos_iff.mpr nonempty
    by_cases single : leaves.length ≤ 1
    · obtain ⟨_, rfl⟩ := length_eq_one_iff.mp (show leaves.length = 1 by omega)
      rw [leftComplete, dif_pos (by simp)]
      rfl
    · have large : 2 ≤ leaves.length := by omega
      have below := splitPoint_lt large
      have splitPos := splitPoint_pos leaves.length
      have takeLength : (leaves.take (splitPoint leaves.length)).length =
          splitPoint leaves.length := length_take_of_le below.le
      have dropLength : (leaves.drop (splitPoint leaves.length)).length =
          leaves.length - splitPoint leaves.length := length_drop
      rw [leftComplete_of_two_le fallback large, HashTree.leaves,
        ih _ below (length_pos_iff.mp (by omega)) takeLength,
        ih _ (by omega) (length_pos_iff.mp (by omega)) dropLength, take_append_drop]

theorem leftComplete_singleton (fallback value : α) :
    leftComplete fallback [value] = .leaf value := by
  rw [leftComplete, dif_pos (by simp)]
  rfl

theorem leftComplete_pair (fallback first second : α) :
    leftComplete fallback [first, second] = .node (.leaf first) (.leaf second) := by
  have large : 2 ≤ [first, second].length := Nat.le_refl 2
  have split : splitPoint [first, second].length = 1 := by
    have positive := splitPoint_pos [first, second].length
    have below : splitPoint [first, second].length < 2 := splitPoint_lt large
    omega
  rw [leftComplete_of_two_le fallback large, split]
  exact congrArg₂ HashTree.node (leftComplete_singleton _ _) (leftComplete_singleton _ _)

end LeftComplete

end LedgerSyscoin.Foundation
