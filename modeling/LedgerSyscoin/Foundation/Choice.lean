import Mathlib.Data.List.Count

/-!
# Choices from a list

Counting arguments for thresholds: enough elements with a property leave a choice
of any smaller number of them, and a choice larger than the number of elements
without the property meets one that has it.
-/

namespace LedgerSyscoin.Foundation

open List

variable {α : Type} {property : α → Bool} {xs chosen : List α}

theorem exists_sublist_of_le_countP {k : Nat} (enough : k ≤ xs.countP property) :
    ∃ chosen : List α, chosen.Sublist xs ∧ chosen.length = k ∧ ∀ x ∈ chosen, property x = true := by
  refine ⟨(xs.filter property).take k, (take_sublist _ _).trans filter_sublist, ?_, fun x mem => ?_⟩
  · rw [length_take, ← countP_eq_length_filter, Nat.min_eq_left enough]
  · exact (mem_filter.mp (mem_of_mem_take mem)).2

theorem le_countP_of_sublist (sublist : chosen.Sublist xs)
    (each : ∀ x ∈ chosen, property x = true) : chosen.length ≤ xs.countP property := by
  rw [← countP_eq_length.mpr each]
  exact sublist.countP_le

theorem exists_mem_of_length_lt (sublist : chosen.Sublist xs)
    (few : xs.length < chosen.length + xs.countP property) :
    ∃ x ∈ chosen, property x = true := by
  by_contra none
  push Not at none
  have without : chosen.length ≤ xs.countP fun x => !property x :=
    le_countP_of_sublist sublist fun x mem => by simpa using none x mem
  have total := length_eq_countP_add_countP property (l := xs)
  simp only [Bool.not_eq_true, Bool.decide_eq_false] at total
  omega

end LedgerSyscoin.Foundation
