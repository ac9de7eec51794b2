import LedgerSyscoin.Foundation.Bytes
import Mathlib.Data.List.Range

/-!
# Flat byte memory

A memory assigns a byte to every address. Writing a byte string changes exactly
the addresses it covers; a window read inside one write returns the matching
slice of what was written, and a window outside it returns the old bytes.
-/

namespace LedgerSyscoin.Foundation

/-- A byte at every address. -/
abbrev Memory := Nat → UInt8

namespace Memory

/-- Store `bs` at the addresses from `start` on. -/
def write (memory : Memory) (start : Nat) (bs : Bytes) : Memory := fun address =>
  if start ≤ address then (bs[address - start]?).getD (memory address) else memory address

/-- The `count` bytes from `start` on. -/
def read (memory : Memory) (start count : Nat) : Bytes :=
  (List.range count).map fun index => memory (start + index)

@[simp]
theorem length_read (memory : Memory) (start count : Nat) :
    (memory.read start count).length = count := by
  simp [read]

theorem read_succ (memory : Memory) (start count : Nat) :
    memory.read start (count + 1) = memory start :: memory.read (start + 1) count := by
  simp only [read, List.range_succ_eq_map, List.map_cons, List.map_map, Nat.add_zero,
    List.cons.injEq, true_and]
  apply List.map_congr_left
  intro index _
  exact congrArg memory (by simp only [Nat.succ_eq_add_one]; omega)

theorem read_getElem? (memory : Memory) (start count index : Nat) :
    (memory.read start count)[index]? =
      if index < count then some (memory (start + index)) else none := by
  by_cases inside : index < count
  · simp [read, inside]
  · simp [read, inside]

theorem write_apply_inside (memory : Memory) (start : Nat) (bs : Bytes) (index : Nat)
    (inside : index < bs.length) :
    memory.write start bs (start + index) = bs[index] := by
  simp [write, inside]

/-- A window inside the last write is the matching slice of the written bytes. -/
theorem read_write_inside (memory : Memory) (start offset count : Nat) (bs : Bytes)
    (inside : offset + count ≤ bs.length) :
    (memory.write start bs).read (start + offset) count = (bs.drop offset).take count := by
  apply List.ext_getElem?
  intro index
  rw [read_getElem?, List.getElem?_take, List.getElem?_drop]
  by_cases indexLt : index < count
  · have bound : offset + index < bs.length := by omega
    rw [if_pos indexLt, if_pos indexLt, Nat.add_assoc,
      write_apply_inside memory start bs (offset + index) bound, List.getElem?_eq_getElem bound]
  · rw [if_neg indexLt, if_neg indexLt]

end Memory

end LedgerSyscoin.Foundation
