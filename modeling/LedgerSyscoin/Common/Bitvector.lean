import Mathlib.Data.Nat.Bitwise
import LedgerSyscoin.Foundation.Bytes

/-!
# Bitvectors

Vectors of bits stored in bytes, most significant bit first. The accessors have
no bounds checking in the source; here an access outside the vector has no
result.
-/

namespace LedgerSyscoin.Common

open Foundation

variable {vec updated : Bytes} {i : Nat}

/-- The size in bytes of a bitvector that can contain `n` bits. -/
def bitvectorRealSize (n : Nat) : Nat := (n + 7) / 8

/-- The bit in position `i`. -/
def bitvectorGet (vec : Bytes) (i : Nat) : Option Bool :=
  vec[i / 8]?.map fun byte => byte.toNat.testBit (7 - i % 8)

/-- Set the bit in position `i` to `value`. -/
def bitvectorSet (vec : Bytes) (i : Nat) (value : Bool) : Option Bytes :=
  vec[i / 8]?.map fun byte =>
    let mask := 2 ^ (7 - i % 8)
    vec.set (i / 8)
      (UInt8.ofNat (if value then byte.toNat ||| mask else byte.toNat &&& (255 - mask)))

theorem bitvectorGet_eq_none_iff : bitvectorGet vec i = none ↔ vec.length ≤ i / 8 := by
  simp [bitvectorGet]

theorem bitvectorGet_replicate {size : Nat} (inBounds : i / 8 < size) :
    bitvectorGet (List.replicate size 0) i = some false := by
  simp [bitvectorGet, inBounds]

theorem exists_bitvectorSet (inBounds : i / 8 < vec.length)
    (value : Bool) : ∃ updated, bitvectorSet vec i value = some updated := by
  simp [bitvectorSet, List.getElem?_eq_getElem inBounds]

theorem length_bitvectorSet {value : Bool}
    (set : bitvectorSet vec i value = some updated) : updated.length = vec.length := by
  obtain ⟨_, _, rfl⟩ := Option.map_eq_some_iff.mp set
  exact List.length_set

/-- Setting a bit changes that bit only. -/
theorem bitvectorGet_bitvectorSet (set : bitvectorSet vec i true = some updated) (j : Nat) :
    bitvectorGet updated j = if j = i then some true else bitvectorGet vec j := by
  obtain ⟨_, found, rfl⟩ := Option.map_eq_some_iff.mp set
  obtain ⟨inBounds, rfl⟩ := List.getElem?_eq_some_iff.mp found
  have bounded : (vec[i / 8].toNat ||| 2 ^ (7 - i % 8)) < 2 ^ 8 :=
    Nat.or_lt_two_pow vec[i / 8].toNat_lt (Nat.pow_lt_pow_right (by omega) (by omega))
  by_cases sameByte : j / 8 = i / 8
  · have stored : (UInt8.ofNat (vec[i / 8].toNat ||| 2 ^ (7 - i % 8))).toNat =
        vec[i / 8].toNat ||| 2 ^ (7 - i % 8) := by
      rw [UInt8.toNat_ofNat', Nat.mod_eq_of_lt bounded]
    simp only [bitvectorGet, sameByte, if_true, List.getElem?_set_self inBounds, Option.map_some,
      stored, Nat.testBit_or, Nat.testBit_two_pow, found]
    by_cases sameBit : j = i
    · simp [sameBit]
    · have otherBit : 7 - i % 8 ≠ 7 - j % 8 := by omega
      simp [sameBit, otherBit]
  · have otherBit : j ≠ i := fun equal => sameByte (by rw [equal])
    simp only [bitvectorGet, if_neg otherBit]
    rw [List.getElem?_set_ne (Ne.symm sameByte)]

end LedgerSyscoin.Common
