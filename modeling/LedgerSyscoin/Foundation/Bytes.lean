import Mathlib.Data.List.Basic
import Mathlib.Tactic.Ring

/-!
# Byte strings and fixed-width integers

Byte strings are lists of `UInt8`. The little-endian and big-endian readings of
a byte string are total on all lengths, and each fixed-width encoding is the
unique byte string of its length with the encoded value.
-/

namespace LedgerSyscoin.Foundation

open List

/-- A byte string. -/
abbrev Bytes := List UInt8

/-- The little-endian value of a byte string. -/
def leNat : Bytes → Nat
  | [] => 0
  | b :: bs => b.toNat + 256 * leNat bs

/-- The little-endian encoding of `value` in `width` bytes, truncating high bytes. -/
def leBytes : Nat → Nat → Bytes
  | 0, _ => []
  | width + 1, value => UInt8.ofNat value :: leBytes width (value / 256)

/-- A byte string with its length. -/
def sizedBytes (bytes : Bytes) : { bs : Bytes // bs.length = bytes.length } := ⟨bytes, rfl⟩

/-- The big-endian value of a byte string. -/
def beNat (bs : Bytes) : Nat := leNat bs.reverse

/-- The big-endian encoding of `value` in `width` bytes, truncating high bytes. -/
def beBytes (width value : Nat) : Bytes := (leBytes width value).reverse

@[simp]
theorem leNat_nil : leNat [] = 0 := rfl

@[simp]
theorem leNat_cons (b : UInt8) (bs : Bytes) : leNat (b :: bs) = b.toNat + 256 * leNat bs := rfl

@[simp]
theorem length_leBytes (width value : Nat) : (leBytes width value).length = width := by
  induction width generalizing value with
  | zero => rfl
  | succ width ih => simp [leBytes, ih]

@[simp]
theorem length_beBytes (width value : Nat) : (beBytes width value).length = width := by
  simp [beBytes]

theorem leNat_lt (bs : Bytes) : leNat bs < 256 ^ bs.length := by
  induction bs with
  | nil => simp
  | cons b bs ih =>
    have byteLt := b.toNat_lt
    rw [leNat_cons, length_cons, pow_succ]
    omega

theorem leNat_append_replicate_zero (bs : Bytes) (n : Nat) :
    leNat (bs ++ replicate n 0) = leNat bs := by
  induction bs with
  | nil =>
    induction n with
    | zero => rfl
    | succ n ih => simpa [replicate_succ] using ih
  | cons b bs ih => simp [ih]

theorem beNat_lt (bs : Bytes) : beNat bs < 256 ^ bs.length := by
  simpa [beNat] using leNat_lt bs.reverse

theorem leNat_leBytes (width value : Nat) : leNat (leBytes width value) = value % 256 ^ width := by
  induction width generalizing value with
  | zero => simp [leBytes, Nat.mod_one]
  | succ width ih =>
    rw [leBytes, leNat_cons, ih, pow_succ, Nat.mul_comm (256 ^ width), Nat.mod_mul]
    simp [UInt8.toNat_ofNat']

theorem leNat_leBytes_of_lt {width value : Nat} (fits : value < 256 ^ width) :
    leNat (leBytes width value) = value := by
  rw [leNat_leBytes, Nat.mod_eq_of_lt fits]

theorem beNat_beBytes_of_lt {width value : Nat} (fits : value < 256 ^ width) :
    beNat (beBytes width value) = value := by
  simp [beNat, beBytes, leNat_leBytes_of_lt fits]

/-- A byte string is the encoding of its own value. -/
theorem leBytes_leNat (bs : Bytes) : leBytes bs.length (leNat bs) = bs := by
  induction bs with
  | nil => rfl
  | cons b bs ih =>
    have low : UInt8.ofNat (b.toNat + 256 * leNat bs) = b := by
      apply UInt8.toNat_inj.mp
      have byteLt := b.toNat_lt
      rw [UInt8.toNat_ofNat']
      omega
    have high : (b.toNat + 256 * leNat bs) / 256 = leNat bs := by
      have byteLt := b.toNat_lt
      omega
    rw [length_cons, leNat_cons, leBytes, low, high, ih]

/-! ## Two concatenations with equal piece lengths -/

theorem append_eq_append_iff_of_length {α : Type} {first second rest rest' : List α}
    (sameLength : first.length = second.length) :
    first ++ rest = second ++ rest' ↔ first = second ∧ rest = rest' := by
  constructor
  · exact fun same => append_inj same sameLength
  · rintro ⟨rfl, rfl⟩
    rfl

/-- Two concatenations of pieces of pairwise equal lengths are equal exactly when
all the pieces are. -/
theorem flatten_fst_eq_flatten_snd_iff {α : Type} {pairs : List (List α × List α)}
    (lengths : ∀ pair ∈ pairs, pair.1.length = pair.2.length) :
    (pairs.map Prod.fst).flatten = (pairs.map Prod.snd).flatten ↔
      ∀ pair ∈ pairs, pair.1 = pair.2 := by
  induction pairs with
  | nil => simp
  | cons pair pairs ih =>
    rw [forall_mem_cons] at lengths
    simp only [map_cons, flatten_cons, forall_mem_cons]
    rw [← ih lengths.2]
    exact append_eq_append_iff_of_length lengths.1

end LedgerSyscoin.Foundation
