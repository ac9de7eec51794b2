import LedgerSyscoin.Foundation.Bytes
import Mathlib.Tactic.NormNum

/-!
# Variable-length integers

The Bitcoin variable-length integer: one byte below `0xFD`, otherwise a marker
byte followed by two, four or eight little-endian bytes. The writer picks the
shortest form; the reader accepts every form, the longer ones included.
-/

namespace LedgerSyscoin.Common

open Foundation List

variable {input : Bytes} {value size : Nat}

/-- Number of bytes of the shortest encoding of a 64-bit value. -/
def varintSize (value : Nat) : Nat :=
  if value ≤ 0xFC then 1
  else if value ≤ 0xFFFF then 3
  else if value ≤ 0xFFFFFFFF then 5
  else 9

theorem varintSize_le (value : Nat) : varintSize value ≤ 9 := by
  unfold varintSize
  split_ifs <;> decide

theorem varintSize_pos (value : Nat) : 0 < varintSize value := by
  unfold varintSize
  split_ifs <;> decide

/-- Decode the leading varint; the result carries the value and the number of bytes read. -/
def varintRead (input : Bytes) : Option (Nat × Nat) :=
  match input with
  | [] => none
  | lead :: rest =>
    if lead = 0xFD then
      if input.length < 3 then none else some (leNat (rest.take 2), 3)
    else if lead = 0xFE then
      if input.length < 5 then none else some (leNat (rest.take 4), 5)
    else if lead = 0xFF then
      if input.length < 9 then none else some (leNat (rest.take 8), 9)
    else some (lead.toNat, 1)

/-- The shortest encoding of a 64-bit value. -/
def varintWrite (value : Nat) : Bytes :=
  if varintSize value = 1 then [UInt8.ofNat value]
  else if varintSize value = 3 then 0xFD :: leBytes 2 value
  else if varintSize value = 5 then 0xFE :: leBytes 4 value
  else 0xFF :: leBytes 8 value

/-- The four branches of the writer by the magnitude of the value. -/
theorem varintWrite_cases (value : Nat) :
    (value ≤ 0xFC ∧ varintSize value = 1 ∧ varintWrite value = [UInt8.ofNat value]) ∨
    (0xFC < value ∧ value ≤ 0xFFFF ∧ varintSize value = 3 ∧
      varintWrite value = 0xFD :: leBytes 2 value) ∨
    (0xFFFF < value ∧ value ≤ 0xFFFFFFFF ∧ varintSize value = 5 ∧
      varintWrite value = 0xFE :: leBytes 4 value) ∨
    (0xFFFFFFFF < value ∧ varintSize value = 9 ∧ varintWrite value = 0xFF :: leBytes 8 value) := by
  by_cases small : value ≤ 0xFC
  · exact Or.inl ⟨small, by simp [varintSize, small], by simp [varintWrite, varintSize, small]⟩
  by_cases medium : value ≤ 0xFFFF
  · have size : varintSize value = 3 := by simp [varintSize, small, medium]
    exact Or.inr (Or.inl ⟨by omega, medium, size, by simp [varintWrite, size]⟩)
  by_cases large : value ≤ 0xFFFFFFFF
  · have size : varintSize value = 5 := by simp [varintSize, small, medium, large]
    exact Or.inr (Or.inr (Or.inl ⟨by omega, large, size, by simp [varintWrite, size]⟩))
  · have size : varintSize value = 9 := by simp [varintSize, small, medium, large]
    exact Or.inr (Or.inr (Or.inr ⟨by omega, size, by simp [varintWrite, size]⟩))

@[simp]
theorem length_varintWrite (value : Nat) : (varintWrite value).length = varintSize value := by
  rcases varintWrite_cases value with ⟨_, size, write⟩ | ⟨_, _, size, write⟩ |
    ⟨_, _, size, write⟩ | ⟨_, size, write⟩ <;> simp [size, write]

/-- Reading back a written varint, with any bytes after it. -/
theorem varintRead_varintWrite_append (value : Nat) (valueLt : value < 2 ^ 64) (rest : Bytes) :
    varintRead (varintWrite value ++ rest) = some (value, varintSize value) := by
  rcases varintWrite_cases value with ⟨_, size, write⟩ | ⟨_, bound, size, write⟩ |
    ⟨_, bound, size, write⟩ | ⟨_, size, write⟩
  · have toNatEq : (UInt8.ofNat value).toNat = value := by
      rw [UInt8.toNat_ofNat', Nat.mod_eq_of_lt (by omega)]
    have ne (marker : UInt8) (high : 0xFC < marker.toNat) : UInt8.ofNat value ≠ marker := by
      intro eq
      rw [← eq, toNatEq] at high
      omega
    simp [write, size, varintRead, ne 0xFD (by decide), ne 0xFE (by decide),
      ne 0xFF (by decide), toNatEq]
  · simp [write, size, varintRead, leNat_leBytes_of_lt (show value < 256 ^ 2 by omega)]
  · simp [write, size, varintRead, leNat_leBytes_of_lt (show value < 256 ^ 4 by omega)]
  · simp [write, size, varintRead, leNat_leBytes_of_lt (show value < 256 ^ 8 by omega)]

/-- Inversion of a successful read: the marker fixes the width and the value is
the little-endian reading of the bytes after it. -/
theorem varintRead_eq_some (read : varintRead input = some (value, size)) :
    (∃ lead rest, input = lead :: rest ∧ lead ≠ 0xFD ∧ lead ≠ 0xFE ∧ lead ≠ 0xFF ∧
      value = lead.toNat ∧ size = 1) ∨
    (∃ lead rest, input = lead :: rest ∧ size ≤ input.length ∧
      ((lead = 0xFD ∧ size = 3) ∨ (lead = 0xFE ∧ size = 5) ∨ (lead = 0xFF ∧ size = 9)) ∧
      value = leNat (rest.take (size - 1))) := by
  cases input with
  | nil => simp [varintRead] at read
  | cons lead rest =>
    simp only [varintRead] at read
    split_ifs at read with isFD shortFD isFE shortFE isFF shortFF <;>
      simp only [Option.some.injEq, Prod.mk.injEq] at read <;>
      obtain ⟨rfl, rfl⟩ := read
    · exact Or.inr ⟨lead, rest, rfl, by omega, Or.inl ⟨isFD, rfl⟩, rfl⟩
    · exact Or.inr ⟨lead, rest, rfl, by omega, Or.inr (Or.inl ⟨isFE, rfl⟩), rfl⟩
    · exact Or.inr ⟨lead, rest, rfl, by omega, Or.inr (Or.inr ⟨isFF, rfl⟩), rfl⟩
    · exact Or.inl ⟨lead, rest, rfl, isFD, isFE, isFF, rfl, rfl⟩

/-- A read varint lies inside the input and is a 64-bit value. -/
theorem varintRead_bounds (read : varintRead input = some (value, size)) :
    0 < size ∧ size ≤ 9 ∧ size ≤ input.length ∧ value < 2 ^ 64 := by
  rcases varintRead_eq_some read with
    ⟨lead, rest, rfl, _, _, _, rfl, rfl⟩ | ⟨lead, rest, rfl, fits, _, rfl⟩
  · have byteLt := lead.toNat_lt
    simp only [length_cons]
    omega
  · have valueLt := leNat_lt (rest.take (size - 1))
    have sizeBound : size ≤ 9 := by omega
    have widthLe : (rest.take (size - 1)).length ≤ 8 := by
      rw [length_take]
      omega
    refine ⟨by omega, sizeBound, fits, lt_of_lt_of_le valueLt ?_⟩
    calc 256 ^ (rest.take (size - 1)).length ≤ 256 ^ 8 := Nat.pow_le_pow_right (by decide) widthLe
      _ = 2 ^ 64 := by decide

/-! ## Reading from a longer input -/

/-- Number of bytes after the marker of a varint. -/
def varintTail (marker : UInt8) : Nat :=
  if marker = 0xFD then 2 else if marker = 0xFE then 4 else if marker = 0xFF then 8 else 0

/-- The varint reader by the number of bytes after the marker. -/
theorem varintRead_cons (marker : UInt8) (tail : Bytes) :
    varintRead (marker :: tail) =
      if tail.length < varintTail marker then none
      else if marker ≤ 0xFC then some (marker.toNat, 1)
      else some (leNat (tail.take (varintTail marker)), 1 + varintTail marker) := by
  have shift (width : Nat) : tail.length + 1 < width + 1 ↔ tail.length < width :=
    Nat.succ_lt_succ_iff
  by_cases isFD : marker = 0xFD
  · subst isFD
    simp [varintRead, varintTail, shift]
  by_cases isFE : marker = 0xFE
  · subst isFE
    simp [varintRead, varintTail, shift]
  by_cases isFF : marker = 0xFF
  · subst isFF
    simp [varintRead, varintTail, shift]
  · have small : marker ≤ 0xFC := by
      rw [UInt8.le_iff_toNat_le]
      have below := marker.toNat_lt
      have neFD : marker.toNat ≠ 0xFD := fun eq => isFD (UInt8.toNat_inj.mp eq)
      have neFE : marker.toNat ≠ 0xFE := fun eq => isFE (UInt8.toNat_inj.mp eq)
      have neFF : marker.toNat ≠ 0xFF := fun eq => isFF (UInt8.toNat_inj.mp eq)
      change marker.toNat ≤ 252
      omega
    simp [varintRead, varintTail, isFD, isFE, isFF, small]

theorem varintTail_le (marker : UInt8) : varintTail marker ≤ 8 := by
  unfold varintTail
  split_ifs <;> omega

theorem varintRead_append {read : Nat × Nat}
    (complete : varintRead input = some read) (rest : Bytes) :
    varintRead (input ++ rest) = some read := by
  cases input with
  | nil => simp [varintRead] at complete
  | cons marker tail =>
    rw [varintRead_cons] at complete
    rw [cons_append, varintRead_cons]
    by_cases short : tail.length < varintTail marker
    · rw [if_pos short] at complete
      cases complete
    · rw [if_neg short] at complete
      rw [if_neg (by rw [length_append]; omega), take_append_of_le_length (by omega)]
      exact complete

theorem length_lt_of_varintRead_eq_none (incomplete : varintRead input = none) :
    input.length < 9 := by
  cases input with
  | nil => simp
  | cons marker tail =>
    have tailLe := varintTail_le marker
    rw [varintRead_cons] at incomplete
    split_ifs at incomplete with short
    rw [length_cons]
    omega

/-! ## Minimal encodings -/

/-- The reader takes the whole byte string as an encoding of the value. -/
def VarintEncodes (encoding : Bytes) (value : Nat) : Prop :=
  varintRead encoding = some (value, encoding.length)

/-- No shorter byte string encodes the same value. -/
def MinimalVarint (encoding : Bytes) : Prop :=
  ∀ value other, VarintEncodes encoding value → VarintEncodes other value →
    encoding.length ≤ other.length

theorem varintEncodes_varintWrite (valueLt : value < 2 ^ 64) :
    VarintEncodes (varintWrite value) value := by
  have read := varintRead_varintWrite_append value valueLt []
  rw [append_nil] at read
  rw [VarintEncodes, read, length_varintWrite]

/-- What the reader takes from the front of its input is an encoding by itself. -/
theorem varintEncodes_take
    (read : varintRead input = some (value, size)) : VarintEncodes (input.take size) value := by
  obtain ⟨-, -, inside, -⟩ := varintRead_bounds read
  rw [VarintEncodes, length_take, Nat.min_eq_left inside]
  cases input with
  | nil => simp [varintRead] at read
  | cons marker tail =>
    rw [varintRead_cons] at read
    split_ifs at read with short low
    · obtain ⟨rfl, rfl⟩ := Prod.mk.inj (Option.some.inj read)
      have noTail : varintTail marker = 0 := by
        unfold varintTail
        split_ifs with isFD isFE isFF
        · exact absurd low (by rw [isFD]; decide)
        · exact absurd low (by rw [isFE]; decide)
        · exact absurd low (by rw [isFF]; decide)
        · rfl
      rw [take_succ_cons, varintRead_cons, noTail, if_neg (Nat.not_lt_zero _), if_pos low]
    · obtain ⟨rfl, rfl⟩ := Prod.mk.inj (Option.some.inj read)
      rw [Nat.add_comm, take_succ_cons, varintRead_cons, length_take,
        Nat.min_eq_left (not_lt.mp short), if_neg (lt_irrefl _), if_neg low, take_take,
        Nat.min_self, Nat.add_comm]

/-- The writer gives the only minimal encoding of a value. -/
theorem eq_varintWrite_of_minimal {encoding : Bytes}
    (encodes : VarintEncodes encoding value) (minimal : MinimalVarint encoding) :
    encoding = varintWrite value := by
  obtain ⟨-, -, -, valueLt⟩ := varintRead_bounds encodes
  have shortest := minimal value _ encodes (varintEncodes_varintWrite valueLt)
  rw [length_varintWrite] at shortest
  rcases varintRead_eq_some encodes with
    ⟨lead, rest, rfl, notFD, notFE, notFF, rfl, size⟩ | ⟨lead, rest, rfl, -, marker, valueEq⟩
  · have noRest : rest = [] := by simpa using size
    have low : lead.toNat ≤ 0xFC := by
      have below := lead.toNat_lt
      have neFD : lead.toNat ≠ 0xFD := fun eq => notFD (UInt8.toNat_inj.mp eq)
      have neFE : lead.toNat ≠ 0xFE := fun eq => notFE (UInt8.toNat_inj.mp eq)
      have neFF : lead.toNat ≠ 0xFF := fun eq => notFF (UInt8.toNat_inj.mp eq)
      omega
    rw [noRest, varintWrite, varintSize, if_pos low, if_pos rfl, UInt8.ofNat_toNat]
  · rw [length_cons, Nat.add_sub_cancel, take_length] at valueEq
    have bytes := leBytes_leNat rest
    have below := leNat_lt rest
    rw [← valueEq] at bytes below
    rw [length_cons] at marker shortest
    rcases varintWrite_cases value with ⟨_, size, write⟩ | ⟨_, _, size, write⟩ |
      ⟨_, _, size, write⟩ | ⟨_, size, write⟩
    · omega
    · rcases marker with ⟨rfl, width⟩ | ⟨-, width⟩ | ⟨-, width⟩
      · rw [write, ← bytes, Nat.succ_inj.mp width]
      · omega
      · omega
    · rcases marker with ⟨-, width⟩ | ⟨rfl, width⟩ | ⟨-, width⟩
      · rw [Nat.succ_inj.mp width] at below
        omega
      · rw [write, ← bytes, Nat.succ_inj.mp width]
      · omega
    · rcases marker with ⟨-, width⟩ | ⟨-, width⟩ | ⟨rfl, width⟩
      · rw [Nat.succ_inj.mp width] at below
        omega
      · rw [Nat.succ_inj.mp width] at below
        omega
      · rw [write, ← bytes, Nat.succ_inj.mp width]

end LedgerSyscoin.Common
