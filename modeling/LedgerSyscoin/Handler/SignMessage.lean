import LedgerSyscoin.Common.Base58
import Mathlib.Data.List.Induction

/-!
# Signatures of messages

The handler for messages turns the DER encoding of a signature into the 65 bytes of a compact
one. Each of its two loops copies an integer of up to 33 bytes to the end of a field of 32, so
it may write one byte too many; that byte is overwritten by what is written next.
-/

namespace LedgerSyscoin.Handler

open Foundation Common List

def maxDerSigLen : Nat := 72

/-- Copy `length` bytes of `sig` from `source` on to `target`, from the last one down. -/
def copyDown (sig : Bytes) (target source : Nat) : (length : Nat) → Bytes → Except ReadError Bytes
  | 0, result => .ok result
  | i + 1, result =>
    match sig[source + i]? with
    | none => .error .outside
    | some byte =>
      if target + i < result.length then
        copyDown sig target source i (result.set (target + i) byte)
      else .error .outside

/-- The conversion at the end of `handler_sign_message`. The lowest bit of `info` is the parity;
a refusal is the status word `SW_BAD_STATE`. -/
def compactSignature (sig : Bytes) (info : Nat) : Except ReadError Bytes := do
  let some rLength := sig[3]? | .error .outside
  let some sLength := sig[4 + rLength.toNat + 1]? | .error .outside
  if rLength.toNat > 33 ∨ sLength.toNat > 33 then .error .refused
  else
    let result := replicate 65 0
    let result ← copyDown sig (1 + 32 + 32 - sLength.toNat) (4 + rLength.toNat + 2)
      sLength.toNat result
    let result ← copyDown sig (1 + 32 - rLength.toNat) 4 rLength.toNat result
    return result.set 0 (27 + 4 + if info &&& 1 ≠ 0 then 1 else 0)

/-- The content of the minimal DER encoding of a natural number: the shortest big-endian byte
string with its value and a clear sign bit. -/
structure DerInteger (value : Nat) (bytes : Bytes) : Prop where
  value_eq : beNat bytes = value
  head_lt : bytes.headD 0x80 < 0x80
  shortest : ∀ other : Bytes, beNat other = value → other.headD 0x80 < 0x80 →
    bytes.length ≤ other.length

/-- The DER encoding of a signature with the given contents of its two integers. -/
def derSignature (rBytes sBytes : Bytes) : Bytes :=
  [0x30, UInt8.ofNat (4 + rBytes.length + sBytes.length), 0x02, UInt8.ofNat rBytes.length] ++
    rBytes ++ [0x02, UInt8.ofNat sBytes.length] ++ sBytes

/-- Leading zeros pad a big-endian byte string. -/
theorem replicate_append_eq_beBytes (count : Nat) (bytes : Bytes) :
    replicate count 0 ++ bytes = beBytes (count + bytes.length) (beNat bytes) := by
  have padded := leBytes_leNat (bytes.reverse ++ replicate count 0)
  rw [leNat_append_replicate_zero, length_append, length_reverse,
    length_replicate, Nat.add_comm] at padded
  rw [beBytes, beNat, padded, reverse_append, reverse_replicate, reverse_reverse]

theorem beBytes_succ {width value : Nat} (fits : value < 256 ^ width) :
    beBytes (1 + width) value = 0 :: beBytes width value := by
  have padded := replicate_append_eq_beBytes 1 (beBytes width value)
  rw [beNat_beBytes_of_lt fits, length_beBytes] at padded
  exact padded.symm

section Conversion

variable {value : Nat} {bytes : Bytes}

theorem DerInteger.length_le (der : DerInteger value bytes) (fits : value < 2 ^ 256) :
    bytes.length ≤ 33 := by
  have fits' : value < 256 ^ 32 := fits
  have shortest := der.shortest (beBytes (1 + 32) value)
    (beNat_beBytes_of_lt (fits'.trans (by decide)))
    (by rw [beBytes_succ fits', headD_cons]; decide)
  simpa using shortest

/-- Padded to 33 bytes, an integer is a zero byte and its 32 bytes. -/
theorem DerInteger.padded (der : DerInteger value bytes) (fits : value < 2 ^ 256) :
    replicate (33 - bytes.length) 0 ++ bytes = 0 :: beBytes 32 value := by
  have lengthLe := der.length_le fits
  rw [replicate_append_eq_beBytes, der.value_eq, Nat.sub_add_cancel lengthLe]
  exact beBytes_succ (show value < 256 ^ 32 from fits)

/-- The largest integer of 32 bytes takes 33 of them in DER, and overruns its field. -/
theorem derInteger_max : DerInteger (2 ^ 256 - 1) (0 :: replicate 32 0xFF) := by
  refine ⟨by decide, by decide, fun other isValue headLt => ?_⟩
  by_contra short
  have padded := replicate_append_eq_beBytes (32 - other.length) other
  rw [isValue, Nat.sub_add_cancel (by simpa [Nat.lt_succ_iff] using short),
    show beBytes 32 (2 ^ 256 - 1) = replicate 32 0xFF by decide] at padded
  cases other with
  | nil => simp at headLt
  | cons head tail =>
    have isHead : head = 0xFF := eq_of_mem_replicate (padded ▸ mem_append_right _ mem_cons_self)
    subst isHead
    exact absurd headLt (by simp)

/-- A loop replaces exactly the bytes of its target. -/
theorem copyDown_append {before data after low old high : Bytes} {target source : Nat}
    (lengthEq : old.length = data.length) (targetEq : low.length = target)
    (sourceEq : before.length = source) :
    copyDown (before ++ data ++ after) target source data.length (low ++ old ++ high) =
      .ok (low ++ data ++ high) := by
  subst targetEq sourceEq
  induction data using List.reverseRecOn generalizing after old high with
  | nil =>
    rw [length_eq_zero_iff.mp lengthEq]
    rfl
  | append_singleton data last ih =>
    obtain ⟨old, replaced, rfl⟩ : ∃ front last, old = front ++ [last] :=
      ⟨_, _, (dropLast_append_getLast (by rintro rfl; simp at lengthEq)).symm⟩
    have frontEq : old.length = data.length := by simpa using lengthEq
    have found : (before ++ (data ++ [last]) ++ after)[before.length + data.length]? =
        some last := by
      simp
    have stored : (low ++ (old ++ [replaced]) ++ high).set (low.length + data.length) last =
        low ++ old ++ (last :: high) := by
      simp [← frontEq]
    rw [length_append, length_singleton, copyDown, found]
    simp only
    rw [if_pos (by simp; omega), stored]
    simpa using @ih (last :: after) old (last :: high) frontEq

end Conversion

section Signature

variable {r s : Nat} {rBytes sBytes : Bytes}

/-- The minimal DER encoding of two integers below `2 ^ 256` fits its buffer, and is converted
to the header byte and the two integers of 32 bytes, with no access outside of an array. -/
theorem compactSignature_derSignature (rLt : r < 2 ^ 256) (sLt : s < 2 ^ 256)
    (rDer : DerInteger r rBytes) (sDer : DerInteger s sBytes) (slack : Bytes) (info : Nat) :
    (derSignature rBytes sBytes).length ≤ maxDerSigLen ∧
      compactSignature (derSignature rBytes sBytes ++ slack) info =
        .ok (UInt8.ofNat (31 + info % 2) :: (beBytes 32 r ++ beBytes 32 s)) := by
  have rLength := rDer.length_le rLt
  have sLength := sDer.length_le sLt
  have rByte : (UInt8.ofNat rBytes.length).toNat = rBytes.length := by
    rw [UInt8.toNat_ofNat']
    omega
  have sByte : (UInt8.ofNat sBytes.length).toNat = sBytes.length := by
    rw [UInt8.toNat_ofNat']
    omega
  refine ⟨by simp [derSignature, maxDerSigLen]; omega, ?_⟩
  have found : (derSignature rBytes sBytes ++ slack)[3]? = some (UInt8.ofNat rBytes.length) := by
    simp [derSignature]
  have found' : (derSignature rBytes sBytes ++ slack)[4 + rBytes.length + 1]? =
      some (UInt8.ofNat sBytes.length) := by
    rw [show 4 + rBytes.length + 1 = rBytes.length + 1 + 4 by omega]
    simp [derSignature]
  have zeros {length : Nat} (count : Nat) (fits : length ≤ count) :
      replicate count (0 : UInt8) =
        replicate (count - length) 0 ++ replicate length 0 := by
    rw [replicate_append_replicate, Nat.sub_add_cancel fits]
  have copiedS : copyDown (derSignature rBytes sBytes ++ slack) (1 + 32 + 32 - sBytes.length)
      (4 + rBytes.length + 2) sBytes.length (replicate 65 0) =
        .ok (replicate 33 0 ++ beBytes 32 s) := by
    rw [zeros 65 (sLength.trans (by decide)), ← append_nil (_ ++ replicate _ _),
      derSignature, copyDown_append (by simp) (by simp) (by simp; omega)]
    have split : 65 - sBytes.length = 32 + (33 - sBytes.length) := by omega
    rw [split, replicate_add, append_nil, append_assoc, sDer.padded sLt]
    rfl
  have copiedR : copyDown (derSignature rBytes sBytes ++ slack) (1 + 32 - rBytes.length) 4
      rBytes.length (replicate 33 0 ++ beBytes 32 s) =
        .ok (0 :: (beBytes 32 r ++ beBytes 32 s)) := by
    rw [zeros 33 rLength, derSignature, append_assoc _ sBytes, append_assoc _ [_, _],
      copyDown_append (by simp) (by simp) (by simp), rDer.padded rLt]
    rfl
  simp only [compactSignature, found, found', rByte, sByte]
  rw [if_neg (by omega), copiedS]
  simp only [bind, Except.bind, copiedR, pure, Except.pure, set_cons_zero, Nat.and_one_is_mod]
  rcases Nat.mod_two_eq_zero_or_one info with even | odd
  · rw [even]
    rfl
  · rw [odd]
    rfl

theorem compactSignature_derSignature_max :
    let bytes : Bytes := 0 :: replicate 32 0xFF
    (derSignature bytes bytes).length ≤ maxDerSigLen ∧
      compactSignature (derSignature bytes bytes ++ []) 1 =
        .ok (32 :: (beBytes 32 (2 ^ 256 - 1) ++ beBytes 32 (2 ^ 256 - 1))) :=
  compactSignature_derSignature (by decide) (by decide) derInteger_max derInteger_max [] 1

end Signature

end LedgerSyscoin.Handler
