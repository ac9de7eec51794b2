import LedgerSyscoin.Foundation.Bytes

/-!
# Base58

The decoder of base58 texts divides the number that the digits stand for by 256 again and
again, and writes the remainders into a buffer, from its end on. Each round divides away one
digit, so the buffer is large enough.
-/

namespace LedgerSyscoin.Common

open Foundation List

/-- Why a function returns no value: it returns an error code, or it writes outside of an array. -/
inductive ReadError where
  | refused
  | outside
  deriving DecidableEq

/-- The longest text that is decoded. -/
def maxDecInputSize : Nat := 164

/-- The digits that the characters from `1` to `z` stand for, with `0xFF` for those that are no
digits. -/
def base58TableTrimmed : List Nat :=
  [0x00, 0x01, 0x02, 0x03, 0x04, 0x05, 0x06, 0x07, 0x08, 0xFF, 0xFF, 0xFF, 0xFF, 0xFF, 0xFF, 0xFF,
   0x09, 0x0A, 0x0B, 0x0C, 0x0D, 0x0E, 0x0F, 0x10, 0xFF, 0x11, 0x12, 0x13, 0x14, 0x15, 0xFF, 0x16,
   0x17, 0x18, 0x19, 0x1A, 0x1B, 0x1C, 0x1D, 0x1E, 0x1F, 0x20, 0xFF, 0xFF, 0xFF, 0xFF, 0xFF, 0xFF,
   0x21, 0x22, 0x23, 0x24, 0x25, 0x26, 0x27, 0x28, 0x29, 0x2A, 0x2B, 0xFF, 0x2C, 0x2D, 0x2E, 0x2F,
   0x30, 0x31, 0x32, 0x33, 0x34, 0x35, 0x36, 0x37, 0x38, 0x39]

def base58Digit (c : UInt8) : Option Nat := do
  guard (49 ≤ c.toNat)
  let digit ← base58TableTrimmed[c.toNat - 49]?
  guard (digit ≠ 0xFF)
  return digit

/-- One round of the division by 256: the digits of the quotient and the remainder. -/
def base58Divide (remainder : Nat) : List Nat → List Nat × Nat
  | [] => ([], remainder)
  | digit :: digits =>
    let dividend := remainder * 58 + digit
    (dividend / 256 :: (base58Divide (dividend % 256) digits).1,
      (base58Divide (dividend % 256) digits).2)

/-- The rounds of the division, from the first digit that may not be 0 on. The buffer has been
written from the position `j` on; there is none before the position 0. -/
def base58Loop : (j : Nat) → (digits : List Nat) → (written : Bytes) → Option Bytes
  | _, [], written => some written
  | 0, _ :: _, _ => none
  | j + 1, digit :: digits, written =>
    let (quotient, remainder) := base58Divide 0 (digit :: digits)
    base58Loop j (if quotient.head? = some 0 then quotient.tail else quotient)
      (UInt8.ofNat remainder :: written)

/-- Decode a text into an array of `outLen` bytes. A leading zero digit is a zero byte. -/
def base58Decode (text : Bytes) (outLen : Nat) : Except ReadError Bytes :=
  if text.length > maxDecInputSize ∨ text.length < 2 then .error .refused
  else
    match text.mapM base58Digit with
    | none => .error .refused
    | some digits =>
      let zeroCount := (digits.takeWhile (· = 0)).length
      match base58Loop text.length (digits.drop zeroCount) [] with
      | none => .error .outside
      | some written =>
        let bytes := replicate zeroCount 0 ++ written.dropWhile (· = 0)
        if outLen < bytes.length then .error .refused else .ok bytes

/-! ## Writes -/

theorem lt_of_base58Digit {c : UInt8} {digit : Nat} (found : base58Digit c = some digit) :
    digit < 58 := by
  have digits : ∀ entry ∈ base58TableTrimmed, entry ≠ 0xFF → entry < 58 := by decide
  simp only [base58Digit, Option.bind_eq_bind, Option.bind_eq_some_iff, Option.pure_def,
    Option.some.injEq] at found
  obtain ⟨_, _, entry, isEntry, _, isDigit, rfl⟩ := found
  exact digits _ (mem_of_getElem? isEntry) (by simpa [guard] using isDigit)

variable {digits : List Nat}

/-- The digits of the quotient are digits. -/
theorem base58Divide_digits {remainder : Nat} (small : remainder < 256)
    (areDigits : ∀ digit ∈ digits, digit < 58) :
    (base58Divide remainder digits).1.length = digits.length ∧
      ∀ digit ∈ (base58Divide remainder digits).1, digit < 58 := by
  induction digits generalizing remainder with
  | nil => simp [base58Divide]
  | cons digit digits ih =>
    rw [forall_mem_cons] at areDigits
    obtain ⟨length, quotients⟩ := ih (Nat.mod_lt (remainder * 58 + digit) (by decide)) areDigits.2
    refine ⟨congrArg Nat.succ length, forall_mem_cons.mpr ⟨?_, quotients⟩⟩
    have := areDigits.1
    omega

/-- Every round divides the first digit away, so that the buffer has a place for the remainder. -/
theorem exists_base58Loop {j : Nat} (areDigits : ∀ digit ∈ digits, digit < 58)
    (room : digits.length ≤ j) (written : Bytes) :
    ∃ bytes, base58Loop j digits written = some bytes := by
  induction j generalizing digits written with
  | zero =>
    obtain rfl := length_eq_zero_iff.mp (Nat.le_zero.mp room)
    exact ⟨written, rfl⟩
  | succ j ih =>
    cases digits with
    | nil => exact ⟨written, rfl⟩
    | cons digit digits =>
      have first := areDigits digit mem_cons_self
      have isZero : (0 * 58 + digit) / 256 = 0 := by omega
      obtain ⟨length, quotients⟩ := base58Divide_digits
        (Nat.mod_lt (0 * 58 + digit) (by decide)) (forall_mem_cons.mp areDigits).2
      rw [base58Loop, base58Divide, isZero]
      exact ih quotients (length.trans_le (Nat.succ_le_succ_iff.mp room)) _

theorem digits_of_mapM {text : Bytes} (isDigits : text.mapM base58Digit = some digits) :
    digits.length = text.length ∧ ∀ digit ∈ digits, digit < 58 := by
  induction text generalizing digits with
  | nil =>
    cases isDigits
    exact ⟨rfl, forall_mem_nil _⟩
  | cons c text ih =>
    simp only [mapM_cons, Option.bind_eq_bind, Option.bind_eq_some_iff, Option.pure_def,
      Option.some.injEq] at isDigits
    obtain ⟨digit, found, digits, isDigits, rfl⟩ := isDigits
    obtain ⟨length, areDigits⟩ := ih isDigits
    exact ⟨congrArg Nat.succ length, forall_mem_cons.mpr ⟨lt_of_base58Digit found, areDigits⟩⟩

theorem base58Decode_ne_outside (text : Bytes) (outLen : Nat) :
    base58Decode text outLen ≠ .error .outside := by
  rw [base58Decode]
  split_ifs
  · simp
  · cases isDigits : text.mapM base58Digit with
    | none => simp
    | some digits =>
      obtain ⟨length, areDigits⟩ := digits_of_mapM isDigits
      obtain ⟨_, loops⟩ := exists_base58Loop
        (fun digit mem => areDigits digit (mem_of_mem_drop mem))
        (show (digits.drop (digits.takeWhile (· = 0)).length).length ≤ text.length by
          rw [← length, length_drop]
          exact Nat.sub_le _ _) []
      simp only [loops]
      split_ifs <;> simp

end LedgerSyscoin.Common
