import LedgerSyscoin.Common.Buffer
import LedgerSyscoin.Foundation.Memory

/-!
# Reading BIP32 paths

The steps of a path are read as big-endian words from the unread bytes of a buffer. The
reader only checks that a word starts inside of the input, so its last word may lie behind the
end; the memory there is a parameter, and the reader also tells how many bytes it has read.
-/

namespace LedgerSyscoin.Common

open Foundation

def maxBip32PathSteps : Nat := 8

/-- The loop of `bip32_path_read`, with the number of bytes that it has read. -/
def bip32PathReadLoop (input : Memory) (inLen : Nat) : Nat → Nat → Option (List Nat) × Nat
  | 0, offset => (some [], offset)
  | steps + 1, offset =>
    if offset > inLen then (none, offset)
    else
      let (rest, reach) := bip32PathReadLoop input inLen steps (offset + 4)
      (rest.map (beNat (input.read offset 4) :: ·), reach)

/-- Read `outLen` steps from an input of `inLen` bytes. -/
def bip32PathRead (input : Memory) (inLen outLen : Nat) : Option (List Nat) × Nat :=
  if outLen > maxBip32PathSteps then (none, 0) else bip32PathReadLoop input inLen outLen 0

/-- The memory from the position of a buffer on: its unread bytes and what stands behind it. -/
def unreadMemory (behind : Memory) (buffer : Buffer) : Memory := behind.write 0 buffer.remaining

/-- Read a path and move the position over it, if it does not pass the end then. -/
def bufferReadBip32Path (behind : Memory) (buffer : Buffer) (outLen : Nat) :
    Option (List Nat × Buffer) × Nat :=
  let (path, reach) :=
    bip32PathRead (unreadMemory behind buffer) (buffer.bytes.length - buffer.offset) outLen
  (path.map fun steps => (steps, (bufferSeekCur buffer (4 * outLen)).getD buffer), reach)

/-- The first big-endian words of a byte string. -/
def beWords (bytes : Bytes) (count : Nat) : List Nat :=
  (List.range count).map fun index => beNat ((bytes.drop (4 * index)).take 4)

/-! ## The loop -/

section Loop

variable {input : Memory} {inLen steps offset : Nat}

theorem le_reach : offset ≤ (bip32PathReadLoop input inLen steps offset).2 := by
  induction steps generalizing offset with
  | zero => exact le_rfl
  | succ steps ih =>
    rw [bip32PathReadLoop]
    split_ifs
    · exact le_rfl
    · exact (Nat.le_add_right offset 4).trans ih

/-- With all the words inside of the input, exactly they are read. -/
theorem bip32PathReadLoop_of_le (enough : offset + 4 * steps ≤ inLen) :
    bip32PathReadLoop input inLen steps offset =
      (some ((List.range steps).map fun index => beNat (input.read (offset + 4 * index) 4)),
        offset + 4 * steps) := by
  induction steps generalizing offset with
  | zero => rfl
  | succ steps ih =>
    have shift : ∀ index, offset + 4 + 4 * index = offset + 4 * (index + 1) := by omega
    rw [bip32PathReadLoop, if_neg (by omega), ih (by omega), List.range_succ_eq_map]
    simp [Function.comp_def, shift]

/-- With too few bytes, the first word that is not whole is read all the same. -/
theorem lt_reach (inside : offset ≤ inLen) (short : inLen < offset + 4 * steps) :
    inLen < (bip32PathReadLoop input inLen steps offset).2 := by
  induction steps generalizing offset with
  | zero => omega
  | succ steps ih =>
    rw [bip32PathReadLoop, if_neg (by omega)]
    by_cases whole : offset + 4 ≤ inLen
    · exact ih whole (by omega)
    · exact lt_of_lt_of_le (by omega) le_reach

end Loop

/-! ## The reader -/

theorem read_unreadMemory {behind : Memory} {buffer : Buffer} {start count : Nat}
    (inside : start + count ≤ buffer.remaining.length) :
    (unreadMemory behind buffer).read start count = (buffer.remaining.drop start).take count := by
  simpa [unreadMemory] using behind.read_write_inside 0 start count buffer.remaining inside

theorem bip32PathRead_of_le {behind : Memory} {buffer : Buffer} {outLen : Nat}
    (few : outLen ≤ maxBip32PathSteps) (enough : 4 * outLen ≤ buffer.remaining.length) :
    bip32PathRead (unreadMemory behind buffer) (buffer.bytes.length - buffer.offset) outLen =
      (some (beWords buffer.remaining outLen), 4 * outLen) := by
  have lengthEq := buffer.length_remaining
  rw [bip32PathRead, if_neg (by omega), bip32PathReadLoop_of_le (by omega), Nat.zero_add]
  congr 2
  apply List.map_congr_left
  intro index member
  have below := List.mem_range.mp member
  rw [Nat.zero_add, read_unreadMemory (by omega)]

/-- The readers stay inside of the unread bytes and return their first words, with the position
moved behind them, exactly when there are enough of them or the path is too long anyway. -/
theorem bufferReadBip32Path_safe_iff (behind : Memory) (buffer : Buffer) (outLen : Nat) :
    (let direct :=
        bip32PathRead (unreadMemory behind buffer) (buffer.bytes.length - buffer.offset) outLen
      let read := bufferReadBip32Path behind buffer outLen
      direct.2 ≤ buffer.remaining.length ∧ read.2 ≤ buffer.remaining.length ∧
        (∀ steps, direct.1 = some steps →
          4 * outLen ≤ buffer.remaining.length ∧ steps = beWords buffer.remaining outLen) ∧
        ∀ steps rest, read.1 = some (steps, rest) →
          4 * outLen ≤ buffer.remaining.length ∧ steps = beWords buffer.remaining outLen ∧
            rest.bytes = buffer.bytes ∧ rest.offset = buffer.offset + 4 * outLen) ↔
      (outLen ≤ maxBip32PathSteps → 4 * outLen ≤ buffer.remaining.length) := by
  have lengthEq := buffer.length_remaining
  constructor
  · rintro ⟨inside, -⟩ few
    by_contra short
    rw [bip32PathRead, if_neg (by omega)] at inside
    exact absurd (lt_reach (Nat.zero_le _) (by omega)) (Nat.not_lt.mpr (lengthEq ▸ inside))
  · intro enough
    by_cases few : outLen ≤ maxBip32PathSteps
    · have fits := enough few
      have seek : bufferSeekCur buffer (4 * outLen) =
          some (buffer.advance (4 * outLen) (by omega)) := dif_pos (by omega)
      simp only [bufferReadBip32Path, bip32PathRead_of_le few fits, seek, Option.map_some,
        Option.getD_some, Option.some.injEq, Prod.mk.injEq]
      refine ⟨fits, fits, ?_, ?_⟩
      · rintro _ rfl
        exact ⟨fits, rfl⟩
      · rintro _ _ ⟨rfl, rfl⟩
        exact ⟨fits, rfl, rfl, rfl⟩
    · simp [bufferReadBip32Path, bip32PathRead, show outLen > maxBip32PathSteps by omega]

/-- One step read from an empty buffer: four bytes behind its end are read, and the position
stays. -/
theorem bufferReadBip32Path_empty :
    let read := bufferReadBip32Path (fun _ => 7) (bufferCreate []) 1
    read.1.map (fun read => (read.1, read.2.offset)) = some ([0x07070707], 0) ∧ read.2 = 4 := by
  decide

end LedgerSyscoin.Common
