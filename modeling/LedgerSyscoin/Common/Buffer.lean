import LedgerSyscoin.Common.Varint

/-!
# Buffers

A buffer is a byte string together with a read position that never passes its
end. Every read returns the value and the advanced buffer, or nothing when too
few bytes are left; every write replaces bytes at the position without changing
the size of the buffer.
-/

namespace LedgerSyscoin.Common

open Foundation List

variable {tail data : Bytes}

/-- The contents of a buffer and a position inside it. -/
structure Buffer where
  bytes : Bytes
  offset : Nat
  offset_le : offset ≤ bytes.length

/-- Byte order of a fixed-width read or write. -/
inductive Endianness where
  | be
  | le
  deriving DecidableEq, Repr

/-- A fresh buffer over `bytes`. -/
def bufferCreate (bytes : Bytes) : Buffer := ⟨bytes, 0, Nat.zero_le _⟩

namespace Buffer

/-- Size of the underlying storage. -/
def size (buffer : Buffer) : Nat := buffer.bytes.length

/-- The bytes from the position on. -/
def remaining (buffer : Buffer) : Bytes := buffer.bytes.drop buffer.offset

/-- Move the position forward inside the buffer. -/
def advance (buffer : Buffer) (count : Nat) (fits : count ≤ buffer.bytes.length - buffer.offset) :
    Buffer :=
  ⟨buffer.bytes, buffer.offset + count, by have bound := buffer.offset_le; omega⟩

@[simp]
theorem remaining_create (bytes : Bytes) : (bufferCreate bytes).remaining = bytes := by
  simp [remaining, bufferCreate]

@[simp]
theorem length_remaining (buffer : Buffer) :
    buffer.remaining.length = buffer.bytes.length - buffer.offset := by
  simp [remaining]

@[simp]
theorem remaining_advance (buffer : Buffer) (count : Nat)
    (fits : count ≤ buffer.bytes.length - buffer.offset) :
    (buffer.advance count fits).remaining = buffer.remaining.drop count := by
  simp [remaining, advance, drop_drop]

@[ext]
theorem ext {left right : Buffer} (bytesEq : left.bytes = right.bytes)
    (offsetEq : left.offset = right.offset) : left = right := by
  cases left
  cases right
  simp_all

end Buffer

/-- Whether `count` more bytes can be read. -/
def bufferCanRead (buffer : Buffer) (count : Nat) : Bool :=
  count ≤ buffer.bytes.length - buffer.offset

/-- Move the position forward, unless it would pass the end. -/
def bufferSeekCur (buffer : Buffer) (count : Nat) : Option Buffer :=
  if fits : count ≤ buffer.bytes.length - buffer.offset then some (buffer.advance count fits)
  else none

/-- A read of `width` bytes, decoded by `decode`. -/
def bufferReadWith {α : Type} (width : Nat) (decode : Bytes → α) (buffer : Buffer) :
    Option (α × Buffer) :=
  if fits : width ≤ buffer.bytes.length - buffer.offset then
    some (decode (buffer.remaining.take width), buffer.advance width fits)
  else none

/-- Value of a fixed-width integer in the given byte order. -/
def readUInt : Endianness → Bytes → Nat
  | .be => beNat
  | .le => leNat

def bufferReadU8 : Buffer → Option (UInt8 × Buffer) := bufferReadWith 1 (·.headD 0)

def bufferReadU16 (endianness : Endianness) : Buffer → Option (Nat × Buffer) :=
  bufferReadWith 2 (readUInt endianness)

def bufferReadU32 (endianness : Endianness) : Buffer → Option (Nat × Buffer) :=
  bufferReadWith 4 (readUInt endianness)

def bufferReadBytes (count : Nat) : Buffer → Option (Bytes × Buffer) := bufferReadWith count id

/-- Peek at the byte `index` places after the position. -/
def bufferPeekN (buffer : Buffer) (index : Nat) : Option UInt8 := buffer.remaining[index]?

/-- Peek at the next byte. -/
def bufferPeek (buffer : Buffer) : Option UInt8 := bufferPeekN buffer 0

/-- Read a varint of any form. -/
def bufferReadVarint (buffer : Buffer) : Option (Nat × Buffer) :=
  match varintRead buffer.remaining with
  | none => none
  | some (value, length) => (bufferSeekCur buffer length).map fun rest => (value, rest)

/-- Replace the bytes at the position by `data`, unless they pass the end. -/
def bufferWriteBytes (buffer : Buffer) (data : Bytes) : Option Buffer :=
  if fits : data.length ≤ buffer.bytes.length - buffer.offset then
    some ⟨buffer.bytes.take buffer.offset ++ data ++
        buffer.bytes.drop (buffer.offset + data.length),
      buffer.offset + data.length, by have bound := buffer.offset_le; simp; omega⟩
  else none

/-! ## Exact results of reads -/

variable {buffer rest : Buffer}

theorem bufferReadWith_eq_some_iff {α : Type} {width : Nat} {decode : Bytes → α} {value : α} :
    bufferReadWith width decode buffer = some (value, rest) ↔
      width ≤ buffer.bytes.length - buffer.offset ∧ value = decode (buffer.remaining.take width) ∧
        rest.bytes = buffer.bytes ∧ rest.offset = buffer.offset + width := by
  unfold bufferReadWith
  split_ifs with fits
  · simp only [Option.some.injEq, Prod.mk.injEq, fits, true_and]
    constructor
    · rintro ⟨rfl, rfl⟩
      exact ⟨rfl, rfl, rfl⟩
    · rintro ⟨rfl, bytesEq, offsetEq⟩
      exact ⟨rfl, Buffer.ext bytesEq.symm offsetEq.symm⟩
  · simp [fits]

/-- What a successful read leaves behind. -/
theorem remaining_bufferReadWith {α : Type} {width : Nat} {decode : Bytes → α} {value : α}
    (read : bufferReadWith width decode buffer = some (value, rest)) :
    rest.remaining = buffer.remaining.drop width := by
  obtain ⟨_, _, bytesEq, offsetEq⟩ := bufferReadWith_eq_some_iff.mp read
  simp [Buffer.remaining, bytesEq, offsetEq, drop_drop]

theorem bufferReadU8_eq_some_iff {value : UInt8} : bufferReadU8 buffer = some (value, rest) ↔
      buffer.remaining = value :: rest.remaining ∧
        rest.bytes = buffer.bytes ∧ rest.offset = buffer.offset + 1 := by
  rw [bufferReadU8, bufferReadWith_eq_some_iff]
  constructor
  · rintro ⟨_, rfl, bytesEq, offsetEq⟩
    refine ⟨?_, bytesEq, offsetEq⟩
    have nonempty : buffer.offset < buffer.bytes.length := by omega
    have split := drop_eq_getElem_cons nonempty
    simp only [Buffer.remaining, bytesEq, offsetEq]
    rw [split]
    rfl
  · rintro ⟨remainingEq, bytesEq, offsetEq⟩
    have lengthEq := congrArg List.length remainingEq
    rw [Buffer.length_remaining, length_cons] at lengthEq
    exact ⟨by omega, by simp [remainingEq], bytesEq, offsetEq⟩

theorem bufferReadVarint_eq_some_iff {value : Nat} : bufferReadVarint buffer = some (value, rest) ↔
      ∃ length, varintRead buffer.remaining = some (value, length) ∧
        rest.bytes = buffer.bytes ∧ rest.offset = buffer.offset + length := by
  unfold bufferReadVarint
  cases read : varintRead buffer.remaining with
  | none => simp
  | some result =>
    obtain ⟨_, length⟩ := result
    have bounds := varintRead_bounds read
    rw [Buffer.length_remaining] at bounds
    have seek : bufferSeekCur buffer length = some (buffer.advance length bounds.2.2.1) := by
      rw [bufferSeekCur, dif_pos bounds.2.2.1]
    simp only [seek, Option.map_some, Option.some.injEq, Prod.mk.injEq]
    constructor
    · rintro ⟨rfl, rfl⟩
      exact ⟨length, ⟨rfl, rfl⟩, rfl, rfl⟩
    · rintro ⟨_, ⟨rfl, rfl⟩, bytesEq, offsetEq⟩
      exact ⟨rfl, Buffer.ext bytesEq.symm offsetEq.symm⟩

/-! ## Reads of known data -/

theorem exists_bufferReadU8 {value : UInt8} (remaining : buffer.remaining = value :: tail) :
    ∃ rest, bufferReadU8 buffer = some (value, rest) ∧ rest.remaining = tail := by
  have lengthEq := congrArg List.length remaining
  rw [Buffer.length_remaining, length_cons] at lengthEq
  have dropEq : buffer.bytes.drop (buffer.offset + 1) = tail := by
    rw [← drop_drop, ← Buffer.remaining, remaining, drop_one, tail_cons]
  refine ⟨⟨buffer.bytes, buffer.offset + 1, by omega⟩, ?_, dropEq⟩
  rw [bufferReadU8_eq_some_iff]
  exact ⟨by rw [remaining, Buffer.remaining, dropEq], rfl, rfl⟩

theorem exists_bufferReadBytes {count : Nat}
    (remaining : buffer.remaining = data ++ tail) (length : data.length = count) :
    ∃ rest, bufferReadBytes count buffer = some (data, rest) ∧ rest.remaining = tail := by
  subst length
  have lengthEq := congrArg List.length remaining
  rw [Buffer.length_remaining, length_append] at lengthEq
  have fits : data.length ≤ buffer.bytes.length - buffer.offset := by omega
  refine ⟨buffer.advance data.length fits, ?_, ?_⟩
  · rw [bufferReadBytes, bufferReadWith_eq_some_iff]
    exact ⟨fits, by simp [remaining], rfl, rfl⟩
  · rw [Buffer.remaining, Buffer.advance, ← drop_drop, ← Buffer.remaining, remaining, drop_left]

theorem exists_bufferReadVarint {value : Nat}
    (remaining : buffer.remaining = varintWrite value ++ tail) (valueLt : value < 2 ^ 64) :
    ∃ rest, bufferReadVarint buffer = some (value, rest) ∧ rest.remaining = tail := by
  have read := varintRead_varintWrite_append value valueLt tail
  have lengthEq := congrArg List.length remaining
  rw [Buffer.length_remaining, length_append, length_varintWrite] at lengthEq
  have fits : varintSize value ≤ buffer.bytes.length - buffer.offset := by omega
  refine ⟨buffer.advance (varintSize value) fits, ?_, ?_⟩
  · rw [bufferReadVarint_eq_some_iff]
    exact ⟨varintSize value, by rw [remaining, read], rfl, rfl⟩
  · rw [Buffer.remaining, Buffer.advance, ← drop_drop, ← Buffer.remaining, remaining,
      ← length_varintWrite, drop_left]

/-! ## Exact results of writes -/

variable {written : Buffer}

theorem bufferWriteBytes_eq_some (write : bufferWriteBytes buffer data = some written) :
    data.length ≤ buffer.bytes.length - buffer.offset ∧
      written.bytes = buffer.bytes.take buffer.offset ++ data ++
        buffer.bytes.drop (buffer.offset + data.length) ∧
      written.offset = buffer.offset + data.length := by
  unfold bufferWriteBytes at write
  split_ifs at write with fits
  cases write
  exact ⟨fits, rfl, rfl⟩

/-- The written part of a buffer grows by exactly the data. -/
theorem take_offset_bufferWriteBytes (write : bufferWriteBytes buffer data = some written) :
    written.bytes.take written.offset = buffer.bytes.take buffer.offset ++ data := by
  obtain ⟨_, bytesEq, offsetEq⟩ := bufferWriteBytes_eq_some write
  have bound := buffer.offset_le
  have writtenLength : (buffer.bytes.take buffer.offset ++ data).length =
      buffer.offset + data.length := by
    simp
    omega
  rw [bytesEq, offsetEq, ← writtenLength, take_left]

theorem length_bufferWriteBytes (write : bufferWriteBytes buffer data = some written) :
    written.bytes.length = buffer.bytes.length := by
  obtain ⟨_, bytesEq, _⟩ := bufferWriteBytes_eq_some write
  have bound := buffer.offset_le
  rw [bytesEq]
  simp
  omega

end LedgerSyscoin.Common
