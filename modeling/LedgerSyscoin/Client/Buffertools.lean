import LedgerSyscoin.Common.Varint

/-!
# Buffers of the JavaScript client

Variable-length integers and the reader and the writer of byte buffers, as in `varint.ts`
and `buffertools.ts`. An exception is the outcome `none`. Numbers are exact up to
`Number.MAX_SAFE_INTEGER`; larger ones are refused.
-/

namespace LedgerSyscoin.Client.JavaScript

open Foundation Common List

variable {value : Nat}

def maxSafeInteger : Nat := 2 ^ 53 - 1

/-! ## Variable-length integers -/

/-- The loop of `smallEndianToBigint` from index `i` on. -/
def smallEndianLoop (buffer : Bytes) (offset : Nat) : Nat → Nat → Nat → Option Nat
  | 0, _, result => some result
  | length + 1, i, result =>
    match buffer[i + offset]? with
    | none => none
    | some byte => smallEndianLoop buffer offset length (i + 1) (result + byte.toNat <<< (i * 8))

def smallEndianToBigint (buffer : Bytes) (offset length : Nat) : Option Nat :=
  smallEndianLoop buffer offset length 0 0

def sanitizeBigintToNumber (n : Nat) : Option Nat := if n > maxSafeInteger then none else some n

theorem sanitizeBigintToNumber_eq {n : Nat} (small : n ≤ maxSafeInteger) :
    sanitizeBigintToNumber n = some n := if_neg (not_lt.mpr small)

/-- The number and its length in bytes. -/
def parseVarint (data : Bytes) (offset : Nat) : Option (Nat × Nat) :=
  match data[offset]? with
  | none => none
  | some lead =>
    if lead < 0xFD then some (lead.toNat, 1)
    else
      let size := if lead = 0xFD then 2 else if lead = 0xFE then 4 else 8
      (smallEndianToBigint data (offset + 1) size).map fun value => (value, size + 1)

/-- The encoding of a number. -/
def createVarint (value : Nat) : Option Bytes :=
  match sanitizeBigintToNumber value with
  | none => none
  | some value =>
    some (
      if value < 0xFD then [UInt8.ofNat value]
      else if value ≤ 0xFFFF then 0xFD :: leBytes 2 value
      else if value ≤ 0xFFFFFFFF then 0xFE :: leBytes 4 value
      else 0xFF :: leBytes 8 value)

theorem smallEndianLoop_eq (buffer : Bytes) (offset length i result : Nat) :
    smallEndianLoop buffer offset length i result =
      if length ≤ (buffer.drop (i + offset)).length then
        some (result + 2 ^ (i * 8) * leNat ((buffer.drop (i + offset)).take length))
      else none := by
  induction length generalizing i result with
  | zero => simp [smallEndianLoop]
  | succ length ih =>
    rw [smallEndianLoop]
    rcases lt_or_ge (i + offset) buffer.length with inside | outside
    · have position : i + 1 + offset = i + offset + 1 := by omega
      rw [getElem?_eq_getElem inside]
      simp only
      rw [ih, position, drop_eq_getElem_cons inside, length_cons]
      simp only [Nat.add_le_add_iff_right, take_succ_cons, leNat_cons, Nat.shiftLeft_eq,
        Nat.add_mul, Nat.one_mul, Nat.pow_add]
      congr 2
      ring
    · rw [getElem?_eq_none outside, drop_eq_nil_of_le outside]
      simp

theorem smallEndianToBigint_eq (buffer : Bytes) (offset length : Nat) :
    smallEndianToBigint buffer offset length =
      if length ≤ (buffer.drop offset).length then
        some (leNat ((buffer.drop offset).take length))
      else none := by
  rw [smallEndianToBigint, smallEndianLoop_eq]
  simp

/-- The parser of the client reads what the device reads. -/
theorem parseVarint_eq (data : Bytes) (offset : Nat) :
    parseVarint data offset = varintRead (data.drop offset) := by
  rcases lt_or_ge offset data.length with inside | outside
  · rw [parseVarint, getElem?_eq_getElem inside, drop_eq_getElem_cons inside]
    generalize data[offset] = lead
    rw [varintRead_cons]
    simp only
    by_cases single : lead < 0xFD
    · have small : lead ≤ 0xFC := by grind
      have noTail : varintTail lead = 0 := by
        rw [varintTail, if_neg (by grind), if_neg (by grind), if_neg (by grind)]
      rw [if_pos single, noTail, if_neg (Nat.not_lt_zero _), if_pos small]
    · have large : ¬ lead ≤ 0xFC := by grind
      have size : (if lead = 0xFD then 2 else if lead = 0xFE then 4 else 8) = varintTail lead := by
        rw [varintTail]
        split_ifs with isFD isFE isFF
        · rfl
        · rfl
        · rfl
        · exact absurd (show lead = 0xFF by grind) isFF
      rw [if_neg single, size, smallEndianToBigint_eq, if_neg large, Nat.add_comm 1]
      split_ifs with fits short short
      · omega
      · rfl
      · rfl
      · omega
  · rw [parseVarint, getElem?_eq_none outside, drop_eq_nil_of_le outside]
    rfl

theorem createVarint_eq (small : value ≤ maxSafeInteger) :
    createVarint value = some (varintWrite value) := by
  rw [createVarint, sanitizeBigintToNumber, if_neg (not_lt.mpr small)]
  simp only
  rcases varintWrite_cases value with ⟨low, -, write⟩ | ⟨low, high, -, write⟩ |
    ⟨low, high, -, write⟩ | ⟨low, -, write⟩ <;> rw [write]
  · rw [if_pos (by omega)]
  · rw [if_neg (by omega), if_pos high]
  · rw [if_neg (by omega), if_neg (by omega), if_pos high]
  · rw [if_neg (by omega), if_neg (by omega), if_neg (by omega)]

/-! ## Readers -/

/-- A buffer with the position of the reader. -/
structure BufferReader where
  buffer : Bytes
  offset : Nat

namespace BufferReader

variable {reader : BufferReader} {bytes left : Bytes}

/-- The bytes that were not read yet. -/
def rest (reader : BufferReader) : Bytes := reader.buffer.drop reader.offset

/-- The reader after `n` more bytes. -/
def advance (reader : BufferReader) (n : Nat) : BufferReader :=
  { reader with offset := reader.offset + n }

def readUInt8 (reader : BufferReader) : Option (UInt8 × BufferReader) :=
  (reader.buffer[reader.offset]?).map fun byte => (byte, reader.advance 1)

def readVarInt (reader : BufferReader) : Option (Nat × BufferReader) :=
  (parseVarint reader.buffer reader.offset).map fun (value, size) =>
    (value, reader.advance size)

def readSlice (reader : BufferReader) (n : Nat) : Option (Bytes × BufferReader) :=
  if reader.buffer.length < reader.offset + n then none
  else some ((reader.buffer.drop reader.offset).take n, reader.advance n)

def readVarSlice (reader : BufferReader) : Option (Bytes × BufferReader) := do
  let (length, reader) ← reader.readVarInt
  let n ← sanitizeBigintToNumber length
  reader.readSlice n

@[simp]
theorem rest_advance (reader : BufferReader) (n : Nat) :
    (reader.advance n).rest = reader.rest.drop n := by
  rw [rest, rest, drop_drop]
  rfl

/-- A varint at the position of the reader. -/
theorem readVarInt_of_rest {tail : Bytes}
    (small : value < 2 ^ 64) (position : reader.rest = varintWrite value ++ tail) :
    reader.readVarInt = some (value, reader.advance (varintSize value)) ∧
      (reader.advance (varintSize value)).rest = tail := by
  have read := varintRead_varintWrite_append value small tail
  rw [← position, rest, ← parseVarint_eq] at read
  constructor
  · rw [readVarInt, read]
    rfl
  · rw [rest_advance, position, ← length_varintWrite, drop_left]

/-- Bytes at the position of the reader. -/
theorem readSlice_of_rest {tail : Bytes}
    (inside : reader.offset ≤ reader.buffer.length) (position : reader.rest = bytes ++ tail) :
    reader.readSlice bytes.length = some (bytes, reader.advance bytes.length) ∧
      (reader.advance bytes.length).rest = tail := by
  have lengths := congrArg List.length position
  rw [rest, length_drop, length_append] at lengths
  constructor
  · rw [readSlice, if_neg (by omega)]
    rw [rest] at position
    rw [position, take_left]
  · rw [rest_advance, position, drop_left]

/-- The reader is inside its buffer and the given bytes are left. -/
structure At (reader : BufferReader) (left : Bytes) : Prop where
  inside : reader.offset ≤ reader.buffer.length
  rest_eq : reader.rest = left

theorem at_new (buffer : Bytes) : (⟨buffer, 0⟩ : BufferReader).At buffer := ⟨Nat.zero_le _, rfl⟩

/-- Passing over the bytes in front. -/
theorem At.advance {front : Bytes}
    (position : reader.At (front ++ left)) : (reader.advance front.length).At left where
  inside := by
    have lengths := congrArg List.length position.rest_eq
    have inside := position.inside
    rw [rest, length_drop, length_append] at lengths
    change reader.offset + front.length ≤ reader.buffer.length
    omega
  rest_eq := by rw [rest_advance, position.rest_eq, drop_left]

theorem At.readUInt8 {byte : UInt8} (position : reader.At (byte :: left)) :
    reader.readUInt8 = some (byte, reader.advance 1) ∧ (reader.advance 1).At left := by
  refine ⟨?_, At.advance (show reader.At ([byte] ++ left) from position)⟩
  have front : reader.buffer[reader.offset]? = some byte := by
    have first := congrArg (·[0]?) position.rest_eq
    rwa [rest, getElem?_drop, Nat.add_zero] at first
  rw [BufferReader.readUInt8, front]
  rfl

theorem At.readVarInt (small : value < 2 ^ 64) (position : reader.At (varintWrite value ++ left)) :
    ∃ next, reader.readVarInt = some (value, next) ∧ next.At left := by
  obtain ⟨read, -⟩ := readVarInt_of_rest small position.rest_eq
  rw [← length_varintWrite] at read
  exact ⟨_, read, position.advance⟩

theorem At.readSlice (position : reader.At (bytes ++ left)) :
    ∃ next, reader.readSlice bytes.length = some (bytes, next) ∧ next.At left :=
  ⟨_, (readSlice_of_rest position.inside position.rest_eq).1, position.advance⟩

theorem At.readVarSlice (small : bytes.length ≤ maxSafeInteger)
    (position : reader.At (varintWrite bytes.length ++ (bytes ++ left))) :
    ∃ next, reader.readVarSlice = some (bytes, next) ∧ next.At left := by
  have fits : bytes.length < 2 ^ 64 := lt_of_le_of_lt small (by decide)
  obtain ⟨_, readLength, position⟩ := position.readVarInt fits
  obtain ⟨next, readBytes, position⟩ := position.readSlice
  refine ⟨next, ?_, position⟩
  rw [BufferReader.readVarSlice, readLength]
  simp only [Option.bind_eq_bind, Option.bind_some, sanitizeBigintToNumber_eq small, readBytes]

end BufferReader

/-! ## Writing -/

/-- The buffers that were written so far. -/
structure BufferWriter where
  bufs : List Bytes

namespace BufferWriter

def new : BufferWriter := ⟨[]⟩

def writeSlice (writer : BufferWriter) (slice : Bytes) : BufferWriter := ⟨writer.bufs ++ [slice]⟩

def writeUInt8 (writer : BufferWriter) (i : Nat) : Option BufferWriter :=
  if i < 256 then some (writer.writeSlice [UInt8.ofNat i]) else none

def writeVarInt (writer : BufferWriter) (i : Nat) : Option BufferWriter :=
  (createVarint i).map writer.writeSlice

def writeVarSlice (writer : BufferWriter) (slice : Bytes) : Option BufferWriter := do
  let writer ← writer.writeVarInt slice.length
  return writer.writeSlice slice

def buffer (writer : BufferWriter) : Bytes := writer.bufs.flatten

@[simp]
theorem buffer_new : new.buffer = [] := rfl

@[simp]
theorem buffer_writeSlice (writer : BufferWriter) (slice : Bytes) :
    (writer.writeSlice slice).buffer = writer.buffer ++ slice := by
  simp [buffer, writeSlice]

theorem writeVarInt_eq (writer : BufferWriter) {i : Nat} (small : i ≤ maxSafeInteger) :
    writer.writeVarInt i = some (writer.writeSlice (varintWrite i)) := by
  rw [writeVarInt, createVarint_eq small]
  rfl

theorem writeVarSlice_eq (writer : BufferWriter) {slice : Bytes}
    (small : slice.length ≤ maxSafeInteger) :
    writer.writeVarSlice slice =
      some ((writer.writeSlice (varintWrite slice.length)).writeSlice slice) := by
  rw [writeVarSlice, writeVarInt_eq writer small]
  rfl

end BufferWriter

end LedgerSyscoin.Client.JavaScript
