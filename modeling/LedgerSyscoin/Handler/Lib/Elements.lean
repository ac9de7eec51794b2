import LedgerSyscoin.Boilerplate.Dispatcher
import LedgerSyscoin.Foundation.Hash
import Mathlib.Algebra.Order.Group.Int

/-!
# Client commands and their answers

The requests of the device to its client and the fixed part of the answers.
A preimage answer starts with the total length and the number of bytes that
follow at once; a `GET_MORE_ELEMENTS` answer starts with the number of elements
and the length of each.
-/

namespace LedgerSyscoin.Handler

open Foundation Common Boilerplate

variable {value : Nat} {data : Bytes} {rest : Buffer}

def ccmdYield : UInt8 := 0x10
def ccmdGetPreimage : UInt8 := 0x40
def ccmdGetMerkleLeafProof : UInt8 := 0x41
def ccmdGetMerkleLeafIndex : UInt8 := 0x42
def ccmdGetMoreElements : UInt8 := 0xA0

/-- The request for the preimage of `hash`. -/
def getPreimageRequest (hash : Digest) : Bytes := ccmdGetPreimage :: 0 :: hash.val

/-- The request for the elements that did not fit the last answer. -/
def getMoreElementsRequest : Bytes := [ccmdGetMoreElements]

/-- Ask the client a question and receive its answer. -/
def interrupt (dc : DispatcherContext) (request : Bytes) (apdu : Apdu) : Bool × DispatcherContext :=
  processInterruption (setResponse dc request swInterruptedExecution) apdu

/-- Total length of a preimage and number of its bytes in this answer. -/
def readPreimageHeader (buffer : Buffer) : Option (Nat × Nat × Buffer) := do
  let (preimageLen, buffer) ← bufferReadVarint buffer
  let (partialDataLen, buffer) ← bufferReadU8 buffer
  if bufferCanRead buffer partialDataLen.toNat then
    some (preimageLen, partialDataLen.toNat, buffer)
  else none

/-- Number of elements in this answer and length of each. -/
def readElementsHeader (buffer : Buffer) : Option (Nat × Nat × Buffer) := do
  let (nElements, buffer) ← bufferReadU8 buffer
  let (elementsLen, buffer) ← bufferReadU8 buffer
  if bufferCanRead buffer (nElements.toNat * elementsLen.toNat) then
    some (nElements.toNat, elementsLen.toNat, buffer)
  else none

/-- The memory of the APDU buffer after one more exchange. -/
def memoryAfter (memory : Memory) (request : Bytes) (apdu : Apdu) : Memory :=
  (memory.write 0 (request ++ beBytes 2 swInterruptedExecution)).write 0 apdu

/-- Conversion of a 64-bit value to a 32-bit `int`. -/
def toInt (value : Nat) : Int := (value : Int).bmod (2 ^ 32)

/-- Address of the next unread byte of the read buffer. -/
def readAddress (dc : DispatcherContext) : Nat := offsetCdata + dc.readBuffer.offset

theorem toInt_of_lt (small : value < 2 ^ 31) : toInt value = value := by
  unfold toInt
  rw [Int.bmod_def]
  split_ifs <;> omega

/-- A nonnegative `int` conversion of a value that fits 32 bits is the value. -/
theorem toInt_eq_of_nonneg (fits : value < 2 ^ 32) (nonneg : 0 ≤ toInt value) :
    toInt value = value ∧ value < 2 ^ 31 := by
  unfold toInt at nonneg ⊢
  rw [Int.bmod_def] at nonneg ⊢
  split_ifs at nonneg ⊢ <;> omega

/-- A nonnegative `int` conversion keeps the lower 32 bits. -/
theorem toNat_toInt (nonneg : 0 ≤ toInt value) : (toInt value).toNat = value % 2 ^ 32 := by
  unfold toInt at nonneg ⊢
  rw [Int.bmod_def] at nonneg ⊢
  split_ifs at nonneg ⊢ <;> omega

theorem toInt_neg_iff (fits : value < 2 ^ 32) : toInt value < 0 ↔ 2 ^ 31 ≤ value := by
  constructor
  · intro negative
    by_contra small
    rw [toInt_of_lt (by omega)] at negative
    omega
  · intro large
    by_contra nonneg
    have bound := (toInt_eq_of_nonneg fits (by omega)).2
    omega

/-! ## Inversion -/

theorem interrupt_eq_true_iff {dc resumed : DispatcherContext} {request : Bytes} {apdu : Apdu} :
    interrupt dc request apdu = (true, resumed) ↔
      ∃ p1 p2 data, data.length < 256 ∧ apdu = continueApdu p1 p2 data ∧
        resumed =
          { apduBuffer := memoryAfter dc.apduBuffer request apdu
            readBuffer := bufferCreate data
            sent := dc.sent ++ [(request, swInterruptedExecution)] } := by
  rw [interrupt, processInterruption_eq_true_iff]
  rfl

theorem readPreimageHeader_eq_some {preimageLen partialDataLen : Nat}
    (header : readPreimageHeader (bufferCreate data) = some (preimageLen, partialDataLen, rest)) :
    ∃ varintLen, varintRead data = some (preimageLen, varintLen) ∧
      data[varintLen]? = some (UInt8.ofNat partialDataLen) ∧ partialDataLen < 256 ∧
      rest.bytes = data ∧ rest.offset = varintLen + 1 ∧
      varintLen + 1 + partialDataLen ≤ data.length := by
  simp only [readPreimageHeader, Option.bind_eq_bind, Option.bind_eq_some_iff, Prod.exists]
    at header
  obtain ⟨_, afterLen, readLen, count, _, readCount, rest_eq⟩ := header
  split_ifs at rest_eq with canRead
  simp only [Option.some.injEq, Prod.mk.injEq] at rest_eq
  obtain ⟨rfl, rfl, rfl⟩ := rest_eq
  obtain ⟨varintLen, varintEq, bytesEq, offsetEq⟩ := bufferReadVarint_eq_some_iff.mp readLen
  obtain ⟨countEq, countBytes, countOffset⟩ := bufferReadU8_eq_some_iff.mp readCount
  rw [Buffer.remaining_create] at varintEq
  have afterBytes : afterLen.bytes = data := bytesEq
  have afterOffset : afterLen.offset = varintLen := by
    rw [offsetEq, bufferCreate, Nat.zero_add]
  have position : data[varintLen]? = some count := by
    have head := congrArg List.head? countEq
    rw [Buffer.remaining, afterBytes, afterOffset, List.head?_drop, List.head?_cons] at head
    exact head
  have inside : varintLen < data.length := by
    by_contra beyond
    rw [List.getElem?_eq_none (by omega)] at position
    cases position
  simp only [bufferCanRead, decide_eq_true_eq] at canRead
  rw [countBytes, afterBytes, countOffset, afterOffset] at canRead
  exact ⟨varintLen, varintEq, by rw [position, UInt8.ofNat_toNat], count.toNat_lt,
    countBytes.trans afterBytes, by rw [countOffset, afterOffset], by omega⟩

/-- The header of an answer that starts with a varint and the length of the part that
follows. -/
theorem readPreimageHeader_append {header part : Bytes} (trailing : Bytes) {declared : Nat}
    (read : varintRead header = some (declared, header.length)) (small : part.length < 256) :
    ∃ rest, readPreimageHeader
        (bufferCreate (header ++ UInt8.ofNat part.length :: (part ++ trailing))) =
          some (declared, part.length, rest) ∧ rest.offset = header.length + 1 := by
  let data := header ++ UInt8.ofNat part.length :: (part ++ trailing)
  have lengthEq : data.length = header.length + (1 + (part.length + trailing.length)) := by
    simp [data]
    omega
  let afterLen : Buffer := ⟨data, header.length, by omega⟩
  let rest : Buffer := ⟨data, header.length + 1, by omega⟩
  have readLen : bufferReadVarint (bufferCreate data) = some (declared, afterLen) := by
    rw [bufferReadVarint_eq_some_iff]
    exact ⟨header.length, by rw [Buffer.remaining_create]; exact varintRead_append read _, rfl,
      by simp [afterLen, bufferCreate]⟩
  have readCount : bufferReadU8 afterLen = some (UInt8.ofNat part.length, rest) := by
    rw [bufferReadU8_eq_some_iff]
    refine ⟨?_, rfl, rfl⟩
    simp only [Buffer.remaining, afterLen, rest, data, List.drop_left]
    rw [← List.drop_drop, List.drop_left]
    rfl
  have count : (UInt8.ofNat part.length).toNat = part.length := by
    rw [UInt8.toNat_ofNat']
    omega
  have canRead : bufferCanRead rest part.length = true := by
    simp only [bufferCanRead, rest, decide_eq_true_eq]
    omega
  refine ⟨rest, ?_, rfl⟩
  change readPreimageHeader (bufferCreate data) = _
  simp [readPreimageHeader, readLen, readCount, count, canRead]

theorem readElementsHeader_eq_some_iff {nElements elementsLen : Nat} :
    readElementsHeader (bufferCreate data) = some (nElements, elementsLen, rest) ↔
      ∃ count length tail, data = count :: length :: tail ∧
        nElements = count.toNat ∧ elementsLen = length.toNat ∧
        nElements * elementsLen ≤ tail.length ∧ rest.bytes = data ∧ rest.offset = 2 := by
  simp only [readElementsHeader, Option.bind_eq_bind, Option.bind_eq_some_iff, Prod.exists]
  constructor
  · rintro ⟨count, _, readCount, length, afterLength, readLength, rest_eq⟩
    split_ifs at rest_eq with canRead
    simp only [Option.some.injEq, Prod.mk.injEq] at rest_eq
    obtain ⟨rfl, rfl, rfl⟩ := rest_eq
    obtain ⟨countEq, countBytes, countOffset⟩ := bufferReadU8_eq_some_iff.mp readCount
    obtain ⟨lengthEq, lengthBytes, lengthOffset⟩ := bufferReadU8_eq_some_iff.mp readLength
    rw [Buffer.remaining_create] at countEq
    have dataEq : data = count :: length :: afterLength.remaining := by rw [countEq, lengthEq]
    have offsetEq : afterLength.offset = 2 := by
      rw [lengthOffset, countOffset, bufferCreate]
    have canRead' : count.toNat * length.toNat ≤ afterLength.remaining.length := by
      simpa [bufferCanRead] using canRead
    exact ⟨count, length, afterLength.remaining, dataEq, rfl, rfl, canRead',
      lengthBytes.trans countBytes, offsetEq⟩
  · rintro ⟨count, length, tail, rfl, rfl, rfl, _, bytesEq, offsetEq⟩
    have tailEq : rest.remaining = tail := by simp [Buffer.remaining, bytesEq, offsetEq]
    refine ⟨count, ⟨count :: length :: tail, 1, by simp⟩, ?_, length, rest, ?_, ?_⟩
    · rw [bufferReadU8_eq_some_iff]
      exact ⟨rfl, rfl, rfl⟩
    · rw [bufferReadU8_eq_some_iff]
      exact ⟨by simp [Buffer.remaining, bytesEq, offsetEq], bytesEq, offsetEq⟩
    · have canRead : bufferCanRead rest (count.toNat * length.toNat) = true := by
        have lengthEq := congrArg List.length tailEq
        rw [Buffer.length_remaining] at lengthEq
        simp only [bufferCanRead, decide_eq_true_eq]
        omega
      simp [canRead]

end LedgerSyscoin.Handler
