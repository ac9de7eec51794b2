import LedgerSyscoin.Boilerplate.Flow
import LedgerSyscoin.Handler.Lib.Elements

/-!
# `call_get_preimage`

The device receives the preimage of a hash in chunks. Every chunk is hashed, and written
to the output if there is room for it. The flow does not check that it was: behind a
chunk that does not fit, a shorter one is written in its place, and the length that is
returned is that of the preimage.
-/

namespace LedgerSyscoin.Handler

open Foundation Common Boilerplate List

variable {buffer : Buffer} {count : Nat} {chunks : List Bytes} {out : Bytes} {incoming : List Apdu}
  {dc : DispatcherContext} {H : HashFunction} {hash : Digest}

/-- The bytes fed to the hash, the output buffer and the number of bytes still expected. -/
structure PreimageState where
  hashed : Bytes
  outBuffer : Buffer
  bytesRemaining : Nat

/-- Return code of the flow, final contents of the output and hashed bytes. -/
structure Preimage where
  ret : Int
  out : Bytes
  hashed : Bytes
  deriving DecidableEq

/-- Write bytes if there is room for them. -/
def writeIfFits (buffer : Buffer) (data : Bytes) : Buffer :=
  (bufferWriteBytes buffer data).getD buffer

/-- Hash a chunk, and write it if there is room for it. -/
def PreimageState.receive (state : PreimageState) (chunk : Bytes) : PreimageState where
  hashed := state.hashed ++ chunk
  outBuffer := writeIfFits state.outBuffer chunk
  bytesRemaining := state.bytesRemaining - chunk.length

/-- The loop over `GET_MORE_ELEMENTS` answers; code zero means that all bytes arrived. -/
def getPreimageLoop : List Apdu → DispatcherContext → PreimageState →
    Option (Outcome (Int × PreimageState))
  | [], dc, state => if state.bytesRemaining = 0 then some ⟨(0, state), dc, []⟩ else none
  | apdu :: pending, dc, state =>
    if state.bytesRemaining = 0 then some ⟨(0, state), dc, apdu :: pending⟩
    else
      match interrupt dc getMoreElementsRequest apdu with
      | (false, dc) => some ⟨(-5, state), dc, pending⟩
      | (true, dc) =>
        match readElementsHeader dc.readBuffer with
        | none => some ⟨(-6, state), dc, pending⟩
        | some (nBytes, elementsLen, readBuffer) =>
          let dc := { dc with readBuffer }
          if elementsLen ≠ 1 then some ⟨(-7, state), dc, pending⟩
          else if nBytes > state.bytesRemaining then some ⟨(-8, state), dc, pending⟩
          else
            getPreimageLoop pending dc
              (state.receive (dc.apduBuffer.read (readAddress dc) nBytes))

/-- Receive the preimage of `hash` into `out`. -/
def callGetPreimage (H : HashFunction) (hash : Digest) (out : Bytes) : Flow Preimage
  | _, [] => none
  | dc, apdu :: pending =>
    match interrupt dc (getPreimageRequest hash) apdu with
    | (false, dc) => some ⟨⟨-1, out, []⟩, dc, pending⟩
    | (true, dc) =>
      match readPreimageHeader dc.readBuffer with
      | none => some ⟨⟨-2, out, []⟩, dc, pending⟩
      | some (declared, partialDataLen, readBuffer) =>
        let dc := { dc with readBuffer }
        let preimageLen := declared % 2 ^ 32
        if preimageLen < 1 then some ⟨⟨-3, out, []⟩, dc, pending⟩
        else if partialDataLen > preimageLen then some ⟨⟨-4, out, []⟩, dc, pending⟩
        else
          let state : PreimageState := ⟨[], bufferCreate out, preimageLen⟩
          match getPreimageLoop pending dc
              (state.receive (dc.apduBuffer.read (readAddress dc) partialDataLen)) with
          | none => none
          | some ⟨(code, state), dc, pending⟩ =>
            let out := state.outBuffer.bytes
            if code < 0 then some ⟨⟨code, out, state.hashed⟩, dc, pending⟩
            else if H state.hashed ≠ hash then
              some ⟨⟨-9, out, state.hashed⟩, dc, pending⟩
            else some ⟨⟨toInt preimageLen, out, state.hashed⟩, dc, pending⟩

/-! ## Chunks in a buffer -/

/-- The buffer after the chunks, each written if there is room for it. -/
def fillBuffer (buffer : Buffer) (chunks : List Bytes) : Buffer :=
  chunks.foldl writeIfFits buffer

theorem writeIfFits_of_fits {data : Bytes}
    (fits : data.length ≤ buffer.bytes.length - buffer.offset) :
    bufferWriteBytes buffer data = some (writeIfFits buffer data) := by
  rw [writeIfFits, bufferWriteBytes, dif_pos fits, Option.getD_some]

theorem writeIfFits_of_not_fits {data : Bytes}
    (long : ¬data.length ≤ buffer.bytes.length - buffer.offset) :
    writeIfFits buffer data = buffer := by
  rw [writeIfFits, bufferWriteBytes, dif_neg long, Option.getD_none]

theorem length_writeIfFits (buffer : Buffer) (data : Bytes) :
    (writeIfFits buffer data).bytes.length = buffer.bytes.length := by
  by_cases fits : data.length ≤ buffer.bytes.length - buffer.offset
  · exact length_bufferWriteBytes (writeIfFits_of_fits fits)
  · rw [writeIfFits_of_not_fits fits]

/-- Nothing changes below the position. -/
theorem take_writeIfFits (data : Bytes) (below : count ≤ buffer.offset) :
    count ≤ (writeIfFits buffer data).offset ∧
      (writeIfFits buffer data).bytes.take count = buffer.bytes.take count := by
  by_cases fits : data.length ≤ buffer.bytes.length - buffer.offset
  · obtain ⟨-, bytesEq, _⟩ := bufferWriteBytes_eq_some (writeIfFits_of_fits fits)
    have bound := buffer.offset_le
    refine ⟨by omega, ?_⟩
    rw [bytesEq, append_assoc, take_append_of_le_length (by simp; omega),
      take_take, Nat.min_eq_left below]
  · rw [writeIfFits_of_not_fits fits]
    exact ⟨below, rfl⟩

theorem take_fillBuffer (chunks : List Bytes) (below : count ≤ buffer.offset) :
    (fillBuffer buffer chunks).bytes.take count = buffer.bytes.take count := by
  induction chunks generalizing buffer with
  | nil => rfl
  | cons chunk chunks ih =>
    obtain ⟨stillBelow, same⟩ := take_writeIfFits chunk below
    exact (ih stillBelow).trans same

theorem length_fillBuffer (buffer : Buffer) (chunks : List Bytes) :
    (fillBuffer buffer chunks).bytes.length = buffer.bytes.length := by
  induction chunks generalizing buffer with
  | nil => rfl
  | cons chunk chunks ih => exact (ih _).trans (length_writeIfFits buffer chunk)

/-- The largest chunk that an answer can carry. -/
def maxChunkLength : Nat := 253

/-- What is known about the start of a buffer that was filled with chunks: all of them, if there
is room for all, and otherwise as much as is written before a chunk can fail to fit. -/
theorem take_fillBuffer_eq (small : ∀ chunk ∈ chunks, chunk.length ≤ maxChunkLength)
    (inside : count ≤ buffer.offset + chunks.flatten.length)
    (room : buffer.offset + chunks.flatten.length ≤ buffer.bytes.length ∨
      count + maxChunkLength ≤ buffer.bytes.length + 1) :
    (fillBuffer buffer chunks).bytes.take count =
      (buffer.bytes.take buffer.offset ++ chunks.flatten).take count := by
  induction chunks generalizing buffer with
  | nil =>
    rw [flatten_nil, length_nil, Nat.add_zero] at inside
    rw [flatten_nil, append_nil, take_take, Nat.min_eq_left inside]
    rfl
  | cons chunk chunks ih =>
    rw [forall_mem_cons] at small
    rw [flatten_cons, length_append] at inside room
    by_cases fits : chunk.length ≤ buffer.bytes.length - buffer.offset
    · have write := writeIfFits_of_fits fits
      have offsetEq := (bufferWriteBytes_eq_some write).2.2
      have sizeEq := length_writeIfFits buffer chunk
      have later := @ih (writeIfFits buffer chunk) small.2 (by omega) (by omega)
      rw [take_offset_bufferWriteBytes write, append_assoc] at later
      exact later
    · -- the chunk is skipped, which is possible only behind the part that is asked for
      have bound := buffer.offset_le
      have below : count ≤ buffer.offset := by omega
      rw [take_append_of_le_length (by simp; omega), take_take, Nat.min_eq_left below]
      exact take_fillBuffer (chunk :: chunks) below

/-- A buffer with room for all the chunks holds them one after the other. -/
theorem bytes_fillBuffer_of_fits
    (fits : buffer.offset + chunks.flatten.length ≤ buffer.bytes.length) :
    (fillBuffer buffer chunks).bytes = buffer.bytes.take buffer.offset ++ chunks.flatten ++
      buffer.bytes.drop (buffer.offset + chunks.flatten.length) := by
  induction chunks generalizing buffer with
  | nil => simp [fillBuffer]
  | cons chunk chunks ih =>
    rw [flatten_cons, length_append] at fits
    have write := @writeIfFits_of_fits buffer chunk (by omega)
    obtain ⟨-, bytesEq, offsetEq⟩ := bufferWriteBytes_eq_some write
    have later := @ih (writeIfFits buffer chunk)
      (by rw [length_writeIfFits, offsetEq]; omega)
    rw [take_offset_bufferWriteBytes write, bytesEq, offsetEq] at later
    have written : (buffer.bytes.take buffer.offset ++ chunk).length =
        buffer.offset + chunk.length := by
      rw [length_append, length_take]
      omega
    have behind : (buffer.bytes.take buffer.offset ++ chunk ++
        buffer.bytes.drop (buffer.offset + chunk.length)).drop
          (buffer.offset + chunk.length + chunks.flatten.length) =
        buffer.bytes.drop (buffer.offset + (chunk ++ chunks.flatten).length) := by
      rw [← drop_drop, ← written, drop_left, drop_drop, written, length_append, Nat.add_assoc]
    rw [behind] at later
    rw [flatten_cons, ← append_assoc]
    exact later

theorem bytes_fillBuffer_create (fits : chunks.flatten.length ≤ out.length) :
    (fillBuffer (bufferCreate out) chunks).bytes =
      chunks.flatten ++ out.drop chunks.flatten.length := by
  have contents := @bytes_fillBuffer_of_fits (bufferCreate out) chunks
    (by rw [bufferCreate, Nat.zero_add]; exact fits)
  rwa [show (bufferCreate out).offset = 0 from rfl, take_zero, nil_append, Nat.zero_add] at contents

/-! ## Successful runs -/

/-- A loop that completes has received chunks of the expected total length. -/
theorem getPreimageLoop_spec {state : PreimageState} {outcome : Outcome (Int × PreimageState)}
    (run : getPreimageLoop incoming dc state = some outcome) (done : 0 ≤ outcome.result.1) :
    ∃ chunks : List Bytes, (∀ chunk ∈ chunks, chunk.length ≤ maxChunkLength) ∧
      chunks.flatten.length = state.bytesRemaining ∧
      outcome.result.2.hashed = state.hashed ++ chunks.flatten ∧
      outcome.result.2.outBuffer = fillBuffer state.outBuffer chunks := by
  induction incoming generalizing dc state with
  | nil =>
    rw [getPreimageLoop] at run
    split_ifs at run with finished
    cases run
    exact ⟨[], by simp, by simp [finished], by simp, rfl⟩
  | cons apdu incoming ih =>
    rw [getPreimageLoop] at run
    split_ifs at run with finished
    · cases run
      exact ⟨[], by simp, by simp [finished], by simp, rfl⟩
    · split at run
      · cases run
        simp at done
      · rename_i resumed resumption
        obtain ⟨_, _, _, _, _, rfl⟩ := interrupt_eq_true_iff.mp resumption
        split at run
        · cases run
          simp at done
        · rename_i nBytes elementsLen readBuffer header
          obtain ⟨_, _, _, dataEq, _, _, fits, -⟩ :=
            readElementsHeader_eq_some_iff.mp header
          simp only at run
          split_ifs at run with wrongLength tooMany
          · cases run
            simp at done
          · cases run
            simp at done
          · obtain ⟨chunks, small, total, hashed, filled⟩ := ih run
            have chunkLe : nBytes ≤ maxChunkLength := by
              have lengths := congrArg List.length dataEq
              simp only [length_cons] at lengths
              rw [not_not.mp wrongLength, Nat.mul_one] at fits
              rw [maxChunkLength]
              omega
            simp only [PreimageState.receive, Memory.length_read] at total hashed filled
            refine ⟨_ :: chunks, forall_mem_cons.mpr
              ⟨(Memory.length_read _ _ _).trans_le chunkLe, small⟩, ?_, ?_, filled⟩
            · rw [flatten_cons, length_append, Memory.length_read, total]
              omega
            · rw [hashed, flatten_cons, append_assoc]

variable {outcome : Outcome Preimage}

/-- Inversion of a successful run: the first answer announces a length, the loop behind it
completes, and the hash is right. -/
theorem callGetPreimage_inversion (run : callGetPreimage H hash out dc incoming = some outcome)
    (success : 0 ≤ outcome.result.ret) :
    ∃ p1 p2 data later declared partialDataLen readBuffer resumed code state final pending,
      incoming = continueApdu p1 p2 data :: later ∧ data.length < 256 ∧
      readPreimageHeader (bufferCreate data) = some (declared, partialDataLen, readBuffer) ∧
      1 ≤ declared % 2 ^ 32 ∧ partialDataLen ≤ declared % 2 ^ 32 ∧
      getPreimageLoop later resumed
          ((⟨[], bufferCreate out, declared % 2 ^ 32⟩ : PreimageState).receive
            (resumed.apduBuffer.read (readAddress resumed) partialDataLen)) =
        some ⟨(code, state), final, pending⟩ ∧
      0 ≤ code ∧ H state.hashed = hash ∧
      outcome = ⟨⟨toInt (declared % 2 ^ 32), state.outBuffer.bytes, state.hashed⟩, final,
        pending⟩ := by
  cases incoming with
  | nil => simp [callGetPreimage] at run
  | cons first later =>
  rw [callGetPreimage] at run
  split at run
  · cases run
    simp at success
  · rename_i resumed resumption
    obtain ⟨p1, p2, data, dataLt, firstEq, rfl⟩ := interrupt_eq_true_iff.mp resumption
    split at run
    · cases run
      simp at success
    · rename_i declared partialDataLen readBuffer header
      simp only at run
      split_ifs at run with empty tooMany
      · cases run
        simp at success
      · cases run
        simp at success
      split at run
      · cases run
      · rename_i code state final pending loopRun
        split_ifs at run with failed mismatch
        · cases run
          simp only at success
          omega
        · cases run
          simp at success
        · exact ⟨p1, p2, data, later, declared, partialDataLen, readBuffer, _, code, state, final,
            pending, by rw [firstEq], dataLt, header, not_lt.mp empty, not_lt.mp tooMany, loopRun,
            not_lt.mp failed, not_not.mp mismatch, (Option.some.inj run).symm⟩

/-- In a successful run the chunks are a preimage of the hash, and the output is filled with
them. -/
theorem callGetPreimage_success (run : callGetPreimage H hash out dc incoming = some outcome)
    (success : 0 ≤ outcome.result.ret) :
    ∃ chunks : List Bytes, (∀ chunk ∈ chunks, chunk.length ≤ maxChunkLength) ∧
      outcome.result.hashed = chunks.flatten ∧ outcome.result.hashed ≠ [] ∧
      H outcome.result.hashed = hash ∧ outcome.result.ret = outcome.result.hashed.length ∧
      outcome.result.out = (fillBuffer (bufferCreate out) chunks).bytes := by
  obtain ⟨_, _, _, _, declared, _, _, _, _, state, _,
    _, -, _, header, _, fitting, loopRun, done, isHash, rfl⟩ :=
    callGetPreimage_inversion run success
  obtain ⟨_, varintEq, -, -, -, -, _⟩ := readPreimageHeader_eq_some header
  have varintPos := (varintRead_bounds varintEq).1
  obtain ⟨chunks, small, total, hashed, filled⟩ := getPreimageLoop_spec loopRun done
  simp only [PreimageState.receive, Memory.length_read, nil_append] at total hashed
  have length : state.hashed.length = declared % 2 ^ 32 := by
    rw [hashed, length_append, Memory.length_read, total, Nat.add_sub_cancel' fitting]
  refine ⟨_ :: chunks, forall_mem_cons.mpr ⟨?_, small⟩, hashed, ?_, isHash, ?_,
    congrArg Buffer.bytes filled⟩
  · rw [Memory.length_read, maxChunkLength]
    omega
  · rw [← length_pos_iff, length]
    omega
  · simp only at success ⊢
    rw [length]
    exact (toInt_eq_of_nonneg (Nat.mod_lt _ (by decide)) success).1

/-! ## Integrity -/

/-- The length of the preimage that the first answer announces; the device keeps its lower 32
bits. -/
def announcedLength (incoming : List Apdu) : Option Nat := do
  let cmd ← apduParser (← incoming.head?)
  let (preimageLen, _, _) ← readPreimageHeader (bufferCreate cmd.data)
  return preimageLen % 2 ^ 32

/-- A successful run returns the length that was announced. -/
theorem announcedLength_of_success (run : callGetPreimage H hash out dc incoming = some outcome)
    (success : 0 ≤ outcome.result.ret) :
    announcedLength incoming = some outcome.result.ret.toNat := by
  obtain ⟨p1, p2, data, _, _, _, _, _, _, _, _,
    _, rfl, dataLt, header, -, -, -, -, -, rfl⟩ := callGetPreimage_inversion run success
  have parsed : apduParser (continueApdu p1 p2 data) =
      some ⟨claFramework, insContinue, p1, p2, UInt8.ofNat data.length, data⟩ := by
    rw [apduParser_eq_some_iff]
    exact ⟨rfl, by rw [UInt8.toNat_ofNat', Nat.mod_eq_of_lt dataLt]⟩
  simp only [announcedLength, head?_cons, parsed, header, bind, Option.bind, pure]
  simp only at success
  rw [toNat_toInt success, Nat.mod_mod]

/-- The buffer of a successful run starts with a preimage of the hash exactly if the length that
the client announced is not larger than the buffer: that a chunk does not fit goes unnoticed. -/
theorem callGetPreimage_integrity {H : HashFunction} {hash : Digest} {out : Bytes}
    {dc : DispatcherContext} {incoming : List Apdu} {outcome : Outcome Preimage}
    (run : callGetPreimage H hash out dc incoming = some outcome)
    (success : 0 ≤ outcome.result.ret) :
    (outcome.result.ret ≤ out.length ∧
        H (outcome.result.out.take outcome.result.ret.toNat) = hash) ↔
      ∀ announced ∈ announcedLength incoming, announced ≤ out.length := by
  rw [announcedLength_of_success run success]
  constructor
  · rintro ⟨fits, -⟩ announced isAnnounced
    cases isAnnounced
    exact Int.toNat_le.mpr fits
  · intro bounded
    have fits := Int.toNat_le.mp (bounded _ rfl)
    obtain ⟨chunks, -, hashed, -, isHash, length, filled⟩ := callGetPreimage_success run success
    rw [hashed] at length isHash
    have contents := @bytes_fillBuffer_create chunks out (by omega)
    refine ⟨fits, ?_⟩
    rw [filled, contents, length, Int.toNat_natCast, take_left]
    exact isHash

/-- An answer with a preimage of two bytes. -/
def twoByteAnswer : Apdu := continueApdu 0 0 [2, 2, 0, 7]

/-- A hash function with a preimage of two bytes for the digest 1. -/
def twoByteHash : HashFunction := tableHash [([0, 7], 1)]

/-- What the device makes of the answer when it receives the preimage into `out`. -/
def twoByteRun (out : Bytes) : Option (Outcome Preimage) :=
  callGetPreimage twoByteHash (Digest.ofNat 1) out .initial [twoByteAnswer]

theorem callGetPreimage_integrity_twoBytes :
    ∃ outcome, twoByteRun [9, 9] = some outcome ∧ outcome.result.ret ≤ 2 ∧
      twoByteHash (outcome.result.out.take 2) = Digest.ofNat 1 := by
  have result : (twoByteRun [9, 9]).map (·.result) = some ⟨2, [0, 7], [0, 7]⟩ := by decide
  obtain ⟨outcome, run, result⟩ := Option.map_eq_some_iff.mp result
  have integrity := (callGetPreimage_integrity run (by rw [result]; decide)).mpr (by decide)
  rw [result] at integrity
  refine ⟨outcome, run, ?_⟩
  rw [result]
  exact integrity

/-- A preimage of two bytes is accepted into a buffer of one byte. -/
theorem callGetPreimage_exceeds_buffer : (twoByteRun [9]).map (·.result) = some ⟨2, [9], [0, 7]⟩ ∧
      ¬((2 : Int) ≤ ([9] : Bytes).length) ∧
      twoByteHash ([9] : Bytes) ≠ Digest.ofNat 1 := by
  decide

/-! ## Delivery -/

/-- Answers that carry the bytes one by one. -/
def singleByteAnswers (data : Bytes) : List Apdu :=
  data.map fun byte => continueApdu 0 0 [1, 1, byte]

theorem getPreimageLoop_singleByteAnswers (data : Bytes) (dc : DispatcherContext)
    {state : PreimageState} (expected : state.bytesRemaining = data.length) :
    ∃ outcome, getPreimageLoop (singleByteAnswers data) dc state = some outcome ∧
      outcome.result.1 = 0 ∧ outcome.result.2.hashed = state.hashed ++ data := by
  induction data generalizing dc state with
  | nil => exact ⟨⟨(0, state), dc, []⟩, if_pos expected, rfl, (append_nil _).symm⟩
  | cons byte data ih =>
    have expecting : state.bytesRemaining ≠ 0 := by simp [expected]
    have resumption := (@interrupt_eq_true_iff dc _ getMoreElementsRequest _).mpr
      ⟨0, 0, [1, 1, byte], by simp, rfl, rfl⟩
    obtain ⟨readBuffer, header, offset⟩ : ∃ readBuffer,
        readElementsHeader (bufferCreate [1, 1, byte]) = some (1, 1, readBuffer) ∧
          readBuffer.offset = 2 :=
      ⟨⟨[1, 1, byte], 2, by simp⟩, readElementsHeader_eq_some_iff.mpr
        ⟨1, 1, [byte], rfl, rfl, rfl, by simp, rfl, rfl⟩, rfl⟩
    have chunk : (memoryAfter dc.apduBuffer getMoreElementsRequest
        (continueApdu 0 0 [1, 1, byte])).read (offsetCdata + 2) 1 = [byte] :=
      read_cdata_continueApdu _ 0 0 [1, 1, byte] 2 1 (by simp)
    have few : ¬1 > state.bytesRemaining := by omega
    rw [singleByteAnswers, map_cons, getPreimageLoop, if_neg expecting, resumption]
    simp only [header, ne_eq, not_true_eq_false, if_false, few, readAddress, offset, chunk]
    obtain ⟨outcome, run, done, hashed⟩ := @ih _ (state.receive [byte])
      (by rw [PreimageState.receive, expected]; rfl)
    refine ⟨outcome, run, done, ?_⟩
    rw [hashed, PreimageState.receive, append_assoc, singleton_append]

/-- Every byte string of a length that an `int` can express can be delivered. -/
theorem exists_callGetPreimage (H : HashFunction) {preimage : Bytes} (nonempty : preimage ≠ [])
    (small : preimage.length < 2 ^ 31) (out : Bytes) (dc : DispatcherContext) :
    ∃ incoming outcome, callGetPreimage H (H preimage) out dc incoming = some outcome ∧
      outcome.result.ret = preimage.length ∧ outcome.result.hashed = preimage := by
  -- the first answer has the length and no data
  let data := varintWrite preimage.length ++ UInt8.ofNat ([] : Bytes).length :: ([] ++ [])
  have dataLt : data.length < 256 := by
    have size := varintSize_le preimage.length
    simp only [data, length_append, length_varintWrite, length_cons, length_nil]
    omega
  have read : varintRead (varintWrite preimage.length) =
      some (preimage.length, (varintWrite preimage.length).length) := by
    have written := varintRead_varintWrite_append preimage.length (small.trans (by decide)) []
    rwa [append_nil, ← length_varintWrite] at written
  obtain ⟨readBuffer, header, -⟩ := @readPreimageHeader_append _ [] [] _ read (by decide)
  have resumption := (@interrupt_eq_true_iff dc _ (getPreimageRequest (H preimage)) _).mpr
    ⟨0, 0, data, dataLt, rfl, rfl⟩
  have declared : preimage.length % 2 ^ 32 = preimage.length :=
    Nat.mod_eq_of_lt (small.trans (by decide))
  have positive : ¬preimage.length < 1 := by
    have := length_pos_iff.mpr nonempty
    omega
  let resumed : DispatcherContext :=
    ⟨memoryAfter dc.apduBuffer (getPreimageRequest (H preimage)) (continueApdu 0 0 data),
      readBuffer, dc.sent ++ [(getPreimageRequest (H preimage), swInterruptedExecution)]⟩
  let state : PreimageState := ⟨[], bufferCreate out, preimage.length⟩
  obtain ⟨⟨⟨_, reached⟩, final, pending⟩, run, done, hashed⟩ :=
    @getPreimageLoop_singleByteAnswers preimage resumed (state.receive []) rfl
  have hashed' : reached.hashed = preimage := hashed
  have loop : getPreimageLoop (singleByteAnswers preimage) resumed (state.receive
      (resumed.apduBuffer.read (readAddress resumed) 0)) = some ⟨(0, reached), final, pending⟩ := by
    rw [← done]
    exact run
  have completes : callGetPreimage H (H preimage) out dc
      (continueApdu 0 0 data :: singleByteAnswers preimage) =
        some ⟨⟨preimage.length, reached.outBuffer.bytes, reached.hashed⟩, final, pending⟩ := by
    have header' : readPreimageHeader (bufferCreate data) =
        some (preimage.length, 0, readBuffer) := header
    rw [callGetPreimage, resumption]
    simp only [header', declared, positive, if_false, Nat.not_lt_zero, gt_iff_lt]
    rw [loop]
    simp [hashed', toInt_of_lt small]
  exact ⟨_, _, completes, rfl, hashed'⟩

end LedgerSyscoin.Handler
