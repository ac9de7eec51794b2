import LedgerSyscoin.Common.Buffer
import LedgerSyscoin.Foundation.Consume
import LedgerSyscoin.Foundation.Resumable

/-!
# Parsing from two buffers

A parser reads from a pair of buffers: the bytes left over from earlier and the bytes
just received. Every read of the pair is the same read of the concatenation of its
unread bytes, over which the stages of a parser are written; consolidation keeps exactly
the unread bytes when they fit.
-/

namespace LedgerSyscoin.Common

open Foundation List

/-- Two buffers that are read one after the other. -/
structure DBuffer where
  first : Buffer
  second : Buffer

/-- The unread bytes of both buffers. -/
def DBuffer.remaining (buffers : DBuffer) : Bytes :=
  buffers.first.remaining ++ buffers.second.remaining

/-- Number of unread bytes of both buffers. -/
def dbufferGetLength (buffers : DBuffer) : Nat :=
  (buffers.first.bytes.length - buffers.first.offset) +
    (buffers.second.bytes.length - buffers.second.offset)

/-- Whether `count` more bytes can be read. -/
def dbufferCanRead (buffers : DBuffer) (count : Nat) : Bool := count ≤ dbufferGetLength buffers

/-- Number of bytes of a read that come from the first buffer. -/
def countFromFirst (buffers : DBuffer) (count : Nat) : Nat :=
  let length0 := buffers.first.bytes.length - buffers.first.offset
  if length0 ≥ count then count else length0

/-- Read from the first buffer as far as it goes and the rest from the second. Like all the readers
below it returns the buffers as it leaves them, also when it fails. -/
def dbufferReadBytes (buffers : DBuffer) (count : Nat) : Option Bytes × DBuffer :=
  if count > dbufferGetLength buffers then (none, buffers)
  else
    -- the results of the two reads are not checked
    let (bytes0, first) := (bufferReadBytes (countFromFirst buffers count) buffers.first).getD
      ([], buffers.first)
    let (bytes1, second) := (bufferReadBytes (count - countFromFirst buffers count)
      buffers.second).getD ([], buffers.second)
    (some (bytes0 ++ bytes1), ⟨first, second⟩)

/-- Read one byte. -/
def dbufferReadU8 (buffers : DBuffer) : Option UInt8 × DBuffer :=
  (dbufferReadBytes buffers 1).map (Option.map (·.headD 0)) id

/-- Read an integer of `width` bytes. -/
def dbufferReadUInt (width : Nat) (endianness : Endianness) (buffers : DBuffer) :
    Option Nat × DBuffer :=
  if ¬ dbufferCanRead buffers width then (none, buffers)
  else (dbufferReadBytes buffers width).map (Option.map (readUInt endianness)) id

/-- Read an integer of two bytes. -/
def dbufferReadU16 : Endianness → DBuffer → Option Nat × DBuffer := dbufferReadUInt 2

/-- Read an integer of four bytes. -/
def dbufferReadU32 : Endianness → DBuffer → Option Nat × DBuffer := dbufferReadUInt 4

/-- Read a varint. The bytes after the marker are read into eight bytes of zeros. -/
def dbufferReadVarint (buffers : DBuffer) : Option Nat × DBuffer :=
  if ¬ dbufferCanRead buffers 1 then (none, buffers)
  else
    let peeked := (if bufferCanRead buffers.first 1 then bufferPeek buffers.first
      else bufferPeek buffers.second).getD 0
    let len := varintTail peeked
    if ¬ dbufferCanRead buffers (1 + len) then (none, buffers)
    else
      let (read, buffers) := dbufferReadU8 buffers
      let firstByte := read.getD peeked
      if firstByte ≤ 0xFC then (some firstByte.toNat, buffers)
      else
        let (data, buffers) := dbufferReadBytes buffers len
        (some (leNat (data.getD [] ++ replicate (8 - len) 0)), buffers)

/-- Move all unread bytes to the front of the first buffer, if they fit. -/
def parserConsolidateBuffers (buffers : DBuffer) (maxSize : Nat) : Option Buffer :=
  if dbufferGetLength buffers > maxSize then none
  else some (bufferCreate (buffers.first.remaining ++ buffers.second.remaining))

/-- Copy `data` over the bytes of an array from `target` on, unless they pass its end. -/
def memmove (storage : Bytes) (target : Nat) (data : Bytes) : Option Bytes :=
  if target + data.length ≤ storage.length then
    some (storage.take target ++ data ++ storage.drop (target + data.length))
  else none

/-- The two moves of the consolidation inside of the array under the first buffer, which may be
longer than the buffer. -/
def consolidateStorage (storage : Bytes) (buffers : DBuffer) : Option Bytes := do
  let length0 := buffers.first.bytes.length - buffers.first.offset
  let moved ← memmove storage 0 ((storage.drop buffers.first.offset).take length0)
  memmove moved length0 buffers.second.remaining

/-! ## Reads of the pair are reads of the concatenation -/

theorem length_remaining_dbuffer (buffers : DBuffer) :
    buffers.remaining.length = dbufferGetLength buffers := by
  simp [DBuffer.remaining, dbufferGetLength]

/-- Consolidation only depends on the unread bytes. -/
theorem parserConsolidateBuffers_eq (buffers : DBuffer) (maxSize : Nat) :
    parserConsolidateBuffers buffers maxSize =
      if buffers.remaining.length > maxSize then none
      else some (bufferCreate buffers.remaining) := by
  rw [parserConsolidateBuffers, length_remaining_dbuffer]
  rfl

variable {buffers : DBuffer}

theorem countFromFirst_eq_min (buffers : DBuffer) (count : Nat) :
    countFromFirst buffers count = min count buffers.first.remaining.length := by
  rw [countFromFirst, Buffer.length_remaining]
  split_ifs with enough
  · exact (Nat.min_eq_left enough).symm
  · exact (Nat.min_eq_right (by omega)).symm

theorem dbufferReadBytes_of_lt {count : Nat} (short : buffers.remaining.length < count) :
    dbufferReadBytes buffers count = (none, buffers) := by
  rw [dbufferReadBytes, if_pos (by rwa [← length_remaining_dbuffer])]

theorem exists_dbufferReadBytes {count : Nat} (enough : count ≤ buffers.remaining.length) :
    ∃ rest, dbufferReadBytes buffers count = (some (buffers.remaining.take count), rest) ∧
      rest.remaining = buffers.remaining.drop count := by
  have counted := countFromFirst_eq_min buffers count
  have length0 := buffers.first.length_remaining
  have length1 := buffers.second.length_remaining
  rw [DBuffer.remaining, length_append] at enough
  have fits0 : countFromFirst buffers count ≤
      buffers.first.bytes.length - buffers.first.offset := by omega
  have fits1 : count - countFromFirst buffers count ≤
      buffers.second.bytes.length - buffers.second.offset := by omega
  have total : ¬ count > dbufferGetLength buffers := by
    rw [dbufferGetLength]
    omega
  have secondCount : count - countFromFirst buffers count =
      count - buffers.first.remaining.length := by omega
  simp only [dbufferReadBytes, if_neg total, bufferReadBytes, bufferReadWith, dif_pos fits0,
    dif_pos fits1, id_eq, Option.getD_some]
  refine ⟨_, Prod.ext (congrArg some ?_) rfl, ?_⟩
  · rw [DBuffer.remaining, take_append, secondCount, counted, ← take_eq_take_min]
  · simp only [DBuffer.remaining, Buffer.remaining_advance]
    rw [drop_append, secondCount, counted, ← drop_eq_drop_min]

/-- The peeked byte is the first unread one. -/
theorem peek_dbuffer (buffers : DBuffer) :
    (if bufferCanRead buffers.first 1 then bufferPeek buffers.first
      else bufferPeek buffers.second) = buffers.remaining[0]? := by
  have lengthEq := buffers.first.length_remaining
  unfold bufferCanRead bufferPeek bufferPeekN DBuffer.remaining
  by_cases nonempty : 1 ≤ buffers.first.bytes.length - buffers.first.offset
  · rw [if_pos (by simpa using nonempty), getElem?_append_left (by omega)]
  · have empty : buffers.first.remaining = [] := length_eq_zero_iff.mp (by omega)
    rw [if_neg (by simpa using nonempty), empty, nil_append]

/-- A varint read from the pair is the varint at the front of the concatenation. -/
theorem dbufferReadVarint_eq (buffers : DBuffer) :
    (dbufferReadVarint buffers).map id DBuffer.remaining =
      match varintRead buffers.remaining with
      | none => (none, buffers.remaining)
      | some (value, length) => (some value, buffers.remaining.drop length) := by
  rw [dbufferReadVarint, peek_dbuffer]
  unfold dbufferCanRead
  rw [← length_remaining_dbuffer]
  cases remaining : buffers.remaining with
  | nil => simp [varintRead, remaining]
  | cons marker tail =>
    obtain ⟨after, readMarker, tailEq⟩ :=
      exists_dbufferReadBytes (show 1 ≤ buffers.remaining.length by simp [remaining])
    rw [remaining, drop_one, tail_cons] at tailEq
    simp only [getElem?_cons_zero, Option.getD_some, length_cons, dbufferReadU8,
      readMarker, remaining, Option.map_some, take_succ_cons, headD_cons,
      varintRead_cons, Prod.map_apply, id_eq]
    rw [if_neg (by simp)]
    by_cases short : tail.length < varintTail marker
    · rw [if_pos (by simpa using by omega), if_pos short]
      simp [remaining]
    · rw [if_neg (by simpa using by omega), if_neg short]
      split_ifs with small
      · simp [tailEq]
      · obtain ⟨_, readTail, restEq⟩ :=
          exists_dbufferReadBytes (show varintTail marker ≤ after.remaining.length by
            rw [tailEq]; omega)
        simp [readTail, leNat_append_replicate_zero, restEq, tailEq, Nat.add_comm 1]

/-! ## Sequences of reads -/

/-- A call of one of the readers. -/
inductive ReadCall where
  | bytes (count : Nat)
  | u8
  | u16 (endianness : Endianness)
  | u32 (endianness : Endianness)
  | varint

/-- What a reader stores. -/
inductive ReadValue where
  | bytes (bytes : Bytes)
  | number (value : Nat)

/-- The result of a read of one buffer and the buffer it leaves. A read that fails returns before
it moves the position. -/
def Buffer.leave {α : Type} (buffer : Buffer) : Option (α × Buffer) → Option α × Buffer
  | none => (none, buffer)
  | some (value, rest) => (some value, rest)

namespace ReadCall

/-- The call on two buffers. -/
def onPair (buffers : DBuffer) : ReadCall → Option ReadValue × DBuffer
  | bytes count => (dbufferReadBytes buffers count).map (Option.map .bytes) id
  | u8 => (dbufferReadU8 buffers).map (Option.map (.number ·.toNat)) id
  | u16 endianness => (dbufferReadU16 endianness buffers).map (Option.map .number) id
  | u32 endianness => (dbufferReadU32 endianness buffers).map (Option.map .number) id
  | varint => (dbufferReadVarint buffers).map (Option.map .number) id

/-- The same call on one buffer. -/
def onSingle (buffer : Buffer) : ReadCall → Option ReadValue × Buffer
  | bytes count => (buffer.leave (bufferReadBytes count buffer)).map (Option.map .bytes) id
  | u8 => (buffer.leave (bufferReadU8 buffer)).map (Option.map (.number ·.toNat)) id
  | u16 endianness => (buffer.leave (bufferReadU16 endianness buffer)).map (Option.map .number) id
  | u32 endianness => (buffer.leave (bufferReadU32 endianness buffer)).map (Option.map .number) id
  | varint => (buffer.leave (bufferReadVarint buffer)).map (Option.map .number) id

end ReadCall

/-- The results of calls made one after the other, each with the state after it. -/
def readTrace {σ : Type} (read : σ → ReadCall → Option ReadValue × σ) :
    σ → List ReadCall → List (Option ReadValue × σ)
  | _, [] => []
  | state, call :: calls => read state call :: readTrace read (read state call).2 calls

variable {buffer : Buffer}

theorem dbufferReadUInt_eq (width : Nat) (endianness : Endianness) (buffers : DBuffer) :
    dbufferReadUInt width endianness buffers =
      (dbufferReadBytes buffers width).map (Option.map (readUInt endianness)) id := by
  rw [dbufferReadUInt, dbufferCanRead, ← length_remaining_dbuffer]
  by_cases enough : width ≤ buffers.remaining.length
  · rw [if_neg (by simpa using enough)]
  · rw [if_pos (by simpa using enough), dbufferReadBytes_of_lt (by omega)]
    rfl

/-- A read that fails leaves both buffers as they were. -/
theorem onPair_of_fails (call : ReadCall) (fails : (call.onPair buffers).1 = none) :
    (call.onPair buffers).2 = buffers := by
  have unread {count : Nat} (fails : (dbufferReadBytes buffers count).1 = none) :
      (dbufferReadBytes buffers count).2 = buffers := by
    unfold dbufferReadBytes at fails ⊢
    split_ifs at fails ⊢ with short
    rfl
  cases call <;> simp only [ReadCall.onPair, dbufferReadU8, dbufferReadU16, dbufferReadU32,
    dbufferReadUInt_eq, Prod.map_fst, Prod.map_snd, Option.map_eq_none_iff, id_eq] at fails ⊢
  case varint =>
    -- once all the bytes of the varint are known to be there, a value is returned
    rw [dbufferReadVarint, peek_dbuffer] at fails ⊢
    dsimp only at fails ⊢
    split_ifs at fails ⊢ <;> rfl
  all_goals exact unread fails

/-- Reading some bytes and decoding them, from the pair and from one buffer. -/
theorem dbufferReadBytes_eq_bufferReadWith {α : Type} (width : Nat) (decode : Bytes → α)
    (same : buffers.remaining = buffer.remaining) :
    (dbufferReadBytes buffers width).map (Option.map decode) DBuffer.remaining =
      (buffer.leave (bufferReadWith width decode buffer)).map id Buffer.remaining := by
  have lengthEq := buffer.length_remaining
  rw [← same] at lengthEq
  by_cases enough : width ≤ buffers.remaining.length
  · obtain ⟨_, read, restEq⟩ := exists_dbufferReadBytes enough
    simp [read, restEq, bufferReadWith, Buffer.leave, ← lengthEq, enough, ← same]
  · rw [dbufferReadBytes_of_lt (by omega), bufferReadWith, dif_neg (by omega)]
    simp [Buffer.leave, same]

theorem bufferReadVarint_eq (buffer : Buffer) :
    (buffer.leave (bufferReadVarint buffer)).map id Buffer.remaining =
      match varintRead buffer.remaining with
      | none => (none, buffer.remaining)
      | some (value, length) => (some value, buffer.remaining.drop length) := by
  rw [bufferReadVarint]
  cases read : varintRead buffer.remaining with
  | none => rfl
  | some result =>
    have bounds := varintRead_bounds read
    rw [Buffer.length_remaining] at bounds
    simp [bufferSeekCur, bounds.2.2.1, Buffer.leave]

/-- Every call has one result on the pair and on a buffer with the same unread bytes, and
leaves the same bytes. -/
theorem onPair_eq_onSingle (same : buffers.remaining = buffer.remaining) (call : ReadCall) :
    (call.onPair buffers).map id DBuffer.remaining =
      (call.onSingle buffer).map id Buffer.remaining := by
  -- the value is stored after the read, on both sides
  have stored {α : Type} (value : α → ReadValue) {pair : Option α × DBuffer}
      {single : Option α × Buffer}
      (equal : pair.map id DBuffer.remaining = single.map id Buffer.remaining) :
      (pair.map (Option.map value) id).map id DBuffer.remaining =
        (single.map (Option.map value) id).map id Buffer.remaining := by
    simpa [Prod.map_map] using congrArg (Prod.map (Option.map value) id) equal
  cases call <;> simp only [ReadCall.onPair, ReadCall.onSingle] <;> refine stored _ ?_
  case bytes count =>
    have read := dbufferReadBytes_eq_bufferReadWith count id same
    rwa [Option.map_id] at read
  case u8 => exact dbufferReadBytes_eq_bufferReadWith 1 (·.headD 0) same
  case u16 endianness =>
    rw [dbufferReadU16, dbufferReadUInt_eq]
    exact dbufferReadBytes_eq_bufferReadWith 2 (readUInt endianness) same
  case u32 endianness =>
    rw [dbufferReadU32, dbufferReadUInt_eq]
    exact dbufferReadBytes_eq_bufferReadWith 4 (readUInt endianness) same
  case varint => rw [dbufferReadVarint_eq, bufferReadVarint_eq, same]

/-- The results of a sequence of calls, and what they leave unread, are those on one buffer. -/
theorem readTrace_onPair (same : buffers.remaining = buffer.remaining) (calls : List ReadCall) :
    (readTrace ReadCall.onPair buffers calls).map (Prod.map id DBuffer.remaining) =
      (readTrace ReadCall.onSingle buffer calls).map (Prod.map id Buffer.remaining) := by
  induction calls generalizing buffers buffer with
  | nil => rfl
  | cons call calls ih =>
    have step := onPair_eq_onSingle same call
    have after : (call.onPair buffers).2.remaining = (call.onSingle buffer).2.remaining :=
      congrArg Prod.snd step
    rw [readTrace, readTrace, map_cons, map_cons, step, ih after]

/-- In an array with room for the unread bytes, the moves put them to its front. -/
theorem exists_consolidateStorage (slack : Bytes) (buffers : DBuffer)
    (enough : buffers.remaining.length ≤ (buffers.first.bytes ++ slack).length) :
    ∃ storage, consolidateStorage (buffers.first.bytes ++ slack) buffers = some storage ∧
      storage.take buffers.remaining.length = buffers.remaining := by
  have length0 := buffers.first.length_remaining
  have unread : ((buffers.first.bytes ++ slack).drop buffers.first.offset).take
      (buffers.first.bytes.length - buffers.first.offset) = buffers.first.remaining := by
    rw [drop_append_of_le_length buffers.first.offset_le, ← length0, ← Buffer.remaining, take_left]
  rw [DBuffer.remaining, length_append] at enough
  rw [consolidateStorage, unread, ← length0, memmove, if_pos (by omega), Option.bind_eq_bind,
    Option.bind_some, memmove, if_pos (by simp at enough ⊢; omega)]
  refine ⟨_, rfl, ?_⟩
  simp only [take_zero, nil_append, take_left]
  exact take_left

/-- Reads of two buffers are the reads of their concatenation. In every state on the way a read
that fails consumes nothing, and the consolidation moves exactly the unread bytes to the front of
the first buffer. -/
theorem dbuffer_reads_eq_concatenation (buffers : DBuffer) (calls : List ReadCall) :
    (readTrace ReadCall.onPair buffers calls).map (Prod.map id DBuffer.remaining) =
        (readTrace ReadCall.onSingle (bufferCreate buffers.remaining) calls).map
          (Prod.map id Buffer.remaining) ∧
      ∀ state ∈ buffers :: (readTrace ReadCall.onPair buffers calls).map Prod.snd,
        (∀ call : ReadCall, (call.onPair state).1 = none → (call.onPair state).2 = state) ∧
          ∀ (slack : Bytes) (maxSize : Nat) (consolidated : Buffer),
            maxSize ≤ (state.first.bytes ++ slack).length →
            parserConsolidateBuffers state maxSize = some consolidated →
            consolidated.remaining = state.remaining ∧
              ∃ storage, consolidateStorage (state.first.bytes ++ slack) state = some storage ∧
                storage.take consolidated.size = consolidated.bytes := by
  refine ⟨readTrace_onPair (by simp) calls, fun state _ => ⟨onPair_of_fails, ?_⟩⟩
  intro slack maxSize consolidated capacity success
  rw [parserConsolidateBuffers_eq] at success
  split_ifs at success with large
  obtain rfl := Option.some.inj success
  exact ⟨by simp, exists_consolidateStorage slack state (by omega)⟩

/-! ## The varint stage -/

section VarintStage

variable {σ : Type} {bound value : Nat}

/-- Read one varint and update the state by its value. -/
def varintStage (update : σ → Nat → σ) : Stage σ := fun state input =>
  match varintRead input with
  | none => .more state input
  | some (value, size) => .done (update state value) (input.drop size)

theorem consumes_varintStage (update : σ → Nat → σ) (state : σ) (fits : value < 2 ^ 64) :
    Consumes (varintStage update) state (varintWrite value) (update state value) := by
  intro rest
  rw [varintStage, varintRead_varintWrite_append value fits rest]
  simp only
  rw [← length_varintWrite, drop_left]

theorem resumable_varintStage {limit : Nat} (large : 9 ≤ bound) (update : σ → Nat → σ) :
    Resumable bound limit (varintStage update) := by
  intro state input
  rw [varintStage]
  cases complete : varintRead input with
  | none =>
    have short := length_lt_of_varintRead_eq_none complete
    exact ⟨le_rfl, fun _ => rfl, Or.inl (by omega)⟩
  | some read =>
    have inside := (varintRead_bounds complete).2.2.1
    refine ⟨by simp, fun more => ?_⟩
    simp only [varintStage, varintRead_append complete more, drop_append_of_le_length inside]

theorem keepsFlag_varintStage {flag : σ → Bool} (update : σ → Nat → σ) :
    KeepsFlag flag (varintStage update) := by
  intro state input next rest stopped
  unfold varintStage at stopped
  split at stopped
  · cases stopped
    rfl
  · cases stopped

/-- A varint read that sets its own flag has nothing left to do while a second stage, which
leaves the flag alone, goes on. -/
theorem skips_unlessStage_varintStage {flag : σ → Bool} {update : σ → Nat → σ} {second : Stage σ}
    (sets : ∀ state value, flag (update state value) = true) (kept : Preserves flag second) :
    Skips (unlessStage flag (varintStage update)) second := by
  intro state input middle unread next rest finished stopped following
  have middleSet : flag middle = true := by
    unfold unlessStage varintStage at finished
    split_ifs at finished with already
    · cases finished
      exact already
    · split at finished
      · cases finished
      · cases finished
        exact sets _ _
  exact unlessStage_of_flag (by rw [kept.more stopped, middleSet]) following

theorem preserves_varintStage {τ : Type*} {view : σ → τ} {update : σ → Nat → σ}
    (same : ∀ state value, view (update state value) = view state) :
    Preserves view (varintStage update) := by
  intro state input
  unfold varintStage
  split
  · rfl
  · exact same _ _

theorem neverFails_varintStage (update : σ → Nat → σ) : NeverFails (varintStage update) := by
  intro state input next rest failed
  unfold varintStage at failed
  split at failed <;> cases failed

end VarintStage

end LedgerSyscoin.Common
