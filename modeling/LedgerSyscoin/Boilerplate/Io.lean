import LedgerSyscoin.Foundation.Attempt
import LedgerSyscoin.Foundation.Bytes
import LedgerSyscoin.Foundation.Memory

/-!
# The response buffer

A response is put together in the APDU buffer: data is appended piece by piece, and a
status word ends it. Data for which there is no room is to be cut off. But the call that
does so passes a wrong length on to itself and need not return; and if it does, another
status word may follow.
-/

namespace LedgerSyscoin.Boilerplate

open Foundation List

def ioApduBufferSize : Nat := 260
def swWrongResponseLength : UInt16 := 0xB000

/-- The response so far: the APDU buffer and the number of its bytes that are to be sent. -/
structure Response where
  buffer : Memory
  outputLen : Nat

/-- Why a call does not return: it goes on calling itself, or it leaves an array. -/
inductive Fault where
  | outOfFuel
  | outside

/-- Write into the APDU buffer, and set the number of bytes to be sent, which has 16 bits. -/
def Response.write (response : Response) (start : Nat) (bytes : Bytes) (outputLen : Nat) :
    Except Fault Response :=
  if start + bytes.length ≤ ioApduBufferSize then
    .ok ⟨response.buffer.write start bytes, outputLen % 2 ^ 16⟩
  else .error .outside

/-- Write a status word. -/
def Response.writeSw (response : Response) (start : Nat) (sw : UInt16) : Except Fault Response :=
  response.write start (beBytes 2 sw.toNat) (start + 2)

def ioFinalizeResponse (response : Response) (sw : UInt16) : Except Fault Response :=
  if response.outputLen ≥ ioApduBufferSize - 2 then
    response.writeSw (ioApduBufferSize - 2) swWrongResponseLength
  else response.writeSw response.outputLen sw

/-- Lengths have 32 bits. -/
def ioAddToResponse : (fuel : Nat) → Response → (rdata : Bytes) → (rdataLen : Nat) →
    Except Fault Response
  | 0, _, _, _ => .error .outOfFuel
  | fuel + 1, response, rdata, rdataLen =>
    if response.outputLen ≥ ioApduBufferSize - 2 then
      response.writeSw (ioApduBufferSize - 2) swWrongResponseLength
    else if (response.outputLen + rdataLen) % 2 ^ 32 > ioApduBufferSize - 2 then do
      let response ← ioAddToResponse fuel response rdata
        ((ioApduBufferSize - 2 + 2 ^ 32 - rdataLen) % 2 ^ 32)
      ioFinalizeResponse response swWrongResponseLength
    else if rdata.length < rdataLen then .error .outside
    else response.write response.outputLen (rdata.take rdataLen) (response.outputLen + rdataLen)

def ioResetResponse (response : Response) : Response := { response with outputLen := 0 }

/-- The calls by which a response is put together. A length has 32 bits. -/
inductive Call where
  | reset
  | add (rdata : { rdata : Bytes // rdata.length < 2 ^ 32 })
  | finalize (sw : UInt16)

def Call.run (fuel : Nat) (response : Response) : Call → Except Fault Response
  | .reset => .ok (ioResetResponse response)
  | .add rdata => ioAddToResponse fuel response rdata.val rdata.val.length
  | .finalize sw => ioFinalizeResponse response sw

/-! ## Safety -/

/-- The call adds more data than there is room for before the status word. -/
def Call.TooLong (response : Response) : Call → Prop
  | .add rdata => ioApduBufferSize - 2 < response.outputLen + rdata.val.length
  | _ => False

/-- The status word of a response is its end. -/
def Response.statusWord (response : Response) : Nat :=
  beNat (response.buffer.read (response.outputLen - 2) 2)

/-- The call returns, without leaving the data or the buffer. The response fits the buffer, and
if there was too much data, it gets the status word for that. -/
structure Call.Safe (response : Response) (call : Call) (next : Response) : Prop where
  returns : ∃ fuel, call.run fuel response = .ok next
  fits : next.outputLen ≤ ioApduBufferSize
  reported : call.TooLong response → ∀ sw final, ioFinalizeResponse next sw = .ok final →
    final.statusWord = swWrongResponseLength.toNat

/-- Every call of a sequence is safe. -/
def SafeRun : Response → List Call → Prop
  | _, [] => True
  | response, call :: calls => ∃ next, call.Safe response next ∧ SafeRun next calls

/-- All data has room, where `outputLen` bytes are in the response already. Nothing is added to a
full response. There is one exception: data that is as long as the response or up to two bytes
longer fills it up. -/
def RoomFor : (outputLen : Nat) → List Call → Prop
  | _, [] => True
  | _, .reset :: calls => RoomFor 0 calls
  | outputLen, .finalize _ :: calls => RoomFor (min (outputLen + 2) 260) calls
  | outputLen, .add rdata :: calls =>
    if 258 ≤ outputLen then RoomFor 260 calls
    else if outputLen + rdata.val.length ≤ 258 then RoomFor (outputLen + rdata.val.length) calls
    else outputLen ≤ rdata.val.length ∧ rdata.val.length ≤ min 258 (outputLen + 2) ∧
      RoomFor (outputLen + 260 - rdata.val.length) calls

/-! ## Calls that return -/

variable {response next : Response} {rdata : Bytes} {rdataLen : Nat}

theorem write_eq_ok_iff {start outputLen : Nat} {bytes : Bytes} :
    response.write start bytes outputLen = .ok next ↔ start + bytes.length ≤ 260 ∧
      next = ⟨response.buffer.write start bytes, outputLen % 2 ^ 16⟩ := by
  unfold Response.write ioApduBufferSize
  split_ifs with inside
  · simp [inside, eq_comm]
  · simp [inside]

theorem exists_ioFinalizeResponse (response : Response) (sw : UInt16) :
    ∃ next, ioFinalizeResponse response sw = .ok next ∧
      next.outputLen = min (response.outputLen + 2) 260 ∧
        next.statusWord =
          if 258 ≤ response.outputLen then swWrongResponseLength.toNat else sw.toNat := by
  have status (buffer : Memory) (start : Nat) (word : UInt16) :
      Response.statusWord ⟨buffer.write start (beBytes 2 word.toNat), start + 2⟩ = word.toNat := by
    have inside := buffer.read_write_inside start 0 2 (beBytes 2 word.toNat) (by simp)
    rw [Nat.add_zero, drop_zero, take_of_length_le (by simp)] at inside
    rw [Response.statusWord, Nat.add_sub_cancel, inside, beNat_beBytes_of_lt word.toNat_lt]
  unfold ioFinalizeResponse Response.writeSw
  by_cases full : 258 ≤ response.outputLen
  · refine ⟨_, (if_pos full).trans (write_eq_ok_iff.mpr ⟨by simp [ioApduBufferSize], rfl⟩), ?_, ?_⟩
    · simp [ioApduBufferSize]
      omega
    · rw [if_pos full]
      exact status _ _ _
  · refine ⟨_, (if_neg full).trans (write_eq_ok_iff.mpr ⟨by simp; omega, rfl⟩), ?_, ?_⟩
    · simp only
      omega
    · rw [if_neg full, Nat.mod_eq_of_lt (by omega)]
      exact status _ _ _

/-- The error is reported exactly if the response is full. -/
theorem reported_iff : (∀ sw final, ioFinalizeResponse next sw = .ok final →
      final.statusWord = swWrongResponseLength.toNat) ↔ 258 ≤ next.outputLen := by
  constructor
  · intro reported
    obtain ⟨final, returned, -, status⟩ := exists_ioFinalizeResponse next 0x9000
    rw [reported _ _ returned] at status
    by_contra free
    rw [if_neg free] at status
    exact absurd status (by decide)
  · intro full sw final returned
    obtain ⟨_, returned', -, status⟩ := exists_ioFinalizeResponse next sw
    cases returned.symm.trans returned'
    rw [status, if_pos full]

theorem ioAddToResponse_of_free (fuel : Nat) (rdata : Bytes) (rdataLen : Nat)
    (free : response.outputLen < 258) :
    ioAddToResponse (fuel + 1) response rdata rdataLen =
      if 258 < (response.outputLen + rdataLen) % 2 ^ 32 then
        ioAddToResponse fuel response rdata ((258 + 2 ^ 32 - rdataLen) % 2 ^ 32) >>=
          (ioFinalizeResponse · swWrongResponseLength)
      else if rdata.length < rdataLen then .error .outside
      else response.write response.outputLen (rdata.take rdataLen)
        (response.outputLen + rdataLen) :=
  if_neg (Nat.not_le.mpr free)

/-- What is too long is cut off to a length that is too long again, and that to the first one. -/
theorem ioAddToResponse_ne_ok (fuel : Nat) (fits : rdataLen < 2 ^ 32)
    (free : response.outputLen < 258) (long : 258 < (response.outputLen + rdataLen) % 2 ^ 32)
    (again : 258 < (response.outputLen + (258 + 2 ^ 32 - rdataLen) % 2 ^ 32) % 2 ^ 32) :
    ioAddToResponse fuel response rdata rdataLen ≠ .ok next := by
  induction fuel generalizing rdataLen next with
  | zero => simp [ioAddToResponse]
  | succ fuel ih =>
    have back : (258 + 2 ^ 32 - (258 + 2 ^ 32 - rdataLen) % 2 ^ 32) % 2 ^ 32 = rdataLen := by omega
    rw [ioAddToResponse_of_free fuel rdata rdataLen free, if_pos long]
    intro returned
    obtain ⟨_, inner, -⟩ := bind_eq_ok_iff.mp returned
    exact ih (Nat.mod_lt _ (by decide)) again (by rwa [back]) inner

/-- The number of bytes in the response after a call that returns. -/
def Call.Leaves (response : Response) (call : Call) (outputLen : Nat) : Prop :=
  ∃ fuel next, call.run fuel response = .ok next ∧ next.outputLen = outputLen

variable {outputLen : Nat}

/-- A call that has a result from some fuel on, and none with less. -/
theorem leaves_iff_of_run (least : Nat) {call : Call} {result : Except Fault Response}
    (early : ∀ fuel < least, ∀ next, call.run fuel response ≠ .ok next)
    (late : ∀ fuel, call.run (fuel + least) response = result) :
    call.Leaves response outputLen ↔ ∃ next, result = .ok next ∧ next.outputLen = outputLen := by
  constructor
  · rintro ⟨fuel, next, returned, isLen⟩
    obtain ⟨more, rfl⟩ := Nat.exists_eq_add_of_le'
      (not_lt.mp fun less => early fuel less next returned)
    exact ⟨next, (late more).symm.trans returned, isLen⟩
  · rintro ⟨next, returned, isLen⟩
    exact ⟨0 + least, next, (late 0).trans returned, isLen⟩

theorem leaves_add_iff {data : { rdata : Bytes // rdata.length < 2 ^ 32 }} :
    (Call.add data).Leaves response outputLen ↔
      if 258 ≤ response.outputLen then outputLen = 260
      else if response.outputLen + data.val.length ≤ 258 then
        outputLen = response.outputLen + data.val.length
      else response.outputLen ≤ data.val.length ∧ data.val.length ≤ 258 ∧
        outputLen = response.outputLen + 260 - data.val.length := by
  have fits := data.property
  have early (fuel : Nat) (less : fuel < 1) (next : Response) :
      (Call.add data).run fuel response ≠ .ok next := by
    obtain rfl : fuel = 0 := by omega
    simp [Call.run, ioAddToResponse]
  by_cases full : 258 ≤ response.outputLen
  · rw [if_pos full, leaves_iff_of_run 1 early fun fuel => if_pos full]
    simp only [Response.writeSw, write_eq_ok_iff]
    simp [ioApduBufferSize, eq_comm]
  have free := Nat.not_le.mp full
  rw [if_neg full]
  by_cases long : 258 < (response.outputLen + data.val.length) % 2 ^ 32
  · rw [if_neg (by omega)]
    by_cases again : 258 < (response.outputLen + (258 + 2 ^ 32 - data.val.length) % 2 ^ 32) % 2 ^ 32
    · refine iff_of_false ?_ (by omega)
      rintro ⟨fuel, next, returned, -⟩
      exact ioAddToResponse_ne_ok fuel fits free long again returned
    rw [leaves_iff_of_run 2 (fun fuel less next => ?_) fun fuel => by
      rw [Call.run, ioAddToResponse_of_free _ _ _ free, if_pos long,
        ioAddToResponse_of_free _ _ _ free, if_neg again]]
    · by_cases inside : data.val.length ≤ 258
      · have cut : (258 + 2 ^ 32 - data.val.length) % 2 ^ 32 = 258 - data.val.length := by omega
        rw [cut] at again ⊢
        obtain ⟨_, finalized, isLen, -⟩ := exists_ioFinalizeResponse
          ⟨response.buffer.write response.outputLen (data.val.take (258 - data.val.length)),
            (response.outputLen + (258 - data.val.length)) % 2 ^ 16⟩ swWrongResponseLength
        rw [if_neg (by omega), write_eq_ok_iff.mpr ⟨by simp; omega, rfl⟩, ok_bind, finalized]
        simp only at isLen
        simp [isLen]
        omega
      · refine iff_of_false ?_ (by omega)
        rintro ⟨next, returned, -⟩
        obtain ⟨_, copied, -⟩ := bind_eq_ok_iff.mp returned
        split_ifs at copied
        have inBuffer := (write_eq_ok_iff.mp copied).1
        rw [length_take] at inBuffer
        omega
    · rcases Nat.lt_succ_iff_lt_or_eq.mp less with less | rfl
      · exact early fuel less next
      · rw [Call.run, ioAddToResponse_of_free _ _ _ free, if_pos long]
        simp [ioAddToResponse]
  · rw [leaves_iff_of_run 1 early fun fuel => by
      rw [Call.run, ioAddToResponse_of_free _ _ _ free, if_neg long, if_neg (Nat.lt_irrefl _),
        take_length]]
    simp only [write_eq_ok_iff]
    split_ifs with room
    · simp [eq_comm]
      omega
    · simp
      omega

theorem leaves_finalize_iff {sw : UInt16} :
    (Call.finalize sw).Leaves response outputLen ↔
      outputLen = min (response.outputLen + 2) 260 := by
  obtain ⟨next, finalized, isLen, -⟩ := exists_ioFinalizeResponse response sw
  have run (fuel : Nat) : (Call.finalize sw).run (fuel + 0) response = .ok next := finalized
  rw [leaves_iff_of_run 0 (by simp) run]
  simp [isLen, eq_comm]

/-! ## Sequences of calls -/

/-- Every call of a sequence is safe exactly if all data has room. -/
theorem safeRun_iff (response : Response) (calls : List Call) :
    SafeRun response calls ↔ RoomFor response.outputLen calls := by
  induction calls generalizing response with
  | nil => exact Iff.rfl
  | cons call calls ih =>
    -- only the length of the response matters for the calls that follow
    have split : SafeRun response (call :: calls) ↔ ∃ outputLen, call.Leaves response outputLen ∧
        outputLen ≤ 260 ∧ (call.TooLong response → 258 ≤ outputLen) ∧ RoomFor outputLen calls := by
      constructor
      · rintro ⟨next, ⟨⟨fuel, returns⟩, fits, reported⟩, later⟩
        exact ⟨_, ⟨fuel, next, returns, rfl⟩, fits, fun long => reported_iff.mp (reported long),
          (ih next).mp later⟩
      · rintro ⟨_, ⟨fuel, next, returns, rfl⟩, fits, reported, later⟩
        exact ⟨next, ⟨⟨fuel, returns⟩, fits, fun long => reported_iff.mpr (reported long)⟩,
          (ih next).mpr later⟩
    rw [split]
    cases call with
    | reset =>
      have leaves {outputLen : Nat} : Call.reset.Leaves response outputLen ↔ outputLen = 0 := by
        rw [leaves_iff_of_run 0 (by simp) fun _ => rfl]
        simp [ioResetResponse, eq_comm]
      simp [leaves, Call.TooLong, RoomFor]
    | finalize sw => simp [leaves_finalize_iff, Call.TooLong, RoomFor]
    | add data =>
      simp only [leaves_add_iff, Call.TooLong, RoomFor, ioApduBufferSize]
      split_ifs with full room
      · simp
      · simp [room]
        omega
      · constructor
        · rintro ⟨_, ⟨shorter, inside, rfl⟩, -, reported, later⟩
          exact ⟨shorter, by have := reported (by omega); omega, later⟩
        · rintro ⟨shorter, inside, later⟩
          exact ⟨_, ⟨shorter, by omega, rfl⟩, by omega, fun _ => by omega, later⟩

/-- Data that is longer than the buffer makes the call go on without end. -/
theorem not_safeRun_longData :
    ¬ SafeRun ⟨fun _ => 0, 0⟩
      [.add ⟨replicate 300 0, by rw [length_replicate]; decide⟩] := by
  rintro ⟨next, ⟨⟨fuel, returned⟩, -, -⟩, -⟩
  simp only [Call.run, length_replicate] at returned
  exact ioAddToResponse_ne_ok fuel (by decide) (by decide) (by decide) (by decide) returned

end LedgerSyscoin.Boilerplate
