import LedgerSyscoin.Handler.Lib.StreamPreimage

/-!
# Buffers of a stream

The callback of `call_stream_preimage` works on parts of the APDU buffer, whose
addresses are followed here. Each part lies in the data of the answer that was received
last, except for the first one if its answer has no data: it starts behind a prefix byte
that is not there and has `2 ^ 32 - 1` bytes.
-/

namespace LedgerSyscoin.Handler

open Foundation Common Boilerplate List

/-! ## What is handed over -/

/-- A buffer that the callback is called with: where it starts and what it holds, and the data of
the last answer. -/
structure Handover where
  address : Nat
  contents : Bytes
  received : Bytes

/-- The buffer lies in the data of the answer. -/
def Handover.Inside (handover : Handover) : Prop :=
  offsetCdata ≤ handover.address ∧
    handover.address + handover.contents.length ≤ offsetCdata + handover.received.length

/-- The `count` bytes from `address` on. -/
def handOver (dc : DispatcherContext) (address count : Nat) : Handover :=
  ⟨address, dc.apduBuffer.read address count, dc.readBuffer.bytes⟩

@[simp]
theorem address_handOver (dc : DispatcherContext) (address count : Nat) :
    (handOver dc address count).address = address := rfl

@[simp]
theorem length_contents_handOver (dc : DispatcherContext) (address count : Nat) :
    (handOver dc address count).contents.length = count := Memory.length_read _ _ _

@[simp]
theorem received_handOver (dc : DispatcherContext) (address count : Nat) :
    (handOver dc address count).received = dc.readBuffer.bytes := rfl

/-- The bytes of several buffers. -/
def streamedBytes (handovers : List Handover) : Bytes := handovers.flatMap Handover.contents

/-- The buffers of the loop over `GET_MORE_ELEMENTS` answers. -/
def loopHandovers : List Apdu → DispatcherContext → (bytesRemaining : Nat) → List Handover
  | [], _, _ => []
  | apdu :: pending, dc, bytesRemaining =>
    if bytesRemaining = 0 then []
    else
      match interrupt dc getMoreElementsRequest apdu with
      | (false, _) => []
      | (true, dc) =>
        match readElementsHeader dc.readBuffer with
        | none => []
        | some (nBytes, elementsLen, readBuffer) =>
          let dc := { dc with readBuffer }
          if elementsLen ≠ 1 then []
          else if nBytes > bytesRemaining then []
          else
            handOver dc (readAddress dc) nBytes ::
              loopHandovers pending dc (bytesRemaining - nBytes)

/-- The calls of the callbacks: the length, if it was announced, and the buffers. -/
structure StreamTrace where
  announced : Option Nat
  handovers : List Handover

/-- The calls of the callbacks while the preimage of `hash` is streamed. -/
def streamTrace (hash : Digest) (dc : DispatcherContext) : List Apdu → StreamTrace
  | [] => ⟨none, []⟩
  | apdu :: pending =>
    match interrupt dc (getPreimageRequest hash) apdu with
    | (false, _) => ⟨none, []⟩
    | (true, dc) =>
      match readPreimageHeader dc.readBuffer with
      | none => ⟨none, []⟩
      | some (preimageLen64, partialDataLen, readBuffer) =>
        let dc := { dc with readBuffer }
        let preimageLen := preimageLen64 % 2 ^ 32
        if preimageLen < 1 then ⟨none, []⟩
        else if partialDataLen > preimageLen then ⟨none, []⟩
        else
          ⟨some (preimageLen - 1),
            handOver dc (readAddress dc + 1) ((partialDataLen + 2 ^ 32 - 1) % 2 ^ 32) ::
              loopHandovers pending dc (preimageLen - partialDataLen)⟩

section Callbacks

variable {σ : Type} (lenCallback : Option (Nat → σ → σ)) (callback : Bytes → σ → σ)

/-- The state of the callback after buffers. -/
def replayHandovers (handovers : List Handover) (callbackState : σ) : σ :=
  handovers.foldl (fun reached handover => callback handover.contents reached) callbackState

/-- The state of the callbacks after their calls. -/
def StreamTrace.replay (trace : StreamTrace) (callbackState : σ) : σ :=
  replayHandovers callback trace.handovers
    (match trace.announced with
    | some length => announce lenCallback length callbackState
    | none => callbackState)

end Callbacks

/-! ## The flow calls the callbacks like this -/

section Runs

variable {σ : Type} {lenCallback : Option (Nat → σ → σ)} {callback : Bytes → σ → σ}

/-- The loop calls the callback with the buffers, hashes what they hold, and completes only with
all the bytes that were expected. -/
theorem streamPreimageLoop_handovers {pending : List Apdu} {dc : DispatcherContext}
    {state : StreamState σ} {outcome : Outcome (Int × StreamState σ)}
    (run : streamPreimageLoop callback pending dc state = some outcome) :
    outcome.result.2.callbackState =
        replayHandovers callback (loopHandovers pending dc state.bytesRemaining)
          state.callbackState ∧
      outcome.result.2.hashed =
        state.hashed ++ streamedBytes (loopHandovers pending dc state.bytesRemaining) ∧
      (0 ≤ outcome.result.1 →
        (streamedBytes (loopHandovers pending dc state.bytesRemaining)).length =
          state.bytesRemaining) := by
  induction pending generalizing dc state with
  | nil =>
    rw [streamPreimageLoop] at run
    split_ifs at run with finished
    cases run
    exact ⟨rfl, (append_nil _).symm, fun _ => finished.symm⟩
  | cons apdu pending ih =>
    rw [streamPreimageLoop] at run
    rw [loopHandovers]
    by_cases finished : state.bytesRemaining = 0
    · rw [if_pos finished] at run ⊢
      cases run
      exact ⟨rfl, (append_nil _).symm, fun _ => finished.symm⟩
    rw [if_neg finished] at run ⊢
    rcases resumption : interrupt dc getMoreElementsRequest apdu with ⟨_ | _, resumed⟩
    · simp only [resumption] at run ⊢
      cases run
      exact ⟨rfl, (append_nil _).symm, fun done => absurd done (by simp)⟩
    simp only [resumption] at run ⊢
    rcases header : readElementsHeader resumed.readBuffer with
      _ | ⟨_, _, _⟩
    · simp only [header] at run ⊢
      cases run
      exact ⟨rfl, (append_nil _).symm, fun done => absurd done (by simp)⟩
    simp only [header] at run ⊢
    split_ifs at run ⊢ with wrongLength tooMany
    · cases run
      exact ⟨rfl, (append_nil _).symm, fun done => absurd done (by simp)⟩
    · cases run
      exact ⟨rfl, (append_nil _).symm, fun done => absurd done (by simp)⟩
    · obtain ⟨reached, hashed, complete⟩ := ih run
      refine ⟨reached, ?_, fun done => ?_⟩
      · rw [hashed, append_assoc]
        rfl
      · have length := complete done
        simp only at length
        rw [streamedBytes, flatMap_cons, length_append, ← streamedBytes, length,
          length_contents_handOver]
        omega

end Runs

/-! ## The first answer -/

/-- A first answer that the device accepts, and the answers behind it: it announces a preimage and
has `partialDataLen` of its bytes. -/
structure Opening where
  p1 : UInt8
  p2 : UInt8
  data : Bytes
  later : List Apdu
  declared : Nat
  partialDataLen : Nat
  rest : Buffer
  data_lt : data.length < 256
  header : readPreimageHeader (bufferCreate data) = some (declared, partialDataLen, rest)
  positive : 1 ≤ declared % 2 ^ 32
  fitting : partialDataLen ≤ declared % 2 ^ 32

namespace Opening

def answers (opening : Opening) : List Apdu :=
  continueApdu opening.p1 opening.p2 opening.data :: opening.later

/-- The length of the preimage, in 32 bits. -/
def preimageLen (opening : Opening) : Nat := opening.declared % 2 ^ 32

variable (opening : Opening) (hash : Digest) (dc : DispatcherContext)

/-- The device after it has read the header of the answer. -/
def resumed : DispatcherContext where
  apduBuffer := memoryAfter dc.apduBuffer (getPreimageRequest hash)
    (continueApdu opening.p1 opening.p2 opening.data)
  readBuffer := opening.rest
  sent := dc.sent ++ [(getPreimageRequest hash, swInterruptedExecution)]

/-- The first buffer of the callback. -/
def firstHandover : Handover :=
  handOver (opening.resumed hash dc) (readAddress (opening.resumed hash dc) + 1)
    ((opening.partialDataLen + 2 ^ 32 - 1) % 2 ^ 32)

/-- The buffers of the answers behind the first one. -/
def laterHandovers : List Handover :=
  loopHandovers opening.later (opening.resumed hash dc)
    (opening.preimageLen - opening.partialDataLen)

theorem interrupt_eq : interrupt dc (getPreimageRequest hash)
    (continueApdu opening.p1 opening.p2 opening.data) =
      (true, { opening.resumed hash dc with readBuffer := bufferCreate opening.data }) :=
  interrupt_eq_true_iff.mpr ⟨_, _, opening.data, opening.data_lt, rfl, rfl⟩

theorem streamTrace_answers : streamTrace hash dc opening.answers =
    ⟨some (opening.preimageLen - 1),
      opening.firstHandover hash dc :: opening.laterHandovers hash dc⟩ := by
  rw [answers, streamTrace, opening.interrupt_eq hash dc]
  simp only [opening.header, not_lt.mpr opening.positive, not_lt.mpr opening.fitting, if_false]
  rfl

theorem rest_spec : ∃ varintLen, opening.rest.bytes = opening.data ∧
    opening.rest.offset = varintLen + 1 ∧
    varintLen + 1 + opening.partialDataLen ≤ opening.data.length := by
  obtain ⟨varintLen, -, -, -, bytes, offset, fits⟩ := readPreimageHeader_eq_some opening.header
  exact ⟨varintLen, bytes, offset, fits⟩

/-- The first buffer lies in the answer if there is a byte before it. -/
theorem inside_firstHandover_iff :
    (opening.firstHandover hash dc).Inside ↔ opening.partialDataLen ≠ 0 := by
  obtain ⟨_, bytes, offset, _⟩ := opening.rest_spec
  have small := opening.data_lt
  rw [Handover.Inside, firstHandover, address_handOver, length_contents_handOver,
    received_handOver, readAddress, resumed, offset, bytes]
  constructor
  · rintro ⟨-, within⟩ empty
    rw [empty] at within
    omega
  · intro nonempty
    exact ⟨by omega, by omega⟩

/-- The data of the first answer is the prefix byte with the first buffer. -/
theorem read_eq_cons_firstHandover (nonempty : opening.partialDataLen ≠ 0) :
    ∃ lead, (opening.resumed hash dc).apduBuffer.read
      (readAddress (opening.resumed hash dc)) opening.partialDataLen =
        lead :: (opening.firstHandover hash dc).contents := by
  obtain ⟨_, -, -, _⟩ := opening.rest_spec
  have small := opening.data_lt
  have wrapped : (opening.partialDataLen + 2 ^ 32 - 1) % 2 ^ 32 = opening.partialDataLen - 1 := by
    omega
  refine ⟨(opening.resumed hash dc).apduBuffer (readAddress (opening.resumed hash dc)), ?_⟩
  rw [firstHandover, handOver, wrapped, ← Memory.read_succ, Nat.sub_add_cancel (by omega)]

end Opening

/-- The device does not accept the first answer, or it is an opening. -/
theorem streamTrace_eq_nil_or_opening (hash : Digest) (dc : DispatcherContext)
    (incoming : List Apdu) :
    streamTrace hash dc incoming = ⟨none, []⟩ ∨
      ∃ opening : Opening, incoming = opening.answers := by
  rcases incoming with _ | ⟨_, later⟩
  · exact .inl rfl
  rw [streamTrace]
  split
  · exact .inl rfl
  rename_i resumption
  obtain ⟨p1, p2, data, dataLt, rfl, rfl⟩ := interrupt_eq_true_iff.mp resumption
  split
  · exact .inl rfl
  rename_i declared partialDataLen rest header
  simp only
  split_ifs with empty tooMany
  · exact .inl rfl
  · exact .inl rfl
  · exact .inr ⟨⟨p1, p2, data, later, declared, partialDataLen, rest, dataLt, header,
      not_lt.mp empty, not_lt.mp tooMany⟩, rfl⟩

/-! ## Safety of the stream -/

/-- The first answer announces a preimage and has none of its bytes. -/
def OpensWithoutData (incoming : List Apdu) : Prop :=
  ∃ opening : Opening, incoming = opening.answers ∧ opening.partialDataLen = 0

/-- The buffers of the loop lie in their answers. -/
theorem inside_of_mem_loopHandovers {pending : List Apdu} {dc : DispatcherContext}
    {bytesRemaining : Nat} {handover : Handover}
    (member : handover ∈ loopHandovers pending dc bytesRemaining) : handover.Inside := by
  induction pending generalizing dc bytesRemaining with
  | nil => cases member
  | cons apdu pending ih =>
    rw [loopHandovers] at member
    split_ifs at member
    · cases member
    split at member
    · cases member
    rename_i resumption
    obtain ⟨_, _, data, _, rfl, rfl⟩ := interrupt_eq_true_iff.mp resumption
    split at member
    · cases member
    rename_i nBytes elementsLen readBuffer header
    obtain ⟨_, _, tail, dataEq, -, -, fits, bytes, offset⟩ :=
      readElementsHeader_eq_some_iff.mp header
    simp only at member
    split_ifs at member with wrongLength tooMany
    · cases member
    · cases member
    rcases mem_cons.mp member with rfl | later
    · rw [not_not.mp wrongLength, Nat.mul_one] at fits
      have dataLength : data.length = tail.length + 2 := congrArg List.length dataEq
      rw [Handover.Inside, address_handOver, length_contents_handOver, received_handOver,
        readAddress, bytes, offset]
      omega
    · exact ih later

section Main

variable {σ : Type} (H : HashFunction) (hash : Digest) (lenCallback : Option (Nat → σ → σ))
  (callback : Bytes → σ → σ) (callbackState : σ) (dc : DispatcherContext)

/-- The loop after the first answer. -/
def Opening.loop (opening : Opening) : Option (Outcome (Int × StreamState σ)) :=
  streamPreimageLoop callback opening.later (opening.resumed hash dc)
    { hashed := (opening.resumed hash dc).apduBuffer.read
        (readAddress (opening.resumed hash dc)) opening.partialDataLen
      callbackState := callback (opening.firstHandover hash dc).contents
        (announce lenCallback (opening.preimageLen - 1) callbackState)
      bytesRemaining := opening.preimageLen - opening.partialDataLen }

/-- The flow with an answer that it accepts: a code of the loop, a wrong hash, or success. -/
theorem callStreamPreimage_answers (opening : Opening) :
    callStreamPreimage H hash lenCallback callback callbackState dc opening.answers =
      (opening.loop hash lenCallback callback callbackState dc).map fun looped =>
        { looped with result :=
          (if looped.result.1 < 0 then looped.result.1
            else if H looped.result.2.hashed ≠ hash then -9
            else toInt (opening.preimageLen - 1), looped.result.2.callbackState) } := by
  have context : ({ opening.resumed hash dc with readBuffer := opening.rest } :
      DispatcherContext) = opening.resumed hash dc := rfl
  rw [Opening.answers, callStreamPreimage, opening.interrupt_eq hash dc]
  simp only [opening.header, not_lt.mpr opening.positive, not_lt.mpr opening.fitting, if_false,
    context, Opening.loop, Opening.firstHandover, Opening.preimageLen, handOver, announce]
  generalize streamPreimageLoop callback opening.later (opening.resumed hash dc) _ = looped
  rcases looped with _ | ⟨⟨_, _⟩, _, _⟩
  · rfl
  · simp only [Option.map_some]
    split_ifs <;> rfl

/-- Without an answer that it accepts the flow fails before it calls the callbacks. -/
theorem callStreamPreimage_of_streamTrace_eq_nil {incoming : List Apdu}
    (fails : streamTrace hash dc incoming = ⟨none, []⟩) {outcome : Outcome (Int × σ)}
    (run : callStreamPreimage H hash lenCallback callback callbackState dc incoming =
      some outcome) : outcome.result.1 < 0 ∧ outcome.result.2 = callbackState := by
  rcases incoming with _ | ⟨_, _⟩
  · cases run
  rw [streamTrace] at fails
  rw [callStreamPreimage] at run
  split at run
  · cases run
    exact ⟨by simp, rfl⟩
  rename_i resumption
  simp only [resumption] at fails
  split at run
  · cases run
    exact ⟨by simp, rfl⟩
  rename_i header
  simp only [header] at fails
  simp only at run
  split_ifs at run fails
  · cases run
    exact ⟨by simp, rfl⟩
  · cases run
    exact ⟨by simp, rfl⟩
  · cases fails

variable {H hash lenCallback callback callbackState dc} {incoming : List Apdu}
  {outcome : Outcome (Int × σ)}

/-- A run that returns has called the callbacks as the trace says. -/
theorem callStreamPreimage_replay
    (run : callStreamPreimage H hash lenCallback callback callbackState dc incoming =
      some outcome) :
    outcome.result.2 =
      (streamTrace hash dc incoming).replay lenCallback callback callbackState := by
  rcases streamTrace_eq_nil_or_opening hash dc incoming with fails | ⟨opening, rfl⟩
  · rw [fails]
    exact (callStreamPreimage_of_streamTrace_eq_nil H hash lenCallback callback callbackState dc
      fails run).2
  · rw [callStreamPreimage_answers] at run
    obtain ⟨_, loopRun, rfl⟩ := Option.map_eq_some_iff.mp run
    rw [opening.streamTrace_answers hash dc]
    exact (streamPreimageLoop_handovers loopRun).1

/-- In a successful run whose first answer has data the callback received a preimage of the hash
without its first byte. -/
theorem callStreamPreimage_success
    (run : callStreamPreimage H hash lenCallback callback callbackState dc incoming =
      some outcome) (success : 0 ≤ outcome.result.1) (withData : ¬OpensWithoutData incoming) :
    ∃ lead, H (lead :: streamedBytes (streamTrace hash dc incoming).handovers) = hash ∧
      (streamTrace hash dc incoming).announced =
        some (streamedBytes (streamTrace hash dc incoming).handovers).length ∧
      outcome.result.1 = (streamedBytes (streamTrace hash dc incoming).handovers).length := by
  rcases streamTrace_eq_nil_or_opening hash dc incoming with fails | ⟨opening, rfl⟩
  · exact absurd success (not_le.mpr (callStreamPreimage_of_streamTrace_eq_nil H hash lenCallback
      callback callbackState dc fails run).1)
  have nonempty : opening.partialDataLen ≠ 0 := fun empty => withData ⟨opening, rfl, empty⟩
  rw [callStreamPreimage_answers] at run
  obtain ⟨_, loopRun, rfl⟩ := Option.map_eq_some_iff.mp run
  obtain ⟨-, hashed, complete⟩ := streamPreimageLoop_handovers loopRun
  obtain ⟨lead, firstData⟩ := opening.read_eq_cons_firstHandover hash dc nonempty
  simp only at success hashed complete ⊢
  split_ifs at success ⊢ with failed mismatch
  · exact absurd success (by omega)
  · exact absurd success (by decide)
  have isHash := not_not.mp mismatch
  rw [opening.streamTrace_answers hash dc]
  have streamed : streamedBytes (opening.firstHandover hash dc :: opening.laterHandovers hash dc) =
      (opening.firstHandover hash dc).contents ++
        streamedBytes (opening.laterHandovers hash dc) := flatMap_cons
  have firstLength := congrArg List.length firstData
  rw [Memory.length_read, length_cons] at firstLength
  have length : (streamedBytes
      (opening.firstHandover hash dc :: opening.laterHandovers hash dc)).length =
        opening.preimageLen - 1 := by
    have fitting : opening.partialDataLen ≤ opening.preimageLen := opening.fitting
    have laterLength : (streamedBytes (opening.laterHandovers hash dc)).length =
        opening.preimageLen - opening.partialDataLen := complete (not_lt.mp failed)
    rw [streamed, length_append, laterLength]
    omega
  refine ⟨lead, ?_, by rw [length], ?_⟩
  · rw [hashed, firstData, cons_append] at isHash
    rw [streamed]
    exact isHash
  · have bounded : opening.preimageLen < 2 ^ 32 := Nat.mod_lt _ (by decide)
    rw [length]
    exact (toInt_eq_of_nonneg (by omega) success).1

variable (H hash lenCallback callback callbackState dc incoming)

/-- The callbacks are called as the trace says. Every buffer lies in the received data, and a
successful run streams a preimage without its first byte and returns its length, exactly if the
first answer does not announce a preimage without any of its bytes. -/
theorem callStreamPreimage_safe_iff : (∀ outcome,
      callStreamPreimage H hash lenCallback callback callbackState dc incoming = some outcome →
        outcome.result.2 =
          (streamTrace hash dc incoming).replay lenCallback callback callbackState) ∧
    (((∀ handover ∈ (streamTrace hash dc incoming).handovers, handover.Inside) ∧
        ∀ outcome,
          callStreamPreimage H hash lenCallback callback callbackState dc incoming =
            some outcome → 0 ≤ outcome.result.1 →
          ∃ preimage, preimage ≠ [] ∧ H preimage = hash ∧
            streamedBytes (streamTrace hash dc incoming).handovers = preimage.tail ∧
            (streamTrace hash dc incoming).announced = some preimage.tail.length ∧
            outcome.result.1 = preimage.tail.length) ↔
      ¬OpensWithoutData incoming) := by
  refine ⟨fun outcome run => callStreamPreimage_replay run, ?_⟩
  constructor
  · rintro ⟨inside, -⟩ ⟨opening, rfl, empty⟩
    rw [opening.streamTrace_answers hash dc] at inside
    exact (opening.inside_firstHandover_iff hash dc).mp (inside _ mem_cons_self) empty
  · intro withData
    constructor
    · intro handover member
      rcases streamTrace_eq_nil_or_opening hash dc incoming with fails | ⟨opening, rfl⟩
      · rw [fails] at member
        cases member
      · rw [opening.streamTrace_answers hash dc] at member
        rcases mem_cons.mp member with rfl | later
        · exact (opening.inside_firstHandover_iff hash dc).mpr
            fun empty => withData ⟨opening, rfl, empty⟩
        · exact inside_of_mem_loopHandovers later
    · intro outcome run success
      obtain ⟨lead, isHash, announced, returned⟩ :=
        callStreamPreimage_success run success withData
      exact ⟨lead :: _, by simp, isHash, rfl, announced, returned⟩

end Main

/-- A client that announces a preimage of one byte and sends no data. -/
def openingWithoutData : Opening where
  p1 := 0
  p2 := 0
  data := [1, 0]
  later := []
  declared := 1
  partialDataLen := 0
  rest := ⟨[1, 0], 2, by decide⟩
  data_lt := by decide
  header := rfl
  positive := by decide
  fitting := by decide

/-- The buffer behind an answer without data reaches beyond the answer. -/
theorem stream_leaves_received_data :
    ∃ handover ∈ (streamTrace (Digest.ofNat 0) .initial openingWithoutData.answers).handovers,
      ¬handover.Inside := by
  rw [openingWithoutData.streamTrace_answers]
  refine ⟨_, mem_cons_self, ?_⟩
  rw [openingWithoutData.inside_firstHandover_iff]
  exact not_not.mpr rfl

end LedgerSyscoin.Handler
