import LedgerSyscoin.Handler.Lib.Elements

/-!
# `call_stream_preimage`

The device asks for the preimage of a leaf hash and hands every part of it to a
callback, without its leading prefix byte. The total length is truncated to 32 bits. An
answer without data leaves `partialDataLen - 1` at its wrapped value, so the first
buffer of the callback then has `2 ^ 32 - 1` bytes.
-/

namespace LedgerSyscoin.Handler

open Foundation Common Boilerplate List

section Stream

variable {σ : Type} {dc : DispatcherContext} {chunk : Bytes} {apdu : Apdu} {chunks : List Bytes}

/-- The variables of the loop: the bytes fed to the hash, the state of the callback and
the number of bytes still expected. -/
structure StreamState (σ : Type) where
  hashed : Bytes
  callbackState : σ
  bytesRemaining : Nat

/-- The loop over `GET_MORE_ELEMENTS` answers; code zero means that all bytes arrived. -/
def streamPreimageLoop (callback : Bytes → σ → σ) :
    List Apdu → DispatcherContext → StreamState σ → Option (Outcome (Int × StreamState σ))
  | [], dc, state => if state.bytesRemaining = 0 then some ⟨(0, state), dc, []⟩ else none
  | apdu :: pending, dc, state =>
    if state.bytesRemaining = 0 then some ⟨(0, state), dc, apdu :: pending⟩
    else
      match interrupt dc getMoreElementsRequest apdu with
      | (false, dc) => some ⟨(-5, state), dc, pending⟩
      | (true, dc) =>
        match readElementsHeader dc.readBuffer with
        | none => some ⟨(-6, state), dc, pending⟩
        | some (nBytes, elementsLen, readBuffer) =>
          let dc := { dc with readBuffer }
          if elementsLen ≠ 1 then some ⟨(-7, state), dc, pending⟩
          else if nBytes > state.bytesRemaining then some ⟨(-8, state), dc, pending⟩
          else
            let data := dc.apduBuffer.read (readAddress dc) nBytes
            streamPreimageLoop callback pending dc
              { hashed := state.hashed ++ data
                callbackState := callback data state.callbackState
                bytesRemaining := state.bytesRemaining - nBytes }

/-- Stream the preimage of `hash` to the callback. -/
def callStreamPreimage (H : HashFunction) (hash : Digest) (lenCallback : Option (Nat → σ → σ))
    (callback : Bytes → σ → σ) (callbackState : σ) (dc : DispatcherContext) :
    List Apdu → Option (Outcome (Int × σ))
  | [] => none
  | apdu :: pending =>
    match interrupt dc (getPreimageRequest hash) apdu with
    | (false, dc) => some ⟨(-1, callbackState), dc, pending⟩
    | (true, dc) =>
      match readPreimageHeader dc.readBuffer with
      | none => some ⟨(-2, callbackState), dc, pending⟩
      | some (preimageLen64, partialDataLen, readBuffer) =>
        let dc := { dc with readBuffer }
        let preimageLen := preimageLen64 % 2 ^ 32
        if preimageLen < 1 then some ⟨(-3, callbackState), dc, pending⟩
        else if partialDataLen > preimageLen then
          some ⟨(-4, callbackState), dc, pending⟩
        else
          let callbackState :=
            match lenCallback with
            | some announce => announce (preimageLen - 1) callbackState
            | none => callbackState
          let dataPtr := readAddress dc
          let initial := dc.apduBuffer.read (dataPtr + 1)
            ((partialDataLen + 2 ^ 32 - 1) % 2 ^ 32)
          match streamPreimageLoop callback pending dc
              { hashed := dc.apduBuffer.read dataPtr partialDataLen
                callbackState := callback initial callbackState
                bytesRemaining := preimageLen - partialDataLen } with
          | none => none
          | some ⟨(code, state), dc, pending⟩ =>
            if code < 0 then some ⟨(code, state.callbackState), dc, pending⟩
            else if H state.hashed ≠ hash then
              some ⟨(-9, state.callbackState), dc, pending⟩
            else some ⟨(toInt (preimageLen - 1), state.callbackState), dc, pending⟩

/-! ## Invariants of the callback -/

variable {callback : Bytes → σ → σ}

theorem streamPreimageLoop_invariant {inv : σ → Prop}
    (kept : ∀ data state, inv state → inv (callback data state)) {pending : List Apdu}
    {state : StreamState σ} (holds : inv state.callbackState)
    {outcome : Outcome (Int × StreamState σ)}
    (run : streamPreimageLoop callback pending dc state = some outcome) :
    inv outcome.result.2.callbackState := by
  induction pending generalizing dc state with
  | nil =>
    unfold streamPreimageLoop at run
    split_ifs at run
    cases run
    exact holds
  | cons apdu pending ih =>
    rw [streamPreimageLoop] at run
    split_ifs at run
    · cases run
      exact holds
    split at run
    · cases run
      exact holds
    split at run
    · cases run
      exact holds
    simp only at run
    split_ifs at run
    · cases run
      exact holds
    · cases run
      exact holds
    · exact ih (kept _ _ holds) run

/-- What the callback keeps holds after every stream, complete or not. -/
theorem callStreamPreimage_invariant {H : HashFunction} {hash : Digest} {inv : σ → Prop}
    (kept : ∀ data state, inv state → inv (callback data state)) {initial : σ}
    (holds : inv initial) {incoming : List Apdu} {outcome : Outcome (Int × σ)}
    (run : callStreamPreimage H hash none callback initial dc incoming = some outcome) :
    inv outcome.result.2 := by
  rcases incoming with _ | ⟨_, _⟩
  · cases run
  rw [callStreamPreimage] at run
  split at run
  · cases run
    exact holds
  split at run
  · cases run
    exact holds
  simp only at run
  split_ifs at run
  · cases run
    exact holds
  · cases run
    exact holds
  split at run
  · cases run
  rename_i code state final rest looped
  have after := streamPreimageLoop_invariant kept (kept _ _ holds) looped
  split_ifs at run <;> rw [Option.some.injEq] at run <;> subst run
  all_goals exact after

/-! ## Answers that carry a preimage in chunks -/

/-- The answer starts a preimage whose length is `total` modulo `2 ^ 32` with `part`. -/
def PreimageAnswer (total : Nat) (part : Bytes) (apdu : Apdu) : Prop :=
  ∃ p1 p2 header trailing declared,
    apdu = continueApdu p1 p2 (header ++ UInt8.ofNat part.length :: (part ++ trailing)) ∧
      (header ++ UInt8.ofNat part.length :: (part ++ trailing)).length < 256 ∧
      varintRead header = some (declared, header.length) ∧ declared % 2 ^ 32 = total

/-- The answer goes on with `part`. -/
def ElementsAnswer (part : Bytes) (apdu : Apdu) : Prop :=
  ∃ p1 p2 trailing,
    apdu = continueApdu p1 p2 (UInt8.ofNat part.length :: 1 :: (part ++ trailing)) ∧
      (part ++ trailing).length < 254

/-- The answers carry the byte `lead` and then a stream in the given chunks, the first of
them together with `lead`. -/
structure Delivers (lead : UInt8) (first : Bytes) (chunks : List Bytes) (answers : List Apdu) :
    Prop where
  small : first.length + chunks.flatten.length + 1 < 2 ^ 32
  answers_eq : ∃ opening later, answers = opening :: later ∧
    PreimageAnswer (first.length + chunks.flatten.length + 1) (lead :: first) opening ∧
      List.Forall₂ ElementsAnswer chunks later
  last_ne_nil : ∀ chunk ∈ chunks.getLast?, chunk ≠ []

/-- Receiving an answer with elements: its header and the address of its data. -/
theorem ElementsAnswer.exchange (answer : ElementsAnswer chunk apdu) (dc : DispatcherContext) :
    ∃ resumed rest, interrupt dc getMoreElementsRequest apdu = (true, resumed) ∧
      readElementsHeader resumed.readBuffer = some (chunk.length, 1, rest) ∧
      resumed.apduBuffer.read (offsetCdata + rest.offset) chunk.length = chunk ∧
      resumed.sent = dc.sent ++ [(getMoreElementsRequest, swInterruptedExecution)] := by
  obtain ⟨p1, p2, trailing, rfl, fits⟩ := answer
  rw [length_append] at fits
  let data := UInt8.ofNat chunk.length :: 1 :: (chunk ++ trailing)
  have dataLength : data.length = chunk.length + trailing.length + 2 := by simp [data]
  have count : (UInt8.ofNat chunk.length).toNat = chunk.length := by
    rw [UInt8.toNat_ofNat']
    omega
  refine ⟨_, ⟨data, 2, by omega⟩,
    interrupt_eq_true_iff.mpr ⟨p1, p2, data, by omega, rfl, rfl⟩, ?_, ?_, rfl⟩
  · rw [readElementsHeader_eq_some_iff]
    exact ⟨_, _, _, rfl, count.symm, rfl, by simp, rfl, rfl⟩
  · have window := read_cdata_continueApdu
      (dc.apduBuffer.write 0 (getMoreElementsRequest ++ beBytes 2 swInterruptedExecution))
      p1 p2 data 2 chunk.length (by omega)
    refine window.trans ?_
    simp [data]

/-- Receiving the answer that starts a preimage. -/
theorem PreimageAnswer.exchange {total : Nat} {part : Bytes}
    (answer : PreimageAnswer total part apdu) (hash : Digest) (dc : DispatcherContext) :
    ∃ resumed rest declared, interrupt dc (getPreimageRequest hash) apdu = (true, resumed) ∧
      readPreimageHeader resumed.readBuffer = some (declared, part.length, rest) ∧
      declared % 2 ^ 32 = total ∧
      resumed.apduBuffer.read (offsetCdata + rest.offset) part.length = part ∧
      resumed.sent = dc.sent ++ [(getPreimageRequest hash, swInterruptedExecution)] := by
  obtain ⟨p1, p2, header, trailing, declared, rfl, fits, read, truncated⟩ := answer
  have lengths := fits
  simp only [length_append, length_cons] at lengths
  obtain ⟨rest, headerEq, offsetEq⟩ := readPreimageHeader_append trailing read
    (show part.length < 256 by omega)
  refine ⟨_, rest, declared, interrupt_eq_true_iff.mpr ⟨p1, p2, _, fits, rfl, rfl⟩, headerEq,
    truncated, ?_, rfl⟩
  have window := read_cdata_continueApdu
    (dc.apduBuffer.write 0 (getPreimageRequest hash ++ beBytes 2 swInterruptedExecution))
    p1 p2 (header ++ UInt8.ofNat part.length :: (part ++ trailing)) (header.length + 1)
    part.length (by simp only [length_append, length_cons]; omega)
  rw [offsetEq]
  refine window.trans ?_
  rw [← drop_drop, drop_left]
  simp

theorem flatten_ne_nil_of_last (last : ∀ later ∈ (chunk :: chunks).getLast?, later ≠ []) :
    (chunk :: chunks).flatten.length ≠ 0 := by
  have nonempty : (chunk :: chunks).getLast (by simp) ≠ [] := last _ (getLast_mem_getLast? _)
  intro empty
  rw [length_eq_zero_iff, flatten_eq_nil_iff] at empty
  exact nonempty (empty _ (getLast_mem _))

/-- The loop hands over the chunks that the answers carry. -/
theorem streamPreimageLoop_of_answers (callback : Bytes → σ → σ)
    {later : List Apdu} (answers : List.Forall₂ ElementsAnswer chunks later)
    (last : ∀ chunk ∈ chunks.getLast?, chunk ≠ []) (rest : List Apdu) (dc : DispatcherContext)
    (state : StreamState σ) (remaining : state.bytesRemaining = chunks.flatten.length) :
    ∃ final, streamPreimageLoop callback (later ++ rest) dc state =
      some ⟨(0, { hashed := state.hashed ++ chunks.flatten
                  callbackState := chunks.foldl (fun reached chunk => callback chunk reached)
                    state.callbackState
                  bytesRemaining := 0 }), final, rest⟩ ∧
      final.sent = dc.sent ++
        replicate chunks.length (getMoreElementsRequest, swInterruptedExecution) := by
  induction answers generalizing dc state with
  | nil =>
    rw [flatten_nil, length_nil] at remaining
    refine ⟨dc, ?_, (append_nil _).symm⟩
    cases state
    cases rest <;> simp_all [streamPreimageLoop]
  | @cons chunk apdu chunks later answer answers ih =>
    have expecting : state.bytesRemaining ≠ 0 := remaining ▸ flatten_ne_nil_of_last last
    rw [flatten_cons, length_append] at remaining
    obtain ⟨resumed, readBuffer, resumption, header, dataEq, sent⟩ := answer.exchange dc
    have lastLater : ∀ chunk ∈ chunks.getLast?, chunk ≠ [] := by
      intro later member
      refine last later ?_
      cases chunks with
      | nil => cases member
      | cons => exact member
    obtain ⟨final, run, sentLater⟩ := ih lastLater { resumed with readBuffer }
      { hashed := state.hashed ++ chunk
        callbackState := callback chunk state.callbackState
        bytesRemaining := state.bytesRemaining - chunk.length }
      (by simp only; omega)
    refine ⟨final, ?_, ?_⟩
    · rw [cons_append, streamPreimageLoop, if_neg expecting, resumption]
      simp only [header, ne_eq, not_true_eq_false, if_false, readAddress, dataEq]
      rw [if_neg (by omega), run, flatten_cons, append_assoc, foldl_cons]
    · rw [sentLater, sent, append_assoc]
      rfl

/-- The state after the length of a preimage was announced. -/
def announce (lenCallback : Option (Nat → σ → σ)) (length : Nat) (callbackState : σ) : σ :=
  match lenCallback with
  | some announced => announced length callbackState
  | none => callbackState

/-- A delivered preimage is handed to the callback chunk by chunk; the flow succeeds when
its hash is right. -/
theorem callStreamPreimage_of_delivers (H : HashFunction) (hash : Digest)
    (lenCallback : Option (Nat → σ → σ)) (callback : Bytes → σ → σ) (callbackState : σ)
    (dc : DispatcherContext) {lead : UInt8} {first : Bytes}
    {answers : List Apdu} (delivers : Delivers lead first chunks answers) (rest : List Apdu) :
    ∃ final, callStreamPreimage H hash lenCallback callback callbackState dc (answers ++ rest) =
      some ⟨(if H (lead :: (first ++ chunks.flatten)) = hash then
          toInt (first ++ chunks.flatten).length else -9,
        (first :: chunks).foldl (fun reached chunk => callback chunk reached)
          (announce lenCallback (first ++ chunks.flatten).length callbackState)),
        final, rest⟩ ∧
      final.sent = dc.sent ++ (getPreimageRequest hash, swInterruptedExecution) ::
        replicate chunks.length (getMoreElementsRequest, swInterruptedExecution) := by
  obtain ⟨_, _, rfl, answer, elements⟩ := delivers.answers_eq
  obtain ⟨resumed, readBuffer, _, resumption, header, truncated, dataEq, sent⟩ :=
    answer.exchange hash dc
  rw [length_cons] at header dataEq
  rw [Memory.read_succ, List.cons.injEq] at dataEq
  have wrapped : (first.length + 1 + 2 ^ 32 - 1) % 2 ^ 32 = first.length := by
    have small := delivers.small
    omega
  obtain ⟨final, run, sentLater⟩ :=
    streamPreimageLoop_of_answers callback elements delivers.last_ne_nil rest
      { resumed with readBuffer }
      { hashed := lead :: first
        callbackState := callback first
          (announce lenCallback (first ++ chunks.flatten).length callbackState)
        bytesRemaining := chunks.flatten.length } rfl
  have hashedEq : resumed.apduBuffer.read (offsetCdata + readBuffer.offset) (first.length + 1) =
      lead :: first := by
    rw [Memory.read_succ, dataEq.1, dataEq.2]
  have remaining : first.length + chunks.flatten.length + 1 - (first.length + 1) =
      chunks.flatten.length := by omega
  have streamed : first.length + chunks.flatten.length + 1 - 1 =
      (first ++ chunks.flatten).length := by simp
  refine ⟨final, ?_, by rw [sentLater, sent, append_assoc]; rfl⟩
  rw [cons_append, callStreamPreimage, resumption]
  simp only [header, truncated, readAddress, wrapped, dataEq.2, hashedEq, remaining, streamed]
  unfold announce at run ⊢
  rw [if_neg (by omega), if_neg (by omega), run]
  simp only [cons_append, foldl_cons, lt_self_iff_false, if_false]
  by_cases hashEq : H (lead :: (first ++ chunks.flatten)) = hash
  · rw [if_neg (not_not.mpr hashEq), if_pos hashEq]
  · rw [if_pos hashEq, if_neg hashEq]

end Stream

end LedgerSyscoin.Handler
