import LedgerSyscoin.Handler.Lib.Elements

/-!
# `call_get_merkle_preimage`

The device asks for the preimage of a leaf hash, hashes what it receives and copies
everything but the leading prefix byte. The data of the first answer starts one byte
after the varint of the total length; later answers have a two-byte header. The copies
of later answers use the data pointer of the first one, while the hash is fed from the
read position. The two coincide only for a one-byte varint.
-/

namespace LedgerSyscoin.Handler

open Foundation Common Boilerplate

variable {dc : DispatcherContext} {incoming : List Apdu} {out : Bytes} {dataPtr : Nat}

/-- The variables of the copy loop: the bytes fed to the hash, the output buffer
and the number of bytes still expected. -/
structure MerklePreimageState where
  hashed : Bytes
  outBuffer : Buffer
  bytesRemaining : Nat

/-- Return code of the flow, final contents of the output and hashed bytes. -/
structure MerklePreimage where
  ret : Int
  out : Bytes
  hashed : Bytes
  deriving DecidableEq

/-- The loop over `GET_MORE_ELEMENTS` answers; code zero means that all bytes
arrived. The hash reads at the read position, the copy at `dataPtr`. -/
def getMerklePreimageLoop (dataPtr : Nat) :
    List Apdu → DispatcherContext → MerklePreimageState →
      Option (Outcome (Int × MerklePreimageState))
  | [], dc, state => if state.bytesRemaining = 0 then some ⟨(0, state), dc, []⟩ else none
  | apdu :: pending, dc, state =>
    if state.bytesRemaining = 0 then some ⟨(0, state), dc, apdu :: pending⟩
    else
      match interrupt dc getMoreElementsRequest apdu with
      | (false, dc) => some ⟨(-6, state), dc, pending⟩
      | (true, dc) =>
        match readElementsHeader dc.readBuffer with
        | none => some ⟨(-7, state), dc, pending⟩
        | some (nBytes, elementsLen, readBuffer) =>
          let dc := { dc with readBuffer }
          if elementsLen ≠ 1 then some ⟨(-8, state), dc, pending⟩
          else if nBytes > state.bytesRemaining then some ⟨(-9, state), dc, pending⟩
          else
            let copied := dc.apduBuffer.read dataPtr nBytes
            getMerklePreimageLoop dataPtr pending dc
              { hashed := state.hashed ++ dc.apduBuffer.read (readAddress dc) nBytes
                outBuffer := (bufferWriteBytes state.outBuffer copied).getD state.outBuffer
                bytesRemaining := state.bytesRemaining - nBytes }

/-- The loop variables once the first answer is hashed and copied. The prefix
byte is hashed but not copied. -/
def MerklePreimageState.start (memory : Memory) (dataPtr preimageLen partialDataLen : Nat)
    (out : Bytes) : MerklePreimageState :=
  let outBuffer := bufferCreate out
  let copied := memory.read (dataPtr + 1) (partialDataLen - 1)
  { hashed := memory.read dataPtr partialDataLen
    outBuffer := (bufferWriteBytes outBuffer copied).getD outBuffer
    bytesRemaining := (preimageLen % 2 ^ 32 + 2 ^ 32 - partialDataLen) % 2 ^ 32 }

/-- Receive the preimage of `hash` into `out`. -/
def callGetMerklePreimage (H : HashFunction) (hash : Digest) (out : Bytes)
    (dc : DispatcherContext) : List Apdu → Option (Outcome MerklePreimage)
  | [] => none
  | apdu :: pending =>
    match interrupt dc (getPreimageRequest hash) apdu with
    | (false, dc) => some ⟨⟨-1, out, []⟩, dc, pending⟩
    | (true, dc) =>
      match readPreimageHeader dc.readBuffer with
      | none => some ⟨⟨-2, out, []⟩, dc, pending⟩
      | some (preimageLen, partialDataLen, readBuffer) =>
        let dc := { dc with readBuffer }
        if preimageLen = 0 ∨ partialDataLen = 0 then some ⟨⟨-3, out, []⟩, dc, pending⟩
        else if preimageLen - 1 > out.length then some ⟨⟨-4, out, []⟩, dc, pending⟩
        else if partialDataLen > preimageLen then some ⟨⟨-5, out, []⟩, dc, pending⟩
        else
          let dataPtr := readAddress dc
          let state := MerklePreimageState.start dc.apduBuffer dataPtr preimageLen
            partialDataLen out
          match getMerklePreimageLoop dataPtr pending dc state with
          | none => none
          | some ⟨(code, state), dc, pending⟩ =>
            let out := state.outBuffer.bytes
            if code < 0 then some ⟨⟨code, out, state.hashed⟩, dc, pending⟩
            else if H state.hashed ≠ hash then
              some ⟨⟨-10, out, state.hashed⟩, dc, pending⟩
            else some ⟨⟨toInt (preimageLen - 1), out, state.hashed⟩, dc, pending⟩

/-! ## The two reads of every later answer -/

/-- For each later answer, the bytes its declared count selects at the read
position and the bytes the same count selects at `dataPtr`. -/
def laterReads (dataPtr : Nat) : Memory → List Apdu → List (Bytes × Bytes)
  | _, [] => []
  | memory, apdu :: later =>
    let memory := memoryAfter memory getMoreElementsRequest apdu
    let nBytes := (memory offsetCdata).toNat
    (memory.read (offsetCdata + 2) nBytes, memory.read dataPtr nBytes) ::
      laterReads dataPtr memory later

theorem laterReads_length_eq (dataPtr : Nat) (memory : Memory) (later : List Apdu) :
    ∀ pair ∈ laterReads dataPtr memory later, pair.1.length = pair.2.length := by
  induction later generalizing memory with
  | nil => simp [laterReads]
  | cons apdu later ih =>
    intro pair member
    rw [laterReads, List.mem_cons] at member
    rcases member with rfl | member
    · simp
    · exact ih _ pair member

/-- Number of payload bytes an answer declares. -/
def payloadCount (apdu : Apdu) : Nat := ((apdu[offsetCdata]?).getD 0).toNat

/-- The answers that together carry `remaining` payload bytes. -/
def neededAnswers : Nat → List Apdu → List Apdu
  | _, [] => []
  | remaining, apdu :: later =>
    if remaining = 0 then [] else apdu :: neededAnswers (remaining - payloadCount apdu) later

/-- The part of the output written so far. -/
def MerklePreimageState.written (state : MerklePreimageState) : Bytes :=
  state.outBuffer.bytes.take state.outBuffer.offset

/-- The output buffer has room for everything still expected. -/
def MerklePreimageState.HasRoom (state : MerklePreimageState) : Prop :=
  state.bytesRemaining ≤ state.outBuffer.bytes.length - state.outBuffer.offset

variable {state : MerklePreimageState} {outcome : Outcome (Int × MerklePreimageState)}

/-- One accepted answer: the state after it and the two reads it caused. -/
theorem getMerklePreimageLoop_step {apdu : Apdu} {pending : List Apdu}
    (expecting : state.bytesRemaining ≠ 0)
    (run : getMerklePreimageLoop dataPtr (apdu :: pending) dc state = some outcome)
    (done : 0 ≤ outcome.result.1) (room : state.HasRoom) :
    ∃ next : MerklePreimageState, ∃ resumed : DispatcherContext, ∃ nBytes,
      getMerklePreimageLoop dataPtr pending resumed next = some outcome ∧
      resumed.apduBuffer = memoryAfter dc.apduBuffer getMoreElementsRequest apdu ∧
      nBytes = (resumed.apduBuffer offsetCdata).toNat ∧ nBytes = payloadCount apdu ∧
      nBytes ≤ state.bytesRemaining ∧
      next.hashed = state.hashed ++ resumed.apduBuffer.read (offsetCdata + 2) nBytes ∧
      next.written = state.written ++ resumed.apduBuffer.read dataPtr nBytes ∧
      next.outBuffer.offset = state.outBuffer.offset + nBytes ∧
      next.outBuffer.bytes.length = state.outBuffer.bytes.length ∧
      next.bytesRemaining = state.bytesRemaining - nBytes ∧ next.HasRoom := by
  rw [getMerklePreimageLoop, if_neg expecting] at run
  split at run
  · cases run
    simp at done
  · rename_i resumed resumption
    obtain ⟨_, _, _, _, apduEq, rfl⟩ := interrupt_eq_true_iff.mp resumption
    split at run
    · cases run
      simp at done
    · rename_i nBytes elementsLen readBuffer header
      obtain ⟨count, _, _, rfl, rfl, rfl, _, _, offsetEq⟩ :=
        readElementsHeader_eq_some_iff.mp header
      simp only at run
      split_ifs at run with wrongLength tooMany
      · cases run
        simp at done
      · cases run
        simp at done
      · have countEq : (memoryAfter dc.apduBuffer getMoreElementsRequest apdu) offsetCdata =
            count := by
          rw [memoryAfter, apduEq]
          exact Memory.write_apply_inside _ 0 _ offsetCdata (by simp [continueApdu, offsetCdata])
        have fits : ((memoryAfter dc.apduBuffer getMoreElementsRequest apdu).read dataPtr
            count.toNat).length ≤ state.outBuffer.bytes.length - state.outBuffer.offset := by
          rw [Memory.length_read]
          exact le_trans (by omega) room
        obtain ⟨outBuffer, write⟩ : ∃ outBuffer, bufferWriteBytes state.outBuffer
            ((memoryAfter dc.apduBuffer getMoreElementsRequest apdu).read dataPtr count.toNat) =
              some outBuffer := by
          rw [bufferWriteBytes, dif_pos fits]
          exact ⟨_, rfl⟩
        have offset := (bufferWriteBytes_eq_some write).2.2
        have size := length_bufferWriteBytes write
        rw [Memory.length_read] at offset
        rw [write, Option.getD_some] at run
        refine ⟨_, _, count.toNat, run, rfl, (congrArg UInt8.toNat countEq).symm,
          by rw [apduEq]; rfl, by omega, ?_, ?_, offset, size, rfl, ?_⟩
        · simp [readAddress, offsetEq]
        · exact take_offset_bufferWriteBytes write
        · unfold MerklePreimageState.HasRoom at room ⊢
          simp only [offset, size]
          omega

/-- A completed loop has hashed the first reads and copied the second reads of
the answers it consumed, and filled the output by the bytes expected. -/
theorem getMerklePreimageLoop_spec
    (run : getMerklePreimageLoop dataPtr incoming dc state = some outcome)
    (done : 0 ≤ outcome.result.1) (room : state.HasRoom) :
    ∃ later, later = neededAnswers state.bytesRemaining incoming ∧
      outcome.result.2.hashed =
        state.hashed ++ ((laterReads dataPtr dc.apduBuffer later).map Prod.fst).flatten ∧
      outcome.result.2.written =
        state.written ++ ((laterReads dataPtr dc.apduBuffer later).map Prod.snd).flatten ∧
      outcome.result.2.outBuffer.offset = state.outBuffer.offset + state.bytesRemaining := by
  induction incoming generalizing dc state with
  | nil =>
    rw [getMerklePreimageLoop] at run
    split_ifs at run with finished
    cases run
    exact ⟨[], rfl, by simp [laterReads], by simp [laterReads], by simp [finished]⟩
  | cons apdu incoming ih =>
    by_cases finished : state.bytesRemaining = 0
    · rw [getMerklePreimageLoop, if_pos finished] at run
      cases run
      exact ⟨[], by rw [neededAnswers, if_pos finished], by simp [laterReads],
        by simp [laterReads], by simp [finished]⟩
    · obtain ⟨_, resumed, nBytes, nextRun, memoryEq, countEq, payloadEq, _, hashedEq,
        writtenEq, _, _, remainingEq, nextRoom⟩ := getMerklePreimageLoop_step finished run done room
      obtain ⟨later, neededEq, hashedFinal, writtenFinal, _⟩ := ih nextRun nextRoom
      have reads : laterReads dataPtr dc.apduBuffer (apdu :: later) =
          (resumed.apduBuffer.read (offsetCdata + 2) nBytes,
            resumed.apduBuffer.read dataPtr nBytes) ::
            laterReads dataPtr resumed.apduBuffer later := by
        rw [laterReads, ← memoryEq, countEq]
      refine ⟨apdu :: later, ?_, ?_, ?_, by omega⟩
      · rw [neededAnswers, if_neg finished, neededEq, remainingEq, payloadEq]
      · rw [hashedFinal, hashedEq, reads]
        simp
      · rw [writtenFinal, writtenEq, reads]
        simp

theorem MerklePreimageState.start_spec {memory : Memory}
    {dataPtr preimageLen partialDataLen : Nat} (nonempty : partialDataLen ≠ 0)
    (partialLe : partialDataLen ≤ preimageLen) (fits : preimageLen - 1 ≤ out.length)
    (small : preimageLen < 2 ^ 32) :
    let state := start memory dataPtr preimageLen partialDataLen out
    let chunk := memory.read (dataPtr + 1) (partialDataLen - 1)
    state.hashed = memory dataPtr :: chunk ∧ state.written = chunk ∧
      state.bytesRemaining = preimageLen - partialDataLen ∧
      state.outBuffer.offset + state.bytesRemaining = preimageLen - 1 ∧ state.HasRoom := by
  obtain ⟨count, rfl⟩ := Nat.exists_eq_succ_of_ne_zero nonempty
  have chunkFits : (memory.read (dataPtr + 1) count).length ≤
      (bufferCreate out).bytes.length - (bufferCreate out).offset := by
    simp only [Memory.length_read, bufferCreate]
    omega
  obtain ⟨outBuffer, write⟩ : ∃ outBuffer, bufferWriteBytes (bufferCreate out)
      (memory.read (dataPtr + 1) count) = some outBuffer := by
    rw [bufferWriteBytes, dif_pos chunkFits]
    exact ⟨_, rfl⟩
  have offsetEq := (bufferWriteBytes_eq_some write).2.2
  have sizeEq := length_bufferWriteBytes write
  have writtenEq := take_offset_bufferWriteBytes write
  simp only [Memory.length_read, bufferCreate, Nat.zero_add] at offsetEq sizeEq
  have remainingEq : (preimageLen % 2 ^ 32 + 2 ^ 32 - (count + 1)) % 2 ^ 32 =
      preimageLen - (count + 1) := by omega
  simp only [start, Nat.succ_eq_add_one, Nat.add_sub_cancel, write, Option.getD_some,
    remainingEq, written, HasRoom, offsetEq, sizeEq]
  refine ⟨Memory.read_succ _ _ _, ?_, trivial, by omega, by omega⟩
  rw [offsetEq] at writtenEq
  exact writtenEq

/-! ## Integrity of the copied bytes -/

/-- Address at which the data of the first answer starts. -/
def firstDataPtr (first : Apdu) : Nat :=
  offsetCdata + ((varintRead (first.drop offsetCdata)).map Prod.snd).getD 0 + 1

/-- Number of bytes that the first answer leaves to later ones. -/
def remainingAfterFirst (first : Apdu) : Nat :=
  ((varintRead (first.drop offsetCdata)).map Prod.fst).getD 0 -
    ((first[firstDataPtr first - 1]?).getD 0).toNat

/-- The two reads of every answer needed after the first. -/
def readsAfterFirst (hash : Digest) (dc : DispatcherContext) (first : Apdu)
    (later : List Apdu) : List (Bytes × Bytes) :=
  laterReads (firstDataPtr first)
    (memoryAfter dc.apduBuffer (getPreimageRequest hash) first)
    (neededAnswers (remainingAfterFirst first) later)

theorem readsAfterFirst_flatten_eq_iff (hash : Digest) (dc : DispatcherContext) (first : Apdu)
    (later : List Apdu) :
    ((readsAfterFirst hash dc first later).map Prod.fst).flatten =
        ((readsAfterFirst hash dc first later).map Prod.snd).flatten ↔
      ∀ pair ∈ readsAfterFirst hash dc first later, pair.1 = pair.2 :=
  flatten_fst_eq_flatten_snd_iff (laterReads_length_eq _ _ _)

/-- Inversion of a successful run: the hash is fed a prefix byte, the rest of the
first data and the first reads of the later answers; the output holds the rest
of the first data and the second reads. -/
theorem callGetMerklePreimage_success {H : HashFunction} {hash : Digest}
    {outcome : Outcome MerklePreimage}
    (outFits : out.length < 2 ^ 32)
    (run : callGetMerklePreimage H hash out dc incoming = some outcome)
    (success : 0 ≤ outcome.result.ret) :
    ∃ first later lead chunk, incoming = first :: later ∧ H outcome.result.hashed = hash ∧
      outcome.result.hashed =
        lead :: (chunk ++ ((readsAfterFirst hash dc first later).map Prod.fst).flatten) ∧
      outcome.result.out.take outcome.result.ret.toNat =
        chunk ++ ((readsAfterFirst hash dc first later).map Prod.snd).flatten := by
  cases incoming with
  | nil => simp [callGetMerklePreimage] at run
  | cons first incoming =>
  rw [callGetMerklePreimage] at run
  split at run
  · cases run
    simp at success
  · rename_i resumed resumption
    obtain ⟨p1, p2, data, _, firstEq, rfl⟩ := interrupt_eq_true_iff.mp resumption
    split at run
    · cases run
      simp at success
    · rename_i preimageLen partialDataLen readBuffer header
      obtain ⟨varintLen, varintEq, partialEq, partialLt, _, offsetEq, _⟩ :=
        readPreimageHeader_eq_some header
      simp only at run
      split_ifs at run with empty tooLong tooMany
      · cases run
        simp at success
      · cases run
        simp at success
      · cases run
        simp at success
      rw [not_or] at empty
      have dataPtrEq : offsetCdata + readBuffer.offset = firstDataPtr first := by
        have dropEq : (continueApdu p1 p2 data).drop offsetCdata = data := rfl
        rw [firstDataPtr, firstEq, dropEq, varintEq, offsetEq]
        rfl
      have remainingEq : remainingAfterFirst first = preimageLen - partialDataLen := by
        have dropEq : (continueApdu p1 p2 data).drop offsetCdata = data := rfl
        have position : first[firstDataPtr first - 1]? = data[varintLen]? := by
          rw [← dataPtrEq, offsetEq, firstEq]
          simp only [← Nat.add_assoc, Nat.add_sub_cancel]
          rw [Nat.add_comm]
          rfl
        rw [remainingAfterFirst, position, partialEq, firstEq, dropEq, varintEq, Option.getD_some,
          UInt8.toNat_ofNat', Nat.mod_eq_of_lt partialLt]
        rfl
      simp only [readAddress, dataPtrEq] at run
      split at run
      · cases run
      · rename_i code state final pending loopRun
        split_ifs at run with failed mismatch
        · cases run
          simp only at success
          omega
        · cases run
          simp at success
        · rw [Option.some.injEq] at run
          subst run
          simp only at success ⊢
          obtain ⟨retEq, small⟩ := toInt_eq_of_nonneg (by omega) success
          have lenLt : preimageLen < 2 ^ 32 := (Nat.le_add_of_sub_le small.le).trans_lt (by decide)
          obtain ⟨hashedStart, writtenStart, remainingStart, offsetStart, room⟩ :=
            MerklePreimageState.start_spec empty.2 (Nat.le_of_not_lt tooMany)
              (Nat.le_of_not_lt tooLong) lenLt
          obtain ⟨later, neededEq, hashedEq, writtenEq, offsetFinal⟩ :=
            getMerklePreimageLoop_spec loopRun (not_lt.mp failed) room
          rw [remainingStart, ← remainingEq] at neededEq
          subst neededEq
          rw [hashedStart, List.cons_append] at hashedEq
          rw [writtenStart, MerklePreimageState.written, offsetFinal, offsetStart] at writtenEq
          refine ⟨first, incoming, _, _, rfl, not_not.mp mismatch, hashedEq, ?_⟩
          rw [retEq, Int.toNat_natCast]
          exact writtenEq

/-- The bytes handed to the caller are exactly the bytes that were hashed, without
their prefix byte. -/
def MerklePreimage.Intact (result : MerklePreimage) : Prop :=
  ∃ lead, result.hashed = lead :: result.out.take result.ret.toNat

/-- Every answer needed after the first has the same bytes at the data pointer of
the first answer as at its own read position. -/
def CopiesAgree (hash : Digest) (dc : DispatcherContext) : List Apdu → Prop
  | [] => True
  | first :: later => ∀ pair ∈ readsAfterFirst hash dc first later, pair.1 = pair.2

/-- A successful run hashed a preimage of the requested hash. What it handed out
is that preimage without its prefix byte exactly when the stale data pointer
happens to show the same bytes as the read position in every later answer; if
no two of the strings concerned collide, this is also exactly when the hash
commits to some prefix byte followed by what was handed out. -/
theorem callGetMerklePreimage_intact_iff (H : HashFunction) (hash : Digest) (out : Bytes)
    (dc : DispatcherContext) (incoming : List Apdu) (outcome : Outcome MerklePreimage)
    (outFits : out.length < 2 ^ 32)
    (run : callGetMerklePreimage H hash out dc incoming = some outcome)
    (success : 0 ≤ outcome.result.ret) :
    H outcome.result.hashed = hash ∧
      (outcome.result.Intact ↔ CopiesAgree hash dc incoming) ∧
      (CollisionFreeOn H {bs | bs = outcome.result.hashed ∨
          bs.tail = outcome.result.out.take outcome.result.ret.toNat} →
        ((∃ lead, H (lead :: outcome.result.out.take outcome.result.ret.toNat) = hash) ↔
          CopiesAgree hash dc incoming)) := by
  obtain ⟨first, later, lead, chunk, incomingEq, hashEq, hashedEq, outEq⟩ :=
    callGetMerklePreimage_success outFits run success
  subst incomingEq
  have intact : outcome.result.Intact ↔ CopiesAgree hash dc (first :: later) := by
    rw [CopiesAgree, ← readsAfterFirst_flatten_eq_iff, MerklePreimage.Intact, hashedEq, outEq]
    simp
  refine ⟨hashEq, intact, ?_⟩
  intro collisionFree
  rw [← intact]
  constructor
  · rintro ⟨lead', committed⟩
    refine ⟨lead', ?_⟩
    exact collisionFree (Or.inl rfl) (Or.inr rfl) (hashEq.trans committed.symm)
  · rintro ⟨lead', hashedTail⟩
    exact ⟨lead', by rw [← hashedTail, hashEq]⟩

/-- SHA-256 on the three-byte string `00 61 62`. -/
def sampleHash : HashFunction :=
  tableHash [([0x00, 0x61, 0x62],
    0x0bd1da9a5f5b14af2582b166258257e416ea3e6a25dfbf3e809e662e0ffd6542)]

/-- A run in two answers with a one-byte length. -/
theorem callGetMerklePreimage_intact_iff_two_answers :
    let hash := sampleHash [0x00, 0x61, 0x62]
    let incoming := [continueApdu 0 0 [0x03, 0x01, 0x00],
      continueApdu 0 0 [0x02, 0x01, 0x61, 0x62]]
    ∃ outcome, callGetMerklePreimage sampleHash hash [0, 0] .initial incoming = some outcome ∧
      outcome.result = ⟨2, [0x61, 0x62], [0x00, 0x61, 0x62]⟩ ∧
      (outcome.result.Intact ↔ CopiesAgree hash .initial incoming) := by
  intro hash incoming
  have results : (callGetMerklePreimage sampleHash hash [0, 0] .initial incoming).map (·.result) =
      some ⟨2, [0x61, 0x62], [0x00, 0x61, 0x62]⟩ := by decide
  obtain ⟨outcome, run, resultEq⟩ := Option.map_eq_some_iff.mp results
  exact ⟨outcome, run, resultEq, (callGetMerklePreimage_intact_iff sampleHash hash [0, 0] .initial
    incoming outcome (by decide) run (by rw [resultEq]; decide)).2.1⟩

/-- The same preimage with its length written as a three-byte varint: the flow
reports success and hands out two stale bytes of the APDU buffer. -/
theorem callGetMerklePreimage_not_intact :
    let incoming := [continueApdu 0 0 [0xFD, 0x03, 0x00, 0x01, 0x00],
      continueApdu 0 0 [0x02, 0x01, 0x61, 0x62]]
    ∃ outcome, callGetMerklePreimage sampleHash (sampleHash [0x00, 0x61, 0x62]) [0, 0] .initial
        incoming = some outcome ∧
      outcome.result = ⟨2, [0x00, 0x25], [0x00, 0x61, 0x62]⟩ ∧ ¬ outcome.result.Intact := by
  intro incoming
  have results : (callGetMerklePreimage sampleHash (sampleHash [0x00, 0x61, 0x62]) [0, 0] .initial
      incoming).map (·.result) = some ⟨2, [0x00, 0x25], [0x00, 0x61, 0x62]⟩ := by decide
  obtain ⟨outcome, run, resultEq⟩ := Option.map_eq_some_iff.mp results
  refine ⟨outcome, run, resultEq, ?_⟩
  rw [resultEq]
  rintro ⟨lead, hashedEq⟩
  simp at hashedEq

end LedgerSyscoin.Handler
