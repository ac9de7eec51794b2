import LedgerSyscoin.Client.Python
import LedgerSyscoin.Handler.Lib.LeafProofDelivery
import LedgerSyscoin.Handler.Lib.StreamPreimage

/-!
# Sessions of the device and the Python client

A session is a run of a flow of the device in which the answers are the responses of the
client to the requests that the device sends. The client answers with as much as fits
and queues the rest, and the device asks for more until the queue is empty. Proofs of
leaves and preimages arrive completely in this way.
-/

namespace LedgerSyscoin.Client.Python

open Foundation Common Boilerplate List
  LedgerSyscoin.Handler

variable {client : ClientCommandInterpreter}

/-- The APDU that carries a response; the second parameter is the version of the protocol. -/
def continueInterrupted (response : Bytes) : Apdu := continueApdu 0 1 response

/-- A run of a flow on the responses of a client to its requests. -/
structure Session {α : Type} (client : ClientCommandInterpreter)
    (flow : List Apdu → Option (Outcome α)) (dc : DispatcherContext) (responses : List Bytes)
    (outcome : Outcome α) (after : ClientCommandInterpreter) : Prop where
  served : ∃ requests, Responder.serve respond client requests = some (responses, after) ∧
    outcome.dc.sent = dc.sent ++ requests.map fun request => (request, swInterruptedExecution)
  run : flow (responses.map continueInterrupted) = some outcome
  complete : outcome.pending = []

section Drain

variable {α : Type} {elementLen : Nat} {encode : α → Bytes}

/-- The answer of a client to a request for more of its queue. -/
theorem moreElements_map (fits : elementLen ≤ 253) (positive : 0 < elementLen)
    (lengths : ∀ item, (encode item).length = elementLen) {items : List α}
    (nonempty : items ≠ []) :
    ∃ count, 0 < count ∧ count ≤ 253 / elementLen ∧ count ≤ items.length ∧
      moreElements (items.map encode) =
        some (elementsResponse elementLen ((items.take count).map encode),
          (items.drop count).map encode) := by
  obtain ⟨item, items, rfl⟩ := exists_cons_of_ne_nil nonempty
  refine ⟨elementsCount elementLen ((item :: items).map encode), ?_, Nat.min_le_left _ _, ?_, ?_⟩
  · refine lt_min (Nat.div_pos fits positive) ?_
    simp
  · refine (Nat.min_le_right _ _).trans ?_
    simp
  · have uniform : ¬ ∃ other ∈ encode item :: items.map encode,
        other.length ≠ (encode item).length := by
      rintro ⟨other, member, different⟩
      obtain ⟨source, -, rfl⟩ := mem_map.mp (map_cons ▸ member)
      exact different ((lengths source).trans (lengths item).symm)
    rw [map_cons, moreElements, if_neg uniform, lengths item, ← map_cons, map_take, map_drop]

/-- Asking for more until the queue is empty delivers all of it in chunks. -/
theorem exists_drain (fits : elementLen ≤ 253) (positive : 0 < elementLen)
    (lengths : ∀ item, (encode item).length = elementLen) (items : List α)
    (queued : client.queue = items.map encode) :
    ∃ chunks : List (List α), chunks.flatten = items ∧
      (∀ chunk ∈ chunks, chunk ≠ [] ∧ chunk.length ≤ 253 / elementLen) ∧
      Responder.serve respond client (replicate chunks.length getMoreElementsRequest) =
        some (chunks.map fun chunk => elementsResponse elementLen (chunk.map encode),
          { client with queue := [] }) := by
  induction size : items.length using Nat.strong_induction_on generalizing items client with
  | _ size' ih =>
    subst size
    by_cases empty : items = []
    · subst empty
      refine ⟨[], rfl, by simp, ?_⟩
      cases client
      cases queued
      rfl
    · obtain ⟨count, _, _, _, more⟩ :=
        moreElements_map fits positive lengths empty
      have sizes : ∀ element ∈ client.queue, 0 < element.length ∧ element.length < 256 := by
        intro element member
        obtain ⟨item, -, rfl⟩ := mem_map.mp (queued ▸ member)
        rw [lengths]
        omega
      have response : respond client getMoreElementsRequest =
          some (elementsResponse elementLen ((items.take count).map encode),
            { client with queue := (items.drop count).map encode }) := by
        refine (toOption_bind_pure _ _).trans ?_
        rw [getMoreElements_request sizes, queued, more]
        rfl
      obtain ⟨chunks, flat, chunkSizes, served⟩ := ih (items.drop count).length
        (by rw [length_drop]; omega) (items.drop count)
        (show ({ client with queue := (items.drop count).map encode } :
          ClientCommandInterpreter).queue = _ from rfl) rfl
      refine ⟨items.take count :: chunks, ?_, ?_, ?_⟩
      · rw [flatten_cons, flat, take_append_drop]
      · refine forall_mem_cons.mpr ⟨⟨?_, ?_⟩, chunkSizes⟩
        · refine ne_nil_of_length_pos ?_
          rw [length_take]
          omega
        · rw [length_take]
          omega
      · rw [length_cons, replicate_succ]
        exact Responder.serve_cons response served

end Drain

/-! ## Proofs of leaves -/

section LeafProof

variable {H : HashFunction} {leaves : List Digest} {index : Nat}

/-- The response with the start of the proof of a leaf. -/
theorem respond_leafProof (small : leaves.length ≤ 2 ^ 31) (inside : index < leaves.length)
    (known : client.knownTrees (MerkleTree.new H leaves).root = some (MerkleTree.new H leaves))
    (idle : client.queue = []) :
    respond client (getMerkleLeafProofRequest (MerkleTree.new H leaves).root leaves.length index) =
      some (proofResponse leaves[index] (leafProof H leaves index),
        { client with queue := proofRest (leafProof H leaves index) }) := by
  have proved := respondLeafProof_eq (H := H) small leaves.length index []
  rw [Reference.proveLeaf, if_neg (by omega), if_neg (by simp),
    getElem?_eq_getElem inside] at proved
  refine (toOption_bind_pure _ _).trans ?_
  rw [getMerkleLeafProof_request _ _ _ (by omega) (by omega), known, idle]
  simp only [proved, Option.map_some]

/-- The steps from a leaf to the root. -/
def leafSteps (H : HashFunction) (leaves : List Digest) (index : Nat) : List (Bool × Digest) :=
  ((leftComplete (Digest.ofNat 0) leaves).opening (merkleCombineHashes H)
    (pathTo leaves.length index)).reverse

theorem leafProof_eq_leafSteps :
    leafProof H leaves index = (leafSteps H leaves index).map Prod.snd :=
  map_reverse.symm

theorem directions_leafSteps (inside : index < leaves.length) :
    (leafSteps H leaves index).reverse.map Prod.fst = pathTo leaves.length index := by
  rw [leafSteps, reverse_reverse]
  exact HashTree.map_fst_opening _ (subtree_pathTo (Digest.ofNat 0) inside)

theorem climb_leafSteps (inside : index < leaves.length) :
    HashTree.climb (merkleCombineHashes H) (leafSteps H leaves index).reverse leaves[index] =
      (MerkleTree.new H leaves).root := by
  rw [leafSteps, reverse_reverse, root_new]
  exact HashTree.climb_opening _ (subtree_pathTo (Digest.ofNat 0) inside)

/-- The first response is the answer that the device expects. -/
theorem leafAnswer_proofResponse (leaf : Digest) (steps : List (Bool × Digest)) :
    LeafAnswer leaf steps.reverse.length (steps.take (proofPartSize (steps.map Prod.snd)))
      (continueInterrupted (proofResponse leaf (steps.map Prod.snd))) := by
  have partLength : (steps.take (proofPartSize (steps.map Prod.snd))).length =
      proofPartSize (steps.map Prod.snd) := by
    refine length_take_of_le ((Nat.min_le_right _ _).trans ?_)
    rw [length_map]
  refine ⟨partLength.le.trans (Nat.min_le_left _ _), 0, 1, ?_⟩
  rw [continueInterrupted, proofResponse, siblingBytes, partLength, length_reverse,
    length_map, ← map_take, map_map]
  rfl

theorem stepsAnswer_elementsResponse {chunk : List (Bool × Digest)}
    (size : chunk ≠ [] ∧ chunk.length ≤ 253 / 32) :
    StepsAnswer chunk
      (continueInterrupted (elementsResponse 32 (chunk.map fun step => step.2.val))) := by
  refine ⟨size.1, size.2, 0, 1, ?_⟩
  rw [elementsResponse, length_map]
  rfl

/-- For every list of at most `2 ^ 31` leaves and every index in range, the session of the device
with a client that knows the tree over the list ends with the leaf at that index, and with an
empty queue. -/
theorem getMerkleLeafHash_session (H : HashFunction) (leaves : List Digest) (index : Nat)
    (small : leaves.length ≤ 2 ^ 31) (inside : index < leaves.length)
    (client : ClientCommandInterpreter)
    (known : client.knownTrees (MerkleTree.new H leaves).root = some (MerkleTree.new H leaves))
    (idle : client.queue = []) (out : Digest) (dc : DispatcherContext) :
    ∃ responses outcome after,
      Session client (callGetMerkleLeafHash H (MerkleTree.new H leaves).root leaves.length index
        out dc) dc responses outcome after ∧
      outcome.result.ret = 0 ∧ outcome.result.out = leaves[index] ∧ after.queue = [] := by
  have opened := respond_leafProof small inside known idle
  have directions := directions_leafSteps (H := H) inside
  have climbs := climb_leafSteps (H := H) inside
  rw [leafProof_eq_leafSteps] at opened
  generalize leafSteps H leaves index = steps at opened directions climbs
  obtain ⟨chunks, flat, chunkSizes, served⟩ := exists_drain (by decide) (by decide)
    (fun step : Bool × Digest => step.2.property)
    (steps.drop (proofPartSize (steps.map Prod.snd)))
    (show ({ client with queue := proofRest (steps.map Prod.snd) } :
        ClientCommandInterpreter).queue = _ by
      rw [proofRest, ← map_drop, map_map]
      rfl)
  have delivered : List.Forall₂ StepsAnswer chunks ((chunks.map fun chunk =>
      elementsResponse 32 (chunk.map fun step => step.2.val)).map continueInterrupted) := by
    rw [map_map, forall₂_map_right_iff, forall₂_same]
    exact fun chunk member => stepsAnswer_elementsResponse (chunkSizes chunk member)
  obtain ⟨hashed, final, run, sent⟩ := exists_callGetMerkleLeafHash H leaves[index] small inside
    directions (show steps.reverse = _ by rw [flat, take_append_drop])
    (leafAnswer_proofResponse leaves[index] steps) delivered [] out dc
  rw [climbs, append_nil] at run
  rw [climbs] at sent
  refine ⟨_, _, _, ⟨⟨_, Responder.serve_cons opened served, ?_⟩, run, rfl⟩, rfl, rfl, rfl⟩
  rw [map_cons, map_replicate]
  exact sent

/-- A client that knows a tree of two leaves. -/
theorem getMerkleLeafHash_session_sample :
    let leaves := [Digest.ofNat sampleLeaf0, Digest.ofNat sampleLeaf1]
    let client : ClientCommandInterpreter :=
      ⟨fun _ => none, fun _ => some (MerkleTree.new sampleTreeHash leaves), [], []⟩
    ∃ responses outcome after,
      Session client
        (callGetMerkleLeafHash sampleTreeHash (MerkleTree.new sampleTreeHash leaves).root
        2 1 (Digest.ofNat 0) .initial) .initial responses outcome after ∧
      outcome.result.ret = 0 ∧ outcome.result.out = Digest.ofNat sampleLeaf1 ∧ after.queue = [] :=
  getMerkleLeafHash_session sampleTreeHash [Digest.ofNat sampleLeaf0, Digest.ofNat sampleLeaf1] 1
    (by decide) (by decide) _ rfl rfl _ _

end LeafProof

/-! ## Preimages -/

section Preimage

variable {H : HashFunction} {preimage : Bytes}

/-- The response with the start of a preimage. -/
theorem respond_preimage (small : preimage.length < 2 ^ 64)
    (known : client.knownPreimages (H preimage) = some preimage) (idle : client.queue = []) :
    respond client (getPreimageRequest (H preimage)) =
      some (preimageResponse preimage, { client with queue := preimageRest preimage }) := by
  refine (toOption_bind_pure _ _).trans ?_
  rw [getPreimage_request, known, idle]
  simp only [respondPreimage_eq small, nil_append]
  rfl

theorem length_preimageResponse_le (preimage : Bytes) :
    (preimageResponse preimage).length ≤ 255 := by
  have size := varintSize_le preimage.length
  have fits : payloadSize preimage ≤ 255 - varintSize preimage.length - 1 := Nat.min_le_left _ _
  have inside : payloadSize preimage ≤ preimage.length := Nat.min_le_right _ _
  rw [preimageResponse, length_append, length_varintWrite, length_cons, length_take_of_le inside]
  omega

theorem elementsResponse_bytes (chunk : Bytes) :
    elementsResponse 1 (chunk.map fun byte => [byte]) =
      UInt8.ofNat chunk.length :: 1 :: chunk := by
  rw [elementsResponse, length_map, ← flatMap_def, flatMap_singleton']
  rfl

/-- The first byte of a preimage is always in the first response. -/
theorem payloadSize_pos (nonempty : preimage ≠ []) : 0 < payloadSize preimage := by
  have size := varintSize_le preimage.length
  have positive := length_pos_iff.mpr nonempty
  rw [payloadSize]
  omega

/-- The responses of a client deliver the preimage to the device. -/
theorem delivers_responses {lead : UInt8} {stream : Bytes}
    (short : (lead :: stream).length < 2 ^ 31) {chunks : List Bytes}
    (flat : chunks.flatten = (lead :: stream).drop (payloadSize (lead :: stream)))
    (sizes : ∀ chunk ∈ chunks, chunk ≠ [] ∧ chunk.length ≤ 253 / 1) :
    Delivers lead (stream.take (payloadSize (lead :: stream) - 1)) chunks
      ((preimageResponse (lead :: stream) :: chunks.map fun chunk =>
        elementsResponse 1 (chunk.map fun byte => [byte])).map continueInterrupted) := by
  have positive := payloadSize_pos (cons_ne_nil lead stream)
  have inside : payloadSize (lead :: stream) ≤ stream.length + 1 := Nat.min_le_right _ _
  obtain ⟨_, sizeEq⟩ := Nat.exists_eq_succ_of_ne_zero positive.ne'
  rw [sizeEq, drop_succ_cons] at flat
  have total : (stream.take (payloadSize (lead :: stream) - 1)).length + chunks.flatten.length + 1 =
      (lead :: stream).length := by
    rw [flat, length_take, length_drop, length_cons]
    omega
  have part : (lead :: stream).take (payloadSize (lead :: stream)) =
      lead :: stream.take (payloadSize (lead :: stream) - 1) := by
    rw [sizeEq, take_succ_cons]
    rfl
  have partLength : (lead :: stream.take (payloadSize (lead :: stream) - 1)).length =
      payloadSize (lead :: stream) := by
    rw [← part, length_take_of_le inside]
  refine ⟨by omega, ⟨_, _, rfl, ?_, ?_⟩, fun chunk last => (sizes chunk ?_).1⟩
  · rw [total]
    refine ⟨0, 1, varintWrite (lead :: stream).length, [], (lead :: stream).length, ?_, ?_, ?_, ?_⟩
    · rw [partLength, append_nil, ← part]
      rfl
    · rw [partLength, append_nil, ← part]
      exact Nat.lt_succ_of_le (length_preimageResponse_le (lead :: stream))
    · have read := varintRead_varintWrite_append (lead :: stream).length (by omega) []
      rw [append_nil] at read
      rw [read, length_varintWrite]
    · exact Nat.mod_eq_of_lt (by omega)
  · rw [map_map, forall₂_map_right_iff, forall₂_same]
    intro chunk member
    have short := (sizes chunk member).2
    refine ⟨0, 1, [], ?_, ?_⟩
    · rw [append_nil, Function.comp_apply, elementsResponse_bytes]
      rfl
    · rw [append_nil]
      omega
  · exact mem_of_mem_getLast? last

/-- For every preimage that a client with empty queue knows, the session of the device with the
client hands the preimage without its first byte to the callback, in chunks. Every response fits
one APDU and the queue is empty in the end. -/
theorem streamPreimage_session {σ : Type} (H : HashFunction) (preimage : Bytes)
    (nonempty : preimage ≠ []) (short : preimage.length < 2 ^ 31)
    (client : ClientCommandInterpreter)
    (known : client.knownPreimages (H preimage) = some preimage) (idle : client.queue = [])
    (lenCallback : Option (Nat → σ → σ)) (callback : Bytes → σ → σ) (initial : σ)
    (dc : DispatcherContext) :
    ∃ responses outcome after, ∃ chunks : List Bytes,
      Session client (callStreamPreimage H (H preimage) lenCallback callback initial dc) dc
        responses outcome after ∧
      (∀ response ∈ responses, response.length ≤ 255) ∧
      outcome.result = (((preimage.length - 1 : Nat) : Int),
        chunks.foldl (fun state chunk => callback chunk state)
          (announce lenCallback (preimage.length - 1) initial)) ∧
      chunks.flatten = preimage.tail ∧ after.queue = [] := by
  obtain ⟨lead, stream, rfl⟩ := exists_cons_of_ne_nil nonempty
  have opened := respond_preimage (by omega) known idle
  obtain ⟨chunks, flat, sizes, served⟩ := exists_drain (by decide) (by decide)
    (fun byte : UInt8 => (rfl : [byte].length = 1))
    ((lead :: stream).drop (payloadSize (lead :: stream)))
    (show ({ client with queue := preimageRest (lead :: stream) } :
      ClientCommandInterpreter).queue = _ from rfl)
  have delivers := delivers_responses short flat sizes
  obtain ⟨final, run, sent⟩ := callStreamPreimage_of_delivers H (H (lead :: stream)) lenCallback
    callback initial dc delivers []
  have whole : stream.take (payloadSize (lead :: stream) - 1) ++ chunks.flatten = stream := by
    obtain ⟨size, sizeEq⟩ := Nat.exists_eq_succ_of_ne_zero (payloadSize_pos nonempty).ne'
    rw [flat, sizeEq, drop_succ_cons]
    exact take_append_drop size stream
  rw [length_cons] at short
  rw [whole, if_pos rfl, toInt_of_lt (by omega), append_nil] at run
  refine ⟨_, _, _, stream.take (payloadSize (lead :: stream) - 1) :: chunks,
    ⟨⟨_, Responder.serve_cons opened served, ?_⟩, run, rfl⟩, ?_, rfl, whole, rfl⟩
  · rw [map_cons, map_replicate]
    exact sent
  · rw [forall_mem_cons, forall_mem_map]
    refine ⟨length_preimageResponse_le _, fun chunk member => ?_⟩
    have chunkSize : chunk.length ≤ 253 := (sizes chunk member).2
    rw [elementsResponse_bytes, length_cons, length_cons]
    omega

/-- A preimage of 601 bytes, which takes two more answers, collected by the callback. -/
theorem streamPreimage_session_sample :
    let preimage : Bytes := 0x00 :: replicate 600 0x61
    let client : ClientCommandInterpreter := ⟨fun _ => some preimage, fun _ => none, [], []⟩
    ∃ responses outcome after, ∃ chunks : List Bytes,
      Session client (callStreamPreimage sampleTreeHash (sampleTreeHash preimage) none
        (fun data collected => collected ++ data) [] .initial) .initial responses outcome after ∧
      (∀ response ∈ responses, response.length ≤ 255) ∧
      outcome.result = (600, chunks.foldl (fun collected data => collected ++ data) []) ∧
      chunks.flatten = replicate 600 0x61 ∧ after.queue = [] := by
  intro preimage client
  have length : preimage.length = 601 := by rw [length_cons, length_replicate]
  have session := streamPreimage_session sampleTreeHash preimage (cons_ne_nil _ _)
    (by rw [length]; decide) client rfl rfl none (fun data collected => collected ++ data) []
    .initial
  rwa [length] at session

end Preimage

end LedgerSyscoin.Client.Python
