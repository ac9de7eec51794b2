import LedgerSyscoin.Client.Merkle
import LedgerSyscoin.Foundation.Attempt
import LedgerSyscoin.Foundation.Responder
import LedgerSyscoin.Handler.Lib.GetMerkleizedMapValueHash

/-!
# What a client answers

The requests of the device, and the answers of an abstract client that knows some
preimages and the leaves of some Merkle trees. What does not fit one answer is queued,
and `GET_MORE_ELEMENTS` takes as much from the queue as fits. The libraries are compared
with this client; they disagree about a leaf that is not in the tree, so that answer is
a parameter.
-/

namespace LedgerSyscoin.Client

open Foundation Common Handler List

/-- A request of the device. -/
inductive ClientCommand where
  | yield (data : Bytes)
  | getPreimage (hash : Digest)
  | getMerkleLeafProof (root : Digest) (treeSize leafIndex : UInt64)
  | getMerkleLeafIndex (root leafHash : Digest)
  | getMoreElements

/-- The bytes that the device sends. -/
def ClientCommand.request : ClientCommand → Bytes
  | yield data => ccmdYield :: data
  | getPreimage hash => getPreimageRequest hash
  | getMerkleLeafProof root treeSize leafIndex =>
    getMerkleLeafProofRequest root treeSize.toNat leafIndex.toNat
  | getMerkleLeafIndex root leafHash => getMerkleLeafIndexRequest root leafHash
  | getMoreElements => getMoreElementsRequest

/-- Number of bytes of a preimage that fit the answer after its length. -/
def payloadSize (preimage : Bytes) : Nat :=
  min (255 - varintSize preimage.length - 1) preimage.length

/-- The answer with the start of a preimage. -/
def preimageResponse (preimage : Bytes) : Bytes :=
  varintWrite preimage.length ++
    UInt8.ofNat (payloadSize preimage) :: preimage.take (payloadSize preimage)

/-- The rest of a preimage, one element for each byte. -/
def preimageRest (preimage : Bytes) : List Bytes :=
  (preimage.drop (payloadSize preimage)).map fun byte => [byte]

/-- The size of the payload and the queue as Python and JavaScript compute them. -/
def queuePreimage (preimageLenOut knownPreimage : Bytes) (queue : List Bytes) : Nat × List Bytes :=
  let maxPayloadSize := 255 - preimageLenOut.length - 1
  let payloadSize := min maxPayloadSize knownPreimage.length
  (payloadSize,
    if payloadSize < knownPreimage.length then
      queue ++ (knownPreimage.drop payloadSize).map fun byte => [byte]
    else queue)

theorem queuePreimage_eq (knownPreimage : Bytes) (queue : List Bytes) :
    queuePreimage (varintWrite knownPreimage.length) knownPreimage queue =
      (payloadSize knownPreimage, queue ++ preimageRest knownPreimage) := by
  rw [queuePreimage, length_varintWrite]
  change (payloadSize knownPreimage, _) = _
  congr 1
  split_ifs with more
  · rfl
  · have nothing : knownPreimage.drop (payloadSize knownPreimage) = [] :=
      drop_eq_nil_of_le (not_lt.mp more)
    rw [preimageRest, nothing, map_nil, append_nil]

theorem payloadSize_lt (preimage : Bytes) : payloadSize preimage < 256 := by
  rw [payloadSize]
  omega

/-- Number of elements of a proof that fit the answer after the leaf. -/
def proofPartSize (proof : List Digest) : Nat := min 6 proof.length

/-- The answer with a leaf and the start of its proof. -/
def proofResponse (leaf : Digest) (proof : List Digest) : Bytes :=
  leaf.val ++ UInt8.ofNat proof.length :: UInt8.ofNat (proofPartSize proof) ::
    ((proof.take (proofPartSize proof)).map Subtype.val).flatten

def proofRest (proof : List Digest) : List Bytes :=
  (proof.drop (proofPartSize proof)).map Subtype.val

/-- The number of elements in the answer and the queue as Python and JavaScript compute them. -/
def queueProof (proof : List Digest) (queue : List Bytes) : Nat × List Bytes :=
  let nResponseElements := min ((255 - 32 - 1 - 1) / 32) proof.length
  let nLeftoverElements := proof.length - nResponseElements
  (nResponseElements,
    if nLeftoverElements > 0 then
      queue ++ (proof.drop (proof.length - nLeftoverElements)).map Subtype.val
    else queue)

theorem queueProof_eq (proof : List Digest) (queue : List Bytes) :
    queueProof proof queue = (proofPartSize proof, queue ++ proofRest proof) := by
  have partLe : proofPartSize proof ≤ proof.length := Nat.min_le_right _ _
  rw [queueProof]
  change (proofPartSize proof, if proof.length - proofPartSize proof > 0 then
    queue ++ (proof.drop (proof.length - (proof.length - proofPartSize proof))).map Subtype.val
    else queue) = _
  congr 1
  split_ifs with more
  · rw [Nat.sub_sub_self partLe]
    rfl
  · rw [proofRest, drop_eq_nil_of_le (by omega), map_nil, append_nil]

/-- The answer with elements of the given length. -/
def elementsResponse (elementLen : Nat) (elements : List Bytes) : Bytes :=
  UInt8.ofNat elements.length :: UInt8.ofNat elementLen :: elements.flatten

/-- Number of elements of the given length that fit one answer. -/
def elementsCount (elementLen : Nat) (queue : List Bytes) : Nat :=
  min (253 / elementLen) queue.length

/-- One more element that fits leaves room for one element less. -/
theorem room_succ {used elementLen : Nat} (positive : 0 < elementLen)
    (fits : used + elementLen ≤ 253) (left : Nat) :
    min ((253 - used) / elementLen) (left + 1) =
      min ((253 - (used + elementLen)) / elementLen) left + 1 := by
  have room : (253 - used) / elementLen = (253 - (used + elementLen)) / elementLen + 1 := by
    rw [← Nat.add_div_right _ positive]
    congr 1
    omega
  rw [room, Nat.add_min_add_right]

/-- Take as many elements from the queue as fit one answer. They must have equal length. -/
def moreElements : List Bytes → Option (Bytes × List Bytes)
  | [] => none
  | element :: queue =>
    if ∃ other ∈ element :: queue, other.length ≠ element.length then none
    else
      let count := elementsCount element.length (element :: queue)
      some (elementsResponse element.length ((element :: queue).take count),
        (element :: queue).drop count)

theorem moreElements_cons {element : Bytes} {queue : List Bytes}
    (uniform : ¬ ∃ other ∈ element :: queue, other.length ≠ element.length) :
    moreElements (element :: queue) =
      let count := elementsCount element.length (element :: queue)
      some (UInt8.ofNat count :: UInt8.ofNat element.length ::
        ((element :: queue).take count).flatten, (element :: queue).drop count) := by
  simp only [moreElements, if_neg uniform, elementsResponse,
    length_take_of_le (Nat.min_le_right _ _), elementsCount]

/-- The preimages and the leaves of the trees that a client knows. -/
structure Knowledge where
  preimage : Digest → Option Bytes
  leaves : Digest → Option (List Digest)

/-- The state of a client: what it knows, what does not fit the last answer and what it was
told. -/
structure Reference where
  known : Knowledge
  queue : List Bytes
  yielded : List Bytes

namespace Reference

variable (H : HashFunction) (absent : Option Bytes)

/-- The answer of a client that knows the leaves of a tree to a request for a proof. -/
def proveLeaf (queue : List Bytes) (leaves : List Digest) (treeSize leafIndex : Nat) :
    Option (Bytes × List Bytes) :=
  if leafIndex ≥ treeSize ∨ leaves.length ≠ treeSize then none
  else if queue ≠ [] then none
  else
    (leaves[leafIndex]?).map fun leaf =>
      let proof := leafProof H leaves leafIndex
      (proofResponse leaf proof, proofRest proof)

/-- The answer about the position of a leaf. -/
def leafIndex (leaves : List Digest) (leafHash : Digest) : Option Bytes :=
  match leaves.findIdx? (· = leafHash) with
  | some index => some (1 :: varintWrite index)
  | none => absent

/-- The answer to a request. -/
def answer : Responder Reference ClientCommand Bytes
  | client, .yield data => some ([], { client with yielded := client.yielded ++ [data] })
  | client, .getPreimage hash =>
    (client.known.preimage hash).map fun preimage =>
      (preimageResponse preimage, { client with queue := client.queue ++ preimageRest preimage })
  | client, .getMerkleLeafProof root treeSize leafIndex =>
    ((client.known.leaves root).bind fun leaves =>
      proveLeaf H client.queue leaves treeSize.toNat leafIndex.toNat).map
        fun (response, queue) => (response, { client with queue })
  | client, .getMerkleLeafIndex root leafHash =>
    ((client.known.leaves root).bind fun leaves => leafIndex absent leaves leafHash).map
      fun response => (response, client)
  | client, .getMoreElements =>
    (moreElements client.queue).map fun (response, queue) => (response, { client with queue })

/-- Whether a party answers like a client in the given state, where the party moves on by
`withQueue` and `tell`. -/
structure AnsweredBy {τ : Type} (client : Reference) (party : ClientCommand → Option (Bytes × τ))
    (state : τ) (withQueue : List Bytes → τ) (tell : Bytes → τ) : Prop where
  told : ∀ data, party (.yield data) = some ([], tell data)
  getPreimage : ∀ hash, party (.getPreimage hash) =
    ((client.known.preimage hash).map fun preimage =>
      (preimageResponse preimage, client.queue ++ preimageRest preimage)).map
        fun (response, queue) => (response, withQueue queue)
  getMerkleLeafProof : ∀ root treeSize leafIndex,
    party (.getMerkleLeafProof root treeSize leafIndex) =
      ((client.known.leaves root).bind fun leaves =>
        proveLeaf H client.queue leaves treeSize.toNat leafIndex.toNat).map
          fun (response, queue) => (response, withQueue queue)
  getMerkleLeafIndex : ∀ root leafHash, party (.getMerkleLeafIndex root leafHash) =
    ((client.known.leaves root).bind fun leaves => leafIndex absent leaves leafHash).map
      fun response => (response, state)
  getMoreElements : party .getMoreElements = (moreElements client.queue).map
    fun (response, queue) => (response, withQueue queue)

variable {H} {absent : Option Bytes} {client next : Reference} {command : ClientCommand}
  {response : Bytes}

/-- A party that answers like the client agrees with it, if its moves keep the states
related. -/
theorem AnsweredBy.agree {τ : Type} {related : Reference → τ → Prop}
    {party : ClientCommand → Option (Bytes × τ)} {state : τ} {withQueue : List Bytes → τ}
    {tell : Bytes → τ} (answered : AnsweredBy H absent client party state withQueue tell)
    (start : related client state)
    (queued : ∀ queue, related { client with queue } (withQueue queue))
    (told : ∀ data, related { client with yielded := client.yielded ++ [data] } (tell data))
    (command : ClientCommand) :
    Responder.Agree related (answer H absent client command) (party command) := by
  cases command with
  | «yield» data =>
    rw [answered.told]
    exact ⟨rfl, told data⟩
  | getPreimage hash =>
    rw [answered.getPreimage, Option.map_map]
    exact Responder.agree_map fun preimage _ => ⟨rfl, queued _⟩
  | getMerkleLeafProof root treeSize leafIndex =>
    rw [answered.getMerkleLeafProof]
    exact Responder.agree_map fun proved _ => ⟨rfl, queued _⟩
  | getMerkleLeafIndex root leafHash =>
    rw [answered.getMerkleLeafIndex]
    exact Responder.agree_map fun found _ => ⟨rfl, start⟩
  | getMoreElements =>
    rw [answered.getMoreElements]
    exact Responder.agree_map fun taken _ => ⟨rfl, queued _⟩

/-- The data of a client that looks preimages and trees up in dictionaries; `build` builds the tree
of some leaves. -/
structure Has {Tree : Type} (client : Reference) (build : List Digest → Tree)
    (known : Digest → Option Bytes) (knownTrees : Digest → Option Tree)
    (clientQueue clientYielded : List Bytes) : Prop where
  preimages : ∀ hash, known hash = client.known.preimage hash
  trees : ∀ root, knownTrees root = (client.known.leaves root).map build
  queue : clientQueue = client.queue
  yielded : clientYielded = client.yielded

/-- What a client knows never changes. -/
theorem known_of_answer (answered : answer H absent client command = some (response, next)) :
    next.known = client.known := by
  cases command with
  | «yield» data =>
    cases answered
    rfl
  | getPreimage | getMerkleLeafProof | getMerkleLeafIndex | getMoreElements =>
    simp only [answer, Option.map_eq_some_iff, Prod.mk.injEq] at answered
    obtain ⟨_, -, -, rfl⟩ := answered
    rfl

/-- Preimages, trees and queued elements of a size that every client can handle. -/
structure Sized (client : Reference) : Prop where
  preimage : ∀ hash preimage, client.known.preimage hash = some preimage →
    preimage.length < 2 ^ 53
  leaves : ∀ root leaves, client.known.leaves root = some leaves → leaves.length ≤ 2 ^ 31
  queue : ∀ element ∈ client.queue, 0 < element.length ∧ element.length < 256

theorem Sized.answer (sized : Sized client)
    (answered : Reference.answer H absent client command = some (response, next)) : Sized next := by
  have known := known_of_answer answered
  refine ⟨fun hash => known ▸ sized.preimage hash, fun root => known ▸ sized.leaves root, ?_⟩
  cases command with
  | «yield» data =>
    cases answered
    exact sized.queue
  | getPreimage hash =>
    simp only [Reference.answer, Option.map_eq_some_iff, Prod.mk.injEq] at answered
    obtain ⟨_, -, -, rfl⟩ := answered
    intro element member
    rcases mem_append.mp member with queued | added
    · exact sized.queue element queued
    · obtain ⟨_, -, rfl⟩ := mem_map.mp added
      simp
  | getMerkleLeafProof root treeSize leafIndex =>
    simp only [Reference.answer, Option.map_eq_some_iff, Option.bind_eq_some_iff,
      Prod.mk.injEq] at answered
    obtain ⟨⟨_, queue⟩, ⟨_, -, proved⟩, -, rfl⟩ := answered
    rw [proveLeaf] at proved
    split_ifs at proved
    obtain ⟨_, -, same⟩ := Option.map_eq_some_iff.mp proved
    cases same
    intro element member
    obtain ⟨digest, -, rfl⟩ := mem_map.mp member
    rw [digest.property]
    decide
  | getMerkleLeafIndex root leafHash =>
    simp only [Reference.answer, Option.map_eq_some_iff, Prod.mk.injEq] at answered
    obtain ⟨_, -, -, rfl⟩ := answered
    exact sized.queue
  | getMoreElements =>
    simp only [Reference.answer, Option.map_eq_some_iff, Prod.mk.injEq] at answered
    obtain ⟨⟨_, queue⟩, taken, -, rfl⟩ := answered
    intro element member
    refine sized.queue element ?_
    cases stored : client.queue with
    | nil =>
      rw [stored] at taken
      cases taken
    | cons first later =>
      rw [stored, moreElements] at taken
      split_ifs at taken
      cases taken
      exact mem_of_mem_drop member

/-- A party that agrees with the client on every request gives its answers. -/
theorem Sized.answers_eq {τ : Type} {related : Reference → τ → Prop}
    {party : Responder τ Bytes Bytes}
    (step : ∀ client state command, Sized client → related client state →
      Responder.Agree related (Reference.answer H absent client command)
        (party state command.request))
    (sized : Sized client) {state : τ} (start : related client state)
    (commands : List ClientCommand) :
    Responder.answers party state (commands.map ClientCommand.request) =
      Responder.answers (Reference.answer H absent) client commands := by
  have sizedStep : ∀ command ∈ commands, ∀ client state, Sized client ∧ related client state →
      Responder.Agree (fun client state => Sized client ∧ related client state)
        (Reference.answer H absent client command) (party state command.request) := by
    rintro command - client state ⟨sized, start⟩
    exact (step client state command sized start).and fun _ _ answered => sized.answer answered
  exact Responder.answers_eq_of_agree sizedStep ⟨sized, start⟩

/-! ## Leaves that are not in the tree -/

/-- A request for the index of a leaf of a known tree is about one of its leaves. -/
def Present (known : Knowledge) : ClientCommand → Prop
  | .getMerkleLeafIndex root leafHash =>
    ∀ leaves, known.leaves root = some leaves → leafHash ∈ leaves
  | _ => True

theorem answer_of_present (present : Present client.known command) (absent absent' : Option Bytes) :
    answer H absent client command = answer H absent' client command := by
  cases command with
  | getMerkleLeafIndex root leafHash =>
    simp only [answer]
    cases known : client.known.leaves root with
    | none => rfl
    | some leaves =>
      have member := present leaves known
      cases found : leaves.findIdx? (· = leafHash) with
      | none =>
        rw [findIdx?_eq_none_iff] at found
        exact absurd (found leafHash member) (by simp)
      | some index => simp only [Option.bind_some, leafIndex, found]
  | «yield» | getPreimage | getMerkleLeafProof | getMoreElements => rfl

theorem answer_of_not_present (missing : ¬ Present client.known command) (absent : Option Bytes) :
    answer H absent client command = absent.map fun response => (response, client) := by
  cases command with
  | getMerkleLeafIndex root leafHash =>
    simp only [Present, not_forall] at missing
    obtain ⟨leaves, known, missing⟩ := missing
    have notFound : leaves.findIdx? (· = leafHash) = none := by
      rw [findIdx?_eq_none_iff]
      intro other member
      simpa using fun same : other = leafHash => missing (same ▸ member)
    simp only [answer, known, Option.bind_some, leafIndex, notFound]
  | «yield» | getPreimage | getMerkleLeafProof | getMoreElements => exact absurd trivial missing

/-- Two clients that treat absent leaves differently answer alike as long as they are not
asked about one. -/
theorem answers_eq_iff_present (response : Bytes) (commands : List ClientCommand) :
    Responder.answers (answer H (some response)) client commands =
        Responder.answers (answer H none) client commands ↔
      ∀ command ∈ commands, Present client.known command := by
  induction commands generalizing client with
  | nil => simp [Responder.answers]
  | cons command commands ih =>
    rw [forall_mem_cons, Responder.answers, Responder.answers]
    by_cases present : Present client.known command
    · rw [answer_of_present present (some response) none]
      cases moved : answer H none client command with
      | none => simp [present, ih]
      | some moved =>
        have known := known_of_answer moved
        simp [present, ih, known]
    · rw [answer_of_not_present present, answer_of_not_present present]
      simp [present]

end Reference

end LedgerSyscoin.Client
