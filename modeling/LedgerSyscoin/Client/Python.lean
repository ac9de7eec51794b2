import LedgerSyscoin.Client.Mapping
import LedgerSyscoin.Client.Reference

/-!
# The Python client

The interpreter for the commands of the device, with the byte streams that it reads its
requests from. Dictionaries are partial functions; adding an entry replaces the entry
with the same key. A command that raises an exception leaves the interpreter unchanged.
-/

namespace LedgerSyscoin.Client.Python

open Foundation Common Handler List

variable {value count : Nat} {bytes : Bytes} {leaves : List Digest} {queue : List Bytes}
  {reference : Reference}

/-- The exceptions, one for each place that raises one. -/
inductive Failure where
  | streamExhausted
  | streamNotEmpty
  | varintTooLarge (value : Nat)
  | byteTooLarge (value : Nat)
  | emptyResponse
  | unexpectedCommandCode (code : UInt8)
  | unsupportedRequest
  | unknownPreimage (hash : Bytes)
  | unknownMerkleRoot (root : Bytes)
  | invalidIndexOrSize
  | queueNotEmpty
  | indexOutOfRange
  | wrongRequestLength
  | noElements
  | differentLengths

/-! ## Byte streams -/

def readBytes (count : Nat) (stream : Bytes) : Except Failure (Bytes × Bytes) :=
  if stream.length < count then .error .streamExhausted
  else .ok (stream.take count, stream.drop count)

def readUintLittle (count : Nat) (stream : Bytes) : Except Failure (Nat × Bytes) := do
  let (bytes, stream) ← readBytes count stream
  return (leNat bytes, stream)

def readVarint (stream : Bytes) : Except Failure (Nat × Bytes) := do
  let (marker, stream) ← readUintLittle 1 stream
  if marker = 253 then readUintLittle 2 stream
  else if marker = 254 then readUintLittle 4 stream
  else if marker = 255 then readUintLittle 8 stream
  else return (marker, stream)

def assertEmpty (stream : Bytes) : Except Failure Unit :=
  if stream ≠ [] then .error .streamNotEmpty else .ok ()

def writeVarint (value : Nat) : Except Failure Bytes :=
  if value < 2 ^ 64 then .ok (varintWrite value) else .error (.varintTooLarge value)

/-- `to_bytes` with a length of one. -/
def toByte (value : Nat) : Except Failure UInt8 :=
  if value < 256 then .ok (UInt8.ofNat value) else .error (.byteTooLarge value)

theorem writeVarint_eq (small : value < 2 ^ 64) :
    writeVarint value = .ok (varintWrite value) := if_pos small

theorem toByte_eq (small : value < 256) : toByte value = .ok (UInt8.ofNat value) :=
  if_pos small

/-! ## Commands -/

/-- The response and the queue after a preimage was found. -/
def respondPreimage (knownPreimage : Bytes) (queue : List Bytes) :
    Except Failure (Bytes × List Bytes) := do
  let preimageLenOut ← writeVarint knownPreimage.length
  let (payloadSize, queue) := queuePreimage preimageLenOut knownPreimage queue
  let size ← toByte payloadSize
  return (preimageLenOut ++ [size] ++ knownPreimage.take payloadSize, queue)

def getPreimage (knownPreimages : Digest → Option Bytes) (queue : List Bytes) (request : Bytes) :
    Except Failure (Bytes × List Bytes) := do
  let (first, req) ← readBytes 1 (request.drop 1)
  if first ≠ [0] then throw .unsupportedRequest
  let (reqHash, req) ← readBytes 32 req
  assertEmpty req
  match knownPreimages (Digest.ofBytes reqHash) with
  | some knownPreimage => respondPreimage knownPreimage queue
  | none => throw (.unknownPreimage reqHash)

/-- The response and the queue after a tree was found. -/
def respondLeafProof (mt : MerkleTree) (treeSize leafIndex : Nat) (queue : List Bytes) :
    Except Failure (Bytes × List Bytes) := do
  if leafIndex ≥ treeSize ∨ mt.leaves.length ≠ treeSize then throw .invalidIndexOrSize
  if queue.length ≠ 0 then throw .queueNotEmpty
  match mt.proveLeaf leafIndex, mt.get leafIndex with
  | some proof, some leaf =>
    let (nResponseElements, queue) := queueProof proof queue
    let proofSize ← toByte proof.length
    let partSize ← toByte nResponseElements
    return (leaf.val ++ [proofSize] ++ [partSize] ++
      ((proof.take nResponseElements).map Subtype.val).flatten, queue)
  | _, _ => throw .indexOutOfRange

def getMerkleLeafProof (knownTrees : Digest → Option MerkleTree) (queue : List Bytes)
    (request : Bytes) : Except Failure (Bytes × List Bytes) := do
  let (root, req) ← readBytes 32 (request.drop 1)
  let (treeSize, req) ← readVarint req
  let (leafIndex, req) ← readVarint req
  assertEmpty req
  match knownTrees (Digest.ofBytes root) with
  | some mt => respondLeafProof mt treeSize leafIndex queue
  | none => throw (.unknownMerkleRoot root)

/-- The response after a tree was found. -/
def respondLeafIndex (mt : MerkleTree) (leafHash : Digest) : Except Failure Bytes := do
  let (leafIndex, found) : Nat × UInt8 :=
    match mt.leafIndex leafHash with
    | some leafIndex => (leafIndex, 1)
    | none => (0, 0)
  return [found] ++ (← writeVarint leafIndex)

def getMerkleLeafIndex (knownTrees : Digest → Option MerkleTree) (request : Bytes) :
    Except Failure Bytes := do
  let (root, req) ← readBytes 32 (request.drop 1)
  let (leafHash, req) ← readBytes 32 req
  assertEmpty req
  match knownTrees (Digest.ofBytes root) with
  | some mt => respondLeafIndex mt (Digest.ofBytes leafHash)
  | none => throw (.unknownMerkleRoot root)

/-- The loop that pops elements from the queue: the response elements so far, their number
and the queue. -/
def popElements (elementLen : Nat) : List Bytes → Bytes → Nat → Bytes × Nat × List Bytes
  | [], responseElements, nAddedElements => (responseElements, nAddedElements, [])
  | element :: queue, responseElements, nAddedElements =>
    if responseElements.length + elementLen ≤ 253 then
      popElements elementLen queue (responseElements ++ element) (nAddedElements + 1)
    else (responseElements, nAddedElements, element :: queue)

def getMoreElements (queue : List Bytes) (request : Bytes) :
    Except Failure (Bytes × List Bytes) := do
  if request.length ≠ 1 then throw .wrongRequestLength
  match queue with
  | [] => throw .noElements
  | element :: _ =>
    let elementLen := element.length
    if ∃ other ∈ queue, other.length ≠ elementLen then throw .differentLengths
    let (responseElements, nAddedElements, queue) := popElements elementLen queue [] 0
    let count ← toByte nAddedElements
    let length ← toByte elementLen
    return ([count] ++ [length] ++ responseElements, queue)

/-! ## The interpreter -/

structure ClientCommandInterpreter where
  knownPreimages : Digest → Option Bytes
  knownTrees : Digest → Option MerkleTree
  queue : List Bytes
  yielded : List Bytes

namespace ClientCommandInterpreter

def new : ClientCommandInterpreter := ⟨fun _ => none, fun _ => none, [], []⟩

/-- Interpret a command of the device. -/
def execute (self : ClientCommandInterpreter) (hwResponse : Bytes) :
    Except Failure (Bytes × ClientCommandInterpreter) :=
  match hwResponse with
  | [] => .error .emptyResponse
  | cmdCode :: rest =>
    if cmdCode = ccmdYield then .ok ([], { self with yielded := self.yielded ++ [rest] })
    else if cmdCode = ccmdGetPreimage then
      return (fun (response, queue) => (response, { self with queue }))
        (← getPreimage self.knownPreimages self.queue hwResponse)
    else if cmdCode = ccmdGetMerkleLeafIndex then
      return (← getMerkleLeafIndex self.knownTrees hwResponse, self)
    else if cmdCode = ccmdGetMerkleLeafProof then
      return (fun (response, queue) => (response, { self with queue }))
        (← getMerkleLeafProof self.knownTrees self.queue hwResponse)
    else if cmdCode = ccmdGetMoreElements then
      return (fun (response, queue) => (response, { self with queue }))
        (← getMoreElements self.queue hwResponse)
    else .error (.unexpectedCommandCode cmdCode)

end ClientCommandInterpreter

/-- The interpreter as the other party of the device. -/
def respond : Responder ClientCommandInterpreter Bytes Bytes :=
  fun self request => (self.execute request).toOption

/-! ## Known data -/

/-- The order of pairs of keys and values. -/
def itemLe (first second : Bytes × Bytes) : Bool :=
  first.1 < second.1 ∨ first.1 = second.1 ∧ first.2 ≤ second.2

def itemsSorted (mapping : Mapping) : List (Bytes × Bytes) := mapping.entries.mergeSort itemLe

section Known

variable (H : HashFunction)

namespace ClientCommandInterpreter

def addKnownPreimage (self : ClientCommandInterpreter) (element : Bytes) :
    ClientCommandInterpreter :=
  { self with knownPreimages := Function.update self.knownPreimages (H element) (some element) }

def addKnownList (self : ClientCommandInterpreter) (elements : List Bytes) :
    ClientCommandInterpreter :=
  let self := elements.foldl (fun self element => self.addKnownPreimage H (0x00 :: element)) self
  let mt := MerkleTree.new H (elements.map (merkleComputeElementHash H))
  { self with knownTrees := Function.update self.knownTrees mt.root (some mt) }

def addKnownMapping (self : ClientCommandInterpreter) (mapping : Mapping) :
    ClientCommandInterpreter :=
  let keys := (itemsSorted mapping).map Prod.fst
  let values := (itemsSorted mapping).map Prod.snd
  (self.addKnownList H keys).addKnownList H values

end ClientCommandInterpreter

def getMerkleizedMapCommitment (mapping : Mapping) : Except Failure Bytes := do
  let keysHashes := (itemsSorted mapping).map fun item => merkleComputeElementHash H item.1
  let valuesHashes := (itemsSorted mapping).map fun item => merkleComputeElementHash H item.2
  return (← writeVarint mapping.entries.length) ++ (MerkleTree.new H keysHashes).root.val ++
    (MerkleTree.new H valuesHashes).root.val

end Known

theorem itemLe_trans (first second third : Bytes × Bytes) (before : itemLe first second = true)
    (after : itemLe second third = true) : itemLe first third = true := by
  simp only [itemLe, decide_eq_true_eq] at before after ⊢
  rcases before with smaller | ⟨same, valueLe⟩
  · rcases after with smaller' | ⟨same', -⟩
    · exact Or.inl (List.lt_trans smaller smaller')
    · exact Or.inl (same' ▸ smaller)
  · rcases after with smaller' | ⟨same', valueLe'⟩
    · exact Or.inl (same ▸ smaller')
    · exact Or.inr ⟨same.trans same', List.le_trans valueLe valueLe'⟩

theorem itemLe_total (first second : Bytes × Bytes) :
    (itemLe first second || itemLe second first) = true := by
  simp only [itemLe, Bool.or_eq_true, decide_eq_true_eq]
  by_cases smaller : first.1 < second.1
  · exact Or.inl (Or.inl smaller)
  by_cases larger : second.1 < first.1
  · exact Or.inr (Or.inl larger)
  have same : first.1 = second.1 :=
    List.le_antisymm (List.not_lt.mp larger) (List.not_lt.mp smaller)
  rcases List.le_total first.2 second.2 with valueLe | valueLe
  · exact Or.inl (Or.inr ⟨same, valueLe⟩)
  · exact Or.inr (Or.inr ⟨same.symm, valueLe⟩)

/-- Sorting pairs sorts them by their keys, which are distinct. -/
theorem itemsSorted_eq (mapping : Mapping) : itemsSorted mapping = mapping.sorted := by
  have ordered := pairwise_mergeSort itemLe_trans itemLe_total mapping.entries
  refine eq_sorted (mergeSort_perm _ _) (ordered.imp fun before => ?_)
  rcases of_decide_eq_true before with smaller | ⟨same, -⟩
  · exact List.le_of_lt smaller
  · exact same ▸ List.le_refl _

/-! ## Requests of the device -/

theorem readBytes_append (length : bytes.length = count)
    (rest : Bytes) : readBytes count (bytes ++ rest) = .ok (bytes, rest) := by
  subst length
  rw [readBytes, if_neg (by simp), take_left, drop_left]

theorem readBytes_self (length : bytes.length = count) :
    readBytes count bytes = .ok (bytes, []) := by
  simpa using readBytes_append length []

theorem readUintLittle_append (length : bytes.length = count)
    (rest : Bytes) : readUintLittle count (bytes ++ rest) = .ok (leNat bytes, rest) := by
  rw [readUintLittle, readBytes_append length]
  rfl

theorem readVarint_append (small : value < 2 ^ 64) (rest : Bytes) :
    readVarint (varintWrite value ++ rest) = .ok (value, rest) := by
  have first (marker : UInt8) (tail : Bytes) :
      readUintLittle 1 (marker :: tail) = .ok (marker.toNat, tail) :=
    readUintLittle_append (show [marker].length = 1 from rfl) tail
  rcases varintWrite_cases value with ⟨_, -, write⟩ | ⟨-, bound, -, write⟩ |
    ⟨-, bound, -, write⟩ | ⟨-, -, write⟩
  · have byte : (UInt8.ofNat value).toNat = value := by
      rw [UInt8.toNat_ofNat']
      omega
    rw [readVarint, write, singleton_append, first]
    simp only [ok_bind, byte]
    rw [if_neg (by omega), if_neg (by omega), if_neg (by omega)]
    rfl
  · rw [readVarint, write, cons_append, first]
    refine (readUintLittle_append (length_leBytes 2 value) rest).trans ?_
    rw [leNat_leBytes_of_lt (by omega)]
  · rw [readVarint, write, cons_append, first]
    refine (readUintLittle_append (length_leBytes 4 value) rest).trans ?_
    rw [leNat_leBytes_of_lt (by omega)]
  · rw [readVarint, write, cons_append, first]
    refine (readUintLittle_append (length_leBytes 8 value) rest).trans ?_
    rw [leNat_leBytes_of_lt (by omega)]

theorem getPreimage_request (knownPreimages : Digest → Option Bytes) (queue : List Bytes)
    (hash : Digest) :
    getPreimage knownPreimages queue (getPreimageRequest hash) =
      match knownPreimages hash with
      | some knownPreimage => respondPreimage knownPreimage queue
      | none => .error (.unknownPreimage hash.val) := by
  have first : readBytes 1 ((getPreimageRequest hash).drop 1) = .ok ([0], hash.val) :=
    readBytes_append (show ([0] : Bytes).length = 1 from rfl) hash.val
  rw [getPreimage, first]
  simp only [ok_bind, ne_eq, not_true_eq_false, if_false, readBytes_self hash.property,
    Digest.ofBytes_val, assertEmpty]
  cases knownPreimages hash <;> rfl

theorem respondPreimage_eq {knownPreimage : Bytes} (small : knownPreimage.length < 2 ^ 64)
    (queue : List Bytes) :
    respondPreimage knownPreimage queue =
      .ok (preimageResponse knownPreimage, queue ++ preimageRest knownPreimage) := by
  rw [respondPreimage, writeVarint, if_pos small]
  simp only [ok_bind, queuePreimage_eq, toByte, if_pos (payloadSize_lt knownPreimage)]
  rw [preimageResponse, append_assoc, singleton_append]
  rfl

theorem getMerkleLeafProof_request (knownTrees : Digest → Option MerkleTree) (queue : List Bytes)
    (root : Digest) {treeSize leafIndex : Nat} (sizeSmall : treeSize < 2 ^ 64)
    (indexSmall : leafIndex < 2 ^ 64) :
    getMerkleLeafProof knownTrees queue (getMerkleLeafProofRequest root treeSize leafIndex) =
      match knownTrees root with
      | some mt => respondLeafProof mt treeSize leafIndex queue
      | none => .error (.unknownMerkleRoot root.val) := by
  have rest : (getMerkleLeafProofRequest root treeSize leafIndex).drop 1 =
      root.val ++ (varintWrite treeSize ++ (varintWrite leafIndex ++ [])) := by
    simp [getMerkleLeafProofRequest]
  rw [getMerkleLeafProof, rest, readBytes_append root.property]
  simp only [ok_bind, readVarint_append sizeSmall, readVarint_append indexSmall, assertEmpty,
    ne_eq, not_true_eq_false, if_false, Digest.ofBytes_val]
  cases knownTrees root <;> rfl

variable {H : HashFunction}

theorem respondLeafProof_eq (small : leaves.length ≤ 2 ^ 31)
    (treeSize leafIndex : Nat) (queue : List Bytes) :
    (respondLeafProof (MerkleTree.new H leaves) treeSize leafIndex queue).toOption =
      Reference.proveLeaf H queue leaves treeSize leafIndex := by
  have sameLeaves : (MerkleTree.new H leaves).leaves = leaves := rfl
  rw [respondLeafProof, Reference.proveLeaf, sameLeaves]
  by_cases invalid : leafIndex ≥ treeSize ∨ leaves.length ≠ treeSize
  · rw [if_pos invalid, if_pos invalid]
    rfl
  rw [if_neg invalid, if_neg invalid]
  by_cases busy : queue ≠ []
  · rw [if_pos busy, if_pos (by simpa using busy)]
    rfl
  have inside : leafIndex < leaves.length := by omega
  rw [not_not] at busy
  subst busy
  have size := length_leafProof_le (H := H) inside small
  have found : (MerkleTree.new H leaves).get leafIndex = some leaves[leafIndex] :=
    getElem?_eq_getElem inside
  rw [proveLeaf_new inside, found, getElem?_eq_getElem inside]
  generalize leafProof H leaves leafIndex = proof at size ⊢
  have partLe : proofPartSize proof ≤ proof.length := Nat.min_le_right _ _
  simp only [queueProof_eq, nil_append, toByte, if_pos (show proof.length < 256 by omega),
    if_pos (show proofPartSize proof < 256 by omega), ok_bind, length_nil, ne_eq,
    not_true_eq_false, if_false, Option.map_some, proofResponse, append_assoc,
    singleton_append]
  rfl

theorem getMerkleLeafIndex_request (knownTrees : Digest → Option MerkleTree)
    (root leafHash : Digest) :
    getMerkleLeafIndex knownTrees (getMerkleLeafIndexRequest root leafHash) =
      match knownTrees root with
      | some mt => respondLeafIndex mt leafHash
      | none => .error (.unknownMerkleRoot root.val) := by
  have rest : (getMerkleLeafIndexRequest root leafHash).drop 1 = root.val ++ leafHash.val := rfl
  rw [getMerkleLeafIndex, rest, readBytes_append root.property]
  simp only [ok_bind, readBytes_self leafHash.property, assertEmpty, ne_eq, not_true_eq_false,
    if_false, Digest.ofBytes_val]
  cases knownTrees root <;> rfl

theorem respondLeafIndex_eq (small : leaves.length ≤ 2 ^ 31) (leafHash : Digest) :
    (respondLeafIndex (MerkleTree.new H leaves) leafHash).toOption =
      Reference.leafIndex (some [0, 0]) leaves leafHash := by
  rw [respondLeafIndex, Reference.leafIndex]
  cases found : leaves.findIdx? (· = leafHash) with
  | none =>
    have missing : (MerkleTree.new H leaves).leafIndex leafHash = none := found
    rw [missing]
    rfl
  | some index =>
    have present : (MerkleTree.new H leaves).leafIndex leafHash = some index := found
    have inside : index < leaves.length := (findIdx?_eq_some_iff_findIdx_eq.mp found).1
    rw [present]
    simp only [writeVarint, if_pos (show index < 2 ^ 64 by omega), ok_bind]
    rfl

/-- The loop takes as many elements as fit. -/
theorem popElements_eq {elementLen : Nat} (positive : 0 < elementLen)
    (uniform : ∀ element ∈ queue, element.length = elementLen) (responseElements : Bytes)
    (fits : responseElements.length ≤ 253) (nAddedElements : Nat) :
    popElements elementLen queue responseElements nAddedElements =
      let count := min ((253 - responseElements.length) / elementLen) queue.length
      (responseElements ++ (queue.take count).flatten, nAddedElements + count,
        queue.drop count) := by
  induction queue generalizing responseElements nAddedElements with
  | nil => simp [popElements]
  | cons element queue ih =>
    rw [forall_mem_cons] at uniform
    rw [popElements]
    split_ifs with more
    · rw [ih uniform.2 _ (by rw [length_append, uniform.1]; exact more)]
      simp only [length_append, uniform.1, length_cons, room_succ positive more,
        take_succ_cons, flatten_cons, append_assoc, drop_succ_cons,
        Prod.mk.injEq, true_and, and_true]
      rw [Nat.add_assoc, Nat.add_comm 1]
    · have full : (253 - responseElements.length) / elementLen = 0 := Nat.div_eq_of_lt (by omega)
      simp [full]

theorem getMoreElements_request
    (sizes : ∀ element ∈ queue, 0 < element.length ∧ element.length < 256) :
    (getMoreElements queue getMoreElementsRequest).toOption = moreElements queue := by
  unfold getMoreElements
  cases queue with
  | nil => rfl
  | cons element queue =>
    have single : getMoreElementsRequest.length = 1 := rfl
    simp only [single, ne_eq, not_true_eq_false, if_false]
    by_cases mixed : ∃ other ∈ element :: queue, other.length ≠ element.length
    · rw [if_pos mixed, moreElements, if_pos mixed]
      rfl
    have uniform : ∀ other ∈ element :: queue, other.length = element.length := by
      simpa using mixed
    have bounds := sizes element mem_cons_self
    have popped := popElements_eq bounds.1 uniform [] (Nat.zero_le _) 0
    have countLe : min (253 / element.length) (element :: queue).length ≤ 253 :=
      (Nat.min_le_left _ _).trans (Nat.div_le_self _ _)
    simp only [length_nil, Nat.sub_zero, nil_append, Nat.zero_add] at popped
    rw [if_neg mixed, moreElements_cons mixed, popped]
    simp only [toByte, if_pos bounds.2, if_pos (Nat.lt_of_le_of_lt countLe (by decide : 253 < 256)),
      ok_bind]
    rfl

/-! ## Agreement with the abstract client -/

/-- The interpreter has the data of the abstract client. -/
def Refines (H : HashFunction) (reference : Reference) (client : ClientCommandInterpreter) : Prop :=
  reference.Has (MerkleTree.new H) client.knownPreimages client.knownTrees client.queue
    client.yielded

variable {client : ClientCommandInterpreter}

theorem answeredBy (sized : reference.Sized)
    (refines : Refines H reference client) : Reference.AnsweredBy H (some [0, 0]) reference
      (fun command => respond client command.request) client
      (fun queue => { client with queue })
      (fun data => { client with yielded := client.yielded ++ [data] }) where
  told _ := rfl
  getPreimage hash := by
    refine (toOption_bind_pure _ _).trans ?_
    rw [ClientCommand.request, getPreimage_request, refines.preimages, refines.queue]
    cases known : reference.known.preimage hash with
    | none => rfl
    | some preimage =>
      have small := sized.preimage hash preimage known
      simp only [respondPreimage_eq (show preimage.length < 2 ^ 64 by omega)]
      rfl
  getMerkleLeafProof root treeSize leafIndex := by
    refine (toOption_bind_pure _ _).trans ?_
    rw [ClientCommand.request, getMerkleLeafProof_request _ _ _
      treeSize.toNat_lt leafIndex.toNat_lt, refines.trees, refines.queue]
    cases known : reference.known.leaves root with
    | none => rfl
    | some leaves =>
      exact congrArg (Option.map _) (respondLeafProof_eq (sized.leaves root leaves known) _ _ _)
  getMerkleLeafIndex root leafHash := by
    refine (toOption_bind_pure _ _).trans ?_
    rw [ClientCommand.request, getMerkleLeafIndex_request, refines.trees]
    cases known : reference.known.leaves root with
    | none => rfl
    | some leaves =>
      exact congrArg (Option.map _) (respondLeafIndex_eq (sized.leaves root leaves known) _)
  getMoreElements := by
    refine (toOption_bind_pure _ _).trans ?_
    rw [ClientCommand.request, refines.queue, getMoreElements_request sized.queue]

theorem agree_answer (sized : reference.Sized)
    (refines : Refines H reference client) (command : ClientCommand) :
    Responder.Agree (Refines H) (Reference.answer H (some [0, 0]) reference command)
      (respond client command.request) :=
  (answeredBy sized refines).agree refines
    (fun _ => ⟨refines.preimages, refines.trees, rfl, refines.yielded⟩)
    (fun data => ⟨refines.preimages, refines.trees, refines.queue,
      congrArg (· ++ [data]) refines.yielded⟩)
    command

end LedgerSyscoin.Client.Python
