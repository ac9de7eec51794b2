import LedgerSyscoin.Client.Buffertools
import LedgerSyscoin.Client.Mapping
import LedgerSyscoin.Client.Reference

/-!
# The JavaScript client

The interpreter for the commands of the device and the merkleized maps, as in
`clientCommands.ts`, `merkleMap.ts` and `merkelizedPsbt.ts`. Maps from hexadecimal
hashes are partial functions of the hashes. A command that throws leaves the interpreter
unchanged.
-/

namespace LedgerSyscoin.Client.JavaScript

open Foundation Common Handler List

variable {treeSize leafIndex : Nat} {reference : Reference}

/-- The errors, one for each place that throws one. -/
inductive Failure where
  | emptyCommand
  | unexpectedCommandCode (code : UInt8)
  | trailingData
  | firstByteNotZero
  | unknownPreimage (hash : Digest)
  | tooShort
  | sizeOrIndexNotParsed
  | unknownTree (root : Digest)
  | invalidIndexOrSize
  | queueNotEmpty
  | indexOutOfBounds
  | noElements
  | differentLengths
  | numberTooLarge

/-! ## Commands -/

/-- `createVarint`, with its exception. -/
def varint (value : Nat) : Except Failure Bytes :=
  match createVarint value with
  | some encoded => .ok encoded
  | none => .error .numberTooLarge

/-- The response and the queue after a preimage was found. -/
def respondPreimage (knownPreimage : Bytes) (queue : List Bytes) :
    Except Failure (Bytes × List Bytes) := do
  let preimageLenVarint ← varint knownPreimage.length
  let (payloadSize, queue) := queuePreimage preimageLenVarint knownPreimage queue
  return (preimageLenVarint ++ [UInt8.ofNat payloadSize] ++ knownPreimage.take payloadSize, queue)

def getPreimage (knownPreimages : Digest → Option Bytes) (queue : List Bytes) (request : Bytes) :
    Except Failure (Bytes × List Bytes) := do
  let req := request.drop 1
  if req.length ≠ 1 + 32 then throw .trailingData
  if req.headD 0 ≠ 0 then throw .firstByteNotZero
  let hash := Digest.ofBytes (req.drop 1)
  match knownPreimages hash with
  | some knownPreimage => respondPreimage knownPreimage queue
  | none => throw (.unknownPreimage hash)

/-- The response and the queue after a tree was found. -/
def respondLeafProof (mt : Merkle) (treeSize leafIndex : Nat) (queue : List Bytes) :
    Except Failure (Bytes × List Bytes) := do
  if leafIndex ≥ treeSize ∨ mt.size ≠ treeSize then throw .invalidIndexOrSize
  if queue.length ≠ 0 then throw .queueNotEmpty
  match mt.getProof leafIndex, mt.getLeafHash leafIndex with
  | some proof, some leaf =>
    let (nResponseElements, queue) := queueProof proof queue
    return (leaf.val ++ [UInt8.ofNat proof.length] ++ [UInt8.ofNat nResponseElements] ++
      ((proof.take nResponseElements).map Subtype.val).flatten, queue)
  | _, _ => throw .indexOutOfBounds

/-- The size of a tree and the index of a leaf in a request. -/
def readSizeAndIndex (reqBuf : BufferReader) : Option (Nat × Nat) := do
  let (treeSize, reqBuf) ← reqBuf.readVarInt
  let treeSize ← sanitizeBigintToNumber treeSize
  let (leafIndex, _) ← reqBuf.readVarInt
  let leafIndex ← sanitizeBigintToNumber leafIndex
  return (treeSize, leafIndex)

def getMerkleLeafProof (knownTrees : Digest → Option Merkle) (queue : List Bytes)
    (request : Bytes) : Except Failure (Bytes × List Bytes) := do
  let req := request.drop 1
  if req.length < 32 + 1 + 1 then throw .tooShort
  match BufferReader.readSlice ⟨req, 0⟩ 32 with
  | none => throw .tooShort
  | some (hash, reqBuf) =>
    match readSizeAndIndex reqBuf with
    | none => throw .sizeOrIndexNotParsed
    | some (treeSize, leafIndex) =>
      match knownTrees (Digest.ofBytes hash) with
      | some mt => respondLeafProof mt treeSize leafIndex queue
      | none => throw (.unknownTree (Digest.ofBytes hash))

/-- The response after a tree was found. -/
def respondLeafIndex (mt : Merkle) (leafHash : Digest) : Except Failure Bytes := do
  let (leafIndex, found) : Nat × UInt8 :=
    match mt.leaves.findIdx? (· = leafHash) with
    | some leafIndex => (leafIndex, 1)
    | none => (0, 0)
  return [found] ++ (← varint leafIndex)

def getMerkleLeafIndex (knownTrees : Digest → Option Merkle) (request : Bytes) :
    Except Failure Bytes := do
  let req := request.drop 1
  if req.length ≠ 32 + 32 then throw .trailingData
  let rootHash := Digest.ofBytes (req.take 32)
  let leafHash := Digest.ofBytes (req.drop 32)
  match knownTrees rootHash with
  | some mt => respondLeafIndex mt leafHash
  | none => throw (.unknownTree rootHash)

def getMoreElements (queue : List Bytes) (request : Bytes) :
    Except Failure (Bytes × List Bytes) := do
  if request.length ≠ 1 then throw .trailingData
  match queue with
  | [] => throw .noElements
  | element :: _ =>
    let elementLen := element.length
    if ∃ other ∈ queue, other.length ≠ elementLen then throw .differentLengths
    let maxElements := 253 / elementLen
    let nReturnedElements := min maxElements queue.length
    return ([UInt8.ofNat nReturnedElements] ++ [UInt8.ofNat elementLen] ++
      (queue.take nReturnedElements).flatten, queue.drop nReturnedElements)

/-! ## The interpreter -/

structure ClientCommandInterpreter where
  roots : Digest → Option Merkle
  preimages : Digest → Option Bytes
  yielded : List Bytes
  queue : List Bytes

namespace ClientCommandInterpreter

def new : ClientCommandInterpreter := ⟨fun _ => none, fun _ => none, [], []⟩

/-- Interpret a command of the device. -/
def execute (self : ClientCommandInterpreter) (request : Bytes) :
    Except Failure (Bytes × ClientCommandInterpreter) :=
  match request with
  | [] => .error .emptyCommand
  | cmdCode :: rest =>
    if cmdCode = ccmdYield then .ok ([], { self with yielded := self.yielded ++ [rest] })
    else if cmdCode = ccmdGetPreimage then
      return (fun (response, queue) => (response, { self with queue }))
        (← getPreimage self.preimages self.queue request)
    else if cmdCode = ccmdGetMerkleLeafIndex then
      return (← getMerkleLeafIndex self.roots request, self)
    else if cmdCode = ccmdGetMerkleLeafProof then
      return (fun (response, queue) => (response, { self with queue }))
        (← getMerkleLeafProof self.roots self.queue request)
    else if cmdCode = ccmdGetMoreElements then
      return (fun (response, queue) => (response, { self with queue }))
        (← getMoreElements self.queue request)
    else .error (.unexpectedCommandCode cmdCode)

end ClientCommandInterpreter

/-- The interpreter as the other party of the device. -/
def respond : Responder ClientCommandInterpreter Bytes Bytes :=
  fun self request => (self.execute request).toOption

/-! ## Requests of the device -/

theorem varint_eq {value : Nat} (small : value ≤ maxSafeInteger) :
    varint value = .ok (varintWrite value) := by
  rw [varint, createVarint_eq small]

theorem getPreimage_request (knownPreimages : Digest → Option Bytes) (queue : List Bytes)
    (hash : Digest) :
    getPreimage knownPreimages queue (getPreimageRequest hash) =
      match knownPreimages hash with
      | some knownPreimage => respondPreimage knownPreimage queue
      | none => .error (.unknownPreimage hash) := by
  have rest : (getPreimageRequest hash).drop 1 = 0 :: hash.val := rfl
  rw [getPreimage, rest]
  simp only [length_cons, hash.property, Nat.add_comm 32, ne_eq, not_true_eq_false, if_false,
    headD_cons, drop_succ_cons, drop_zero, Digest.ofBytes_val]
  cases knownPreimages hash <;> rfl

theorem respondPreimage_eq {knownPreimage : Bytes} (small : knownPreimage.length ≤ maxSafeInteger)
    (queue : List Bytes) :
    respondPreimage knownPreimage queue =
      .ok (preimageResponse knownPreimage, queue ++ preimageRest knownPreimage) := by
  rw [respondPreimage, varint_eq small]
  simp only [ok_bind, queuePreimage_eq]
  rw [preimageResponse, append_assoc, singleton_append]
  rfl

/-- Sizes and indices that are not safe integers are refused. -/
theorem readSizeAndIndex_eq {reqBuf : BufferReader}
    (sizeSmall : treeSize < 2 ^ 64) (indexSmall : leafIndex < 2 ^ 64)
    (position : reqBuf.rest = varintWrite treeSize ++ varintWrite leafIndex) :
    readSizeAndIndex reqBuf =
      if treeSize ≤ maxSafeInteger ∧ leafIndex ≤ maxSafeInteger then some (treeSize, leafIndex)
      else none := by
  obtain ⟨size, afterSize⟩ := BufferReader.readVarInt_of_rest sizeSmall position
  rw [← append_nil (varintWrite leafIndex)] at afterSize
  obtain ⟨index, -⟩ := BufferReader.readVarInt_of_rest indexSmall afterSize
  simp only [readSizeAndIndex, size, index, Option.bind_eq_bind, Option.bind_some,
    sanitizeBigintToNumber]
  by_cases safeSize : treeSize ≤ maxSafeInteger
  · by_cases safeIndex : leafIndex ≤ maxSafeInteger
    · simp [safeSize, safeIndex, not_lt.mpr safeSize, not_lt.mpr safeIndex]
    · simp [safeSize, safeIndex, not_lt.mpr safeSize, not_le.mp safeIndex]
  · simp [safeSize, not_le.mp safeSize]

theorem getMerkleLeafProof_request (knownTrees : Digest → Option Merkle) (queue : List Bytes)
    (root : Digest) (sizeSmall : treeSize < 2 ^ 64) (indexSmall : leafIndex < 2 ^ 64) :
    getMerkleLeafProof knownTrees queue (getMerkleLeafProofRequest root treeSize leafIndex) =
      if treeSize ≤ maxSafeInteger ∧ leafIndex ≤ maxSafeInteger then
        match knownTrees root with
        | some mt => respondLeafProof mt treeSize leafIndex queue
        | none => .error (.unknownTree root)
      else .error .sizeOrIndexNotParsed := by
  let req := root.val ++ (varintWrite treeSize ++ varintWrite leafIndex)
  have rest : (getMerkleLeafProofRequest root treeSize leafIndex).drop 1 = req := by
    simp [req, getMerkleLeafProofRequest]
  have long : ¬ req.length < 32 + 1 + 1 := by
    have sizePos := varintSize_pos treeSize
    have indexPos := varintSize_pos leafIndex
    simp only [req, length_append, root.property, length_varintWrite]
    omega
  have position : (BufferReader.mk req 0).rest = root.val ++ (varintWrite treeSize ++
      varintWrite leafIndex) := rfl
  obtain ⟨hash, afterHash⟩ := BufferReader.readSlice_of_rest (Nat.zero_le _) position
  rw [root.property] at hash afterHash
  rw [getMerkleLeafProof, rest, if_neg long, hash]
  simp only [readSizeAndIndex_eq sizeSmall indexSmall afterHash, Digest.ofBytes_val]
  by_cases safe : treeSize ≤ maxSafeInteger ∧ leafIndex ≤ maxSafeInteger
  · rw [if_pos safe, if_pos safe]
    cases knownTrees root <;> rfl
  · rw [if_neg safe, if_neg safe]
    rfl

variable {H : HashFunction}

theorem respondLeafProof_eq (leaves : List Digest) (treeSize leafIndex : Nat) (queue : List Bytes) :
    (respondLeafProof (Merkle.new H leaves) treeSize leafIndex queue).toOption =
      Reference.proveLeaf H queue leaves treeSize leafIndex := by
  have sameSize : (Merkle.new H leaves).size = leaves.length := rfl
  rw [respondLeafProof, Reference.proveLeaf, sameSize]
  by_cases invalid : leafIndex ≥ treeSize ∨ leaves.length ≠ treeSize
  · rw [if_pos invalid, if_pos invalid]
    rfl
  rw [if_neg invalid, if_neg invalid]
  by_cases busy : queue ≠ []
  · rw [if_pos busy, if_pos (by simpa using busy)]
    rfl
  have inside : leafIndex < leaves.length := by omega
  rw [not_not] at busy
  subst busy
  have found : (Merkle.new H leaves).getLeafHash leafIndex = some leaves[leafIndex] :=
    getElem?_eq_getElem inside
  rw [getProof_new inside, found, getElem?_eq_getElem inside]
  simp only [queueProof_eq, nil_append, length_nil, ne_eq, not_true_eq_false, if_false,
    Option.map_some, proofResponse, append_assoc, singleton_append]
  rfl

theorem getMerkleLeafIndex_request (knownTrees : Digest → Option Merkle) (root leafHash : Digest) :
    getMerkleLeafIndex knownTrees (getMerkleLeafIndexRequest root leafHash) =
      match knownTrees root with
      | some mt => respondLeafIndex mt leafHash
      | none => .error (.unknownTree root) := by
  have rest : (getMerkleLeafIndexRequest root leafHash).drop 1 = root.val ++ leafHash.val := rfl
  rw [getMerkleLeafIndex, rest]
  simp only [length_append, root.property, leafHash.property, ne_eq, not_true_eq_false,
    if_false, take_left' root.property, drop_left' root.property, Digest.ofBytes_val]
  cases knownTrees root <;> rfl

theorem respondLeafIndex_eq {leaves : List Digest}
    (small : leaves.length ≤ 2 ^ 31) (leafHash : Digest) :
    (respondLeafIndex (Merkle.new H leaves) leafHash).toOption =
      Reference.leafIndex (some [0, 0]) leaves leafHash := by
  have sameLeaves : (Merkle.new H leaves).leaves = leaves := rfl
  rw [respondLeafIndex, Reference.leafIndex, sameLeaves]
  cases found : leaves.findIdx? (· = leafHash) with
  | none => rfl
  | some index =>
    have inside : index < leaves.length := (findIdx?_eq_some_iff_findIdx_eq.mp found).1
    have safe : index ≤ maxSafeInteger := by
      rw [maxSafeInteger]
      omega
    simp only [varint_eq safe, ok_bind]
    rfl

theorem getMoreElements_request (queue : List Bytes) :
    (getMoreElements queue getMoreElementsRequest).toOption = moreElements queue := by
  unfold getMoreElements
  cases queue with
  | nil => rfl
  | cons element queue =>
    have single : getMoreElementsRequest.length = 1 := rfl
    simp only [single, ne_eq, not_true_eq_false, if_false]
    by_cases mixed : ∃ other ∈ element :: queue, other.length ≠ element.length
    · rw [if_pos mixed, moreElements, if_pos mixed]
      rfl
    · rw [if_neg mixed, moreElements_cons mixed]
      rfl

/-! ## Agreement with the abstract client -/

/-- The interpreter has the data of the abstract client. -/
def Refines (H : HashFunction) (reference : Reference) (client : ClientCommandInterpreter) : Prop :=
  reference.Has (Merkle.new H) client.preimages client.roots client.queue client.yielded

variable {client : ClientCommandInterpreter}

theorem answeredBy (sized : reference.Sized)
    (refines : Refines H reference client) : Reference.AnsweredBy H (some [0, 0]) reference
      (fun command => respond client command.request) client
      (fun queue => { client with queue })
      (fun data => { client with yielded := client.yielded ++ [data] }) where
  told _ := rfl
  getPreimage hash := by
    refine (toOption_bind_pure _ _).trans ?_
    rw [ClientCommand.request, getPreimage_request, refines.preimages, refines.queue]
    cases known : reference.known.preimage hash with
    | none => rfl
    | some preimage =>
      have small := sized.preimage hash preimage known
      simp only [respondPreimage_eq (Nat.le_sub_one_of_lt small)]
      rfl
  getMerkleLeafProof root treeSize leafIndex := by
    refine (toOption_bind_pure _ _).trans ?_
    rw [ClientCommand.request, getMerkleLeafProof_request _ _ _
      treeSize.toNat_lt leafIndex.toNat_lt, refines.trees, refines.queue]
    refine congrArg (Option.map _) ?_
    cases known : reference.known.leaves root with
    | none => split_ifs <;> rfl
    | some leaves =>
      have small := sized.leaves root leaves known
      split_ifs with safe
      · exact respondLeafProof_eq _ _ _ _
      · -- no tree has a size or an index that is not a safe integer
        rw [maxSafeInteger] at safe
        exact (if_pos (by omega)).symm
  getMerkleLeafIndex root leafHash := by
    refine (toOption_bind_pure _ _).trans ?_
    rw [ClientCommand.request, getMerkleLeafIndex_request, refines.trees]
    cases known : reference.known.leaves root with
    | none => rfl
    | some leaves =>
      exact congrArg (Option.map _) (respondLeafIndex_eq (sized.leaves root leaves known) _)
  getMoreElements := by
    refine (toOption_bind_pure _ _).trans ?_
    rw [ClientCommand.request, refines.queue, getMoreElements_request]

theorem agree_answer (sized : reference.Sized)
    (refines : Refines H reference client) (command : ClientCommand) :
    Responder.Agree (Refines H) (Reference.answer H (some [0, 0]) reference command)
      (respond client command.request) :=
  (answeredBy sized refines).agree refines
    (fun _ => ⟨refines.preimages, refines.trees, rfl, refines.yielded⟩)
    (fun data => ⟨refines.preimages, refines.trees, refines.queue,
      congrArg (· ++ [data]) refines.yielded⟩)
    command

/-! ## Known data -/

section Known

variable (H : HashFunction)

namespace ClientCommandInterpreter

def addKnownPreimage (self : ClientCommandInterpreter) (preimage : Bytes) :
    ClientCommandInterpreter :=
  { self with preimages := Function.update self.preimages (H preimage) (some preimage) }

def addKnownList (self : ClientCommandInterpreter) (elements : List Bytes) :
    ClientCommandInterpreter :=
  let self := elements.foldl (fun self element => self.addKnownPreimage H (0x00 :: element)) self
  let mt := Merkle.new H (elements.map (merkleComputeElementHash H))
  { self with roots := Function.update self.roots mt.getRoot (some mt) }

end ClientCommandInterpreter

/-- The keys and the values of a map, each with their tree. -/
structure MerkleMap where
  keys : List Bytes
  keysTree : Merkle
  values : List Bytes
  valuesTree : Merkle

/-- There is an exception if the numbers of keys and values differ or if the keys are not in
strictly increasing order, as hexadecimal strings. -/
def MerkleMap.new (keys values : List Bytes) : Option MerkleMap :=
  if keys.length ≠ values.length then none
  else if ¬ keys.IsChain fun key next => toHex key < toHex next then none
  else some ⟨keys, Merkle.new H (keys.map (merkleComputeElementHash H)), values,
    Merkle.new H (values.map (merkleComputeElementHash H))⟩

def MerkleMap.commitment (map : MerkleMap) : Option Bytes :=
  (createVarint map.keys.length).map fun size =>
    size ++ map.keysTree.getRoot.val ++ map.valuesTree.getRoot.val

/-- The merkleized map of a map whose keys are hexadecimal strings. -/
def createMerkleMap (map : Mapping) : Option MerkleMap :=
  let sortedKeys := (map.entries.map Prod.fst).mergeSort fun key next =>
    ¬ toHex next < toHex key
  match sortedKeys.mapM fun key => map.entries.lookup key with
  | none => none
  | some values => MerkleMap.new H sortedKeys values

def ClientCommandInterpreter.addKnownMapping (self : ClientCommandInterpreter) (mm : MerkleMap) :
    ClientCommandInterpreter :=
  (self.addKnownList H mm.keys).addKnownList H mm.values

end Known

/-- The keys of every map are in the order that the trees require. -/
theorem createMerkleMap_eq (H : HashFunction) (map : Mapping) :
    createMerkleMap H map = some
      ⟨map.sorted.map Prod.fst,
        Merkle.new H ((map.sorted.map Prod.fst).map (merkleComputeElementHash H)),
        map.sorted.map Prod.snd,
        Merkle.new H ((map.sorted.map Prod.snd).map (merkleComputeElementHash H))⟩ := by
  have hexOrder : (fun key next : Bytes => decide (¬ toHex next < toHex key)) =
      fun key next => decide (key ≤ next) := by
    funext key next
    exact decide_eq_decide.mpr (not_congr (toHex_lt_iff next key))
  have chain : (map.sorted.map Prod.fst).IsChain fun key next => toHex key < toHex next :=
    ((pairwise_lt_sorted map).imp fun before => (toHex_lt_iff _ _).mpr before).isChain
  rw [createMerkleMap, hexOrder, mergeSort_keys]
  simp only [mapM_lookup_sorted]
  rw [MerkleMap.new, if_neg (by simp), if_neg (not_not.mpr chain)]

end LedgerSyscoin.Client.JavaScript
