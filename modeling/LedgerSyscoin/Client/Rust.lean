import LedgerSyscoin.Client.Mapping
import LedgerSyscoin.Client.Reference

/-!
# The Rust client

The interpreter for the commands of the device, as in `interpreter.rs`. Preimages and
trees are kept in lists and the first one that fits is used. A panic, which only a tree
without leaves causes, is the outcome `none`. A command that fails leaves the
interpreter unchanged. What the `bitcoin` library decodes is a parameter.
-/

namespace LedgerSyscoin.Client.Rust

open Foundation Common Handler List

variable {elementLength : Nat} {queue : List Bytes} {reference : Reference}

inductive InterpreterError where
  | emptyInput
  | unknownCommand (code : UInt8)
  | unsupportedRequest (code : UInt8)
  | invalidIndexOrSize
  | unknownHash
  | unknownMerkleRoot
  | unexpectedQueue

/-- How the `bitcoin` library decodes variable-length integers: the number at the start of some
bytes with its length, and the number that is all of them. What it writes is read back. -/
structure Consensus where
  deserializePartial : Bytes → Option (Nat × Nat)
  deserialize : Bytes → Option Nat
  deserializePartial_append : ∀ {value}, value < 2 ^ 64 → ∀ rest,
    deserializePartial (varintWrite value ++ rest) = some (value, varintSize value)
  deserialize_varintWrite : ∀ {value}, value < 2 ^ 64 → deserialize (varintWrite value) = some value

variable (lib : Consensus)

/-! ## Commands -/

/-- The response and the queue after a preimage was found. -/
def respondPreimage (preimage : Bytes) (queue : List Bytes) : Bytes × List Bytes :=
  let preimageLenOut := varintWrite preimage.length
  let maxPayloadSize := 255 - preimageLenOut.length - 1
  let payloadSize :=
    if preimage.length > maxPayloadSize then maxPayloadSize else preimage.length
  let queue :=
    if payloadSize < preimage.length then
      (preimage.drop payloadSize).foldl (fun queue byte => queue ++ [[byte]]) queue
    else queue
  (preimageLenOut ++ [UInt8.ofNat payloadSize] ++ preimage.take payloadSize, queue)

def getPreimageCommand (queue : List Bytes) (knownPreimages : List (Digest × Bytes))
    (request : Bytes) : Except InterpreterError (Bytes × List Bytes) :=
  if request.length ≠ 33 ∨ request.headD 0 ≠ 0 then .error (.unsupportedRequest ccmdGetPreimage)
  else
    match knownPreimages.find? fun known => known.1.val = request.drop 1 with
    | none => .error .unknownHash
    | some (_, preimage) => .ok (respondPreimage preimage queue)

/-- The loop over the elements of a proof: the first six go to the answer, the others to the
queue. -/
def splitProof : List Digest → Nat → Bytes → Nat → List Bytes → Bytes × Nat × List Bytes
  | [], _, firstPartProof, nResponseElements, queue => (firstPartProof, nResponseElements, queue)
  | element :: proof, i, firstPartProof, nResponseElements, queue =>
    if i < 6 then
      splitProof proof (i + 1) (firstPartProof ++ element.val) (nResponseElements + 1) queue
    else splitProof proof (i + 1) firstPartProof nResponseElements (queue ++ [element.val])

/-- The response and the queue after a tree was found. -/
def respondLeafProof (tree : MerkleTree) (treeSize leafIndex : Nat) (queue : List Bytes) :
    Except InterpreterError (Bytes × List Bytes) :=
  if leafIndex ≥ treeSize ∨ treeSize ≠ tree.size then .error .invalidIndexOrSize
  else
    match tree.getLeafProof leafIndex, tree.getLeaf leafIndex with
    | some proof, some leaf =>
      let (firstPartProof, nResponseElements, queue) := splitProof proof 0 [] 0 queue
      .ok (leaf.val ++ [UInt8.ofNat proof.length] ++ [UInt8.ofNat nResponseElements] ++
        firstPartProof, queue)
    | _, _ => .error .invalidIndexOrSize

def getMerkleLeafProof (queue : List Bytes) (trees : List MerkleTree) (request : Bytes) :
    Except InterpreterError (Bytes × List Bytes) :=
  if queue ≠ [] then .error .unexpectedQueue
  else if request.length < 34 then .error (.unsupportedRequest ccmdGetMerkleLeafProof)
  else
    let root := request.take 32
    match lib.deserializePartial (request.drop 32) with
    | none => .error (.unsupportedRequest ccmdGetMerkleLeafProof)
    | some (treeSize, read) =>
      match lib.deserialize (request.drop (32 + read)) with
      | none => .error (.unsupportedRequest ccmdGetMerkleLeafProof)
      | some leafIndex =>
        match trees.find? fun tree => tree.rootHash.val = root with
        | none => .error .unknownHash
        | some tree => respondLeafProof tree treeSize leafIndex queue

def getMerkleLeafIndex (trees : List MerkleTree) (request : Bytes) :
    Except InterpreterError Bytes :=
  if request.length < 64 then .error (.unsupportedRequest ccmdGetMerkleLeafIndex)
  else
    let root := request.take 32
    let hash := (request.drop 32).take 32
    match trees.find? fun tree => tree.rootHash.val = root with
    | none => .error .unknownHash
    | some tree =>
      match tree.getLeafIndex (Digest.ofBytes hash) with
      | none => .error .unknownHash
      | some leafIndex => .ok ([1] ++ varintWrite leafIndex)

/-- The loop over the queue: every element that still fits is taken. -/
def collectElements (elementLength : Nat) : List Bytes → Bytes → Nat → Bytes × Nat
  | [], responseElements, nAddedElements => (responseElements, nAddedElements)
  | element :: queue, responseElements, nAddedElements =>
    if responseElements.length + elementLength ≤ 253 then
      collectElements elementLength queue (responseElements ++ element) (nAddedElements + 1)
    else collectElements elementLength queue responseElements nAddedElements

def getMoreElements : List Bytes → Except InterpreterError (Bytes × List Bytes)
  | [] => .error .unexpectedQueue
  | element :: queue =>
    let elementLength := element.length
    if ∃ other ∈ element :: queue, other.length ≠ elementLength then .error .unexpectedQueue
    else
      let (responseElements, nAddedElements) :=
        collectElements elementLength (element :: queue) [] 0
      .ok ([UInt8.ofNat nAddedElements] ++ [UInt8.ofNat elementLength] ++ responseElements,
        (element :: queue).drop nAddedElements)

/-! ## The interpreter -/

structure ClientCommandInterpreter where
  yielded : List Bytes
  queue : List Bytes
  knownPreimages : List (Digest × Bytes)
  trees : List MerkleTree

namespace ClientCommandInterpreter

def new : ClientCommandInterpreter := ⟨[], [], [], []⟩

/-- Interpret a command of the device. -/
def execute (self : ClientCommandInterpreter) (command : Bytes) :
    Except InterpreterError (Bytes × ClientCommandInterpreter) :=
  match command with
  | [] => .error .emptyInput
  | code :: rest =>
    if code = ccmdYield then .ok ([], { self with yielded := self.yielded ++ [rest] })
    else if code = ccmdGetPreimage then
      return (fun (response, queue) => (response, { self with queue }))
        (← getPreimageCommand self.queue self.knownPreimages rest)
    else if code = ccmdGetMerkleLeafProof then
      return (fun (response, queue) => (response, { self with queue }))
        (← getMerkleLeafProof lib self.queue self.trees rest)
    else if code = ccmdGetMerkleLeafIndex then
      return (← getMerkleLeafIndex self.trees rest, self)
    else if code = ccmdGetMoreElements then
      return (fun (response, queue) => (response, { self with queue }))
        (← getMoreElements self.queue)
    else .error (.unknownCommand code)

end ClientCommandInterpreter

/-- The interpreter as the other party of the device. -/
def respond : Responder ClientCommandInterpreter Bytes Bytes :=
  fun self request => (self.execute lib request).toOption

/-! ## Known data -/

section Known

variable (H : HashFunction)

namespace ClientCommandInterpreter

def addKnownPreimage (self : ClientCommandInterpreter) (element : Bytes) :
    ClientCommandInterpreter :=
  { self with knownPreimages := self.knownPreimages ++ [(H element, element)] }

/-- The root of the list and the interpreter that knows it. -/
def addKnownList (self : ClientCommandInterpreter) (elements : List Bytes) :
    Option (Digest × ClientCommandInterpreter) :=
  let (self, leaves) := elements.foldl (fun (self, leaves) element =>
    let preimage := 0x00 :: element
    (addKnownPreimage H self preimage, leaves ++ [H preimage])) (self, [])
  (MerkleTree.new H leaves).map fun tree =>
    (tree.rootHash, { self with trees := self.trees ++ [tree] })

def addKnownMapping (self : ClientCommandInterpreter) (mapping : Mapping) :
    Option ClientCommandInterpreter := do
  let sorted := mapping.entries.mergeSort keyLe
  let (_, self) ← self.addKnownList H (sorted.map Prod.fst)
  let (_, self) ← self.addKnownList H (sorted.map Prod.snd)
  return self

end ClientCommandInterpreter

def getMerkleizedMapCommitment (mapping : Mapping) : Option Bytes := do
  let sorted := mapping.entries.mergeSort keyLe
  let keysTree ← MerkleTree.new H (sorted.map fun entry => H (0x00 :: entry.1))
  let valuesTree ← MerkleTree.new H (sorted.map fun entry => H (0x00 :: entry.2))
  return varintWrite sorted.length ++ keysTree.rootHash.val ++ valuesTree.rootHash.val

end Known

/-! ## Requests of the device -/

theorem foldl_singletons (bytes : Bytes) (queue : List Bytes) :
    bytes.foldl (fun queue byte => queue ++ [[byte]]) queue =
      queue ++ bytes.map fun byte => [byte] := by
  induction bytes generalizing queue with
  | nil => simp
  | cons byte bytes ih => simp [ih]

theorem respondPreimage_eq (preimage : Bytes) (queue : List Bytes) :
    respondPreimage preimage queue =
      (preimageResponse preimage, queue ++ preimageRest preimage) := by
  have size : (if preimage.length > 255 - varintSize preimage.length - 1 then
      255 - varintSize preimage.length - 1 else preimage.length) = payloadSize preimage := by
    rw [payloadSize]
    split_ifs <;> omega
  rw [respondPreimage]
  simp only [length_varintWrite, size, foldl_singletons]
  rw [preimageResponse, append_assoc, singleton_append]
  split_ifs with more
  · rfl
  · rw [preimageRest, drop_eq_nil_of_le (not_lt.mp more), map_nil, append_nil]

theorem getPreimageCommand_request (queue : List Bytes) (knownPreimages : List (Digest × Bytes))
    (hash : Digest) :
    getPreimageCommand queue knownPreimages (0 :: hash.val) =
      match knownPreimages.find? fun known => known.1 = hash with
      | none => .error .unknownHash
      | some (_, preimage) => .ok (respondPreimage preimage queue) := by
  have wellFormed : ¬ ((0 :: hash.val).length ≠ 33 ∨ (0 :: hash.val).headD 0 ≠ 0) := by
    simp [hash.property]
  rw [getPreimageCommand, if_neg wellFormed]
  simp only [drop_succ_cons, drop_zero, Subtype.val_inj]

/-- The first six elements of a proof are sent and the others are queued. -/
theorem splitProof_eq (proof : List Digest) (i : Nat) (firstPartProof : Bytes)
    (nResponseElements : Nat) (queue : List Bytes) :
    splitProof proof i firstPartProof nResponseElements queue =
      (firstPartProof ++ ((proof.take (6 - i)).map Subtype.val).flatten,
        nResponseElements + min (6 - i) proof.length,
        queue ++ (proof.drop (6 - i)).map Subtype.val) := by
  induction proof generalizing i firstPartProof nResponseElements queue with
  | nil => simp [splitProof]
  | cons element proof ih =>
    rw [splitProof]
    split_ifs with early
    · obtain ⟨left, leftEq⟩ : ∃ left, 6 - i = left + 1 := ⟨5 - i, by omega⟩
      have next : 6 - (i + 1) = left := by omega
      rw [ih, next, leftEq]
      simp only [take_succ_cons, map_cons, flatten_cons, append_assoc,
        length_cons, Nat.add_min_add_right, drop_succ_cons, Prod.mk.injEq, true_and,
        and_true]
      omega
    · have none : 6 - i = 0 := by omega
      have noneLater : 6 - (i + 1) = 0 := by omega
      rw [ih, none, noneLater]
      simp

theorem getMerkleLeafProof_request (queue : List Bytes) (trees : List MerkleTree) (root : Digest)
    {treeSize leafIndex : Nat} (sizeSmall : treeSize < 2 ^ 64) (indexSmall : leafIndex < 2 ^ 64) :
    getMerkleLeafProof lib queue trees (root.val ++ varintWrite treeSize ++ varintWrite leafIndex) =
      if queue ≠ [] then .error .unexpectedQueue
      else
        match trees.find? fun tree => tree.rootHash = root with
        | none => .error .unknownHash
        | some tree => respondLeafProof tree treeSize leafIndex queue := by
  have long : ¬ (root.val ++ varintWrite treeSize ++ varintWrite leafIndex).length < 34 := by
    have sizePos := varintSize_pos treeSize
    have indexPos := varintSize_pos leafIndex
    simp only [length_append, root.property, length_varintWrite]
    omega
  rw [getMerkleLeafProof]
  split_ifs with busy
  · rfl
  · simp only [append_assoc, take_left' root.property, drop_left' root.property,
      lib.deserializePartial_append sizeSmall, ← drop_drop]
    rw [← length_varintWrite treeSize, drop_left, lib.deserialize_varintWrite indexSmall]
    simp only [Subtype.val_inj]

variable {H : HashFunction}

theorem respondLeafProof_eq {leaves : List Digest} {tree : MerkleTree}
    (built : MerkleTree.new H leaves = some tree) (treeSize leafIndex : Nat) :
    (respondLeafProof tree treeSize leafIndex []).toOption =
      Reference.proveLeaf H [] leaves treeSize leafIndex := by
  have nonempty : leaves ≠ [] := by
    rintro rfl
    rw [merkleTree_new_nil] at built
    cases built
  obtain ⟨tree', built', sameLeaves, -, proofs⟩ := exists_merkleTree_new (H := H) nonempty
  obtain rfl : tree' = tree := Option.some.inj (built'.symm.trans built)
  rw [respondLeafProof, Reference.proveLeaf, MerkleTree.size, MerkleTree.getLeaf, sameLeaves]
  by_cases invalid : leafIndex ≥ treeSize ∨ leaves.length ≠ treeSize
  · rw [if_pos invalid, if_pos (invalid.imp_right Ne.symm)]
    rfl
  · have inside : leafIndex < leaves.length := by omega
    rw [if_neg invalid, if_neg (fun wrong => invalid (wrong.imp_right Ne.symm)), if_neg (by simp),
      proofs leafIndex inside, getElem?_eq_getElem inside]
    generalize leafProof H leaves leafIndex = proof
    have first : proof.take (proofPartSize proof) = proof.take 6 := take_eq_take_min.symm
    have later : proof.drop (proofPartSize proof) = proof.drop 6 := by
      rw [proofPartSize]
      rcases le_total 6 proof.length with long | short
      · rw [Nat.min_eq_left long]
      · rw [Nat.min_eq_right short, drop_length, drop_eq_nil_of_le short]
    simp only [splitProof_eq, nil_append, Nat.sub_zero, Nat.zero_add, Option.map_some,
      proofResponse, proofRest, first, later, append_assoc, singleton_append]
    rfl

theorem getMerkleLeafIndex_request (trees : List MerkleTree) (root leafHash : Digest) :
    getMerkleLeafIndex trees (root.val ++ leafHash.val) =
      match trees.find? fun tree => tree.rootHash = root with
      | none => .error .unknownHash
      | some tree =>
        match tree.getLeafIndex leafHash with
        | none => .error .unknownHash
        | some leafIndex => .ok ([1] ++ varintWrite leafIndex) := by
  have long : ¬ (root.val ++ leafHash.val).length < 64 := by
    simp [root.property, leafHash.property]
  have all : leafHash.val.take 32 = leafHash.val := take_of_length_le leafHash.property.le
  rw [getMerkleLeafIndex, if_neg long]
  simp only [take_left' root.property, drop_left' root.property, all,
    Digest.ofBytes_val, Subtype.val_inj]

theorem collectElements_of_full {responseElements : Bytes}
    (full : 253 < responseElements.length + elementLength) (queue : List Bytes)
    (nAddedElements : Nat) : collectElements elementLength queue responseElements nAddedElements =
      (responseElements, nAddedElements) := by
  induction queue with
  | nil => rfl
  | cons element queue ih => rw [collectElements, if_neg (by omega), ih]

/-- The loop takes as many elements as fit. -/
theorem collectElements_eq (positive : 0 < elementLength)
    (uniform : ∀ element ∈ queue, element.length = elementLength)
    (responseElements : Bytes) (fits : responseElements.length ≤ 253) (nAddedElements : Nat) :
    collectElements elementLength queue responseElements nAddedElements =
      let count := min ((253 - responseElements.length) / elementLength) queue.length
      (responseElements ++ (queue.take count).flatten, nAddedElements + count) := by
  induction queue generalizing responseElements nAddedElements with
  | nil => simp [collectElements]
  | cons element queue ih =>
    rw [forall_mem_cons] at uniform
    rcases le_or_gt (responseElements.length + elementLength) 253 with more | full
    · rw [collectElements, if_pos more,
        ih uniform.2 _ (by rw [length_append, uniform.1]; exact more)]
      simp only [length_append, uniform.1, length_cons, room_succ positive more,
        take_succ_cons, flatten_cons, append_assoc, Prod.mk.injEq, true_and]
      rw [Nat.add_assoc, Nat.add_comm 1]
    · have none : (253 - responseElements.length) / elementLength = 0 := Nat.div_eq_of_lt (by omega)
      rw [collectElements_of_full full, none]
      simp

theorem getMoreElements_eq (sizes : ∀ element ∈ queue, 0 < element.length) :
    (getMoreElements queue).toOption = moreElements queue := by
  cases queue with
  | nil => rfl
  | cons element queue =>
    rw [getMoreElements]
    by_cases mixed : ∃ other ∈ element :: queue, other.length ≠ element.length
    · rw [if_pos mixed, moreElements, if_pos mixed]
      rfl
    have uniform : ∀ other ∈ element :: queue, other.length = element.length := by
      simpa using mixed
    have collected := collectElements_eq (sizes element mem_cons_self) uniform []
      (Nat.zero_le _) 0
    simp only [length_nil, Nat.sub_zero, nil_append, Nat.zero_add] at collected
    rw [if_neg mixed, moreElements_cons mixed, collected]
    rfl

/-! ## Agreement with the abstract client -/

/-- The interpreter has the data of the abstract client. -/
structure Refines (H : HashFunction) (reference : Reference) (client : ClientCommandInterpreter) :
    Prop where
  preimages : ∀ hash, (client.knownPreimages.find? fun known => known.1 = hash).map Prod.snd =
    reference.known.preimage hash
  trees : ∀ root, (reference.known.leaves root).bind (MerkleTree.new H) =
    client.trees.find? fun tree => tree.rootHash = root
  built : ∀ root leaves, reference.known.leaves root = some leaves → leaves ≠ []
  queue : client.queue = reference.queue
  yielded : client.yielded = reference.yielded

variable {client : ClientCommandInterpreter}

theorem answeredBy (sized : reference.Sized)
    (refines : Refines H reference client) : Reference.AnsweredBy H (none) reference
      (fun command => respond lib client command.request) client
      (fun queue => { client with queue })
      (fun data => { client with yielded := client.yielded ++ [data] }) where
  told _ := rfl
  getPreimage hash := by
    refine (toOption_bind_pure _ _).trans ?_
    rw [getPreimageCommand_request, ← refines.preimages, refines.queue]
    cases client.knownPreimages.find? fun known => known.1 = hash with
    | none => rfl
    | some known =>
      obtain ⟨_, _⟩ := known
      simp only [respondPreimage_eq]
      rfl
  getMerkleLeafProof root treeSize leafIndex := by
    refine (toOption_bind_pure _ _).trans ?_
    rw [getMerkleLeafProof_request _ _ _ _
      treeSize.toNat_lt leafIndex.toNat_lt, refines.queue]
    refine congrArg (Option.map _) ?_
    rw [← refines.trees]
    cases known : reference.known.leaves root with
    | none => split_ifs <;> rfl
    | some leaves =>
      obtain ⟨tree, built, -⟩ := exists_merkleTree_new (H := H) (refines.built root leaves known)
      simp only [Option.bind_some, built]
      split_ifs with busy
      · rw [Reference.proveLeaf]
        split_ifs <;> rfl
      · rw [not_not.mp busy]
        exact respondLeafProof_eq built _ _
  getMerkleLeafIndex root leafHash := by
    refine (toOption_bind_pure _ _).trans ?_
    rw [getMerkleLeafIndex_request]
    refine congrArg (Option.map _) ?_
    rw [← refines.trees]
    cases known : reference.known.leaves root with
    | none => rfl
    | some leaves =>
      obtain ⟨tree, built, sameLeaves, -⟩ :=
        exists_merkleTree_new (H := H) (refines.built root leaves known)
      simp only [Option.bind_some, built, MerkleTree.getLeafIndex, sameLeaves, Reference.leafIndex]
      cases leaves.findIdx? (· = leafHash) <;> rfl
  getMoreElements := by
    refine (toOption_bind_pure _ _).trans ?_
    rw [refines.queue, getMoreElements_eq fun element member => (sized.queue element member).1]

theorem agree_answer (sized : reference.Sized)
    (refines : Refines H reference client) (command : ClientCommand) :
    Responder.Agree (Refines H) (Reference.answer H (none) reference command)
      (respond lib client command.request) :=
  (answeredBy lib sized refines).agree refines
    (fun _ => ⟨refines.preimages, refines.trees, refines.built, rfl, refines.yielded⟩)
    (fun data => ⟨refines.preimages, refines.trees, refines.built, refines.queue,
      congrArg (· ++ [data]) refines.yielded⟩)
    command

/-- A decoder that refuses encodings that are not the shortest. -/
def Consensus.shortest : Consensus where
  deserializePartial bytes := (varintRead bytes).filter fun (value, size) => size = varintSize value
  deserialize bytes := (varintRead bytes).bind fun (value, size) =>
    if size = varintSize value ∧ size = bytes.length then some value else none
  deserializePartial_append small rest := by
    rw [varintRead_varintWrite_append _ small rest]
    simp
  deserialize_varintWrite {value} small := by
    have read := varintRead_varintWrite_append value small []
    rw [append_nil] at read
    simp [read]

end LedgerSyscoin.Client.Rust
