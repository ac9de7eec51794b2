import LedgerSyscoin.Common.Merkle
import LedgerSyscoin.Handler.Lib.Elements

/-!
# `call_get_merkle_leaf_hash`

The client answers with a leaf hash, the size of its proof and the first proof elements;
further elements follow on request. The device climbs from the leaf hash with the
directions of the index and compares the result with the root. The size of the proof is
never compared with the depth of the leaf.
-/

namespace LedgerSyscoin.Handler

open Foundation Common Boilerplate List

variable {path : List (Bool × Digest)} {data : Bytes}

/-- The request for the proof of one leaf. -/
def getMerkleLeafProofRequest (merkleRoot : Digest) (treeSize leafIndex : Nat) : Bytes :=
  ccmdGetMerkleLeafProof :: (merkleRoot.val ++ varintWrite treeSize ++ varintWrite leafIndex)

/-- Leaf hash, size of the proof and number of its elements in this answer. -/
def readLeafProofHeader (buffer : Buffer) : Option (Digest × Nat × Nat × Buffer) := do
  let (curHash, buffer) ← bufferReadBytes 32 buffer
  let (proofSize, buffer) ← bufferReadU8 buffer
  let (nProofElements, buffer) ← bufferReadU8 buffer
  some (Digest.ofBytes curHash, proofSize.toNat, nProofElements.toNat, buffer)

/-- Hash reached, number of proof elements used and byte strings hashed so far. -/
structure LeafProofState where
  curHash : Digest
  curStep : Nat
  hashed : List Bytes

/-- Combine the hash reached with its sibling on the given side. -/
def LeafProofState.combine (H : HashFunction) (state : LeafProofState) (left right : Digest) :
    LeafProofState :=
  { curHash := merkleCombineHashes H left right
    curStep := state.curStep + 1
    hashed := nodePreimage left right :: state.hashed }

/-- Use `count` proof elements from the data; the flag is false when a direction is
missing. -/
def combineElements (H : HashFunction) (treeSize leafIndex proofSize : Nat) :
    Nat → Bytes → LeafProofState → Option (Bool × LeafProofState)
  | 0, _, state => some (true, state)
  | count + 1, data, state =>
    let siblingHash := Digest.ofBytes (data.take 32)
    match merkleGetIthDirection treeSize leafIndex (proofSize - state.curStep - 1) with
    | none => none
    | some direction =>
      if direction = 0 then
        combineElements H treeSize leafIndex proofSize count (data.drop 32)
          (state.combine H state.curHash siblingHash)
      else if direction = 1 then
        combineElements H treeSize leafIndex proofSize count (data.drop 32)
          (state.combine H siblingHash state.curHash)
      else some (false, state)

/-- The loop over answers: `count` elements are available in `data`. -/
def getMerkleLeafHashLoop (H : HashFunction) (treeSize leafIndex proofSize : Nat)
    (pending : List Apdu) (dc : DispatcherContext) (count : Nat) (data : Bytes)
    (state : LeafProofState) : Option (Outcome (Int × LeafProofState)) :=
  match combineElements H treeSize leafIndex proofSize count data state with
  | none => none
  | some (false, state) => some ⟨(-1, state), dc, pending⟩
  | some (true, state) =>
    if state.curStep = proofSize then some ⟨(0, state), dc, pending⟩
    else
      match pending with
      | [] => none
      | apdu :: pending =>
        match interrupt dc getMoreElementsRequest apdu with
        | (false, dc) => some ⟨(-1, state), dc, pending⟩
        | (true, dc) =>
          match readElementsHeader dc.readBuffer with
          | none => some ⟨(-1, state), dc, pending⟩
          | some (nProofElements, elementsLen, readBuffer) =>
            let dc := { dc with readBuffer }
            if elementsLen ≠ 32 then some ⟨(-1, state), dc, pending⟩
            else if state.curStep + nProofElements > proofSize then
              some ⟨(-1, state), dc, pending⟩
            else
              getMerkleLeafHashLoop H treeSize leafIndex proofSize pending dc
                nProofElements readBuffer.remaining state

/-- Return code of the flow, the output hash and the byte strings hashed. -/
structure MerkleLeafHash where
  ret : Int
  out : Digest
  hashed : List Bytes
  deriving DecidableEq

/-- Receive the hash of the leaf at `leafIndex` of the tree with the given root. -/
def callGetMerkleLeafHash (H : HashFunction) (merkleRoot : Digest) (treeSize leafIndex : Nat)
    (out : Digest) (dc : DispatcherContext) : List Apdu → Option (Outcome MerkleLeafHash)
  | [] => none
  | apdu :: pending =>
    match interrupt dc (getMerkleLeafProofRequest merkleRoot treeSize leafIndex) apdu with
    | (false, dc) => some ⟨⟨-1, out, []⟩, dc, pending⟩
    | (true, dc) =>
      match readLeafProofHeader dc.readBuffer with
      | none => some ⟨⟨-1, out, []⟩, dc, pending⟩
      | some (curHash, proofSize, nProofElements, readBuffer) =>
        let dc := { dc with readBuffer }
        if nProofElements > proofSize then some ⟨⟨-1, out, []⟩, dc, pending⟩
        else if ¬ bufferCanRead readBuffer (32 * nProofElements) then
          some ⟨⟨-1, out, []⟩, dc, pending⟩
        else
          match getMerkleLeafHashLoop H treeSize leafIndex proofSize pending dc
              nProofElements readBuffer.remaining ⟨curHash, 0, []⟩ with
          | none => none
          | some ⟨(code, state), dc, pending⟩ =>
            if code < 0 then some ⟨⟨code, curHash, state.hashed⟩, dc, pending⟩
            else if merkleRoot ≠ state.curHash then
              some ⟨⟨-1, curHash, state.hashed⟩, dc, pending⟩
            else some ⟨⟨0, curHash, state.hashed⟩, dc, pending⟩

/-! ## The path climbed by a run -/

section Climb

variable {H : HashFunction} {treeSize leafIndex proofSize : Nat} {leaf : Digest}
  {state : LeafProofState}

/-- The directions of a path from step `start` on are those of the requested index. -/
def FollowsDirections (treeSize leafIndex : Nat) : Nat → List (Bool × Digest) → Prop
  | _, [] => True
  | start, (direction, _) :: path =>
    merkleGetIthDirection treeSize leafIndex start = some (directionCode (some direction)) ∧
      FollowsDirections treeSize leafIndex (start + 1) path

/-- `path` is what a state has climbed from `leaf`: its elements are counted, follow
the directions up to the proof size, lead to the hash reached, and every
combination was hashed. -/
structure Climbed (H : HashFunction) (treeSize leafIndex proofSize : Nat) (leaf : Digest)
    (state : LeafProofState) (path : List (Bool × Digest)) : Prop where
  length_eq : path.length = state.curStep
  step_le : state.curStep ≤ proofSize
  follows : FollowsDirections treeSize leafIndex (proofSize - state.curStep) path
  climb_eq : HashTree.climb (merkleCombineHashes H) path leaf = state.curHash
  hashed_pairs : ∀ pair ∈ HashTree.climbPairs (merkleCombineHashes H) path leaf,
    nodePreimage pair.1 pair.2 ∈ state.hashed

theorem Climbed.start (leaf : Digest) :
    Climbed H treeSize leafIndex proofSize leaf ⟨leaf, 0, []⟩ [] where
  length_eq := rfl
  step_le := Nat.zero_le _
  follows := trivial
  climb_eq := rfl
  hashed_pairs := by simp [HashTree.climbPairs]

/-- One combination extends the path by the direction taken and its sibling. -/
theorem Climbed.combine {sibling : Digest} (direction : Bool)
    (climbed : Climbed H treeSize leafIndex proofSize leaf state path)
    (room : state.curStep < proofSize)
    (found : merkleGetIthDirection treeSize leafIndex (proofSize - state.curStep - 1) =
      some (directionCode (some direction))) :
    let children := HashTree.arrange direction state.curHash sibling
    Climbed H treeSize leafIndex proofSize leaf (state.combine H children.1 children.2)
      ((direction, sibling) :: path) where
  length_eq := by
    rw [length_cons, climbed.length_eq]
    rfl
  step_le := room
  follows := by
    refine ⟨found, ?_⟩
    have shift : proofSize - (state.curStep + 1) + 1 = proofSize - state.curStep := by omega
    change FollowsDirections treeSize leafIndex (proofSize - (state.curStep + 1) + 1) path
    rw [shift]
    exact climbed.follows
  climb_eq := by
    rw [HashTree.climb, climbed.climb_eq]
    rfl
  hashed_pairs := by
    intro pair member
    rw [HashTree.climbPairs, climbed.climb_eq, mem_cons] at member
    rcases member with rfl | member
    · exact mem_cons_self
    · exact mem_cons_of_mem _ (climbed.hashed_pairs pair member)

theorem exists_climbed_combineElements {count : Nat} {final : LeafProofState}
    (run : combineElements H treeSize leafIndex proofSize count data state = some (true, final))
    (room : state.curStep + count ≤ proofSize)
    (climbed : Climbed H treeSize leafIndex proofSize leaf state path) :
    ∃ longer, Climbed H treeSize leafIndex proofSize leaf final longer := by
  induction count generalizing data state path with
  | zero =>
    simp only [combineElements, Option.some.injEq, Prod.mk.injEq, true_and] at run
    exact ⟨path, run ▸ climbed⟩
  | succ count ih =>
    rw [combineElements] at run
    have stepRoom : state.curStep < proofSize := by omega
    have nextRoom (left right : Digest) :
        (state.combine H left right).curStep + count ≤ proofSize := by
      change state.curStep + 1 + count ≤ proofSize
      omega
    split at run
    · cases run
    · rename_i direction found
      split_ifs at run with isLeft isRight
      · subst isLeft
        exact ih run (nextRoom _ _) (climbed.combine false stepRoom found)
      · subst isRight
        exact ih run (nextRoom _ _) (climbed.combine true stepRoom found)
      · cases run

theorem exists_climbed_getMerkleLeafHashLoop {pending : List Apdu} {dc : DispatcherContext}
    {count : Nat} {outcome : Outcome (Int × LeafProofState)}
    (run : getMerkleLeafHashLoop H treeSize leafIndex proofSize pending dc count data state =
      some outcome)
    (done : 0 ≤ outcome.result.1) (room : state.curStep + count ≤ proofSize)
    (climbed : Climbed H treeSize leafIndex proofSize leaf state path) :
    outcome.result.2.curStep = proofSize ∧
      ∃ longer, Climbed H treeSize leafIndex proofSize leaf outcome.result.2 longer := by
  induction pending generalizing dc count data state path with
  | nil =>
    rw [getMerkleLeafHashLoop] at run
    split at run
    · cases run
    · cases run
      simp at done
    · rename_i next combined
      split_ifs at run with finished
      cases run
      exact ⟨finished, exists_climbed_combineElements combined room climbed⟩
  | cons apdu pending ih =>
    rw [getMerkleLeafHashLoop] at run
    split at run
    · cases run
    · cases run
      simp at done
    · rename_i next combined
      obtain ⟨longer, nextClimbed⟩ := exists_climbed_combineElements combined room climbed
      split_ifs at run with finished
      · cases run
        exact ⟨finished, longer, nextClimbed⟩
      · simp only at run
        split at run
        · cases run
          simp at done
        · split at run
          · cases run
            simp at done
          · split_ifs at run with wrongLength tooMany
            · cases run
              simp at done
            · cases run
              simp at done
            · exact ih run (by omega) nextClimbed

end Climb

/-! ## Soundness of the returned hash -/

/-- The proof size in the first answer. -/
def declaredProofSize : List Apdu → Nat
  | [] => 0
  | first :: _ => ((first[offsetCdata + 32]?).getD 0).toNat

theorem readLeafProofHeader_eq_some {curHash : Digest}
    {proofSize nProofElements : Nat} {rest : Buffer}
    (header : readLeafProofHeader (bufferCreate data) =
      some (curHash, proofSize, nProofElements, rest)) :
    proofSize = ((data[32]?).getD 0).toNat := by
  simp only [readLeafProofHeader, Option.bind_eq_bind, Option.bind_eq_some_iff, Prod.exists,
    Option.some.injEq, Prod.mk.injEq] at header
  obtain ⟨_, _, readHash, _, _, readSize, _, _, _, _, sizeEq, _⟩ := header
  have remainingEq := remaining_bufferReadWith readHash
  rw [Buffer.remaining_create] at remainingEq
  obtain ⟨sizeHead, _⟩ := bufferReadU8_eq_some_iff.mp readSize
  have head := congrArg head? sizeHead
  rw [remainingEq, head?_drop, head?_cons] at head
  rw [head, ← sizeEq]
  rfl

/-- Inversion of a successful run: the returned hash climbs to the known root along
a path of the declared size that follows the directions of the index. -/
theorem callGetMerkleLeafHash_success {H : HashFunction} {merkleRoot : Digest}
    {treeSize leafIndex : Nat} {out : Digest} {dc : DispatcherContext} {incoming : List Apdu}
    {outcome : Outcome MerkleLeafHash}
    (run : callGetMerkleLeafHash H merkleRoot treeSize leafIndex out dc incoming = some outcome)
    (success : 0 ≤ outcome.result.ret) :
    ∃ path, path.length = declaredProofSize incoming ∧
      FollowsDirections treeSize leafIndex 0 path ∧
      HashTree.climb (merkleCombineHashes H) path outcome.result.out = merkleRoot ∧
      ∀ pair ∈ HashTree.climbPairs (merkleCombineHashes H) path outcome.result.out,
        nodePreimage pair.1 pair.2 ∈ outcome.result.hashed := by
  cases incoming with
  | nil => simp [callGetMerkleLeafHash] at run
  | cons first incoming =>
  rw [callGetMerkleLeafHash] at run
  split at run
  · cases run
    simp at success
  · rename_i resumed resumption
    obtain ⟨_, _, _, _, firstEq, rfl⟩ := interrupt_eq_true_iff.mp resumption
    split at run
    · cases run
      simp at success
    · rename_i curHash proofSize nProofElements readBuffer header
      have sizeEq : declaredProofSize (first :: incoming) = proofSize := by
        rw [readLeafProofHeader_eq_some header, firstEq]
        rfl
      simp only at run
      split_ifs at run with tooMany canRead
      · cases run
        simp at success
      · split at run
        · cases run
        · rename_i code state final pending loopRun
          split_ifs at run with failed mismatch
          · cases run
            exact absurd success (not_le.mpr failed)
          · cases run
            simp at success
          · cases run
            obtain ⟨stepEq, path, climbed⟩ := exists_climbed_getMerkleLeafHashLoop loopRun
              (not_lt.mp failed) (by simpa using tooMany) (Climbed.start curHash)
            have follows := climbed.follows
            rw [stepEq, Nat.sub_self] at follows
            refine ⟨path, ?_, follows, ?_, climbed.hashed_pairs⟩
            · rw [climbed.length_eq, stepEq, sizeEq]
            · rw [climbed.climb_eq]
              exact (not_not.mp mismatch).symm
      · cases run
        simp at success

variable {treeSize leafIndex start : Nat}

theorem FollowsDirections.inside {path : List (Bool × Digest)}
    (follows : FollowsDirections treeSize leafIndex start path) (nonempty : path ≠ []) :
    leafIndex < treeSize ∧ treeSize ≤ 2 ^ 31 := by
  cases path with
  | nil => exact absurd rfl nonempty
  | cons step path =>
    obtain ⟨direction, _⟩ := step
    have found := follows.1
    by_contra outside
    by_cases inside : leafIndex < treeSize
    · rw [merkleGetIthDirection_eq_none (by omega) inside] at found
      cases found
    · rw [merkleGetIthDirection_of_le_index (by omega)] at found
      cases direction <;> simp [directionCode] at found

theorem FollowsDirections.map_fst_eq (follows : FollowsDirections treeSize leafIndex start path) :
    path.map Prod.fst = ((pathTo treeSize leafIndex).drop start).take path.length := by
  induction path generalizing start with
  | nil => simp
  | cons step path ih =>
    obtain ⟨inside, small⟩ := follows.inside (by simp)
    obtain ⟨direction, _⟩ := step
    obtain ⟨found, rest⟩ := follows
    rw [merkleGetIthDirection_eq small inside, Option.some.injEq] at found
    have directionEq : (pathTo treeSize leafIndex)[start]? = some direction := by
      cases looked : (pathTo treeSize leafIndex)[start]? with
      | none =>
        rw [looked] at found
        cases direction <;> simp [directionCode] at found
      | some actual =>
        rw [looked] at found
        cases direction <;> cases actual <;> simp [directionCode] at found ⊢
    have bound : start < (pathTo treeSize leafIndex).length := by
      by_contra beyond
      rw [getElem?_eq_none (by omega)] at directionEq
      cases directionEq
    rw [getElem?_eq_getElem bound, Option.some.injEq] at directionEq
    rw [drop_eq_getElem_cons bound, length_cons, take_succ_cons, map_cons, ih rest, directionEq]

/-- For every tree of elements and every successful run, if no two of the strings
that make up the tree or that the run hashed collide, then the returned hash is
that of the requested leaf exactly when the index is inside the tree and the
size of the proof declared by the client is the depth of that leaf. -/
theorem callGetMerkleLeafHash_sound_iff (H : HashFunction) (elements : List Bytes)
    (leafIndex : Nat) (out : Digest) (dc : DispatcherContext) (incoming : List Apdu)
    (outcome : Outcome MerkleLeafHash)
    (run : callGetMerkleLeafHash H (merkleTreeRoot H elements) elements.length leafIndex out dc
      incoming = some outcome)
    (success : 0 ≤ outcome.result.ret)
    (collisionFree : CollisionFreeOn H
      {bs | bs ∈ treeStrings H elements ∨ bs ∈ outcome.result.hashed}) :
    (leafIndex < elements.length ∧
        (leafHashes H elements)[leafIndex]? = some outcome.result.out) ↔
      (leafIndex < elements.length ∧
        declaredProofSize incoming = (pathTo elements.length leafIndex).length) := by
  obtain ⟨path, lengthEq, follows, climbs, hashedPairs⟩ :=
    callGetMerkleLeafHash_success run success
  refine and_congr_right fun inside => ?_
  have directionsEq := follows.map_fst_eq
  rw [drop_zero] at directionsEq
  have lengthLe : path.length ≤ (pathTo elements.length leafIndex).length := by
    have lengths := congrArg List.length directionsEq
    rw [length_map, length_take] at lengths
    omega
  have injective : Set.InjOn (Function.uncurry (merkleCombineHashes H))
      {pair | pair ∈ (merkleTree H elements).pairs (merkleCombineHashes H) ∨
        pair ∈ HashTree.climbPairs (merkleCombineHashes H) path outcome.result.out} := by
    apply injOn_merkleCombineHashes H collisionFree
    rintro pair (inTree | inPath)
    · exact Or.inl (Or.inr ⟨pair, inTree, rfl⟩)
    · exact Or.inr (hashedPairs pair inPath)
  have leafCount : (leafHashes H elements).length = elements.length := length_map _
  have leafInside : leafIndex < (leafHashes H elements).length := leafCount ▸ inside
  have leafPoints := subtree_pathTo (Digest.ofNat 0) leafInside
  rw [leafCount] at leafPoints
  rw [getElem?_eq_getElem leafInside, Option.some.injEq, ← lengthEq]
  constructor
  · intro outEq
    by_contra different
    rw [← take_append_drop path.length (pathTo elements.length leafIndex), ← directionsEq]
      at leafPoints
    have proper : (pathTo elements.length leafIndex).drop path.length ≠ [] := by
      rw [ne_eq, drop_eq_nil_iff]
      omega
    obtain ⟨left, right, nodePoints⟩ :=
      HashTree.exists_node_of_subtree_append proper leafPoints
    have nodeEq := HashTree.root_subtree_of_climb_eq _ injective climbs nodePoints
    have inPairs := HashTree.exists_pair_of_subtree_node (merkleCombineHashes H) nodePoints
    rw [← outEq] at nodeEq
    exact merkleCombineHashes_ne_leafHash collisionFree (fun _ => Or.inl) inPairs leafInside nodeEq
  · intro depthEq
    rw [depthEq, take_length] at directionsEq
    rw [← directionsEq] at leafPoints
    exact HashTree.root_subtree_of_climb_eq _ injective climbs leafPoints

/-! ## A tree of two elements -/

/-- The hash values of the tree over the elements `61` and `62`. -/
def sampleLeaf0 : Nat := 0x022a6979e6dab7aa5ae4c3e5e45f7e977112a7e63593820dbec1ec738a24f93c
def sampleLeaf1 : Nat := 0x57eb35615d47f34ec714cacdf5fd74608a5e8e102724e80b24b287c0c27b6a31
def sampleRoot : Nat := 0xb137985ff484fb600db93107c77b0365c80d78f5b429ded0fd97361d077999eb

/-- SHA-256 on the strings of the tree over the elements `61` and `62`. -/
def sampleTreeHash : HashFunction :=
  tableHash [([0x00, 0x61], sampleLeaf0), ([0x00, 0x62], sampleLeaf1),
    (0x01 :: (beBytes 32 sampleLeaf0 ++ beBytes 32 sampleLeaf1), sampleRoot)]

theorem merkleTree_sample : merkleTree sampleTreeHash [[0x61], [0x62]] =
    .node (.leaf (Digest.ofNat sampleLeaf0)) (.leaf (Digest.ofNat sampleLeaf1)) := by
  have leaves : leafHashes sampleTreeHash [[0x61], [0x62]] =
      [Digest.ofNat sampleLeaf0, Digest.ofNat sampleLeaf1] := by decide
  rw [merkleTree, leaves, leftComplete_pair]

theorem collisionFreeOn_sample : CollisionFreeOn sampleTreeHash
    (treeStrings sampleTreeHash [[0x61], [0x62]]) := by
  have distinct : CollisionFreeOn sampleTreeHash {bs | bs ∈ ([[0x00, 0x61], [0x00, 0x62],
      nodePreimage (Digest.ofNat sampleLeaf0) (Digest.ofNat sampleLeaf1)] : List Bytes)} :=
    collisionFreeOn_of_nodup (by decide)
  apply distinct.mono
  rintro bs (⟨_, member, rfl⟩ | ⟨_, member, rfl⟩)
  · simp only [mem_cons, not_mem_nil, or_false] at member
    rcases member with rfl | rfl <;> simp
  · rw [merkleTree_sample] at member
    simp only [HashTree.pairs, HashTree.root, append_nil, mem_singleton] at member
    subst member
    simp

theorem merkleTreeRoot_sample : merkleTreeRoot sampleTreeHash [[0x61], [0x62]] =
    Digest.ofNat sampleRoot := by
  rw [merkleTreeRoot, merkleTree_sample]
  decide

/-- The honest proof for the second leaf. -/
theorem callGetMerkleLeafHash_sound_iff_sample :
    let elements : List Bytes := [[0x61], [0x62]]
    let incoming := [continueApdu 0 0 (beBytes 32 sampleLeaf1 ++ [1, 1] ++ beBytes 32 sampleLeaf0)]
    ∃ outcome, callGetMerkleLeafHash sampleTreeHash (merkleTreeRoot sampleTreeHash elements) 2 1
        (Digest.ofNat 0) .initial incoming = some outcome ∧
      outcome.result.ret = 0 ∧ outcome.result.out = Digest.ofNat sampleLeaf1 ∧
      ((1 < 2 ∧ (leafHashes sampleTreeHash elements)[1]? = some outcome.result.out) ↔
        (1 < 2 ∧ declaredProofSize incoming = (pathTo 2 1).length)) := by
  intro elements incoming
  have results : (callGetMerkleLeafHash sampleTreeHash (Digest.ofNat sampleRoot) 2 1
      (Digest.ofNat 0) .initial incoming).map (·.result) =
        some ⟨0, Digest.ofNat sampleLeaf1,
          [nodePreimage (Digest.ofNat sampleLeaf0) (Digest.ofNat sampleLeaf1)]⟩ := by
    decide
  rw [← merkleTreeRoot_sample] at results
  obtain ⟨outcome, run, resultEq⟩ := Option.map_eq_some_iff.mp results
  refine ⟨outcome, run, by rw [resultEq], by rw [resultEq],
    callGetMerkleLeafHash_sound_iff sampleTreeHash elements 1 _ _ _ _ run (by rw [resultEq]) ?_⟩
  apply collisionFreeOn_sample.mono
  rintro bs (inTree | inRun)
  · exact inTree
  · rw [resultEq, mem_singleton] at inRun
    refine Or.inr ⟨(Digest.ofNat sampleLeaf0, Digest.ofNat sampleLeaf1), ?_, inRun⟩
    rw [merkleTree_sample]
    exact mem_cons_self

/-- A client that declares an empty proof passes the root itself off as the first
leaf, and as a leaf far outside the tree. -/
theorem callGetMerkleLeafHash_accepts_root :
    let elements : List Bytes := [[0x61], [0x62]]
    let incoming := [continueApdu 0 0 (beBytes 32 sampleRoot ++ [0, 0])]
    CollisionFreeOn sampleTreeHash (treeStrings sampleTreeHash elements) ∧
    ∀ leafIndex ∈ [0, 7], ∃ outcome,
      callGetMerkleLeafHash sampleTreeHash (merkleTreeRoot sampleTreeHash elements) 2 leafIndex
        (Digest.ofNat 0) .initial incoming = some outcome ∧
      outcome.result = ⟨0, Digest.ofNat sampleRoot, []⟩ ∧
      (leafHashes sampleTreeHash elements)[leafIndex]? ≠ some outcome.result.out := by
  intro elements incoming
  refine ⟨collisionFreeOn_sample, fun leafIndex member => ?_⟩
  have results : ∀ leafIndex ∈ [0, 7], (callGetMerkleLeafHash sampleTreeHash
      (Digest.ofNat sampleRoot) 2 leafIndex (Digest.ofNat 0) .initial incoming).map (·.result) =
        some ⟨0, Digest.ofNat sampleRoot, []⟩ := by decide
  have others : ∀ leafIndex ∈ [0, 7], (leafHashes sampleTreeHash elements)[leafIndex]? ≠
      some (Digest.ofNat sampleRoot) := by decide
  obtain ⟨outcome, run, resultEq⟩ := Option.map_eq_some_iff.mp (results leafIndex member)
  rw [← merkleTreeRoot_sample] at run
  exact ⟨outcome, run, resultEq, by rw [resultEq]; exact others leafIndex member⟩

end LedgerSyscoin.Handler
