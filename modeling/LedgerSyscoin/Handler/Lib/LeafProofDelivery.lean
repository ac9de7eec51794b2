import LedgerSyscoin.Handler.Lib.GetMerkleLeafHash

/-!
# Delivery of a Merkle proof

What `call_get_merkle_leaf_hash` does when the answers carry the proof of the requested
leaf: the leaf with the first elements, and then further elements in the same order. The
directions that the device computes are those of the steps of the proof, so the hash that
it reaches is the root.
-/

namespace LedgerSyscoin.Handler

open Foundation Common Boilerplate List

variable {part : List (Bool × Digest)} {apdu : Apdu}

/-- The siblings of some steps, as they are sent. -/
def siblingBytes (steps : List (Bool × Digest)) : Bytes :=
  (steps.map fun step => step.2.val).flatten

@[simp]
theorem siblingBytes_cons (step : Bool × Digest) (steps : List (Bool × Digest)) :
    siblingBytes (step :: steps) = step.2.val ++ siblingBytes steps := rfl

@[simp]
theorem length_siblingBytes (steps : List (Bool × Digest)) :
    (siblingBytes steps).length = 32 * steps.length := by
  induction steps with
  | nil => rfl
  | cons step steps ih =>
    rw [siblingBytes_cons, length_append, ih, step.2.property, length_cons]
    omega

/-- The answer with the leaf, the size of its proof and the first steps. -/
def LeafAnswer (leaf : Digest) (proofSize : Nat) (part : List (Bool × Digest)) (apdu : Apdu) :
    Prop :=
  part.length ≤ 6 ∧ ∃ p1 p2, apdu = continueApdu p1 p2
    (leaf.val ++ UInt8.ofNat proofSize :: UInt8.ofNat part.length :: siblingBytes part)

/-- The answer with further steps. -/
def StepsAnswer (part : List (Bool × Digest)) (apdu : Apdu) : Prop :=
  part ≠ [] ∧ part.length ≤ 7 ∧ ∃ p1 p2, apdu = continueApdu p1 p2
    (UInt8.ofNat part.length :: 32 :: siblingBytes part)

/-- Receiving an answer with further steps. -/
theorem StepsAnswer.exchange (answer : StepsAnswer part apdu) (dc : DispatcherContext) :
    ∃ resumed rest, interrupt dc getMoreElementsRequest apdu = (true, resumed) ∧
      readElementsHeader resumed.readBuffer = some (part.length, 32, rest) ∧
      rest.remaining = siblingBytes part ∧
      resumed.sent = dc.sent ++ [(getMoreElementsRequest, swInterruptedExecution)] := by
  obtain ⟨-, _, p1, p2, rfl⟩ := answer
  let data := UInt8.ofNat part.length :: 32 :: siblingBytes part
  have dataLength : data.length = 32 * part.length + 2 := by simp [data]
  have count : (UInt8.ofNat part.length).toNat = part.length := by
    rw [UInt8.toNat_ofNat']
    omega
  refine ⟨_, ⟨data, 2, by omega⟩,
    interrupt_eq_true_iff.mpr ⟨p1, p2, data, by omega, rfl, rfl⟩, ?_, rfl, rfl⟩
  rw [readElementsHeader_eq_some_iff]
  exact ⟨_, _, _, rfl, count.symm, rfl, by simp [Nat.mul_comm], rfl, rfl⟩

/-- Receiving the answer with the leaf. -/
theorem LeafAnswer.exchange {leaf : Digest} {proofSize : Nat}
    (answer : LeafAnswer leaf proofSize part apdu) (fits : proofSize < 256)
    (request : Bytes) (dc : DispatcherContext) :
    ∃ resumed rest, interrupt dc request apdu = (true, resumed) ∧
      readLeafProofHeader resumed.readBuffer = some (leaf, proofSize, part.length, rest) ∧
      rest.remaining = siblingBytes part ∧
      resumed.sent = dc.sent ++ [(request, swInterruptedExecution)] := by
  obtain ⟨_, p1, p2, rfl⟩ := answer
  let data := leaf.val ++ UInt8.ofNat proofSize :: UInt8.ofNat part.length :: siblingBytes part
  have dataLength : data.length = 32 * part.length + 34 := by
    simp [data, leaf.property]
    omega
  have byte {value : Nat} (small : value < 256) : (UInt8.ofNat value).toNat = value := by
    rw [UInt8.toNat_ofNat', Nat.mod_eq_of_lt small]
  obtain ⟨_, readLeaf, leafRest⟩ :=
    exists_bufferReadBytes (Buffer.remaining_create data) leaf.property
  obtain ⟨_, readSize, sizeRest⟩ := exists_bufferReadU8 leafRest
  obtain ⟨afterCount, readCount, countRest⟩ := exists_bufferReadU8 sizeRest
  refine ⟨_, afterCount, interrupt_eq_true_iff.mpr ⟨p1, p2, data, by omega, rfl, rfl⟩, ?_,
    countRest, rfl⟩
  simp only [readLeafProofHeader, readLeaf, readSize, readCount, Option.bind_eq_bind,
    Option.bind_some, Digest.ofBytes_val, byte fits, byte (show part.length < 256 by omega)]

section Delivery

variable (H : HashFunction) (leaf : Digest) {treeSize leafIndex : Nat}
  {path lower upper : List (Bool × Digest)} {chunks : List (List (Bool × Digest))}
  {answers : List Apdu}

/-- Some more steps, from the leaf upwards, are combined in the right directions. -/
theorem exists_combineElements (small : treeSize ≤ 2 ^ 31) (inside : leafIndex < treeSize)
    (directions : path.map Prod.fst = pathTo treeSize leafIndex) (part : List (Bool × Digest))
    (whole : path = upper ++ (part.reverse ++ lower)) (trailing : Bytes) (hashed : List Bytes) :
    ∃ hashed', combineElements H treeSize leafIndex path.length part.length
        (siblingBytes part ++ trailing)
        ⟨HashTree.climb (merkleCombineHashes H) lower leaf, lower.length, hashed⟩ =
      some (true, ⟨HashTree.climb (merkleCombineHashes H) (part.reverse ++ lower) leaf,
        lower.length + part.length, hashed'⟩) := by
  induction part generalizing lower hashed with
  | nil => exact ⟨hashed, rfl⟩
  | cons step part ih =>
    obtain ⟨direction, sibling⟩ := step
    have next : path = upper ++ (part.reverse ++ ((direction, sibling) :: lower)) := by
      rw [whole]
      simp
    have position : path.length - lower.length - 1 = (upper ++ part.reverse).length := by
      rw [next]
      simp only [length_append, length_reverse, length_cons]
      omega
    have found : (pathTo treeSize leafIndex)[(upper ++ part.reverse).length]? =
        some direction := by
      rw [← directions, next, ← append_assoc, getElem?_map,
        getElem?_append_right (Nat.le_refl _), Nat.sub_self]
      rfl
    have first : Digest.ofBytes ((siblingBytes ((direction, sibling) :: part) ++
        trailing).take 32) = sibling := by
      rw [siblingBytes_cons, append_assoc, take_left' sibling.property, Digest.ofBytes_val]
    have rest : (siblingBytes ((direction, sibling) :: part) ++ trailing).drop 32 =
        siblingBytes part ++ trailing := by
      rw [siblingBytes_cons, append_assoc, drop_left' sibling.property]
    have later (hashed : List Bytes) := ih next hashed
    rw [length_cons, combineElements, first, rest, position,
      merkleGetIthDirection_eq small inside, found]
    simp only [reverse_cons, append_assoc, singleton_append]
    have counts : lower.length + (part.length + 1) = lower.length + 1 + part.length := by omega
    rw [counts]
    cases direction with
    | false | true => exact later _

/-- The loop on answers that carry the rest of the path. -/
theorem exists_getMerkleLeafHashLoop (small : treeSize ≤ 2 ^ 31) (inside : leafIndex < treeSize)
    (directions : path.map Prod.fst = pathTo treeSize leafIndex) (part : List (Bool × Digest))
    (whole : path = (part ++ chunks.flatten).reverse ++ lower)
    (delivered : List.Forall₂ StepsAnswer chunks answers) (pending : List Apdu)
    (trailing : Bytes) (hashed : List Bytes) (dc : DispatcherContext) :
    ∃ hashed' final, getMerkleLeafHashLoop H treeSize leafIndex path.length (answers ++ pending) dc
        part.length (siblingBytes part ++ trailing)
        ⟨HashTree.climb (merkleCombineHashes H) lower leaf, lower.length, hashed⟩ =
      some ⟨(0, ⟨HashTree.climb (merkleCombineHashes H) path leaf, path.length, hashed'⟩), final,
        pending⟩ ∧
      final.sent = dc.sent ++
        replicate chunks.length (getMoreElementsRequest, swInterruptedExecution) := by
  induction delivered generalizing part lower trailing hashed dc with
  | nil =>
    rw [flatten_nil, append_nil] at whole
    obtain ⟨hashed', combined⟩ := exists_combineElements H leaf small inside
      directions part (show path = [] ++ _ from whole) trailing hashed
    have complete : lower.length + part.length = path.length := by
      rw [whole, length_append, length_reverse]
      omega
    refine ⟨hashed', dc, ?_, (append_nil _).symm⟩
    rw [getMerkleLeafHashLoop, combined, ← whole]
    simp only [complete, if_true, nil_append]
  | @cons chunk apdu chunks answers answer delivered ih =>
    have next : path = (chunk ++ chunks.flatten).reverse ++ (part.reverse ++ lower) := by
      rw [whole]
      simp
    obtain ⟨hashed', combined⟩ := exists_combineElements H leaf small inside
      directions part next trailing hashed
    obtain ⟨resumed, rest, resumption, header, remaining, sent⟩ := answer.exchange dc
    have lengths : path.length = lower.length + part.length + chunk.length +
        chunks.flatten.length := by
      rw [whole]
      simp only [flatten_cons, length_append, length_reverse]
      omega
    have positive := length_pos_iff.mpr answer.1
    have reached : (part.reverse ++ lower).length = lower.length + part.length := by
      rw [length_append, length_reverse]
      omega
    obtain ⟨hashed'', final, run, sentLater⟩ := ih chunk next [] hashed'
      { resumed with readBuffer := rest }
    refine ⟨hashed'', final, ?_, ?_⟩
    · rw [getMerkleLeafHashLoop, combined, cons_append]
      simp only [resumption, header, ne_eq, not_true_eq_false, if_false]
      rw [if_neg (by omega), if_neg (by omega), remaining, ← reached]
      rw [append_nil] at run
      exact run
    · rw [sentLater, sent, append_assoc]
      rfl

/-- The leaf is accepted if the answers carry its proof. -/
theorem exists_callGetMerkleLeafHash (small : treeSize ≤ 2 ^ 31) (inside : leafIndex < treeSize)
    (directions : path.map Prod.fst = pathTo treeSize leafIndex) {opening : Apdu}
    (whole : path = (part ++ chunks.flatten).reverse)
    (opened : LeafAnswer leaf path.length part opening)
    (delivered : List.Forall₂ StepsAnswer chunks answers) (pending : List Apdu) (out : Digest)
    (dc : DispatcherContext) : ∃ hashed final, callGetMerkleLeafHash H
        (HashTree.climb (merkleCombineHashes H) path leaf) treeSize leafIndex out dc
        (opening :: answers ++ pending) =
      some ⟨⟨0, leaf, hashed⟩, final, pending⟩ ∧
      final.sent = dc.sent ++
        (getMerkleLeafProofRequest (HashTree.climb (merkleCombineHashes H) path leaf) treeSize
          leafIndex, swInterruptedExecution) ::
        replicate chunks.length (getMoreElementsRequest, swInterruptedExecution) := by
  let root := HashTree.climb (merkleCombineHashes H) path leaf
  have depth : path.length ≤ 31 := by
    rw [← length_map Prod.fst, directions]
    exact (length_pathTo_le _ _).trans ((Nat.clog_le_iff_le_pow (by decide)).mpr small)
  have partLe : part.length ≤ path.length := by
    rw [whole, length_reverse, length_append]
    omega
  obtain ⟨resumed, rest, resumption, header, remaining, sent⟩ :=
    opened.exchange (by omega) (getMerkleLeafProofRequest root treeSize leafIndex) dc
  have canRead : bufferCanRead rest (32 * part.length) = true := by
    have lengths := congrArg List.length remaining
    rw [Buffer.length_remaining, length_siblingBytes] at lengths
    simp only [bufferCanRead, decide_eq_true_eq]
    omega
  obtain ⟨hashed, final, run, sentLater⟩ := exists_getMerkleLeafHashLoop H leaf small inside
    directions part (show path = _ ++ [] by rw [append_nil]; exact whole) delivered pending []
    [] { resumed with readBuffer := rest }
  refine ⟨hashed, final, ?_, ?_⟩
  · rw [append_nil] at run
    rw [cons_append, callGetMerkleLeafHash, resumption]
    simp only [header, canRead, not_true_eq_false, if_false, remaining]
    rw [if_neg (not_lt.mpr partLe)]
    have reached : HashTree.climb (merkleCombineHashes H) [] leaf = leaf := rfl
    rw [reached, length_nil] at run
    rw [run]
    simp
  · rw [sentLater, sent, append_assoc]
    rfl

end Delivery

end LedgerSyscoin.Handler
