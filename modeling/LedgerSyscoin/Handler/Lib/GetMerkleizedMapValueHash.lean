import LedgerSyscoin.Boilerplate.Flow
import LedgerSyscoin.Handler.Lib.GetMerkleLeafHash

/-!
# `call_get_merkle_leaf_index` and `call_get_merkleized_map_value_hash`

A merkleized map is committed to by the roots of two trees, over its sorted keys
and over the values in the same order. A lookup asks the client for the position
of the key, checks that the key tree has the key there, and then receives the
hash of the value at that position.
-/

namespace LedgerSyscoin.Handler

open Foundation Common Boilerplate

/-- Commitment to a map: its size and the roots of its keys and its values. -/
structure MerkleizedMapCommitment where
  size : Nat
  keysRoot : Digest
  valuesRoot : Digest
  deriving DecidableEq

/-- The request for the index of a leaf. -/
def getMerkleLeafIndexRequest (root leafHash : Digest) : Bytes :=
  ccmdGetMerkleLeafIndex :: (root.val ++ leafHash.val)

/-- Whether the leaf was found, and its index. -/
def readLeafIndexAnswer (buffer : Buffer) : Option (Nat × Nat × Buffer) := do
  let (found, buffer) ← bufferReadU8 buffer
  let (index, buffer) ← bufferReadVarint buffer
  some (found.toNat, index, buffer)

/-- Receive the hash of a leaf, with the return code. -/
def receiveLeafHash (H : HashFunction) (merkleRoot : Digest) (treeSize leafIndex : Nat)
    (out : Digest) : Flow (Int × Digest) := fun dc incoming =>
  (callGetMerkleLeafHash H merkleRoot treeSize leafIndex out dc incoming).map fun outcome =>
    ⟨(outcome.result.ret, outcome.result.out), outcome.dc, outcome.pending⟩

/-- Receive the index of a leaf of the tree with the given root, whose hash is then received by
`receive`. The index is truncated to 32 bits for the check and converted to `int` for the result. -/
def callGetMerkleLeafIndex (receive : Digest → Nat → Nat → Digest → Flow (Int × Digest))
    (size : Nat) (root leafHash : Digest) : Flow Int
  | _, [] => none
  | dc, apdu :: pending =>
    match interrupt dc (getMerkleLeafIndexRequest root leafHash) apdu with
    | (false, dc) => some ⟨-3, dc, pending⟩
    | (true, dc) =>
      match readLeafIndexAnswer dc.readBuffer with
      | none => some ⟨-1, dc, pending⟩
      | some (found, index, readBuffer) =>
        let dc := { dc with readBuffer }
        if found ≠ 0 ∧ found ≠ 1 then some ⟨-2, dc, pending⟩
        else if found = 0 then some ⟨-3, dc, pending⟩
        else
          match receive root (size % 2 ^ 32) (index % 2 ^ 32) (Digest.ofNat 0) dc pending with
          | none => none
          | some ⟨returned, dc, pending⟩ =>
            if returned.1 < 0 then some ⟨-4, dc, pending⟩
            else if leafHash ≠ returned.2 then some ⟨-5, dc, pending⟩
            else some ⟨toInt index, dc, pending⟩

/-- Receive the hash of the value that a map has at `key`. -/
def callGetMerkleizedMapValueHash (H : HashFunction) (map : MerkleizedMapCommitment)
    (key : Bytes) (out : Digest) : Flow (Int × Digest) := do
  let index ← callGetMerkleLeafIndex (receiveLeafHash H) (map.size % 2 ^ 32) map.keysRoot
    (merkleComputeElementHash H key)
  if index < 0 then return (-1, out)
  receiveLeafHash H map.valuesRoot (map.size % 2 ^ 32) index.toNat out

end LedgerSyscoin.Handler
