import LedgerSyscoin.Common.Merkle
import Mathlib.Data.Nat.Log

/-!
# The Merkle trees of the clients

The Python client builds a tree over a range of leaves and links every node to its
parent; the JavaScript client does so over slices of the list; the Rust client keeps the
height of every node and finds a leaf from the root. All of them build the left-complete
tree, and their proofs list the siblings from the leaf upwards. No client overflows
below `2 ^ 31` leaves.
-/

namespace LedgerSyscoin.Client

open Foundation Common List

variable {n index : Nat} {leaves : List Digest}

/-! ## Powers of two -/

/-- The loop of `floor_lg`: `t` is the power of two with exponent `r`. -/
def floorLgLoop : Nat → Nat → Nat → Nat → Nat
  | 0, _, _, r => r
  | fuel + 1, n, t, r => if 2 * t ≤ n then floorLgLoop fuel n (2 * t) (r + 1) else r

/-- The binary logarithm, rounded down. -/
def floorLg (n : Nat) : Nat := floorLgLoop n n 1 0

def isPowerOf2 (n : Nat) : Bool := n &&& (n - 1) = 0

/-- The largest power of two below `n`, given the logarithm that the client uses. -/
def powerOf2Below (floorLog : Nat → Nat) (n : Nat) : Nat :=
  if isPowerOf2 n then n / 2 else 1 <<< floorLog n

theorem floorLgLoop_eq {fuel r : Nat} (below : 2 ^ r ≤ n) (enough : Nat.log 2 n < fuel + r) :
    floorLgLoop fuel n (2 ^ r) r = Nat.log 2 n := by
  have positive : n ≠ 0 := by
    have power := Nat.two_pow_pos r
    omega
  induction fuel generalizing r with
  | zero =>
    have exponentLe : r ≤ Nat.log 2 n := Nat.le_log_of_pow_le (by decide) below
    omega
  | succ fuel ih =>
    rw [floorLgLoop, ← Nat.pow_succ', Nat.succ_eq_add_one]
    split_ifs with more
    · exact ih more (by omega)
    · refine ((Nat.log_eq_iff (Or.inr ⟨by decide, positive⟩)).mpr ⟨below, ?_⟩).symm
      omega

theorem floorLg_eq_log (positive : 0 < n) : floorLg n = Nat.log 2 n := by
  have bound := Nat.log_lt_self 2 positive.ne'
  change floorLgLoop n n (2 ^ 0) 0 = _
  exact floorLgLoop_eq positive (by omega)

theorem powerOf2Below_eq_splitPoint {floorLog : Nat → Nat} (large : 2 ≤ n)
    (logarithm : floorLog n = Nat.log 2 n) : powerOf2Below floorLog n = splitPoint n := by
  have isPower : isPowerOf2 n = true ↔ ∃ k, n = 2 ^ k := by
    rw [isPowerOf2, decide_eq_true_iff]
    exact Nat.and_sub_one_eq_zero_iff_isPowerOfTwo (by omega)
  rw [powerOf2Below, splitPoint]
  split_ifs with power
  · obtain ⟨k, rfl⟩ := isPower.mp power
    obtain ⟨k, rfl⟩ := Nat.exists_eq_succ_of_ne_zero (show k ≠ 0 by rintro rfl; simp at large)
    rw [Nat.clog_pow _ _ (by decide), Nat.pow_succ]
    simp
  · have lower : 2 ^ Nat.log 2 n ≤ n := Nat.pow_log_le_self 2 (by omega)
    have upper : n < 2 ^ (Nat.log 2 n + 1) := Nat.lt_pow_succ_log_self (by decide) n
    have strict : 2 ^ Nat.log 2 n < n :=
      lt_of_le_of_ne lower fun same => power (isPower.mpr ⟨_, same.symm⟩)
    have logarithms : Nat.clog 2 n = Nat.log 2 n + 1 :=
      le_antisymm ((Nat.clog_le_iff_le_pow (by decide)).mpr upper.le)
        ((Nat.lt_clog_iff_pow_lt (by decide)).mpr strict)
    rw [Nat.one_shiftLeft, logarithm, logarithms, Nat.add_sub_cancel]

/-! ## Nodes with parents -/

/-- A node with its cached value. -/
inductive Node where
  | leaf (value : Digest)
  | branch (left right : Node) (value : Digest)

def Node.value : Node → Digest
  | leaf value => value
  | branch _ _ value => value

/-- The parents of a node, from the closest on: for each the side of the child towards the node,
`true` for the right one, and the other child. -/
abbrev Parents := List (Bool × Node)

/-- The parents of each leaf below a node, from left to right. -/
def Node.leafParents : Node → Parents → List Parents
  | leaf _, parents => [parents]
  | branch left right _, parents =>
    left.leafParents ((false, right) :: parents) ++ right.leafParents ((true, left) :: parents)

section Nodes

variable (H : HashFunction)

/-- The nodes of a hash tree. -/
def Node.ofTree : HashTree Digest → Node
  | .leaf value => .leaf value
  | .node left right =>
    .branch (ofTree left) (ofTree right) ((HashTree.node left right).root (merkleCombineHashes H))

@[simp]
theorem Node.value_ofTree (tree : HashTree Digest) :
    (Node.ofTree H tree).value = tree.root (merkleCombineHashes H) := by
  cases tree <;> rfl

/-- The proof of a leaf: the siblings on its path, from the leaf upwards. -/
def leafProof (leaves : List Digest) (index : Nat) : List Digest :=
  (((leftComplete (Digest.ofNat 0) leaves).opening (merkleCombineHashes H)
    (pathTo leaves.length index)).map Prod.snd).reverse

variable {H}

theorem length_take_splitPoint (large : 2 ≤ leaves.length) :
    (leaves.take (splitPoint leaves.length)).length = splitPoint leaves.length :=
  length_take_of_le (splitPoint_lt large).le

theorem length_leafParents (leaves : List Digest) (nonempty : leaves ≠ []) (parents : Parents) :
    ((Node.ofTree H (leftComplete (Digest.ofNat 0) leaves)).leafParents parents).length =
      leaves.length := by
  induction size : leaves.length using Nat.strong_induction_on generalizing leaves parents with
  | _ size' ih =>
    subst size
    have positive := length_pos_iff.mpr nonempty
    by_cases single : leaves.length ≤ 1
    · rw [leftComplete, dif_pos single]
      simp [Node.ofTree, Node.leafParents]
      omega
    · have large : 2 ≤ leaves.length := by omega
      have below := splitPoint_lt large
      have splitPos := splitPoint_pos leaves.length
      have takeLength := length_take_splitPoint large
      have dropLength : (leaves.drop (splitPoint leaves.length)).length =
          leaves.length - splitPoint leaves.length := length_drop
      rw [leftComplete_of_two_le _ large, Node.ofTree, Node.leafParents, length_append,
        ih _ below _ (length_pos_iff.mp (by omega)) _ takeLength,
        ih _ (by omega) _ (length_pos_iff.mp (by omega)) _ dropLength]
      omega

theorem leafProof_of_le_one (single : leaves.length ≤ 1) (index : Nat) :
    leafProof H leaves index = [] := by
  rw [leafProof, pathTo_of_le_one single, leftComplete, dif_pos single]
  rfl

/-- The proof of a leaf on the left ends with the root of the right half. -/
theorem leafProof_of_lt (large : 2 ≤ leaves.length) (left : index < splitPoint leaves.length) :
    leafProof H leaves index =
      leafProof H (leaves.take (splitPoint leaves.length)) index ++
        [(leftComplete (Digest.ofNat 0) (leaves.drop (splitPoint leaves.length))).root
          (merkleCombineHashes H)] := by
  rw [leafProof, leafProof, length_take_splitPoint large, leftComplete_of_two_le _ large,
    pathTo_of_two_le large, if_pos left]
  simp [HashTree.opening]

/-- The proof of a leaf on the right ends with the root of the left half. -/
theorem leafProof_of_ge (large : 2 ≤ leaves.length) (right : splitPoint leaves.length ≤ index) :
    leafProof H leaves index =
      leafProof H (leaves.drop (splitPoint leaves.length)) (index - splitPoint leaves.length) ++
        [(leftComplete (Digest.ofNat 0) (leaves.take (splitPoint leaves.length))).root
          (merkleCombineHashes H)] := by
  rw [leafProof, leafProof, length_drop, leftComplete_of_two_le _ large,
    pathTo_of_two_le large, if_neg (not_lt.mpr right)]
  simp [HashTree.opening]

theorem length_leafProof (inside : index < leaves.length) :
    (leafProof H leaves index).length = (pathTo leaves.length index).length := by
  have directions := HashTree.map_fst_opening (merkleCombineHashes H)
    (subtree_pathTo (Digest.ofNat 0) inside)
  have lengths := congrArg List.length directions
  rw [length_map] at lengths
  rw [leafProof, length_reverse, length_map, lengths]

theorem length_leafProof_le (inside : index < leaves.length)
    (small : leaves.length ≤ 2 ^ 31) : (leafProof H leaves index).length ≤ 31 := by
  rw [length_leafProof inside]
  exact (length_pathTo_le _ _).trans ((Nat.clog_le_iff_le_pow (by decide)).mpr small)

/-- The values of the siblings on the way up from a leaf are its proof. -/
theorem getElem?_leafParents (inside : index < leaves.length) (parents : Parents) :
    (((Node.ofTree H (leftComplete (Digest.ofNat 0) leaves)).leafParents parents)[index]?).map
        (List.map fun parent => parent.2.value) =
      some (leafProof H leaves index ++ parents.map fun parent => parent.2.value) := by
  induction size : leaves.length using Nat.strong_induction_on
    generalizing leaves index parents with
  | _ size' ih =>
    subst size
    by_cases single : leaves.length ≤ 1
    · obtain rfl : index = 0 := by omega
      rw [leafProof_of_le_one single, leftComplete, dif_pos single]
      rfl
    · have large : 2 ≤ leaves.length := by omega
      have below := splitPoint_lt large
      have splitPos := splitPoint_pos leaves.length
      have takeLength := length_take_splitPoint large
      have dropLength : (leaves.drop (splitPoint leaves.length)).length =
          leaves.length - splitPoint leaves.length := length_drop
      have leftCount := length_leafParents (H := H) (leaves.take (splitPoint leaves.length))
        (length_pos_iff.mp (by omega))
      rw [leftComplete_of_two_le _ large, Node.ofTree, Node.leafParents]
      rcases lt_or_ge index (splitPoint leaves.length) with left | right
      · rw [getElem?_append_left (by rw [leftCount, takeLength]; exact left),
          ih _ below (by rw [takeLength]; exact left) _ takeLength, leafProof_of_lt large left]
        simp
      · rw [getElem?_append_right (by rw [leftCount, takeLength]; exact right),
          leftCount, takeLength, ih _ (by omega) (by rw [dropLength]; omega) _ dropLength,
          leafProof_of_ge large right]
        simp

end Nodes

/-! ## The Python client -/

namespace Python

def largestPowerOf2LessThan (n : Nat) : Nat := powerOf2Below floorLg n

theorem largestPowerOf2LessThan_eq (large : 2 ≤ n) : largestPowerOf2LessThan n = splitPoint n :=
  powerOf2Below_eq_splitPoint large (floorLg_eq_log (by omega))

section MakeTree

variable (H : HashFunction)

/-- The tree over `size` leaves from `start` on; a tree over none is never built. -/
def makeTree (leaves : List Digest) (start size : Nat) : Node :=
  if single : size ≤ 1 then .leaf (leaves.getD start (Digest.ofNat 0))
  else
    have _split := largestPowerOf2LessThan_eq (Nat.lt_of_not_le single)
    have _below := splitPoint_lt (Nat.lt_of_not_le single)
    have _positive := splitPoint_pos size
    let lchildSize := largestPowerOf2LessThan size
    let lchild := makeTree leaves start lchildSize
    let rchild := makeTree leaves (start + lchildSize) (size - lchildSize)
    .branch lchild rchild (merkleCombineHashes H lchild.value rchild.value)
termination_by size

/-- A tree together with the list of its leaves. -/
structure MerkleTree where
  leaves : List Digest
  rootNode : Option Node

def MerkleTree.new (elements : List Digest) : MerkleTree :=
  ⟨elements, if elements.length > 0 then some (makeTree H elements 0 elements.length) else none⟩

namespace MerkleTree

def nil : Digest := Digest.ofNat 0

def root (tree : MerkleTree) : Digest :=
  match tree.rootNode with
  | none => nil
  | some node => node.value

/-- The leaf with the given index; there is an exception if there is none. -/
def get (tree : MerkleTree) (index : Nat) : Option Digest := tree.leaves[index]?

/-- The index of the first leaf with the given hash; there is an exception if there is none. -/
def leafIndex (tree : MerkleTree) (hash : Digest) : Option Nat :=
  tree.leaves.findIdx? (· = hash)

/-- The loop of `prove_leaf`, up to the node without a parent. -/
def proveLeafLoop : Parents → List Digest → List Digest
  | [], proof => proof
  | (_, sibling) :: parents, proof => proveLeafLoop parents (proof ++ [sibling.value])

def proveLeaf (tree : MerkleTree) (index : Nat) : Option (List Digest) := do
  let root ← tree.rootNode
  let parents ← (root.leafParents [])[index]?
  return proveLeafLoop parents []

end MerkleTree

variable {H}

theorem makeTree_eq {start size : Nat} (positive : 1 ≤ size)
    (inside : start + size ≤ leaves.length) : makeTree H leaves start size =
      Node.ofTree H (leftComplete (Digest.ofNat 0) ((leaves.drop start).take size)) := by
  induction size using Nat.strong_induction_on generalizing start with
  | _ size ih =>
    have rangeLength : ((leaves.drop start).take size).length = size := by
      rw [length_take, length_drop]
      omega
    rw [makeTree]
    by_cases single : size ≤ 1
    · obtain rfl : size = 1 := by omega
      rw [dif_pos single, leftComplete, dif_pos (by omega), Node.ofTree,
        getD_eq_getElem _ _ (by omega), drop_eq_getElem_cons (by omega)]
      rfl
    · have large : 2 ≤ size := by omega
      have below := splitPoint_lt large
      have splitPos := splitPoint_pos size
      rw [dif_neg single]
      simp only
      rw [largestPowerOf2LessThan_eq large, ih _ below splitPos (by omega),
        ih _ (by omega) (by omega) (by omega),
        leftComplete_of_two_le _ (show 2 ≤ ((leaves.drop start).take size).length by omega),
        rangeLength, Node.ofTree, Node.value_ofTree, Node.value_ofTree, take_take,
        Nat.min_eq_left below.le, drop_take, drop_drop]
      rfl

theorem rootNode_new {elements : List Digest} (nonempty : elements ≠ []) :
    (MerkleTree.new H elements).rootNode =
      some (Node.ofTree H (leftComplete (Digest.ofNat 0) elements)) := by
  have positive := length_pos_iff.mpr nonempty
  rw [MerkleTree.new, if_pos positive, makeTree_eq positive (by omega), drop_zero, take_length]

/-- The root of a tree is the root of the left-complete tree over its elements. -/
theorem root_new (elements : List Digest) : (MerkleTree.new H elements).root =
      (leftComplete (Digest.ofNat 0) elements).root (merkleCombineHashes H) := by
  rcases elements.eq_nil_or_concat with rfl | ⟨_, _, rfl⟩
  · rw [leftComplete, dif_pos (by simp)]
    rfl
  · rw [MerkleTree.root, rootNode_new (by simp)]
    exact Node.value_ofTree H _

theorem proveLeafLoop_eq (parents : Parents) (proof : List Digest) :
    MerkleTree.proveLeafLoop parents proof = proof ++ parents.map fun parent => parent.2.value := by
  induction parents generalizing proof with
  | nil => simp [MerkleTree.proveLeafLoop]
  | cons parent parents ih =>
    obtain ⟨_, _⟩ := parent
    simp [MerkleTree.proveLeafLoop, ih]

theorem proveLeaf_new {elements : List Digest} (inside : index < elements.length) :
    (MerkleTree.new H elements).proveLeaf index = some (leafProof H elements index) := by
  have nonempty : elements ≠ [] := ne_nil_of_length_pos (by omega)
  have found := getElem?_leafParents (H := H) inside []
  rw [map_nil, append_nil, Option.map_eq_some_iff] at found
  obtain ⟨_, foundParents, values⟩ := found
  rw [MerkleTree.proveLeaf, rootNode_new nonempty]
  simp only [Option.bind_eq_bind, Option.bind_some, foundParents, proveLeafLoop_eq, values]
  rfl

end MakeTree

end Python

/-! ## The JavaScript client -/

namespace JavaScript

/-- `Math.log2` is taken to be exact. -/
def highestPowerOf2LessThan (n : Nat) : Nat := powerOf2Below (Nat.log 2) n

theorem highestPowerOf2LessThan_eq (large : 2 ≤ n) : highestPowerOf2LessThan n = splitPoint n :=
  powerOf2Below_eq_splitPoint large rfl

section CalculateRoot

variable (H : HashFunction)

/-- The root node of the tree over a list of leaves. -/
def calculateRoot (leaves : List Digest) : Node :=
  if single : leaves.length ≤ 1 then .leaf (leaves.headD (Digest.ofNat 0))
  else
    have _split := highestPowerOf2LessThan_eq (Nat.lt_of_not_le single)
    have _below := splitPoint_lt (Nat.lt_of_not_le single)
    have _positive := splitPoint_pos leaves.length
    let leftCount := highestPowerOf2LessThan leaves.length
    let leftChild := calculateRoot (leaves.take leftCount)
    let rightChild := calculateRoot (leaves.drop leftCount)
    .branch leftChild rightChild (merkleCombineHashes H leftChild.value rightChild.value)
termination_by leaves.length
decreasing_by
  · rw [length_take]
    omega
  · rw [length_drop]
    omega

/-- A tree: its leaves, its root and the parents of its leaves. -/
structure Merkle where
  leaves : List Digest
  rootNode : Node
  leafNodes : List Parents

def Merkle.new (leaves : List Digest) : Merkle :=
  ⟨leaves, calculateRoot H leaves,
    if leaves = [] then [] else (calculateRoot H leaves).leafParents []⟩

namespace Merkle

def getRoot (tree : Merkle) : Digest := tree.rootNode.value

def size (tree : Merkle) : Nat := tree.leaves.length

/-- The hash of the leaf with the given index; there is an exception if there is none. -/
def getLeafHash (tree : Merkle) (index : Nat) : Option Digest := tree.leaves[index]?

def proveNode : Parents → List Digest
  | [] => []
  | (_, sibling) :: parents => sibling.value :: proveNode parents

def getProof (tree : Merkle) (index : Nat) : Option (List Digest) :=
  if index ≥ tree.leaves.length then none else (tree.leafNodes[index]?).map proveNode

end Merkle

variable {H}

theorem calculateRoot_eq (leaves : List Digest) :
    calculateRoot H leaves = Node.ofTree H (leftComplete (Digest.ofNat 0) leaves) := by
  induction size : leaves.length using Nat.strong_induction_on generalizing leaves with
  | _ size' ih =>
    subst size
    rw [calculateRoot, leftComplete]
    by_cases single : leaves.length ≤ 1
    · rw [dif_pos single, dif_pos single]
      rfl
    · have large : 2 ≤ leaves.length := by omega
      have below := splitPoint_lt large
      have splitPos := splitPoint_pos leaves.length
      rw [dif_neg single, dif_neg single]
      simp only
      rw [highestPowerOf2LessThan_eq large, ih _ (by rw [length_take]; omega) _ rfl,
        ih _ (by rw [length_drop]; omega) _ rfl, Node.ofTree, Node.value_ofTree,
        Node.value_ofTree]
      rfl

theorem getRoot_new (leaves : List Digest) : (Merkle.new H leaves).getRoot =
      (leftComplete (Digest.ofNat 0) leaves).root (merkleCombineHashes H) := by
  rw [Merkle.getRoot, Merkle.new, calculateRoot_eq, Node.value_ofTree]

theorem proveNode_eq (parents : Parents) :
    Merkle.proveNode parents = parents.map fun parent => parent.2.value := by
  induction parents with
  | nil => rfl
  | cons parent parents ih =>
    obtain ⟨_, _⟩ := parent
    rw [Merkle.proveNode, ih]
    rfl

theorem getProof_new (inside : index < leaves.length) :
    (Merkle.new H leaves).getProof index = some (leafProof H leaves index) := by
  have nonempty : leaves ≠ [] := ne_nil_of_length_pos (by omega)
  have found := getElem?_leafParents (H := H) inside []
  rw [map_nil, append_nil] at found
  rw [Merkle.getProof, Merkle.new]
  simp only [if_neg nonempty, if_neg (not_le.mpr inside), calculateRoot_eq]
  rw [← found]
  exact congrArg (Option.map · _) (funext proveNode_eq)

end CalculateRoot

end JavaScript

/-! ## The Rust client -/

namespace Rust

/-- The assertion fails below two. -/
def largestPowerOf2LessThan (n : Nat) : Option Nat :=
  if n = 2 then some 1
  else if n > 1 then some (powerOf2Below floorLg n)
  else none

theorem largestPowerOf2LessThan_eq (large : 2 ≤ n) :
    largestPowerOf2LessThan n = some (splitPoint n) := by
  rw [largestPowerOf2LessThan]
  split_ifs with two
  · subst two
    have below := splitPoint_lt large
    have positive := splitPoint_pos 2
    rw [Option.some.injEq]
    omega
  · rw [powerOf2Below_eq_splitPoint large (floorLg_eq_log (by omega))]
  · omega

theorem splitPoint_of_largestPowerOf2LessThan {power : Nat}
    (found : largestPowerOf2LessThan n = some power) : 0 < power ∧ power < n := by
  have large : 2 ≤ n := by
    unfold largestPowerOf2LessThan at found
    split_ifs at found <;> omega
  rw [largestPowerOf2LessThan_eq large, Option.some.injEq] at found
  rw [← found]
  exact ⟨splitPoint_pos n, splitPoint_lt large⟩

/-- A tree whose leaves are indices into the list of leaves. -/
inductive Tree where
  | node (value : Digest) (left right : Tree) (height : Nat)
  | leaf (idx : Nat)

namespace Tree

def value (leaves : List Digest) : Tree → Digest
  | node value _ _ _ => value
  | leaf idx => leaves.getD idx (Digest.ofNat 0)

def height : Tree → Nat
  | node _ _ _ height => height
  | leaf _ => 0

section New

variable (H : HashFunction)

/-- The tree over `size` leaves from `start` on. There is a panic if there are none. -/
def new (leaves : List Digest) (start size : Nat) : Option Tree :=
  if size = 1 then some (leaf start)
  else
    match found : largestPowerOf2LessThan size with
    | none => none
    | some lchildSize =>
      have bounds := splitPoint_of_largestPowerOf2LessThan found
      do
        let lchild ← new leaves start lchildSize
        let rchild ← new leaves (start + lchildSize) (size - lchildSize)
        return node (merkleCombineHashes H (lchild.value leaves) (rchild.value leaves)) lchild
          rchild (lchild.height + 1)
termination_by size

end New

/-- `pow2` is a loop that doubles. -/
def pow2 : Nat → Nat
  | 0 => 1
  | n + 1 => pow2 n * 2

/-- The proof of the leaf with the given index below a tree. -/
def getProof (leaves : List Digest) : Tree → Nat → List Digest
  | leaf _, _ => []
  | node _ left right _, index =>
    if index < pow2 left.height then left.getProof leaves index ++ [right.value leaves]
    else right.getProof leaves (index - pow2 left.height) ++ [left.value leaves]

end Tree

structure MerkleTree where
  root : Tree
  leaves : List Digest

namespace MerkleTree

variable (H : HashFunction)

/-- There is a panic if there are no leaves. -/
def new (leaves : List Digest) : Option MerkleTree :=
  (Tree.new H leaves 0 leaves.length).map fun root => ⟨root, leaves⟩

def size (tree : MerkleTree) : Nat := tree.leaves.length

def rootHash (tree : MerkleTree) : Digest := tree.root.value tree.leaves

def getLeaf (tree : MerkleTree) (index : Nat) : Option Digest := tree.leaves[index]?

def getLeafIndex (tree : MerkleTree) (hash : Digest) : Option Nat :=
  tree.leaves.findIdx? (· = hash)

def getLeafProof (tree : MerkleTree) (index : Nat) : Option (List Digest) :=
  if index ≥ tree.leaves.length then none else some (tree.root.getProof tree.leaves index)

end MerkleTree

section Rust

variable {H : HashFunction}

theorem pow2_eq (n : Nat) : Tree.pow2 n = 2 ^ n := by
  induction n with
  | zero => rfl
  | succ n ih => rw [Tree.pow2, ih, Nat.pow_succ]

/-- The tree over a range of the leaves: its root, its height and its proofs. -/
theorem exists_tree_new {start size : Nat} (positive : 1 ≤ size)
    (inside : start + size ≤ leaves.length) : ∃ tree, Tree.new H leaves start size = some tree ∧
      tree.value leaves = (leftComplete (Digest.ofNat 0) ((leaves.drop start).take size)).root
        (merkleCombineHashes H) ∧
      tree.height = Nat.clog 2 size ∧
      ∀ index < size, tree.getProof leaves index =
        leafProof H ((leaves.drop start).take size) index := by
  induction size using Nat.strong_induction_on generalizing start with
  | _ size ih =>
    have rangeLength : ((leaves.drop start).take size).length = size := by
      rw [length_take, length_drop]
      omega
    rw [Tree.new]
    by_cases single : size = 1
    · subst single
      refine ⟨.leaf start, by simp, ?_, by simp [Tree.height], fun index _ => ?_⟩
      · rw [leftComplete, dif_pos (by omega), Tree.value, getD_eq_getElem _ _ (by omega),
          drop_eq_getElem_cons (by omega)]
        rfl
      · rw [leafProof_of_le_one (by omega)]
        rfl
    · have large : 2 ≤ size := by omega
      have below := splitPoint_lt large
      have splitPos := splitPoint_pos size
      obtain ⟨left, leftNew, leftValue, leftHeight, leftProof⟩ :=
        ih _ below splitPos (show start + splitPoint size ≤ leaves.length by omega)
      obtain ⟨right, rightNew, rightValue, -, rightProof⟩ :=
        ih (size - splitPoint size) (by omega) (by omega)
          (show start + splitPoint size + (size - splitPoint size) ≤ leaves.length by omega)
      have leftRange : ((leaves.drop start).take size).take (splitPoint size) =
          (leaves.drop start).take (splitPoint size) := by
        rw [take_take, Nat.min_eq_left below.le]
      have rightRange : ((leaves.drop start).take size).drop (splitPoint size) =
          (leaves.drop (start + splitPoint size)).take (size - splitPoint size) := by
        rw [drop_take, drop_drop]
      have leftSize : Tree.pow2 left.height = splitPoint size := by
        rw [pow2_eq, leftHeight, splitPoint, Nat.clog_pow _ _ (by decide)]
      refine ⟨.node (merkleCombineHashes H (left.value leaves) (right.value leaves)) left right
        (left.height + 1), ?_, ?_, ?_, fun index inRange => ?_⟩
      · rw [if_neg single]
        split
        next missing => simp [largestPowerOf2LessThan_eq large] at missing
        next found =>
          rw [largestPowerOf2LessThan_eq large, Option.some.injEq] at found
          subst found
          rw [leftNew, rightNew]
          rfl
      · rw [leftComplete_of_two_le _ (by omega), rangeLength, leftRange, rightRange, Tree.value,
          leftValue, rightValue]
        rfl
      · rw [Tree.height, leftHeight, clog_splitPoint large]
      · rw [Tree.getProof, leftSize]
        split_ifs with onLeft
        · rw [leafProof_of_lt (by omega) (by rw [rangeLength]; exact onLeft), rangeLength,
            leftRange, rightRange, leftProof index onLeft, rightValue]
        · rw [leafProof_of_ge (by omega) (by rw [rangeLength]; omega), rangeLength, leftRange,
            rightRange, rightProof _ (by omega), leftValue]

/-- The tree over a list of leaves, which is built unless the list is empty. -/
theorem exists_merkleTree_new (nonempty : leaves ≠ []) :
    ∃ tree, MerkleTree.new H leaves = some tree ∧ tree.leaves = leaves ∧
      tree.rootHash = (leftComplete (Digest.ofNat 0) leaves).root (merkleCombineHashes H) ∧
      ∀ index < leaves.length, tree.getLeafProof index = some (leafProof H leaves index) := by
  obtain ⟨tree, built, value, -, proof⟩ :=
    exists_tree_new (H := H) (length_pos_iff.mpr nonempty)
      (show 0 + leaves.length ≤ leaves.length from (Nat.zero_add _).le)
  rw [drop_zero, take_length] at value proof
  refine ⟨⟨tree, leaves⟩, ?_, rfl, value, fun index inside => ?_⟩
  · rw [MerkleTree.new, built]
    rfl
  · rw [MerkleTree.getLeafProof, if_neg (not_le.mpr inside)]
    exact congrArg some (proof index inside)

/-- There is no tree without leaves. -/
theorem merkleTree_new_nil : MerkleTree.new H [] = none := by
  rw [MerkleTree.new, length_nil, Tree.new, if_neg (by decide)]
  rfl

end Rust

end Rust

end LedgerSyscoin.Client
