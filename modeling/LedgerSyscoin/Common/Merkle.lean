import LedgerSyscoin.Foundation.Hash
import LedgerSyscoin.Foundation.MerkleTree
import Mathlib.Data.Nat.Bitwise

/-!
# Merkle proofs

Hashes of leaves and internal nodes, and the directions from the root of a left-complete
tree to one of its leaves. `ceil_lg` doubles a 32-bit counter until it reaches its
argument and does not terminate above `2 ^ 31`, which is the outcome `none`.
-/

namespace LedgerSyscoin.Common

open Foundation List

variable (H : HashFunction) {index fuel n size : Nat}

/-- Hash of a leaf with the given contents. -/
def merkleComputeElementHash (element : Bytes) : Digest := H (0x00 :: element)

/-- The byte string hashed for an internal node. -/
def nodePreimage (left right : Digest) : Bytes := 0x01 :: (left.val ++ right.val)

/-- Hash of an internal node. -/
def merkleCombineHashes (left right : Digest) : Digest := H (nodePreimage left right)

theorem nodePreimage_inj {left right left' right' : Digest}
    (equal : nodePreimage left right = nodePreimage left' right') :
    left = left' ∧ right = right' := by
  simp only [nodePreimage, List.cons.injEq, true_and] at equal
  have parts := append_inj equal (left.property.trans left'.property.symm)
  exact ⟨Subtype.ext parts.1, Subtype.ext parts.2⟩

/-- Hashes of the leaves of the tree over a list of elements. -/
def leafHashes (elements : List Bytes) : List Digest := elements.map (merkleComputeElementHash H)

/-- The Merkle tree over a list of elements; the empty list is committed to by zeros. -/
def merkleTree (elements : List Bytes) : HashTree Digest :=
  leftComplete (Digest.ofNat 0) (leafHashes H elements)

/-- The root that commits to a list of elements. -/
def merkleTreeRoot (elements : List Bytes) : Digest :=
  (merkleTree H elements).root (merkleCombineHashes H)

/-- All byte strings hashed to compute the root over a list of elements. -/
def treeStrings (elements : List Bytes) : Set Bytes :=
  {bs | (∃ element ∈ elements, bs = 0x00 :: element) ∨
    ∃ pair ∈ (merkleTree H elements).pairs (merkleCombineHashes H),
      bs = nodePreimage pair.1 pair.2}

/-- Collision freedom makes the combination of hashes injective on the pairs whose
preimages are among the strings considered. -/
theorem injOn_merkleCombineHashes {hashed : Set Bytes} {pairs : Set (Digest × Digest)}
    (collisionFree : CollisionFreeOn H hashed)
    (covered : ∀ pair ∈ pairs, nodePreimage pair.1 pair.2 ∈ hashed) :
    Set.InjOn (Function.uncurry (merkleCombineHashes H)) pairs := by
  intro pair inPairs pair' inPairs' equal
  have parts := nodePreimage_inj
    (collisionFree (covered pair inPairs) (covered pair' inPairs') equal)
  exact Prod.ext parts.1 parts.2

variable {H} in
/-- An internal node of the tree never has the hash of a leaf: their preimages start
with different bytes. -/
theorem merkleCombineHashes_ne_leafHash {hashed : Set Bytes} {elements : List Bytes}
    {pair : Digest × Digest} (collisionFree : CollisionFreeOn H hashed)
    (covered : treeStrings H elements ⊆ hashed)
    (inPairs : pair ∈ (merkleTree H elements).pairs (merkleCombineHashes H))
    (inside : index < (leafHashes H elements).length) :
    merkleCombineHashes H pair.1 pair.2 ≠ (leafHashes H elements)[index] := by
  have elementInside : index < elements.length := by simpa [leafHashes] using inside
  have leafEq : (leafHashes H elements)[index] = H (0x00 :: elements[index]) := by
    simp [leafHashes, merkleComputeElementHash]
  rw [leafEq]
  intro equal
  have leafString : 0x00 :: elements[index] ∈ hashed :=
    covered (Or.inl ⟨elements[index], getElem_mem elementInside, rfl⟩)
  have strings := collisionFree (covered (Or.inr ⟨pair, inPairs, rfl⟩)) leafString equal
  simp [nodePreimage] at strings

section Injective

variable {H : HashFunction} {hashed : Set Bytes} {first second : List Bytes}

theorem leaves_merkleTree (nonempty : first ≠ []) :
    (merkleTree H first).leaves = leafHashes H first :=
  leaves_leftComplete _ (by simpa [leafHashes] using nonempty)

theorem separate_merkleTree (collisionFree : CollisionFreeOn H hashed) (nonempty : first ≠ [])
    (covered : treeStrings H first ⊆ hashed) (covered' : treeStrings H second ⊆ hashed) :
    HashTree.Separate (merkleCombineHashes H) (merkleTree H first) (merkleTree H second) := by
  intro value isLeaf pair isPair same
  rw [leaves_merkleTree nonempty, leafHashes, mem_map] at isLeaf
  obtain ⟨element, member, rfl⟩ := isLeaf
  have strings := collisionFree (covered (Or.inl ⟨element, member, rfl⟩))
    (covered' (Or.inr ⟨pair, isPair, rfl⟩)) same
  simp [nodePreimage] at strings

/-- The root over a list determines the list. -/
theorem merkleTreeRoot_inj (collisionFree : CollisionFreeOn H hashed) (nonempty : first ≠ [])
    (nonempty' : second ≠ []) (covered : treeStrings H first ⊆ hashed)
    (covered' : treeStrings H second ⊆ hashed)
    (same : merkleTreeRoot H first = merkleTreeRoot H second) : first = second := by
  have injective : Set.InjOn (Function.uncurry (merkleCombineHashes H))
      {pair | pair ∈ (merkleTree H first).pairs (merkleCombineHashes H) ∨
        pair ∈ (merkleTree H second).pairs (merkleCombineHashes H)} := by
    apply injOn_merkleCombineHashes H collisionFree
    rintro pair (isPair | isPair)
    · exact covered (Or.inr ⟨pair, isPair, rfl⟩)
    · exact covered' (Or.inr ⟨pair, isPair, rfl⟩)
  have trees := HashTree.eq_of_root_eq (merkleCombineHashes H) injective
    (separate_merkleTree collisionFree nonempty covered covered')
    (separate_merkleTree collisionFree nonempty' covered' covered) same
  have leaves := congrArg HashTree.leaves trees
  rw [leaves_merkleTree nonempty, leaves_merkleTree nonempty'] at leaves
  have lengths : first.length = second.length := by
    simpa [leafHashes] using congrArg List.length leaves
  refine ext_getElem lengths fun index inside inside' => ?_
  have hashes : H (0x00 :: first[index]) = H (0x00 :: second[index]) := by
    have entries := congrArg (·[index]?) leaves
    simpa [leafHashes, inside, inside', merkleComputeElementHash] using entries
  have strings := collisionFree (covered (Or.inl ⟨_, getElem_mem inside, rfl⟩))
    (covered' (Or.inl ⟨_, getElem_mem inside', rfl⟩)) hashes
  exact (List.cons.inj strings).2

end Injective

/-- The loop of `ceil_lg`: a 32-bit power and an 8-bit exponent. -/
def ceilLgLoop : Nat → Nat → Nat → Nat → Option Nat
  | 0, _, _, _ => none
  | fuel + 1, n, t, r =>
    if t < n then ceilLgLoop fuel n (2 * t % 2 ^ 32) ((r + 1) % 256) else some r

/-- The exponent of the smallest power of two that is at least `n`. -/
def ceilLg (n : Nat) : Option Nat := ceilLgLoop 33 n 1 0

/-- The loop of `merkle_get_ith_direction`. -/
def ithDirectionLoop : Nat → Nat → Nat → Nat → Nat → Option Int
  | 0, _, _, _, _ => none
  | fuel + 1, size, index, i, nDirections =>
    if size > 1 then
      match ceilLg size with
      | none => none
      | some depth =>
        let mask := 1 <<< (depth - 1)
        let isRightChild := index &&& mask ≠ 0
        if nDirections = i then some (if isRightChild then 1 else 0)
        else if isRightChild then
          ithDirectionLoop fuel (size - mask) (index - mask) i ((nDirections + 1) % 256)
        else ithDirectionLoop fuel mask index i ((nDirections + 1) % 256)
    else some (-1)

/-- The `i`-th direction to the leaf at `index` in a tree of `size` leaves: zero for
left, one for right and `-1` when there is no such step. -/
def merkleGetIthDirection (size index i : Nat) : Option Int :=
  if size ≤ 1 ∨ index ≥ size then some (-1) else ithDirectionLoop 33 size index i 0

/-! ## `ceil_lg` -/

theorem ceilLgLoop_eq {r : Nat} (bound : Nat.clog 2 n ≤ 31) (start : r ≤ Nat.clog 2 n)
    (enough : Nat.clog 2 n < fuel + r) : ceilLgLoop fuel n (2 ^ r) r = some (Nat.clog 2 n) := by
  induction fuel generalizing r with
  | zero => omega
  | succ fuel ih =>
    rw [ceilLgLoop]
    split_ifs with below
    · have exponentLt : r < Nat.clog 2 n := (Nat.lt_clog_iff_pow_lt (by decide)).mpr below
      have powerLt : 2 ^ (r + 1) < 2 ^ 32 := Nat.pow_lt_pow_right (by decide) (by omega)
      rw [← Nat.pow_succ', Nat.succ_eq_add_one, Nat.mod_eq_of_lt powerLt,
        Nat.mod_eq_of_lt (show r + 1 < 256 by omega)]
      exact ih (by omega) (by omega)
    · have exponentGe : Nat.clog 2 n ≤ r := (Nat.clog_le_iff_le_pow (by decide)).mpr (by omega)
      rw [Nat.le_antisymm start exponentGe]

/-- Up to `2 ^ 31` the loop computes the binary logarithm, rounded up. -/
theorem ceilLg_eq_clog (small : n ≤ 2 ^ 31) : ceilLg n = some (Nat.clog 2 n) := by
  have bound : Nat.clog 2 n ≤ 31 := (Nat.clog_le_iff_le_pow (by decide)).mpr small
  exact ceilLgLoop_eq bound (Nat.zero_le _) (by omega)

/-- Above `2 ^ 31` the counter wraps to zero before it reaches its argument, and no
number of rounds suffices. -/
theorem ceilLgLoop_eq_none {t r : Nat} (large : 2 ^ 31 < n)
    (power : t = 0 ∨ ∃ k, k ≤ 31 ∧ t = 2 ^ k) : ceilLgLoop fuel n t r = none := by
  induction fuel generalizing t r with
  | zero => rfl
  | succ fuel ih =>
    have below : t < n := by
      rcases power with rfl | ⟨k, kLe, rfl⟩
      · omega
      · exact lt_of_le_of_lt (Nat.pow_le_pow_right (by decide) kLe) large
    rw [ceilLgLoop, if_pos below]
    apply ih
    rcases power with rfl | ⟨k, kLe, rfl⟩
    · exact Or.inl rfl
    · rw [← Nat.pow_succ', Nat.succ_eq_add_one]
      by_cases last : k = 31
      · exact Or.inl (by rw [last]; rfl)
      · refine Or.inr ⟨k + 1, by omega, Nat.mod_eq_of_lt ?_⟩
        exact Nat.pow_lt_pow_right (by decide) (by omega)

theorem ceilLg_eq_none (large : 2 ^ 31 < n) : ceilLg n = none :=
  ceilLgLoop_eq_none large (Or.inr ⟨0, by omega, rfl⟩)

/-! ## Directions -/

/-- The return code for an optional direction. -/
def directionCode : Option Bool → Int
  | none => -1
  | some false => 0
  | some true => 1

/-- The mask bit of an index inside the tree tells on which side of the split it is. -/
theorem and_splitPoint_ne_zero_iff (large : 2 ≤ size) (inside : index < size) :
    index &&& splitPoint size ≠ 0 ↔ splitPoint size ≤ index := by
  have bound := le_two_mul_splitPoint large
  have positive := splitPoint_pos size
  have bitEq : index.testBit (Nat.clog 2 size - 1) = decide (splitPoint size ≤ index) := by
    rw [Nat.testBit_eq_decide_div_mod_eq]
    change decide (index / splitPoint size % 2 = 1) = _
    congr 1
    by_cases left : index < splitPoint size
    · rw [Nat.div_eq_of_lt left]
      simp
      omega
    · have quotient : index / splitPoint size = 1 := Nat.div_eq_of_lt_le (by omega) (by omega)
      rw [quotient]
      simp
      omega
  have andEq : index &&& splitPoint size =
      (decide (splitPoint size ≤ index)).toNat * splitPoint size := by
    rw [← bitEq]
    exact Nat.and_two_pow _ _
  rw [andEq]
  by_cases right : splitPoint size ≤ index
  · simp [right, positive.ne.symm]
  · simp [right]

theorem clog_splitPoint_lt (large : 2 ≤ size) : Nat.clog 2 (splitPoint size) < Nat.clog 2 size := by
  have positive : 0 < Nat.clog 2 size := Nat.clog_pos (by decide) large
  rw [splitPoint, Nat.clog_pow _ _ (by decide)]
  omega

theorem clog_sub_splitPoint_lt (large : 2 ≤ size) :
    Nat.clog 2 (size - splitPoint size) < Nat.clog 2 size := by
  have bound := le_two_mul_splitPoint large
  exact lt_of_le_of_lt (Nat.clog_mono_right 2 (by omega)) (clog_splitPoint_lt large)

theorem ithDirectionLoop_eq {i nDirections : Nat} (small : size ≤ 2 ^ 31)
    (inside : index < size) (enough : Nat.clog 2 size < fuel) (counted : nDirections ≤ i)
    (noWrap : nDirections + Nat.clog 2 size < 256) :
    ithDirectionLoop fuel size index i nDirections =
      some (directionCode ((pathTo size index)[i - nDirections]?)) := by
  induction fuel generalizing size index nDirections with
  | zero => omega
  | succ fuel ih =>
    rw [ithDirectionLoop]
    by_cases large : size > 1
    · have below := splitPoint_lt large
      have logPos : 0 < Nat.clog 2 size := Nat.clog_pos (by decide) large
      have maskEq : 1 <<< (Nat.clog 2 size - 1) = splitPoint size := by
        rw [Nat.one_shiftLeft, splitPoint]
      rw [if_pos large]
      simp only [ceilLg_eq_clog small, maskEq]
      rw [if_congr (and_splitPoint_ne_zero_iff large inside) rfl rfl,
        if_congr (and_splitPoint_ne_zero_iff large inside) rfl rfl, pathTo_of_two_le large]
      by_cases here : nDirections = i
      · rw [if_pos here, here, Nat.sub_self]
        by_cases right : splitPoint size ≤ index
        · rw [if_pos right, if_neg (by omega)]
          rfl
        · rw [if_neg right, if_pos (by omega)]
          rfl
      · have shift : i - nDirections = i - (nDirections + 1) + 1 := by omega
        rw [if_neg here, Nat.mod_eq_of_lt (by omega), shift]
        by_cases right : splitPoint size ≤ index
        · have logLt := clog_sub_splitPoint_lt large
          rw [if_pos right, if_neg (by omega), getElem?_cons_succ]
          exact ih (by omega) (by omega) (by omega) (by omega) (by omega)
        · have logLt := clog_splitPoint_lt large
          rw [if_neg right, if_pos (by omega), getElem?_cons_succ]
          exact ih (by omega) (by omega) (by omega) (by omega) (by omega)
    · rw [if_neg large, pathTo_of_le_one (by omega)]
      rfl

/-- Up to `2 ^ 31` leaves, the directions are those of the left-complete tree. -/
theorem merkleGetIthDirection_eq (small : size ≤ 2 ^ 31) (inside : index < size) (i : Nat) :
    merkleGetIthDirection size index i = some (directionCode ((pathTo size index)[i]?)) := by
  rw [merkleGetIthDirection]
  have bound : Nat.clog 2 size ≤ 31 := (Nat.clog_le_iff_le_pow (by decide)).mpr small
  split_ifs with trivial
  · rw [pathTo_of_le_one (by omega)]
    rfl
  · exact ithDirectionLoop_eq small inside (by omega) (Nat.zero_le _) (by omega)

/-- Above `2 ^ 31` leaves, no direction inside the tree is ever returned. -/
theorem merkleGetIthDirection_eq_none (large : 2 ^ 31 < size)
    (inside : index < size) (i : Nat) : merkleGetIthDirection size index i = none := by
  rw [merkleGetIthDirection, if_neg (by omega), ithDirectionLoop, if_pos (by omega),
    ceilLg_eq_none large]

/-- The directions to a leaf are returned in order, with nothing but `-1` after them, exactly
when the tree has at most `2 ^ 31` leaves. -/
theorem merkleGetIthDirection_path_iff (inside : index < size) :
    (∀ i, merkleGetIthDirection size index i = some (directionCode ((pathTo size index)[i]?))) ↔
      size ≤ 2 ^ 31 := by
  constructor
  · intro directions
    by_contra large
    have first := directions 0
    rw [merkleGetIthDirection_eq_none (by omega) inside] at first
    cases first
  · exact fun small i => merkleGetIthDirection_eq small inside i

theorem merkleGetIthDirection_path_iff_three :
    (∀ i, merkleGetIthDirection 3 2 i = some (directionCode ((pathTo 3 2)[i]?))) ↔ 3 ≤ 2 ^ 31 :=
  merkleGetIthDirection_path_iff (by decide)

/-- One leaf more, and `ceil_lg` never ends: its counter is doubled to zero. -/
theorem merkleGetIthDirection_endless :
    merkleGetIthDirection (2 ^ 31 + 1) 0 0 = none ∧
      ∀ fuel, ceilLgLoop fuel (2 ^ 31 + 1) 1 0 = none :=
  ⟨merkleGetIthDirection_eq_none (by decide) (by decide) 0,
    fun _ => ceilLgLoop_eq_none (by decide) (Or.inr ⟨0, by omega, rfl⟩)⟩

theorem merkleGetIthDirection_of_le_index (outside : size ≤ index) (i : Nat) :
    merkleGetIthDirection size index i = some (-1) := by
  rw [merkleGetIthDirection, if_pos (Or.inr outside)]

end LedgerSyscoin.Common
