import LedgerSyscoin.Handler.Lib.GetMerkleizedMapValueHash
import LedgerSyscoin.Handler.Lib.GetMerklePreimage
import Mathlib.Data.List.Lex
import Mathlib.Data.UInt

/-!
# `call_get_merkleized_map_with_callback` and `call_get_merkleized_map_value`

When the commitment of a map is received, all its keys are received too, and have to be
in strict lexicographical order. A later lookup asks for the position of a key and
checks the hash of the key there. The flows that receive one leaf are parameters: if
they return what a tree commits to, every lookup of a key is at the same position.
-/

namespace LedgerSyscoin.Handler

open Foundation Common Boilerplate List

variable {bytes : Bytes}

/-- Receive the element at `leafIndex` of the tree with the given root into `out`. -/
def callGetMerkleLeafElement (H : HashFunction) (merkleRoot : Digest) (treeSize leafIndex : Nat)
    (out : Bytes) : Flow (Int × Bytes) := do
  let (ret, hash) ← receiveLeafHash H merkleRoot treeSize leafIndex (Digest.ofNat 0)
  if ret < 0 then return (ret, out)
  let element ← callGetMerklePreimage H hash out
  return (element.ret, element.out)

/-- The flows that receive the hash of a leaf or its element: a return code, negative for a
failure or the number of bytes received, and the contents of the output. -/
structure LeafFlows where
  leafHash (merkleRoot : Digest) (treeSize leafIndex : Nat) (out : Digest) : Flow (Int × Digest)
  leafElement (merkleRoot : Digest) (treeSize leafIndex : Nat) (out : Bytes) : Flow (Int × Bytes)

/-- The bytes that were received, or the code of the failure. -/
def received (result : Int × Bytes) : Except Int Bytes :=
  if result.1 < 0 then .error result.1 else .ok (result.2.take result.1.toNat)

theorem received_eq_ok_iff {result : Int × Bytes} :
    received result = .ok bytes ↔ 0 ≤ result.1 ∧ result.2.take result.1.toNat = bytes := by
  rw [received]
  split_ifs with failed
  · simp [failed]
  · simp [not_lt.mp failed]

/-- The flows of the source. -/
def LeafFlows.source (H : HashFunction) : LeafFlows where
  leafHash := receiveLeafHash H
  leafElement := callGetMerkleLeafElement H

/-! ## Byte strings in order -/

/-- Comparison of as many bytes as both strings have. -/
def memcmp : Bytes → Bytes → Int
  | byte :: bytes, byte' :: bytes' =>
    if byte = byte' then memcmp bytes bytes' else (byte.toNat : Int) - byte'.toNat
  | _, _ => 0

/-- Negative, zero or positive as the first byte string is smaller, equal or larger. -/
def compareByteArrays (array1 array2 : Bytes) : Int :=
  let minLen := if array1.length < array2.length then array1.length else array2.length
  let memcmpResult := memcmp (array1.take minLen) (array2.take minLen)
  if minLen = 0 ∨ memcmpResult = 0 then
    if array1.length < array2.length then -1
    else if array1.length > array2.length then 1
    else 0
  else memcmpResult

theorem compareByteArrays_cons (byte byte' : UInt8) (bytes bytes' : Bytes) :
    compareByteArrays (byte :: bytes) (byte' :: bytes') =
      if byte = byte' then compareByteArrays bytes bytes'
      else (byte.toNat : Int) - byte'.toNat := by
  have minLen_eq : (if (byte :: bytes).length < (byte' :: bytes').length then
      (byte :: bytes).length else (byte' :: bytes').length) =
      (if bytes.length < bytes'.length then bytes.length else bytes'.length) + 1 := by
    simp only [length_cons]
    split_ifs <;> omega
  unfold compareByteArrays
  simp only [minLen_eq, take_succ_cons, memcmp]
  by_cases same : byte = byte'
  · simp only [if_pos same, length_cons]
    by_cases empty : (if bytes.length < bytes'.length then bytes.length else bytes'.length) = 0
    · simp [empty, memcmp]
    · simp [empty]
  · have different : (byte.toNat : Int) - byte'.toNat ≠ 0 := by
      intro zero
      exact same (UInt8.toNat_inj.mp (by omega))
    simp [same, different]

theorem compareByteArrays_neg_iff (array1 array2 : Bytes) :
    compareByteArrays array1 array2 < 0 ↔ array1 < array2 := by
  induction array1 generalizing array2 with
  | nil => cases array2 <;> simp [compareByteArrays]
  | cons byte bytes ih =>
    cases array2 with
    | nil => simp [compareByteArrays]
    | cons byte' bytes' =>
      rw [compareByteArrays_cons, cons_lt_cons_iff]
      by_cases same : byte = byte'
      · simp [same, ih]
      · rw [if_neg same, UInt8.lt_iff_toNat_lt]
        simp only [same, false_and, or_false]
        omega

/-! ## Receiving a map -/

section Maps

variable {m : Type → Type} [Monad m] {τ : Type}
  (leafElement : (root : Digest) → (size index outLen : Nat) → m (Except Int Bytes))

/-- What is called for every key that is received: the commitment of the map, the index of the
key and the key. -/
abbrev ElementsCallback (m : Type → Type) (τ : Type) :=
  τ → MerkleizedMapCommitment → Nat → Bytes → m τ

def maxCheckMerkleTreeSortedPreimageSize : Nat := 162

/-- Call the callback, if there is one. -/
def ElementsCallback.call (callback : Option (ElementsCallback m τ)) (callbackState : τ)
    (mapCommitment : MerkleizedMapCommitment) (index : Nat) (element : Bytes) : m τ :=
  match callback with
  | none => pure callbackState
  | some callback => callback callbackState mapCommitment index element

/-- The loop over the elements from `curElIdx` on, after the element `prevEl`. -/
def checkMerkleTreeSortedLoop (root : Digest) (size : Nat)
    (callback : Option (ElementsCallback m τ)) (mapCommitment : MerkleizedMapCommitment) :
    (remaining curElIdx : Nat) → (prevEl : Bytes) → (callbackState : τ) → m (Int × τ)
  | 0, _, _, callbackState => pure (0, callbackState)
  | remaining + 1, curElIdx, prevEl, callbackState => do
    match ← leafElement root size curElIdx maxCheckMerkleTreeSortedPreimageSize with
    | .error _ => return (-1, callbackState)
    | .ok curEl =>
      if curElIdx > 0 ∧ compareByteArrays prevEl curEl ≥ 0 then return (-1, callbackState)
      let callbackState ←
        ElementsCallback.call callback callbackState mapCommitment curElIdx curEl
      checkMerkleTreeSortedLoop root size callback mapCommitment remaining (curElIdx + 1)
        curEl callbackState

/-- Check that the elements of a tree are in strict lexicographical order. -/
def callCheckMerkleTreeSortedWithCallback (callbackState : τ) (root : Digest) (size : Nat)
    (callback : Option (ElementsCallback m τ)) (mapCommitment : MerkleizedMapCommitment) :
    m (Int × τ) :=
  checkMerkleTreeSortedLoop leafElement root size callback mapCommitment size 0 [] callbackState

/-- Read the parts of a commitment, as far as they are there. -/
def readMapCommitment (buffer : Buffer) (out : MerkleizedMapCommitment) :
    Bool × MerkleizedMapCommitment :=
  match bufferReadVarint buffer with
  | none => (false, out)
  | some (size, buffer) =>
    match bufferReadBytes 32 buffer with
    | none => (false, { out with size })
    | some (keysRoot, buffer) =>
      match bufferReadBytes 32 buffer with
      | none => (false, { out with size, keysRoot := Digest.ofBytes keysRoot })
      | some (valuesRoot, _) =>
        (true, ⟨size, Digest.ofBytes keysRoot, Digest.ofBytes valuesRoot⟩)

/-- Receive the commitment of a map, the element at `index` of a tree, and check its keys. -/
def callGetMerkleizedMapWithCallback (callbackState : τ) (root : Digest) (size index : Nat)
    (callback : Option (ElementsCallback m τ)) (out : MerkleizedMapCommitment) :
    m (Int × MerkleizedMapCommitment × τ) := do
  match ← leafElement root size index (9 + 2 * 32) with
  | .error _ => return (-1, out, callbackState)
  | .ok rawOutput =>
    let (isRead, map) := readMapCommitment (bufferCreate rawOutput) out
    if ¬isRead then return (-1, map, callbackState)
    let checked ← callCheckMerkleTreeSortedWithCallback leafElement callbackState map.keysRoot
      (map.size % 2 ^ 32) callback map
    return (checked.1, map, checked.2)

end Maps

/-! ## Lookups -/

namespace LeafFlows

variable {τ : Type} (flows : LeafFlows) {dc : DispatcherContext} {incoming : List Apdu}
  {mapCommitment : MerkleizedMapCommitment}

/-- Receive an element into a buffer of the given length. -/
def element (root : Digest) (size index outLen : Nat) : Flow (Except Int Bytes) := do
  let result ← flows.leafElement root size index (replicate outLen 0)
  return received result

/-- Receive the value that a map has at `key` into `out`. -/
def callGetMerkleizedMapValue (H : HashFunction) (map : MerkleizedMapCommitment) (key out : Bytes) :
    Flow (Int × Bytes) := do
  let index ← callGetMerkleLeafIndex flows.leafHash (map.size % 2 ^ 32) map.keysRoot
    (merkleComputeElementHash H key)
  if index < 0 then return (-1, out)
  flows.leafElement map.valuesRoot (map.size % 2 ^ 32) index.toNat out

/-! ## Lookups are functional -/

/-- The flows return what the trees commit to: `committed root size` are the elements of the tree
of that size and with that root. -/
structure ReturnCommitted (H : HashFunction) (committed : Digest → Nat → List Bytes) : Prop where
  length_le : ∀ root size, (committed root size).length ≤ size
  leafHash : ∀ {root size index out dc incoming outcome},
    flows.leafHash root size index out dc incoming = some outcome → 0 ≤ outcome.result.1 →
      (leafHashes H (committed root size))[index]? = some outcome.result.2
  leafElement : ∀ {root size index out dc incoming outcome},
    flows.leafElement root size index out dc incoming = some outcome → 0 ≤ outcome.result.1 →
      (committed root size)[index]? = some (outcome.result.2.take outcome.result.1.toNat)

variable {flows} {H : HashFunction} {committed : Digest → Nat → List Bytes}
  (sound : flows.ReturnCommitted H committed)

include sound

variable {root : Digest}

theorem committed_of_element {size index outLen : Nat} {outcome : Outcome (Except Int Bytes)}
    (run : flows.element root size index outLen dc incoming = some outcome)
    (isOk : outcome.result = .ok bytes) : (committed root size)[index]? = some bytes := by
  obtain ⟨_, elementRun, rest⟩ := Flow.bind_eq_some_iff.mp run
  cases Flow.pure_eq_some_iff.mp rest
  obtain ⟨success, rfl⟩ := received_eq_ok_iff.mp isOk
  exact sound.leafElement elementRun success

variable {callback : Option (ElementsCallback Flow τ)} {callbackState : τ}

/-- A loop that succeeds has found every element larger than the one before it. -/
theorem lt_of_checkMerkleTreeSortedLoop {size : Nat}
    {remaining curElIdx : Nat} {prevEl : Bytes} {outcome : Outcome (Int × τ)}
    (previous : ∀ index, curElIdx = index + 1 → (committed root size)[index]? = some prevEl)
    (run : checkMerkleTreeSortedLoop flows.element root size callback mapCommitment remaining
      curElIdx prevEl callbackState dc incoming = some outcome)
    (success : 0 ≤ outcome.result.1) :
    ∀ index, curElIdx ≤ index + 1 → index + 1 < curElIdx + remaining →
      ∀ left right, (committed root size)[index]? = some left →
        (committed root size)[index + 1]? = some right → left < right := by
  induction remaining generalizing curElIdx prevEl callbackState dc incoming with
  | zero =>
    intro index above below
    omega
  | succ remaining ih =>
    rw [checkMerkleTreeSortedLoop] at run
    obtain ⟨⟨answer, _, _⟩, elementRun, rest⟩ := Flow.bind_eq_some_iff.mp run
    cases answer with
    | error code =>
      cases Flow.pure_eq_some_iff.mp rest
      simp at success
    | ok curEl =>
      dsimp only at rest
      split_ifs at rest with unsorted
      · cases Flow.pure_eq_some_iff.mp rest
        simp at success
      · have current := committed_of_element sound elementRun rfl
        obtain ⟨_, _, last⟩ := Flow.bind_eq_some_iff.mp rest
        have later := ih (fun index isNext => by
          obtain rfl : index = curElIdx := by omega
          exact current) last
        intro index above below left right leftAt rightAt
        rcases Nat.lt_or_ge curElIdx (index + 1) with isLater | _
        · exact later index isLater (by omega) left right leftAt rightAt
        · obtain rfl : curElIdx = index + 1 := by omega
          cases (previous index rfl).symm.trans leftAt
          cases current.symm.trans rightAt
          rw [← compareByteArrays_neg_iff]
          push Not at unsorted
          exact unsorted (Nat.succ_pos index)

/-- The elements of a tree that passed the check are strictly sorted. -/
theorem sorted_of_callCheckMerkleTreeSorted {size : Nat} {outcome : Outcome (Int × τ)}
    (run : callCheckMerkleTreeSortedWithCallback flows.element callbackState root size callback
      mapCommitment dc incoming = some outcome)
    (success : 0 ≤ outcome.result.1) : (committed root size).Pairwise (· < ·) := by
  have consecutive := lt_of_checkMerkleTreeSortedLoop sound (by omega) run success
  rw [← isChain_iff_pairwise, isChain_iff_getElem]
  intro index inside
  have bound := sound.length_le root size
  exact consecutive index (Nat.zero_le _) (by omega) _ _ (getElem?_eq_getElem _)
    (getElem?_eq_getElem _)

/-- The keys of a map that was received are strictly sorted. -/
theorem sorted_keys_of_callGetMerkleizedMap {size index : Nat} {out : MerkleizedMapCommitment}
    {outcome : Outcome (Int × MerkleizedMapCommitment × τ)}
    (run : callGetMerkleizedMapWithCallback flows.element callbackState root size index callback
      out dc incoming = some outcome)
    (success : 0 ≤ outcome.result.1) :
    (committed outcome.result.2.1.keysRoot (outcome.result.2.1.size % 2 ^ 32)).Pairwise
      (· < ·) := by
  rw [callGetMerkleizedMapWithCallback] at run
  obtain ⟨⟨answer, _, _⟩, -, rest⟩ := Flow.bind_eq_some_iff.mp run
  cases answer with
  | error code =>
    cases Flow.pure_eq_some_iff.mp rest
    simp at success
  | ok rawOutput =>
    dsimp only at rest
    split_ifs at rest with isRead
    · obtain ⟨_, checkRun, last⟩ := Flow.bind_eq_some_iff.mp rest
      cases Flow.pure_eq_some_iff.mp last
      exact sorted_of_callCheckMerkleTreeSorted sound checkRun success
    · cases Flow.pure_eq_some_iff.mp rest
      simp at success

/-- An index that is received is that of a leaf with the requested hash. -/
theorem leafHash_of_callGetMerkleLeafIndex {size : Nat} {root leafHash : Digest}
    {outcome : Outcome Int}
    (run : callGetMerkleLeafIndex flows.leafHash size root leafHash dc incoming = some outcome)
    (success : 0 ≤ outcome.result) :
    (leafHashes H (committed root (size % 2 ^ 32)))[outcome.result.toNat]? = some leafHash := by
  cases incoming with
  | nil => simp [callGetMerkleLeafIndex] at run
  | cons apdu pending =>
    simp only [callGetMerkleLeafIndex] at run
    split at run
    · cases run
      simp at success
    · split at run
      · cases run
        simp at success
      · rename_i found index readBuffer _
        split_ifs at run with wrongFlag notFound
        · cases run
          simp at success
        · cases run
          simp at success
        · split at run
          · cases run
          · rename_i returned dc pending leafRun
            split_ifs at run with failed different
            · cases run
              simp at success
            · cases run
              simp at success
            · rw [Option.some.injEq] at run
              subst run
              dsimp only at success ⊢
              have committedAt := sound.leafHash leafRun (not_lt.mp failed)
              rw [not_not.mp different, toNat_toInt success]
              exact committedAt

/-- A map that was received has one value for each key, and every lookup of the key that succeeds
returns it: the key stands at one index only, and the value is the one at this index. -/
theorem callGetMerkleizedMapValue_functional {callbackState : τ} {root : Digest}
    {size index : Nat} {callback : Option (ElementsCallback Flow τ)}
    {out : MerkleizedMapCommitment} {dc : DispatcherContext} {incoming : List Apdu}
    {map : Outcome (Int × MerkleizedMapCommitment × τ)}
    (passed : callGetMerkleizedMapWithCallback flows.element callbackState root size index
      callback out dc incoming = some map)
    (success : 0 ≤ map.result.1) (key : Bytes) :
    let map := map.result.2.1
    let keys := committed map.keysRoot (map.size % 2 ^ 32)
    let values := committed map.valuesRoot (map.size % 2 ^ 32)
    CollisionFreeOn H {bs | ∃ element, bs = 0x00 :: element ∧ (element = key ∨ element ∈ keys)} →
    (∀ out dc incoming outcome,
      flows.callGetMerkleizedMapValue H map key out dc incoming = some outcome →
      0 ≤ outcome.result.1 →
      ∃ index : Nat, (∀ other : Nat, keys[other]? = some key ↔ other = index) ∧
        values[index]? = some (outcome.result.2.take outcome.result.1.toNat)) ∧
    (∀ out out' dc dc' incoming incoming' outcome outcome',
      flows.callGetMerkleizedMapValue H map key out dc incoming = some outcome →
      flows.callGetMerkleizedMapValue H map key out' dc' incoming' = some outcome' →
      0 ≤ outcome.result.1 → 0 ≤ outcome'.result.1 →
      outcome.result.2.take outcome.result.1.toNat =
        outcome'.result.2.take outcome'.result.1.toNat) := by
  intro map keys values collisionFree
  have sorted : keys.Pairwise (· < ·) := sorted_keys_of_callGetMerkleizedMap sound passed success
  have lookup : ∀ out dc incoming outcome,
      flows.callGetMerkleizedMapValue H map key out dc incoming = some outcome →
      0 ≤ outcome.result.1 →
      ∃ index : Nat, (∀ other : Nat, keys[other]? = some key ↔ other = index) ∧
        values[index]? = some (outcome.result.2.take outcome.result.1.toNat) := by
    intro out dc incoming outcome run success
    rw [callGetMerkleizedMapValue] at run
    obtain ⟨found, indexRun, rest⟩ := Flow.bind_eq_some_iff.mp run
    split_ifs at rest with failed
    · cases Flow.pure_eq_some_iff.mp rest
      simp at success
    · have hashAt := leafHash_of_callGetMerkleLeafIndex sound indexRun (not_lt.mp failed)
      rw [Nat.mod_mod, leafHashes, getElem?_map, Option.map_eq_some_iff] at hashAt
      obtain ⟨element, elementAt, sameHash⟩ := hashAt
      have isKey : element = key := by
        have same := collisionFree ⟨element, rfl, .inr (mem_of_getElem? elementAt)⟩
          ⟨key, rfl, .inl rfl⟩ sameHash
        exact (List.cons.inj same).2
      subst isKey
      refine ⟨found.result.toNat, fun other => ⟨fun otherAt => ?_, fun same => same ▸ elementAt⟩,
        sound.leafElement rest success⟩
      have distinct : keys.Nodup := by
        refine sorted.imp ?_
        rintro left _ less rfl
        exact List.lt_irrefl left less
      exact (List.getElem?_inj (List.getElem?_eq_some_iff.mp otherAt).1 distinct).mp
        (otherAt.trans elementAt.symm)
  refine ⟨lookup, ?_⟩
  intro out out' dc dc' incoming incoming' outcome outcome' run run' success success'
  obtain ⟨index, only, value⟩ := lookup _ _ _ _ run success
  obtain ⟨index', only', value'⟩ := lookup _ _ _ _ run' success'
  obtain rfl : index = index' := (only' index).mp ((only index).mpr rfl)
  exact Option.some.inj (value.symm.trans value')

omit sound

/-! ## A map with two keys -/

/-- Flows that know the elements of all trees. -/
def ofTable (H : HashFunction) (table : Digest → Nat → List Bytes) : LeafFlows where
  leafHash root size index out :=
    match (table root size)[index]? with
    | none => pure (-1, out)
    | some element => pure (0, merkleComputeElementHash H element)
  leafElement root size index out :=
    match (table root size)[index]? with
    | none => pure (-1, out)
    | some element =>
      if element.length ≤ out.length then
        pure (element.length, element ++ out.drop element.length)
      else pure (-1, out)

theorem returnCommitted_ofTable {table : Digest → Nat → List Bytes}
    (lengths : ∀ root size, (table root size).length ≤ size) :
    (ofTable H table).ReturnCommitted H table where
  length_le := lengths
  leafHash {root size index out dc incoming outcome} run success := by
    simp only [ofTable] at run
    rw [leafHashes, getElem?_map]
    cases found : (table root size)[index]? with
    | none =>
      rw [found] at run
      cases Flow.pure_eq_some_iff.mp run
      simp at success
    | some element =>
      rw [found] at run
      cases Flow.pure_eq_some_iff.mp run
      rfl
  leafElement {root size index out dc incoming outcome} run success := by
    simp only [ofTable] at run
    cases found : (table root size)[index]? with
    | none =>
      rw [found] at run
      cases Flow.pure_eq_some_iff.mp run
      simp at success
    | some element =>
      simp only [found] at run
      split_ifs at run with fits
      · cases Flow.pure_eq_some_iff.mp run
        simp
      · cases Flow.pure_eq_some_iff.mp run
        simp at success

/-- The map with the keys `61` and `62` and the same values. -/
def sampleMap : MerkleizedMapCommitment := ⟨2, Digest.ofNat sampleRoot, Digest.ofNat sampleRoot⟩

/-- The tree of the keys, and a tree with the commitment of the map as its only element. -/
def sampleTrees (root : Digest) (size : Nat) : List Bytes :=
  if root = Digest.ofNat sampleRoot ∧ size = 2 then [[0x61], [0x62]]
  else if root = Digest.ofNat 0 ∧ size = 1 then
    [2 :: (beBytes 32 sampleRoot ++ beBytes 32 sampleRoot)]
  else []

theorem length_sampleTrees_le (root : Digest) (size : Nat) :
    (sampleTrees root size).length ≤ size := by
  rw [sampleTrees]
  split_ifs with keys map
  · simp [keys.2]
  · simp [map.2]
  · simp

/-- The map is received, and a client that knows where the key `62` is looks it up. -/
theorem callGetMerkleizedMapValue_functional_sample :
    let flows := ofTable sampleTreeHash sampleTrees
    ∃ map outcome,
      callGetMerkleizedMapWithCallback flows.element () (Digest.ofNat 0) 1 0 none sampleMap
        .initial [] = some map ∧
      map.result = (0, sampleMap, ()) ∧
      flows.callGetMerkleizedMapValue sampleTreeHash sampleMap [0x62] [0, 0] .initial
        [continueApdu 0 0 [1, 1]] = some outcome ∧
      outcome.result = (1, [0x62, 0]) ∧
      ∃ index : Nat, (∀ other : Nat, ([[0x61], [0x62]] : List Bytes)[other]? = some [0x62] ↔
          other = index) ∧
        ([[0x61], [0x62]] : List Bytes)[index]? = some [0x62] := by
  intro flows
  have sound : flows.ReturnCommitted sampleTreeHash sampleTrees :=
    returnCommitted_ofTable length_sampleTrees_le
  obtain ⟨map, passed, mapEq⟩ : ∃ map,
      callGetMerkleizedMapWithCallback flows.element () (Digest.ofNat 0) 1 0 none sampleMap
        .initial [] = some map ∧ map.result = (0, sampleMap, ()) :=
    Option.map_eq_some_iff.mp (by decide)
  obtain ⟨outcome, run, outcomeEq⟩ : ∃ outcome,
      flows.callGetMerkleizedMapValue sampleTreeHash sampleMap [0x62] [0, 0] .initial
        [continueApdu 0 0 [1, 1]] = some outcome ∧ outcome.result = (1, [0x62, 0]) :=
    Option.map_eq_some_iff.mp (by decide)
  refine ⟨map, outcome, passed, mapEq, run, outcomeEq, ?_⟩
  have functional := callGetMerkleizedMapValue_functional sound passed (by rw [mapEq]) [0x62]
  rw [mapEq] at functional
  have distinct :
      CollisionFreeOn sampleTreeHash {bs | bs ∈ ([[0, 0x61], [0, 0x62]] : List Bytes)} :=
    collisionFreeOn_of_nodup (by decide)
  have looked := (functional (distinct.mono ?_)).1 _ _ _ _ run (by rw [outcomeEq]; decide)
  · rw [outcomeEq] at looked
    exact looked
  · rintro bs ⟨element, rfl, rfl | member⟩
    · simp
    · have inKeys : element ∈ ([[0x61], [0x62]] : List Bytes) := member
      simpa using inKeys

end LeafFlows

end LedgerSyscoin.Handler
