import LedgerSyscoin.Client.JavaScript
import LedgerSyscoin.Client.Python
import LedgerSyscoin.Client.Rust

/-!
# Agreement of the clients

Interpreters that are prepared with the same preimages, lists and maps compute the same
roots and commitments and give the same answers, with two exceptions of the Rust client:
it panics on an empty list or map, and it fails where the others answer that a leaf is
not in a known tree. Python and JavaScript keep the last item for a hash and Rust the
first one, which are the same if no two of the strings hashed collide.
-/

namespace LedgerSyscoin.Client

open Foundation Common Handler List

/-! ## Dictionaries -/

section Dictionary

variable {α κ : Type} [DecidableEq κ] {key : α → κ} {items : List α}

/-- The dictionary after adding items in turn. -/
def dictionary (key : α → κ) (items : List α) : κ → Option α :=
  items.foldl (fun known item => Function.update known (key item) (some item)) fun _ => none

theorem dictionary_append_singleton (item : α) :
    dictionary key (items ++ [item]) =
      Function.update (dictionary key items) (key item) (some item) := by
  rw [dictionary, foldl_append]
  rfl

theorem dictionary_eq_some {wanted : κ} {item : α}
    (found : dictionary key items wanted = some item) : item ∈ items ∧ key item = wanted := by
  induction items using List.reverseRecOn with
  | nil => cases found
  | append_singleton items last ih =>
    rw [dictionary_append_singleton, Function.update_apply] at found
    split_ifs at found with same
    · cases found
      exact ⟨by simp, same.symm⟩
    · exact ⟨mem_append_left _ (ih found).1, (ih found).2⟩

theorem dictionary_eq_none {wanted : κ} (missing : dictionary key items wanted = none) :
    ∀ item ∈ items, key item ≠ wanted := by
  induction items using List.reverseRecOn with
  | nil => simp
  | append_singleton items last ih =>
    rw [dictionary_append_singleton, Function.update_apply] at missing
    split_ifs at missing with same
    intro item member
    rcases mem_append.mp member with earlier | final
    · exact ih missing item earlier
    · rw [mem_singleton.mp final]
      exact Ne.symm same

/-- Without collisions the last item with a key is the first one. -/
theorem dictionary_eq_find? (injective : Set.InjOn key {item | item ∈ items}) (wanted : κ) :
    dictionary key items wanted = items.find? fun item => key item = wanted := by
  cases found : dictionary key items wanted with
  | none =>
    symm
    rw [find?_eq_none]
    simpa using dictionary_eq_none found
  | some item =>
    obtain ⟨member, itemKey⟩ := dictionary_eq_some found
    cases first : items.find? fun item => key item = wanted with
    | none =>
      rw [find?_eq_none] at first
      exact absurd itemKey (by simpa using first item member)
    | some other =>
      have otherKey : key other = wanted := by simpa using find?_some first
      have otherMem := mem_of_find?_eq_some first
      rw [injective member otherMem (itemKey.trans otherKey.symm)]

end Dictionary

/-! ## Preparing an interpreter -/

/-- What is added to an interpreter. -/
inductive Addition where
  | preimage (element : Bytes)
  | list (elements : List Bytes)
  | mapping (map : Mapping)

namespace Addition

/-- The lists that are committed to. -/
def lists : Addition → List (List Bytes)
  | preimage _ => []
  | list elements => [elements]
  | mapping map => [map.sorted.map Prod.fst, map.sorted.map Prod.snd]

/-- The byte strings whose hashes are known. -/
def preimages : Addition → List Bytes
  | preimage element => [element]
  | list elements => elements.map (0x00 :: ·)
  | mapping map =>
    (map.sorted.map Prod.fst).map (0x00 :: ·) ++ (map.sorted.map Prod.snd).map (0x00 :: ·)

end Addition

section Prepare

variable (H : HashFunction)

def Python.add (client : Python.ClientCommandInterpreter) :
    Addition → Python.ClientCommandInterpreter
  | .preimage element => client.addKnownPreimage H element
  | .list elements => client.addKnownList H elements
  | .mapping map => client.addKnownMapping H map

def JavaScript.add (client : JavaScript.ClientCommandInterpreter) :
    Addition → Option JavaScript.ClientCommandInterpreter
  | .preimage element => some (client.addKnownPreimage H element)
  | .list elements => some (client.addKnownList H elements)
  | .mapping map => (JavaScript.createMerkleMap H map).map (client.addKnownMapping H)

def Rust.add (client : Rust.ClientCommandInterpreter) :
    Addition → Option Rust.ClientCommandInterpreter
  | .preimage element => some (client.addKnownPreimage H element)
  | .list elements => (client.addKnownList H elements).map Prod.snd
  | .mapping map => client.addKnownMapping H map

def Python.prepare (additions : List Addition) : Python.ClientCommandInterpreter :=
  additions.foldl (Python.add H) .new

def JavaScript.prepare (additions : List Addition) : Option JavaScript.ClientCommandInterpreter :=
  additions.foldlM (JavaScript.add H) .new

def Rust.prepare (additions : List Addition) : Option Rust.ClientCommandInterpreter :=
  additions.foldlM (Rust.add H) .new

end Prepare

/-! ## The dictionaries of Python and JavaScript -/

section Learned

variable {H : HashFunction} {Tree : Type} {build : List Digest → Tree}
  {known : Digest → Option Bytes} {trees : Digest → Option Tree} {preimages : List Bytes}
  {lists : List (List Bytes)}

/-- The dictionaries of a client after adding preimages and lists. -/
structure Learned (H : HashFunction) (build : List Digest → Tree) (known : Digest → Option Bytes)
    (trees : Digest → Option Tree) (preimages : List Bytes) (lists : List (List Bytes)) :
    Prop where
  preimages_eq : known = dictionary H preimages
  trees_eq : trees = fun root =>
    (dictionary (merkleTreeRoot H) lists root).map fun elements => build (leafHashes H elements)

theorem Learned.preimage (learned : Learned H build known trees preimages lists) (element : Bytes) :
    Learned H build (Function.update known (H element) (some element)) trees
      (preimages ++ [element]) lists where
  preimages_eq := by rw [dictionary_append_singleton, ← learned.preimages_eq]
  trees_eq := learned.trees_eq

theorem Learned.list (learned : Learned H build known trees preimages lists)
    (elements : List Bytes) :
    Learned H build
      (elements.foldl (fun known element =>
        Function.update known (H (0x00 :: element)) (some (0x00 :: element))) known)
      (Function.update trees (merkleTreeRoot H elements) (some (build (leafHashes H elements))))
      (preimages ++ elements.map (0x00 :: ·)) (lists ++ [elements]) where
  preimages_eq := by
    rw [dictionary, foldl_append, ← dictionary, ← learned.preimages_eq, foldl_map]
  trees_eq := by
    rw [learned.trees_eq]
    funext root
    rw [dictionary_append_singleton, Function.update_apply, Function.update_apply]
    split_ifs <;> rfl

end Learned

section Prepared

variable {H : HashFunction} {preimages : List Bytes} {lists : List (List Bytes)}
  {client : ClientCommandInterpreter}

theorem merkleTreeRoot_eq (elements : List Bytes) :
    merkleTreeRoot H elements =
      (leftComplete (Digest.ofNat 0) (elements.map (merkleComputeElementHash H))).root
        (merkleCombineHashes H) := rfl

/-- Additions that each make the client know more make it know everything that they add. -/
theorem exists_foldlM {Client : Type} {add : Client → Addition → Option Client}
    {Knows : Client → List Bytes → List (List Bytes) → Prop} {client : Client}
    (additions : List Addition)
    (step : ∀ addition ∈ additions, ∀ client preimages lists, Knows client preimages lists →
      ∃ next, add client addition = some next ∧
        Knows next (preimages ++ addition.preimages) (lists ++ addition.lists))
    (knows : Knows client preimages lists) :
    ∃ final, additions.foldlM add client = some final ∧
      Knows final (preimages ++ additions.flatMap Addition.preimages)
        (lists ++ additions.flatMap Addition.lists) := by
  induction additions generalizing client preimages lists with
  | nil => exact ⟨client, rfl, by simpa using knows⟩
  | cons addition additions ih =>
    rw [forall_mem_cons] at step
    obtain ⟨next, added, knowsNext⟩ := step.1 _ _ _ knows
    rw [flatMap_cons, flatMap_cons, ← append_assoc, ← append_assoc, foldlM_cons, added]
    exact ih step.2 knowsNext

namespace Python

/-- A client with empty queue that has learned the given data. -/
def Prepared (H : HashFunction) (client : ClientCommandInterpreter) (preimages : List Bytes)
    (lists : List (List Bytes)) : Prop :=
  Learned H (MerkleTree.new H) client.knownPreimages client.knownTrees preimages lists ∧
    client.queue = [] ∧ client.yielded = []

theorem Prepared.list (prepared : Prepared H client preimages lists) (elements : List Bytes) :
    Prepared H (client.addKnownList H elements) (preimages ++ elements.map (0x00 :: ·))
      (lists ++ [elements]) := by
  have learned := prepared.1.list elements
  rw [merkleTreeRoot_eq, ← root_new] at learned
  have folded := @foldl_hom _ _ _ (fun known => { client with knownPreimages := known }) _
    (fun client element => client.addKnownPreimage H (0x00 :: element)) elements
    client.knownPreimages fun _ _ => rfl
  rw [ClientCommandInterpreter.addKnownList, folded]
  exact ⟨learned, prepared.2⟩

theorem Prepared.add (prepared : Prepared H client preimages lists) (addition : Addition) :
    Prepared H (Python.add H client addition) (preimages ++ addition.preimages)
      (lists ++ addition.lists) := by
  cases addition with
  | preimage element =>
    rw [Addition.lists, append_nil]
    exact ⟨prepared.1.preimage element, prepared.2⟩
  | list elements => exact prepared.list elements
  | mapping map =>
    have both := (prepared.list (map.sorted.map Prod.fst)).list (map.sorted.map Prod.snd)
    rw [append_assoc, append_assoc] at both
    rw [Python.add, ClientCommandInterpreter.addKnownMapping, itemsSorted_eq]
    exact both

theorem prepared_prepare (additions : List Addition) :
    Prepared H (prepare H additions) (additions.flatMap Addition.preimages)
      (additions.flatMap Addition.lists) := by
  have start : Prepared H .new [] [] := ⟨⟨rfl, rfl⟩, rfl, rfl⟩
  obtain ⟨_, added, prepared⟩ := exists_foldlM additions
    (fun addition _ _ _ _ prepared => ⟨_, rfl, prepared.add addition⟩) start
  rw [prepare]
  rwa [← Option.some.inj ((foldlM_pure ..).symm.trans added)] at prepared

end Python

namespace JavaScript

/-- A client with empty queue that has learned the given data. -/
def Prepared (H : HashFunction) (client : ClientCommandInterpreter) (preimages : List Bytes)
    (lists : List (List Bytes)) : Prop :=
  Learned H (Merkle.new H) client.preimages client.roots preimages lists ∧
    client.queue = [] ∧ client.yielded = []

theorem Prepared.list (prepared : Prepared H client preimages lists) (elements : List Bytes) :
    Prepared H (client.addKnownList H elements) (preimages ++ elements.map (0x00 :: ·))
      (lists ++ [elements]) := by
  have learned := prepared.1.list elements
  rw [merkleTreeRoot_eq, ← getRoot_new] at learned
  have folded := @foldl_hom _ _ _ (fun known => { client with preimages := known }) _
    (fun client element => client.addKnownPreimage H (0x00 :: element)) elements
    client.preimages fun _ _ => rfl
  rw [ClientCommandInterpreter.addKnownList, folded]
  exact ⟨learned, prepared.2⟩

theorem Prepared.exists_add (prepared : Prepared H client preimages lists) (addition : Addition) :
    ∃ next, JavaScript.add H client addition = some next ∧
      Prepared H next (preimages ++ addition.preimages) (lists ++ addition.lists) := by
  cases addition with
  | preimage element =>
    rw [Addition.lists, append_nil]
    exact ⟨_, rfl, prepared.1.preimage element, prepared.2⟩
  | list elements => exact ⟨_, rfl, prepared.list elements⟩
  | mapping map =>
    have both := (prepared.list (map.sorted.map Prod.fst)).list (map.sorted.map Prod.snd)
    rw [append_assoc, append_assoc] at both
    rw [JavaScript.add, createMerkleMap_eq]
    exact ⟨_, rfl, both⟩

theorem exists_prepare (H : HashFunction) (additions : List Addition) :
    ∃ client, prepare H additions = some client ∧
      Prepared H client (additions.flatMap Addition.preimages)
        (additions.flatMap Addition.lists) := by
  have start : Prepared H .new [] [] := ⟨⟨rfl, rfl⟩, rfl, rfl⟩
  exact exists_foldlM _ (fun addition _ _ _ _ prepared => prepared.exists_add addition) start

end JavaScript

namespace Rust

/-- A client with empty queue that has learned the given data. -/
structure Prepared (H : HashFunction) (client : ClientCommandInterpreter) (preimages : List Bytes)
    (lists : List (List Bytes)) : Prop where
  preimages_eq : client.knownPreimages = preimages.map fun preimage => (H preimage, preimage)
  trees_eq : List.Forall₂ (fun elements tree =>
    MerkleTree.new H (leafHashes H elements) = some tree) lists client.trees
  queue_eq : client.queue = []
  yielded_eq : client.yielded = []

theorem foldl_addKnownPreimage (client : ClientCommandInterpreter) (elements : List Bytes)
    (leaves : List Digest) :
    elements.foldl (fun (client, leaves) element =>
        (ClientCommandInterpreter.addKnownPreimage H client (0x00 :: element),
          leaves ++ [H (0x00 :: element)])) (client, leaves) =
      ({ client with
          knownPreimages := client.knownPreimages ++
            (elements.map (0x00 :: ·)).map fun preimage => (H preimage, preimage) },
        leaves ++ leafHashes H elements) := by
  induction elements generalizing client leaves with
  | nil => simp [leafHashes]
  | cons element elements ih =>
    rw [foldl_cons, ih]
    simp [ClientCommandInterpreter.addKnownPreimage, leafHashes, merkleComputeElementHash]

theorem addKnownList_eq (client : ClientCommandInterpreter) (elements : List Bytes) :
    client.addKnownList H elements =
      (MerkleTree.new H (leafHashes H elements)).map fun tree => (tree.rootHash,
        { client with
          knownPreimages := client.knownPreimages ++
            (elements.map (0x00 :: ·)).map fun preimage => (H preimage, preimage)
          trees := client.trees ++ [tree] }) := by
  have folded := foldl_addKnownPreimage (H := H) client elements []
  rw [ClientCommandInterpreter.addKnownList, folded]
  rfl

theorem Prepared.exists_list (prepared : Prepared H client preimages lists) {elements : List Bytes}
    (nonempty : elements ≠ []) : ∃ root next, client.addKnownList H elements = some (root, next) ∧
      Prepared H next (preimages ++ elements.map (0x00 :: ·)) (lists ++ [elements]) := by
  obtain ⟨_, built, -⟩ := exists_merkleTree_new (H := H)
    (show leafHashes H elements ≠ [] by simpa [leafHashes] using nonempty)
  rw [addKnownList_eq, built]
  refine ⟨_, _, rfl, ?_, ?_, prepared.queue_eq, prepared.yielded_eq⟩
  · rw [map_append, prepared.preimages_eq]
  · exact rel_append prepared.trees_eq (.cons built .nil)

theorem Prepared.exists_add (prepared : Prepared H client preimages lists) {addition : Addition}
    (nonempty : ∀ elements ∈ addition.lists, elements ≠ []) :
    ∃ next, Rust.add H client addition = some next ∧
      Prepared H next (preimages ++ addition.preimages) (lists ++ addition.lists) := by
  cases addition with
  | preimage element =>
    rw [Addition.lists, append_nil]
    refine ⟨_, rfl, ?_, prepared.trees_eq, prepared.queue_eq, prepared.yielded_eq⟩
    rw [map_append, ← prepared.preimages_eq]
    rfl
  | list elements =>
    obtain ⟨_, next, added, preparedNext⟩ :=
      prepared.exists_list (nonempty elements mem_cons_self)
    exact ⟨next, by rw [Rust.add, added]; rfl, preparedNext⟩
  | mapping map =>
    obtain ⟨_, _, addedKeys, preparedKeys⟩ :=
      prepared.exists_list (nonempty (map.sorted.map Prod.fst) mem_cons_self)
    obtain ⟨_, next, addedValues, preparedValues⟩ :=
      preparedKeys.exists_list (nonempty (map.sorted.map Prod.snd) (by simp [Addition.lists]))
    rw [append_assoc, append_assoc] at preparedValues
    refine ⟨next, ?_, preparedValues⟩
    rw [Rust.add, ClientCommandInterpreter.addKnownMapping]
    change (client.addKnownList H (map.sorted.map Prod.fst)).bind (fun added =>
      (added.2.addKnownList H (map.sorted.map Prod.snd)).bind fun added => some added.2) = _
    rw [addedKeys, Option.bind_some, addedValues, Option.bind_some]

variable {additions : List Addition}

theorem exists_prepare (H : HashFunction)
    (nonempty : ∀ elements ∈ additions.flatMap Addition.lists, elements ≠ []) :
    ∃ client, prepare H additions = some client ∧
      Prepared H client (additions.flatMap Addition.preimages)
        (additions.flatMap Addition.lists) := by
  have start : Prepared H .new [] [] := ⟨rfl, .nil, rfl, rfl⟩
  exact exists_foldlM _ (fun addition member _ _ _ prepared => prepared.exists_add
    fun elements listed => nonempty _ (mem_flatMap.mpr ⟨addition, member, listed⟩)) start

/-- There is no client that knows an empty list. -/
theorem nonempty_of_add {next : ClientCommandInterpreter} {addition : Addition}
    (added : Rust.add H client addition = some next) :
    ∀ elements ∈ addition.lists, elements ≠ [] := by
  have nonempty {client : ClientCommandInterpreter} {elements : List Bytes}
      {result : Digest × ClientCommandInterpreter}
      (added : client.addKnownList H elements = some result) : elements ≠ [] := by
    rintro rfl
    have noTree : MerkleTree.new H (leafHashes H []) = none := merkleTree_new_nil
    rw [addKnownList_eq, noTree] at added
    cases added
  cases addition with
  | preimage element => simp [Addition.lists]
  | list elements =>
    obtain ⟨result, addedList, -⟩ := Option.map_eq_some_iff.mp added
    simpa [Addition.lists] using nonempty addedList
  | mapping map =>
    change (client.addKnownList H (map.sorted.map Prod.fst)).bind (fun added =>
      (added.2.addKnownList H (map.sorted.map Prod.snd)).bind fun added => some added.2) = _
      at added
    obtain ⟨_, addedKeys, rest⟩ := Option.bind_eq_some_iff.mp added
    obtain ⟨_, addedValues, -⟩ := Option.bind_eq_some_iff.mp rest
    rw [Addition.lists, forall_mem_cons, forall_mem_singleton]
    exact ⟨nonempty addedKeys, nonempty addedValues⟩

theorem nonempty_of_foldlM {final : ClientCommandInterpreter}
    (prepared : additions.foldlM (Rust.add H) client = some final) :
    ∀ elements ∈ additions.flatMap Addition.lists, elements ≠ [] := by
  induction additions generalizing client with
  | nil => simp
  | cons addition additions ih =>
    rw [foldlM_cons] at prepared
    obtain ⟨_, added, rest⟩ := Option.bind_eq_some_iff.mp prepared
    rw [flatMap_cons, forall_mem_append]
    exact ⟨nonempty_of_add added, ih rest⟩

end Rust

end Prepared

/-! ## What the prepared clients know -/

variable {client : Python.ClientCommandInterpreter}

section Refinement

variable {H : HashFunction} {preimages : List Bytes} {lists : List (List Bytes)}

/-- The abstract client that has learned the given data. -/
def learned (H : HashFunction) (preimages : List Bytes) (lists : List (List Bytes)) :
    Reference where
  known :=
    { preimage := dictionary H preimages
      leaves := fun root => (dictionary (merkleTreeRoot H) lists root).map (leafHashes H) }
  queue := []
  yielded := []

theorem sized_learned (shortPreimages : ∀ preimage ∈ preimages, preimage.length < 2 ^ 53)
    (shortLists : ∀ elements ∈ lists, elements.length ≤ 2 ^ 31) :
    (learned H preimages lists).Sized where
  preimage hash preimage found := shortPreimages preimage (dictionary_eq_some found).1
  leaves root leaves found := by
    obtain ⟨elements, listed, rfl⟩ := Option.map_eq_some_iff.mp found
    rw [leafHashes, length_map]
    exact shortLists elements (dictionary_eq_some listed).1
  queue element member := absurd member not_mem_nil

theorem Learned.has {Tree : Type} {build : List Digest → Tree} {known : Digest → Option Bytes}
    {trees : Digest → Option Tree} {queue yielded : List Bytes}
    (prepared : Learned H build known trees preimages lists ∧ queue = [] ∧ yielded = []) :
    (learned H preimages lists).Has build known trees queue yielded where
  preimages hash := congrFun prepared.1.preimages_eq hash
  trees root := by
    rw [prepared.1.trees_eq, learned, Option.map_map]
    rfl
  queue := prepared.2.1
  yielded := prepared.2.2

/-- The first tree with a root is that of the first list with that root. -/
theorem Rust.find?_tree {trees : List Rust.MerkleTree} (built : List.Forall₂ (fun elements tree =>
      Rust.MerkleTree.new H (leafHashes H elements) = some tree) lists trees) (root : Digest) :
    ((lists.find? fun elements => merkleTreeRoot H elements = root).map (leafHashes H)).bind
        (Rust.MerkleTree.new H) =
      trees.find? fun tree => tree.rootHash = root := by
  induction built with
  | nil => rfl
  | @cons elements tree lists trees first later ih =>
    have nonempty : leafHashes H elements ≠ [] := by
      intro empty
      rw [empty, merkleTree_new_nil] at first
      cases first
    obtain ⟨tree', first', -, rootEq, -⟩ := exists_merkleTree_new (H := H) nonempty
    obtain rfl : tree' = tree := Option.some.inj (first'.symm.trans first)
    have sameRoot : tree'.rootHash = merkleTreeRoot H elements := rootEq
    rw [find?_cons, find?_cons, sameRoot]
    by_cases found : merkleTreeRoot H elements = root
    · simpa [found] using first
    · simpa [found] using ih

theorem Rust.Prepared.refines {client : Rust.ClientCommandInterpreter}
    (prepared : Rust.Prepared H client preimages lists)
    (hashes : Set.InjOn H {preimage | preimage ∈ preimages})
    (roots : Set.InjOn (merkleTreeRoot H) {elements | elements ∈ lists})
    (nonempty : ∀ elements ∈ lists, elements ≠ []) :
    Rust.Refines H (learned H preimages lists) client where
  preimages hash := by
    change _ = dictionary H preimages hash
    rw [prepared.preimages_eq, dictionary_eq_find? hashes, find?_map, Option.map_map]
    exact Option.map_id'
  trees root := by
    change ((dictionary (merkleTreeRoot H) lists root).map (leafHashes H)).bind _ = _
    rw [dictionary_eq_find? roots]
    exact find?_tree prepared.trees_eq root
  built root leaves found := by
    obtain ⟨elements, listed, rfl⟩ := Option.map_eq_some_iff.mp found
    simpa [leafHashes] using nonempty elements (dictionary_eq_some listed).1
  queue := prepared.queue_eq
  yielded := prepared.yielded_eq

end Refinement

/-! ## Equal answers -/

section Agreement

variable {H : HashFunction} {reference : Reference} (lib : Rust.Consensus) (sized : reference.Sized)
  (commands : List ClientCommand)

include sized

theorem Python.answers_eq (refines : Python.Refines H reference client) :
    Responder.answers Python.respond client (commands.map ClientCommand.request) =
      Responder.answers (Reference.answer H (some [0, 0])) reference commands :=
  sized.answers_eq (fun _ _ _ sized refines => Python.agree_answer sized refines _) refines commands

theorem JavaScript.answers_eq {client : JavaScript.ClientCommandInterpreter}
    (refines : JavaScript.Refines H reference client) :
    Responder.answers JavaScript.respond client (commands.map ClientCommand.request) =
      Responder.answers (Reference.answer H (some [0, 0])) reference commands :=
  sized.answers_eq (fun _ _ _ sized refines => JavaScript.agree_answer sized refines _) refines
    commands

theorem Rust.answers_eq {client : Rust.ClientCommandInterpreter}
    (refines : Rust.Refines H reference client) :
    Responder.answers (Rust.respond lib) client (commands.map ClientCommand.request) =
      Responder.answers (Reference.answer H none) reference commands :=
  sized.answers_eq (fun _ _ _ sized refines => Rust.agree_answer lib sized refines _) refines
    commands

end Agreement

/-- The clients that are prepared with the same data compute the same roots and commitments and
give the same answers. -/
def Agreement (lib : Rust.Consensus) (H : HashFunction) (additions : List Addition)
    (commands : List ClientCommand) : Prop :=
  ∃ javaScript rust,
    JavaScript.prepare H additions = some javaScript ∧ Rust.prepare H additions = some rust ∧
    (∀ elements ∈ additions.flatMap Addition.lists,
      let root := (Python.MerkleTree.new H (leafHashes H elements)).root
      (JavaScript.Merkle.new H (leafHashes H elements)).getRoot = root ∧
      (Rust.MerkleTree.new H (leafHashes H elements)).map Rust.MerkleTree.rootHash = some root) ∧
    (∀ map, Addition.mapping map ∈ additions → ∃ commitment,
      (Python.getMerkleizedMapCommitment H map).toOption = some commitment ∧
      (JavaScript.createMerkleMap H map).bind JavaScript.MerkleMap.commitment = some commitment ∧
      Rust.getMerkleizedMapCommitment H map = some commitment) ∧
    Responder.answers JavaScript.respond javaScript (commands.map ClientCommand.request) =
      Responder.answers Python.respond (Python.prepare H additions)
        (commands.map ClientCommand.request) ∧
    Responder.answers (Rust.respond lib) rust (commands.map ClientCommand.request) =
      Responder.answers Python.respond (Python.prepare H additions)
        (commands.map ClientCommand.request)

section Main

variable {H : HashFunction} {additions : List Addition} {commands : List ClientCommand}

theorem roots_agree {elements : List Bytes} (nonempty : elements ≠ []) :
    let root := (Python.MerkleTree.new H (leafHashes H elements)).root
    (JavaScript.Merkle.new H (leafHashes H elements)).getRoot = root ∧
      (Rust.MerkleTree.new H (leafHashes H elements)).map Rust.MerkleTree.rootHash = some root := by
  obtain ⟨_, built, -, rootEq, -⟩ := Rust.exists_merkleTree_new (H := H)
    (show leafHashes H elements ≠ [] by simpa [leafHashes] using nonempty)
  rw [Python.root_new, JavaScript.getRoot_new, built, Option.map_some, rootEq]
  exact ⟨rfl, rfl⟩

theorem commitments_agree {map : Mapping} (small : map.entries.length ≤ 2 ^ 31)
    (nonempty : map.entries ≠ []) :
    ∃ commitment, (Python.getMerkleizedMapCommitment H map).toOption = some commitment ∧
      (JavaScript.createMerkleMap H map).bind JavaScript.MerkleMap.commitment = some commitment ∧
      Rust.getMerkleizedMapCommitment H map = some commitment := by
  have sortedNonempty : map.sorted ≠ [] :=
    ne_nil_of_length_pos ((length_sorted map).symm ▸ length_pos_iff.mpr nonempty)
  have hashes (part : Bytes × Bytes → Bytes) :
      map.sorted.map (fun entry => H (0x00 :: part entry)) =
        leafHashes H (map.sorted.map part) := by
    rw [leafHashes, map_map]
    rfl
  have leavesNonempty (part : Bytes × Bytes → Bytes) : leafHashes H (map.sorted.map part) ≠ [] := by
    simpa [leafHashes] using sortedNonempty
  obtain ⟨keysTree, keysBuilt, -, keysRoot, -⟩ :=
    Rust.exists_merkleTree_new (H := H) (leavesNonempty Prod.fst)
  obtain ⟨valuesTree, valuesBuilt, -, valuesRoot, -⟩ :=
    Rust.exists_merkleTree_new (H := H) (leavesNonempty Prod.snd)
  refine ⟨varintWrite map.entries.length ++ keysTree.rootHash.val ++ valuesTree.rootHash.val,
    ?_, ?_, ?_⟩
  · rw [Python.getMerkleizedMapCommitment, Python.itemsSorted_eq, Python.writeVarint,
      if_pos (by omega)]
    simp only [merkleComputeElementHash, hashes Prod.fst, hashes Prod.snd, Python.root_new,
      ← keysRoot, ← valuesRoot, ok_bind]
    rfl
  · have safe : map.entries.length ≤ JavaScript.maxSafeInteger := by
      rw [JavaScript.maxSafeInteger]
      omega
    rw [JavaScript.createMerkleMap_eq, Option.bind_some, JavaScript.MerkleMap.commitment,
      JavaScript.getRoot_new, JavaScript.getRoot_new, length_map, length_sorted,
      JavaScript.createVarint_eq safe, keysRoot, valuesRoot]
    rfl
  · change (Rust.MerkleTree.new H (map.sorted.map fun entry => H (0x00 :: entry.1))).bind
      (fun keysTree =>
        (Rust.MerkleTree.new H (map.sorted.map fun entry => H (0x00 :: entry.2))).bind
        fun valuesTree => some (varintWrite map.sorted.length ++ keysTree.rootHash.val ++
          valuesTree.rootHash.val)) = _
    rw [hashes Prod.fst, hashes Prod.snd, keysBuilt, Option.bind_some, valuesBuilt,
      Option.bind_some, length_sorted]

theorem injOn_merkleTreeRoot {lists : List (List Bytes)} {hashed : Set Bytes}
    (collisionFree : CollisionFreeOn H hashed)
    (covered : ∀ elements ∈ lists, treeStrings H elements ⊆ hashed)
    (nonempty : ∀ elements ∈ lists, elements ≠ []) :
    Set.InjOn (merkleTreeRoot H) {elements | elements ∈ lists} :=
  fun first firstMem second secondMem same =>
    merkleTreeRoot_inj collisionFree (nonempty first firstMem) (nonempty second secondMem)
      (covered first firstMem) (covered second secondMem) same

/-- A client that has learned some lists is asked about their leaves only. -/
theorem present_learned_iff {preimages : List Bytes} {lists : List (List Bytes)}
    (roots : Set.InjOn (merkleTreeRoot H) {elements | elements ∈ lists}) :
    (∀ command ∈ commands, Reference.Present (learned H preimages lists).known command) ↔
      ∀ root leafHash, .getMerkleLeafIndex root leafHash ∈ commands →
        ∀ elements ∈ lists, merkleTreeRoot H elements = root →
          leafHash ∈ leafHashes H elements := by
  constructor
  · intro present root leafHash asked elements member rootEq
    have found : dictionary (merkleTreeRoot H) lists root = some elements := by
      cases found : dictionary (merkleTreeRoot H) lists root with
      | none => exact absurd rootEq (dictionary_eq_none found elements member)
      | some other =>
        obtain ⟨otherMem, otherRoot⟩ := dictionary_eq_some found
        rw [roots otherMem member (otherRoot.trans rootEq.symm)]
    exact present _ asked _ (congrArg (Option.map (leafHashes H)) found)
  · intro asked command member
    cases command with
    | getMerkleLeafIndex root leafHash =>
      intro leaves found
      obtain ⟨elements, listed, rfl⟩ := Option.map_eq_some_iff.mp found
      obtain ⟨listMem, rootEq⟩ := dictionary_eq_some listed
      exact asked root leafHash member elements listMem rootEq
    | «yield» | getPreimage | getMerkleLeafProof | getMoreElements => trivial

/-- For all data without collisions and all commands, the three clients agree exactly when no
list and no map that they know is empty and every request for the index of a leaf of a known
tree is about a leaf of that tree. -/
theorem agreement_iff (lib : Rust.Consensus) (H : HashFunction) (additions : List Addition)
    (commands : List ClientCommand)
    (shortPreimages : ∀ preimage ∈ additions.flatMap Addition.preimages, preimage.length < 2 ^ 53)
    (shortLists : ∀ elements ∈ additions.flatMap Addition.lists, elements.length ≤ 2 ^ 31)
    (collisionFree : CollisionFreeOn H {bs | bs ∈ additions.flatMap Addition.preimages ∨
      ∃ elements ∈ additions.flatMap Addition.lists, bs ∈ treeStrings H elements}) :
    Agreement lib H additions commands ↔
      (∀ elements ∈ additions.flatMap Addition.lists, elements ≠ []) ∧
      ∀ root leafHash, .getMerkleLeafIndex root leafHash ∈ commands →
        ∀ elements ∈ additions.flatMap Addition.lists, merkleTreeRoot H elements = root →
          leafHash ∈ leafHashes H elements := by
  set preimages := additions.flatMap Addition.preimages
  set lists := additions.flatMap Addition.lists
  have sized : (learned H preimages lists).Sized := sized_learned shortPreimages shortLists
  obtain ⟨javaScript, javaScriptEq, javaScriptPrepared⟩ := JavaScript.exists_prepare H additions
  have hashes : Set.InjOn H {preimage | preimage ∈ preimages} :=
    collisionFree.mono fun preimage member => Or.inl member
  have pythonAnswers :=
    Python.answers_eq sized commands (Learned.has (Python.prepared_prepare additions))
  -- the Rust client answers like the abstract client that refuses absent leaves
  have rustAgrees (nonempty : ∀ elements ∈ lists, elements ≠ [])
      {rust : Rust.ClientCommandInterpreter} (rustEq : Rust.prepare H additions = some rust) :
      Responder.answers (Rust.respond lib) rust (commands.map ClientCommand.request) =
        Responder.answers Python.respond (Python.prepare H additions)
          (commands.map ClientCommand.request) ↔
      ∀ root leafHash, .getMerkleLeafIndex root leafHash ∈ commands →
        ∀ elements ∈ lists, merkleTreeRoot H elements = root →
          leafHash ∈ leafHashes H elements := by
    have roots : Set.InjOn (merkleTreeRoot H) {elements | elements ∈ lists} :=
      injOn_merkleTreeRoot collisionFree
        (fun elements member bs hashed => Or.inr ⟨elements, member, hashed⟩) nonempty
    obtain ⟨client, clientEq, prepared⟩ := Rust.exists_prepare H nonempty
    obtain rfl : client = rust := Option.some.inj (clientEq.symm.trans rustEq)
    rw [Rust.answers_eq lib sized commands (prepared.refines hashes roots nonempty), pythonAnswers,
      eq_comm, Reference.answers_eq_iff_present, present_learned_iff roots]
  constructor
  · rintro ⟨_, rust, -, rustEq, -, -, -, rustAnswers⟩
    have nonempty : ∀ elements ∈ lists, elements ≠ [] := Rust.nonempty_of_foldlM rustEq
    exact ⟨nonempty, (rustAgrees nonempty rustEq).mp rustAnswers⟩
  · rintro ⟨nonempty, asked⟩
    obtain ⟨rust, rustEq, -⟩ := Rust.exists_prepare H nonempty
    refine ⟨javaScript, rust, javaScriptEq, rustEq, fun elements member =>
      roots_agree (nonempty elements member), fun map member => ?_, ?_,
      (rustAgrees nonempty rustEq).mpr asked⟩
    · have keysListed : map.sorted.map Prod.fst ∈ lists :=
        mem_flatMap.mpr ⟨_, member, mem_cons_self⟩
      refine commitments_agree ?_ fun empty => nonempty _ keysListed ?_
      · simpa using shortLists _ keysListed
      · simp [Mapping.sorted, empty]
    · rw [JavaScript.answers_eq sized commands (Learned.has javaScriptPrepared), pythonAnswers]

end Main

/-! ## A list of two elements -/

/-- The list of the elements `61` and `62`. -/
def sampleAdditions : List Addition := [.list [[0x61], [0x62]]]

theorem collisionFreeOn_sampleAdditions :
    CollisionFreeOn sampleTreeHash {bs | bs ∈ sampleAdditions.flatMap Addition.preimages ∨
      ∃ elements ∈ sampleAdditions.flatMap Addition.lists,
        bs ∈ treeStrings sampleTreeHash elements} := by
  apply collisionFreeOn_sample.mono
  rintro bs (isPreimage | ⟨elements, member, hashed⟩)
  · simp only [sampleAdditions, flatMap_cons, flatMap_nil, Addition.preimages,
      append_nil, mem_map] at isPreimage
    obtain ⟨element, member, rfl⟩ := isPreimage
    exact Or.inl ⟨element, member, rfl⟩
  · simp only [sampleAdditions, flatMap_cons, flatMap_nil, Addition.lists,
      append_nil, mem_singleton] at member
    exact member ▸ hashed

/-- All clients find the second leaf. -/
theorem agreement_iff_sample :
    Agreement .shortest sampleTreeHash sampleAdditions
      [.getMerkleLeafIndex (merkleTreeRoot sampleTreeHash [[0x61], [0x62]])
        (Digest.ofNat sampleLeaf1)] := by
  refine (agreement_iff .shortest sampleTreeHash sampleAdditions _ (by decide) (by decide)
    collisionFreeOn_sampleAdditions).mpr ⟨by decide, ?_⟩
  intro root leafHash asked elements member _
  simp only [sampleAdditions, flatMap_cons, flatMap_nil, Addition.lists,
    append_nil, mem_singleton] at member
  simp only [mem_singleton, ClientCommand.getMerkleLeafIndex.injEq] at asked
  rw [asked.2, member]
  decide

/-- The Rust client panics on an empty list, and it fails where the Python client answers that a
leaf is not in the tree. -/
theorem rust_disagrees : (Rust.prepare sampleTreeHash [.list []]).isNone = true ∧
    Responder.answers Python.respond (Python.prepare sampleTreeHash [.list []])
      [(ClientCommand.getMerkleLeafIndex (Digest.ofNat 0) (Digest.ofNat 0)).request] =
        [some [0, 0]] ∧
    let request := (ClientCommand.getMerkleLeafIndex
      (merkleTreeRoot sampleTreeHash [[0x61], [0x62]]) (Digest.ofNat 0)).request
    Responder.answers Python.respond (Python.prepare sampleTreeHash sampleAdditions) [request] =
      [some [0, 0]] ∧
    ∃ rust, Rust.prepare sampleTreeHash sampleAdditions = some rust ∧
      Responder.answers (Rust.respond .shortest) rust [request] = [none] := by
  let command := ClientCommand.getMerkleLeafIndex
    (merkleTreeRoot sampleTreeHash [[0x61], [0x62]]) (Digest.ofNat 0)
  let preimages := sampleAdditions.flatMap Addition.preimages
  let lists := sampleAdditions.flatMap Addition.lists
  have nonempty : ∀ elements ∈ lists, elements ≠ [] := by decide
  have sized : (learned sampleTreeHash preimages lists).Sized :=
    sized_learned (by decide) (by decide)
  have missing : ¬ Reference.Present (learned sampleTreeHash preimages lists).known command := by
    intro present
    have listed : dictionary (merkleTreeRoot sampleTreeHash) lists
        (merkleTreeRoot sampleTreeHash [[0x61], [0x62]]) = some [[0x61], [0x62]] := by
      simp [lists, sampleAdditions, Addition.lists, dictionary]
    have member := present _ (congrArg (Option.map (leafHashes sampleTreeHash)) listed)
    exact absurd member (by decide)
  have answered (absent : Option Bytes) :
      Responder.answers (Reference.answer sampleTreeHash absent)
        (learned sampleTreeHash preimages lists) [command] = [absent] := by
    rw [Responder.answers, Reference.answer_of_not_present missing]
    cases absent <;> rfl
  obtain ⟨rust, rustEq, prepared⟩ := Rust.exists_prepare sampleTreeHash nonempty
  have refines := prepared.refines
    (collisionFreeOn_sampleAdditions.mono fun preimage member => Or.inl member)
    (injOn_merkleTreeRoot collisionFreeOn_sampleAdditions
      (fun elements member bs hashed => Or.inr ⟨elements, member, hashed⟩) nonempty) nonempty
  refine ⟨?_, by decide, ?_, rust, rustEq, ?_⟩
  · cases panics : Rust.prepare sampleTreeHash [.list []] with
    | none => rfl
    | some client =>
      exact absurd rfl (Rust.nonempty_of_foldlM panics [] mem_cons_self)
  · exact (Python.answers_eq sized [command]
      (Learned.has (Python.prepared_prepare sampleAdditions))).trans (answered _)
  · exact (Rust.answers_eq .shortest sized [command] refines).trans (answered _)

end LedgerSyscoin.Client
