import LedgerSyscoin.Common.Wallet

/-!
# Key placeholders of a policy

Access to the key placeholders of a policy by their index in the template. The
functions of the source return the total number of placeholders, and write the
placeholder with the given index and the leaf script it belongs to into output
variables; the model returns what is written, if anything is.
-/

namespace LedgerSyscoin.Handler

open Common List

/-- The number of placeholders, and what was written: the placeholder, and the leaf of the
script tree that contains it, if it is inside one. -/
structure PlaceholderSearch where
  count : Nat
  written : Option (KeyPlaceholder × Option PolicyNode)

namespace PlaceholderSearch

/-- The search of two parts one after the other. The second part is searched with the
remaining index, and with no outputs if the placeholder was found in the first part. -/
def andThen (i : Nat) (first : PlaceholderSearch) (second : Nat → PlaceholderSearch) :
    PlaceholderSearch :=
  if i < first.count then ⟨first.count + (second 0).count, first.written⟩
  else
    let rest := second (i - first.count)
    ⟨first.count + rest.count, rest.written⟩

end PlaceholderSearch

mutual

/-- Search for the placeholder with index `i` in a policy. -/
def getKeyPlaceholderByIndex : PolicyNode → Nat → PlaceholderSearch
  | .constant _, _ => ⟨0, none⟩
  | .withUint32 _ _, _ => ⟨0, none⟩
  | .withHash256 _ _, _ => ⟨0, none⟩
  | .withHash160 _ _, _ => ⟨0, none⟩
  | .withKey _ key, i => ⟨1, if i = 0 then some (key, none) else none⟩
  | .tr key none, i => ⟨1, if i = 0 then some (key, none) else none⟩
  | .tr key (some tree), i =>
    PlaceholderSearch.andThen i ⟨1, if i = 0 then some (key, none) else none⟩
      (getKeyPlaceholderByIndexInTree tree)
  | .multisig _ _ keyPlaceholders, i =>
    ⟨keyPlaceholders.length, keyPlaceholders[i]?.map (·, none)⟩
  | .sh script, i => getKeyPlaceholderByIndex script i
  | .wsh script, i => getKeyPlaceholderByIndex script i
  | .wrapper _ script, i => getKeyPlaceholderByIndex script i
  | .withScript2 _ first second, i =>
    PlaceholderSearch.andThen i (getKeyPlaceholderByIndex first i)
      (getKeyPlaceholderByIndex second)
  | .andor first second third, i =>
    PlaceholderSearch.andThen i
      (PlaceholderSearch.andThen i (getKeyPlaceholderByIndex first i)
        (getKeyPlaceholderByIndex second))
      (getKeyPlaceholderByIndex third)
  | .thresh _ scriptlist, i => getKeyPlaceholderByIndexInList scriptlist i

/-- The loop over the children of a threshold. -/
def getKeyPlaceholderByIndexInList : List PolicyNode → Nat → PlaceholderSearch
  | [], _ => ⟨0, none⟩
  | script :: rest, i =>
    PlaceholderSearch.andThen i (getKeyPlaceholderByIndex script i)
      (getKeyPlaceholderByIndexInList rest)

/-- Search in a script tree. A placeholder inside a leaf comes with the leaf. -/
def getKeyPlaceholderByIndexInTree : PolicyTree → Nat → PlaceholderSearch
  | .leaf script, i =>
    let search := getKeyPlaceholderByIndex script i
    ⟨search.count, search.written.map fun (key, _) => (key, some script)⟩
  | .branch left right, i =>
    PlaceholderSearch.andThen i (getKeyPlaceholderByIndexInTree left i)
      (getKeyPlaceholderByIndexInTree right)

end

/-- The loop of `countDistinctKeysInfo`: one more than the largest key index among the
placeholders from `cur` on. -/
def maxKeyIndexFrom (policy : PolicyNode) : Nat → Nat → Int → Int
  | 0, _, ret => ret
  | fuel + 1, cur, ret =>
    match (getKeyPlaceholderByIndex policy cur).written with
    | some (key, _) => maxKeyIndexFrom policy fuel (cur + 1) (max ret (key.keyIndex + 1))
    | none => ret

/-- The number of keys that the placeholders of a policy refer to: one more than the
largest key index, and `-1` without placeholders. -/
def countDistinctKeysInfo (policy : PolicyNode) : Int :=
  maxKeyIndexFrom policy (getKeyPlaceholderByIndex policy 0).count 0 (-1)

/-! ## Placeholders in the order of the template -/

/-- The placeholders of a script tree with the leaf that contains each of them. -/
def leafPlaceholders (tree : PolicyTree) : List (KeyPlaceholder × Option PolicyNode) :=
  tree.leaves.flatMap fun leaf => (templateKeys leaf).map (·, some leaf)

mutual

/-- The placeholders of a policy from left to right, with the leaf of the script tree that contains
each of them, if it is inside one. -/
def templatePlaceholders : PolicyNode → List (KeyPlaceholder × Option PolicyNode)
  | .withKey _ key => [(key, none)]
  | .multisig _ _ keyPlaceholders => keyPlaceholders.map (·, none)
  | .wrapper _ script => templatePlaceholders script
  | .withScript2 _ first second => templatePlaceholders first ++ templatePlaceholders second
  | .andor first second third =>
    templatePlaceholders first ++ templatePlaceholders second ++ templatePlaceholders third
  | .thresh _ scriptlist => templatePlaceholdersOfList scriptlist
  | .sh script => templatePlaceholders script
  | .wsh script => templatePlaceholders script
  | .tr key none => [(key, none)]
  | .tr key (some tree) => (key, none) :: leafPlaceholders tree
  | .constant _ | .withUint32 _ _ | .withHash256 _ _ | .withHash160 _ _ => []

def templatePlaceholdersOfList : List PolicyNode → List (KeyPlaceholder × Option PolicyNode)
  | [] => []
  | script :: rest => templatePlaceholders script ++ templatePlaceholdersOfList rest

end

theorem map_fst_leafPlaceholders : (tree : PolicyTree) →
    (leafPlaceholders tree).map Prod.fst = templateKeysOfTree tree
  | .leaf script => by
    rw [leafPlaceholders, PolicyTree.leaves, flatMap_singleton, map_map, templateKeysOfTree]
    exact map_id _
  | .branch left right => by
    have leftKeys := map_fst_leafPlaceholders left
    have rightKeys := map_fst_leafPlaceholders right
    rw [leafPlaceholders] at leftKeys rightKeys ⊢
    rw [PolicyTree.leaves, flatMap_append, map_append, leftKeys, rightKeys, templateKeysOfTree]

mutual

/-- Without the leaves the placeholders are those of the template. -/
theorem map_fst_templatePlaceholders : (policy : PolicyNode) →
    (templatePlaceholders policy).map Prod.fst = templateKeys policy
  | .constant _ | .withUint32 _ _ | .withHash256 _ _ | .withHash160 _ _ => by
    rw [templatePlaceholders, templateKeys, map_nil]
  | .withKey _ _ => by
    rw [templatePlaceholders, templateKeys, map_singleton]
  | .multisig _ _ _ => by
    rw [templatePlaceholders, templateKeys, map_map]
    exact map_id _
  | .wrapper _ script | .sh script | .wsh script => by
    rw [templatePlaceholders, templateKeys, map_fst_templatePlaceholders script]
  | .withScript2 _ first second => by
    rw [templatePlaceholders, templateKeys, map_append, map_fst_templatePlaceholders first,
      map_fst_templatePlaceholders second]
  | .andor first second third => by
    rw [templatePlaceholders, templateKeys, map_append, map_append,
      map_fst_templatePlaceholders first, map_fst_templatePlaceholders second,
      map_fst_templatePlaceholders third]
  | .thresh _ scriptlist => by
    rw [templatePlaceholders, templateKeys, map_fst_templatePlaceholdersOfList scriptlist]
  | .tr _ none => by
    rw [templatePlaceholders, templateKeys, map_singleton]
  | .tr _ (some tree) => by
    rw [templatePlaceholders, templateKeys, map_cons, map_fst_leafPlaceholders]

theorem map_fst_templatePlaceholdersOfList : (scriptlist : List PolicyNode) →
    (templatePlaceholdersOfList scriptlist).map Prod.fst = templateKeysOfList scriptlist
  | [] => rfl
  | script :: rest => by
    rw [templatePlaceholdersOfList, templateKeysOfList, map_append,
      map_fst_templatePlaceholders script, map_fst_templatePlaceholdersOfList rest]

end

/-! ## The search follows the template -/

/-- The search for an element of a list. -/
def PlaceholderSearch.ofList (found : List (KeyPlaceholder × Option PolicyNode)) (i : Nat) :
    PlaceholderSearch := ⟨found.length, found[i]?⟩

theorem PlaceholderSearch.andThen_ofList (i : Nat)
    (first second : List (KeyPlaceholder × Option PolicyNode)) :
    PlaceholderSearch.andThen i (.ofList first i) (.ofList second) =
      .ofList (first ++ second) i := by
  rw [andThen, ofList, ofList, ofList, ofList, length_append]
  split_ifs with inFirst
  · rw [getElem?_append_left inFirst]
  · rw [getElem?_append_right (not_lt.mp inFirst)]

theorem PlaceholderSearch.ofList_singleton (key : KeyPlaceholder) (i : Nat) :
    (⟨1, if i = 0 then some (key, none) else none⟩ : PlaceholderSearch) =
      .ofList [(key, none)] i := by
  cases i <;> rfl

mutual

theorem getKeyPlaceholderByIndex_eq : (policy : PolicyNode) → (i : Nat) →
    getKeyPlaceholderByIndex policy i = .ofList (templatePlaceholders policy) i
  | .constant _, _ | .withUint32 _ _, _ | .withHash256 _ _, _ | .withHash160 _ _, _ => by
    rw [getKeyPlaceholderByIndex, templatePlaceholders]
    rfl
  | .withKey _ key, i => by
    rw [getKeyPlaceholderByIndex, templatePlaceholders, PlaceholderSearch.ofList_singleton]
  | .multisig _ _ keyPlaceholders, i => by
    rw [getKeyPlaceholderByIndex, templatePlaceholders, PlaceholderSearch.ofList,
      length_map, getElem?_map]
  | .wrapper _ script, i | .sh script, i | .wsh script, i => by
    rw [getKeyPlaceholderByIndex, templatePlaceholders, getKeyPlaceholderByIndex_eq script i]
  | .withScript2 _ first second, i => by
    have later : getKeyPlaceholderByIndex second = .ofList (templatePlaceholders second) :=
      funext (getKeyPlaceholderByIndex_eq second)
    rw [getKeyPlaceholderByIndex, templatePlaceholders, getKeyPlaceholderByIndex_eq first i,
      later, PlaceholderSearch.andThen_ofList]
  | .andor first second third, i => by
    have middle : getKeyPlaceholderByIndex second = .ofList (templatePlaceholders second) :=
      funext (getKeyPlaceholderByIndex_eq second)
    have later : getKeyPlaceholderByIndex third = .ofList (templatePlaceholders third) :=
      funext (getKeyPlaceholderByIndex_eq third)
    rw [getKeyPlaceholderByIndex, templatePlaceholders, getKeyPlaceholderByIndex_eq first i,
      middle, later, PlaceholderSearch.andThen_ofList, PlaceholderSearch.andThen_ofList]
  | .thresh _ scriptlist, i => by
    rw [getKeyPlaceholderByIndex, templatePlaceholders,
      getKeyPlaceholderByIndexInList_eq scriptlist i]
  | .tr key none, i => by
    rw [getKeyPlaceholderByIndex, templatePlaceholders, PlaceholderSearch.ofList_singleton]
  | .tr key (some tree), i => by
    have inTree : getKeyPlaceholderByIndexInTree tree = .ofList (leafPlaceholders tree) :=
      funext (getKeyPlaceholderByIndexInTree_eq tree)
    rw [getKeyPlaceholderByIndex, templatePlaceholders, PlaceholderSearch.ofList_singleton,
      inTree, PlaceholderSearch.andThen_ofList, singleton_append]

theorem getKeyPlaceholderByIndexInList_eq : (scriptlist : List PolicyNode) → (i : Nat) →
    getKeyPlaceholderByIndexInList scriptlist i =
      .ofList (templatePlaceholdersOfList scriptlist) i
  | [], _ => rfl
  | script :: rest, i => by
    have later : getKeyPlaceholderByIndexInList rest =
        .ofList (templatePlaceholdersOfList rest) :=
      funext (getKeyPlaceholderByIndexInList_eq rest)
    rw [getKeyPlaceholderByIndexInList, templatePlaceholdersOfList,
      getKeyPlaceholderByIndex_eq script i, later, PlaceholderSearch.andThen_ofList]

theorem getKeyPlaceholderByIndexInTree_eq : (tree : PolicyTree) → (i : Nat) →
    getKeyPlaceholderByIndexInTree tree i = .ofList (leafPlaceholders tree) i
  | .leaf script, i => by
    -- the search in the leaf gives no leaf of its own, only the key
    have keys : (templatePlaceholders script).map (fun found => (found.1, some script)) =
        (templateKeys script).map (·, some script) := by
      rw [← map_fst_templatePlaceholders, map_map]
      rfl
    rw [getKeyPlaceholderByIndexInTree, getKeyPlaceholderByIndex_eq script i,
      leafPlaceholders, PolicyTree.leaves, flatMap_singleton, ← keys,
      PlaceholderSearch.ofList, PlaceholderSearch.ofList, length_map, getElem?_map]
  | .branch left right, i => by
    have later : getKeyPlaceholderByIndexInTree right = .ofList (leafPlaceholders right) :=
      funext (getKeyPlaceholderByIndexInTree_eq right)
    rw [getKeyPlaceholderByIndexInTree, getKeyPlaceholderByIndexInTree_eq left i, later,
      PlaceholderSearch.andThen_ofList, leafPlaceholders, leafPlaceholders, leafPlaceholders,
      PolicyTree.leaves, flatMap_append]

end

/-- The search returns the number of placeholders. It writes the one with the given index in the
order of the template, and the leaf that contains it exactly if it is inside a script tree; beyond
the last placeholder it writes nothing. -/
theorem getKeyPlaceholderByIndex_enumerates (policy : PolicyNode) (i : Nat) :
    (getKeyPlaceholderByIndex policy i).count = (templateKeys policy).length ∧
      (getKeyPlaceholderByIndex policy i).written = (templatePlaceholders policy)[i]? ∧
      ((getKeyPlaceholderByIndex policy i).written.map Prod.fst = (templateKeys policy)[i]?) ∧
      ((templateKeys policy).length ≤ i → (getKeyPlaceholderByIndex policy i).written = none) := by
  have length : (templatePlaceholders policy).length = (templateKeys policy).length := by
    rw [← map_fst_templatePlaceholders, length_map]
  rw [getKeyPlaceholderByIndex_eq, PlaceholderSearch.ofList]
  refine ⟨length, rfl, ?_, fun beyond => ?_⟩
  · rw [← map_fst_templatePlaceholders, getElem?_map]
  · exact getElem?_eq_none (length.trans_le beyond)

end LedgerSyscoin.Handler
