import LedgerSyscoin.Foundation.Attempt
import LedgerSyscoin.Foundation.Selection
import LedgerSyscoin.Handler.Lib.Policy.Compile

/-!
# Keys of multisignatures

The keys of `multi` are pushed in the order of the policy. Those of `sortedmulti`
are found by repeated search for the smallest key that was not used yet, each time
deriving all of them again; the picks are the sorted keys as long as the marks in
the bitvector are those the search itself has set.
-/

namespace LedgerSyscoin.Handler

open Foundation Common List

variable {item used before after : Bytes} {rounds j : Nat} {marked : Nat → Bool}
  {items : List Bytes} {beforeIndex afterIndex : Option Nat}

/-! ## Comparison of keys -/

theorem cmpArrays_pos_iff {left right : Bytes} (lengthEq : left.length = right.length) :
    cmpArrays left right > 0 ↔ right < left := by
  induction left generalizing right with
  | nil =>
    have rightNil : right = [] := eq_nil_of_length_eq_zero lengthEq.symm
    simp [rightNil, cmpArrays]
  | cons l left ih =>
    cases right with
    | nil => simp at lengthEq
    | cons r right =>
      have tails := ih (by simpa using lengthEq)
      rw [cmpArrays, cons_lt_cons_iff, UInt8.lt_iff_toNat_lt]
      by_cases same : l = r
      · subst same
        simpa using tails
      · have different : l.toNat ≠ r.toNat := fun equal => same (UInt8.toNat_inj.mp equal)
        have diff : (l.toNat : Int) - r.toNat ≠ 0 := by omega
        simp only [ne_eq, diff, not_false_eq_true, if_true, Ne.symm same, false_and, or_false]
        omega

/-- Every other array of the same length is below the one of all ones. -/
theorem lt_replicate_of_ne (different : item ≠ replicate item.length 0xff) :
    item < replicate item.length 0xff := by
  induction item with
  | nil => simp at different
  | cons byte item ih =>
    rw [length_cons, replicate_succ] at different ⊢
    rw [cons_lt_cons_iff, UInt8.lt_iff_toNat_lt]
    by_cases same : byte = 0xff
    · subst same
      exact Or.inr ⟨rfl, ih (fun equal => different (by rw [← equal]))⟩
    · have notTop : byte.toNat ≠ 255 := fun equal => same (UInt8.toNat_inj.mp equal)
      have bounded := byte.toNat_lt
      exact Or.inl (by rw [show (0xff : UInt8).toNat = 255 from rfl]; omega)

/-! ## Derivation of the keys -/

variable {σ : Type}

/-- The keys that can be derived are those of the key source. -/
structure DerivesFrom (ctx : ScriptContext σ) (keys : KeySource) : Prop where
  pubkey : ∀ key client derived client',
    ctx.getDerivedPubkey key client = some (derived, client') → derived = keys.pubkey key
  hash160 : ctx.cryptoHash160 = keys.hash160

/-- The derivation of a key succeeds in every state of the client. -/
def Derivable (ctx : ScriptContext σ) (key : KeyPlaceholder) : Prop :=
  ∀ client, ∃ derived, ctx.getDerivedPubkey key client = some derived

variable {ctx : ScriptContext σ} {keys : KeySource}

/-- The compiler fails because one of the keys cannot be derived. -/
def FailsToDerive (ctx : ScriptContext σ) (placeholders : List KeyPlaceholder)
    (failure : ScriptFailure) : Prop :=
  failure = .failed ∧ ∃ key ∈ placeholders, ¬ Derivable ctx key

variable {placeholders others : List KeyPlaceholder} {key : KeyPlaceholder}

theorem FailsToDerive.mono (subset : placeholders ⊆ others) (failure : ScriptFailure)
    (fails : FailsToDerive ctx placeholders failure) : FailsToDerive ctx others failure :=
  ⟨fails.1, fails.2.imp fun _ bad => ⟨subset bad.1, bad.2⟩⟩

theorem settles_derivePubkey (source : DerivesFrom ctx keys) (mem : key ∈ placeholders)
    (client : σ) :
    Settles (fun derived => derived.1 = keys.pubkey key) (FailsToDerive ctx placeholders)
      (derivePubkey ctx key client) := by
  unfold derivePubkey
  cases result : ctx.getDerivedPubkey key client with
  | none =>
    refine ⟨rfl, key, mem, fun derivable => ?_⟩
    obtain ⟨derived, found⟩ := derivable client
    cases result.symm.trans found
  | some derived => exact source.pubkey key client derived.1 derived.2 result

section Emission

variable {ok : Prop} {action : Action} {bytes : Bytes}

/-- An emission that fails only to derive a key fails only without a precondition that lets the
keys be derived. -/
theorem emits_of_settles (derivable : ok → ∀ key ∈ placeholders, Derivable ctx key)
    {emission : Except ScriptFailure (Emission σ)}
    (settles : Settles (fun emission => ∃ client', emission = ⟨action, bytes, client'⟩)
      (FailsToDerive ctx placeholders) emission) :
    (emission = .error .failed ∧ ¬ ok) ∨ ∃ client', emission = .ok ⟨action, bytes, client'⟩ := by
  cases emission with
  | ok emission => exact .inr (settles.imp fun _ same => congrArg _ same)
  | error failure =>
    obtain ⟨rfl, key, mem, notDerivable⟩ := settles
    exact .inl ⟨rfl, fun holds => notDerivable (derivable holds key mem)⟩

/-- The keys are pushed, unless one of them cannot be derived. -/
def PushesKeys (ctx : ScriptContext σ) (placeholders : List KeyPlaceholder) (bytes : Bytes)
    (run : Except ScriptFailure (Bytes × σ)) : Prop :=
  (run = .error .failed ∧ ∃ key ∈ placeholders, ¬ Derivable ctx key) ∨
    ∃ client', run = .ok (bytes, client')

theorem pushesKeys_iff_settles {run : Except ScriptFailure (Bytes × σ)} :
    PushesKeys ctx placeholders bytes run ↔
      Settles (fun emitted => emitted.1 = bytes) (FailsToDerive ctx placeholders) run := by
  cases run with
  | ok emitted => simp [PushesKeys, Settles, Prod.ext_iff]
  | error failure => simp [PushesKeys, Settles, FailsToDerive]

theorem emits_derived (source : DerivesFrom ctx keys) (derivable : ok → Derivable ctx key)
    {next : CompressedPubkey × σ → Except ScriptFailure (Emission σ)}
    (emits : ∀ client', next (keys.pubkey key, client') = .ok ⟨action, bytes, client'⟩)
    (client : σ) :
    ((derivePubkey ctx key client >>= next) = .error .failed ∧ ¬ ok) ∨
      ∃ client', (derivePubkey ctx key client >>= next) = .ok ⟨action, bytes, client'⟩ := by
  refine emits_of_settles (fun holds => forall_mem_singleton.mpr (derivable holds))
    ((settles_derivePubkey source (mem_singleton_self key) client).bind ?_)
  rintro ⟨_, client'⟩ rfl
  rw [emits]
  exact ⟨client', rfl⟩

end Emission

/-- The pushes of a list of keys from round `i` on. -/
def pushedKeys (pushKey : Nat → Bytes → Bytes) : Nat → List Bytes → Bytes
  | _, [] => []
  | i, key :: rest => pushKey i key ++ pushedKeys pushKey (i + 1) rest

/-- Without sorting the keys are pushed in the given order. -/
theorem emitMultisigKeys_unsorted (source : DerivesFrom ctx keys) (offset : Nat)
    (placeholders : List KeyPlaceholder) (pushKey : Nat → Bytes → Bytes) {i : Nat}
    (roundsEq : i + rounds = placeholders.length) (used : Bytes) (client : σ) :
    Settles (fun emitted => emitted.1 =
        pushedKeys pushKey i ((placeholders.drop i).map fun key => (keys.pubkey key).val))
      (FailsToDerive ctx placeholders)
      (emitMultisigKeys ctx false offset placeholders pushKey rounds i used client) := by
  induction rounds generalizing i used client with
  | zero =>
    have allDone : placeholders.drop i = [] := drop_eq_nil_of_le (by omega)
    rw [allDone]
    rfl
  | succ rounds ih =>
    have within : i < placeholders.length := by omega
    have next : Settles (fun next => next.1 = (keys.pubkey placeholders[i]).val)
        (FailsToDerive ctx placeholders)
        (nextMultisigKey ctx false offset placeholders i used client) := by
      simp only [nextMultisigKey, Bool.false_eq_true, if_false, getElem?_eq_getElem within]
      exact (settles_derivePubkey source (getElem_mem within) client).bind
        fun _ isKey => congrArg Subtype.val isKey
    rw [drop_eq_getElem_cons within, map_cons, pushedKeys]
    refine next.bind ?_
    rintro ⟨_, updated, client'⟩ rfl
    refine (ih (by omega) updated client').bind ?_
    rintro ⟨_, _⟩ rfl
    rfl

/-! ## The search for the smallest unused key -/

/-- The marks a bitvector holds. -/
def marks (used : Bytes) (position : Nat) : Bool := (bitvectorGet used position).getD true

theorem bitvectorGet_of_bound {position : Nat} (inBounds : position < 8 * used.length) :
    bitvectorGet used position = some (marks used position) := by
  cases found : bitvectorGet used position with
  | none =>
    have outside := bitvectorGet_eq_none_iff.mp found
    omega
  | some mark => simp [marks, found]

/-- The part of the keys that is compared and pushed. -/
def comparedKeys (keys : KeySource) (offset : Nat) (placeholders : List KeyPlaceholder) :
    List Bytes :=
  placeholders.map fun key => (keys.pubkey key).val.drop offset

@[simp]
theorem length_comparedKeys (offset : Nat) (placeholders : List KeyPlaceholder) :
    (comparedKeys keys offset placeholders).length = placeholders.length := by
  simp [comparedKeys]

/-- What a search over `items`, the first of them at position `j`, makes of the smallest
key so far: nothing if no unmarked item is smaller, else a smallest unmarked item. -/
def SearchResult (marked : Nat → Bool) (items : List Bytes) (j : Nat) (before : Bytes)
    (beforeIndex : Option Nat) (after : Bytes) (afterIndex : Option Nat) : Prop :=
  (after = before ∧ afterIndex = beforeIndex ∧ ∀ item ∈ unmarked marked j items, before ≤ item) ∨
    ∃ i, items[i]? = some after ∧ marked (j + i) = false ∧ afterIndex = some (j + i) ∧
      after < before ∧ ∀ item ∈ unmarked marked j items, after ≤ item

theorem SearchResult.le (result : SearchResult marked items j before beforeIndex after afterIndex) :
    after ≤ before ∧ ∀ item ∈ unmarked marked j items, after ≤ item := by
  rcases result with ⟨rfl, _, smallest⟩ | ⟨_, _, _, _, smaller, smallest⟩
  · exact ⟨List.le_refl _, smallest⟩
  · exact ⟨List.le_of_lt smaller, smallest⟩

/-- A marked item is passed over. -/
theorem SearchResult.skip (isMarked : marked j = true)
    (result : SearchResult marked items (j + 1) before beforeIndex after afterIndex) :
    SearchResult marked (item :: items) j before beforeIndex after afterIndex := by
  have same : unmarked marked j (item :: items) = unmarked marked (j + 1) items := by
    rw [unmarked, isMarked, if_pos rfl]
  rcases result with ⟨afterEq, indexEq, smallest⟩ | ⟨i, found, free, indexEq, smaller, smallest⟩
  · exact Or.inl ⟨afterEq, indexEq, by rwa [same]⟩
  · rw [Nat.add_right_comm] at free indexEq
    exact Or.inr ⟨i + 1, found, free, indexEq, smaller, by rwa [same]⟩

/-- An item that is not smaller is passed over. -/
theorem SearchResult.keep (isFree : marked j = false) (notSmaller : before ≤ item)
    (result : SearchResult marked items (j + 1) before beforeIndex after afterIndex) :
    SearchResult marked (item :: items) j before beforeIndex after afterIndex := by
  have below : after ≤ item := List.le_trans result.le.1 notSmaller
  have split : unmarked marked j (item :: items) = item :: unmarked marked (j + 1) items := by
    rw [unmarked, isFree, if_neg Bool.false_ne_true]
  have smallestAll : ∀ other ∈ unmarked marked j (item :: items), after ≤ other := by
    rw [split]
    exact forall_mem_cons.mpr ⟨below, result.le.2⟩
  rcases result with ⟨afterEq, indexEq, _⟩ | ⟨i, found, free, indexEq, smaller, _⟩
  · exact Or.inl ⟨afterEq, indexEq, by rwa [← afterEq]⟩
  · rw [Nat.add_right_comm] at free indexEq
    exact Or.inr ⟨i + 1, found, free, indexEq, smaller, smallestAll⟩

/-- A smaller item takes the place of the smallest one. -/
theorem SearchResult.replace (isFree : marked j = false) (smaller : item < before)
    (result : SearchResult marked items (j + 1) item (some j) after afterIndex) :
    SearchResult marked (item :: items) j before beforeIndex after afterIndex := by
  have split : unmarked marked j (item :: items) = item :: unmarked marked (j + 1) items := by
    rw [unmarked, isFree, if_neg Bool.false_ne_true]
  have smallestAll : ∀ other ∈ unmarked marked j (item :: items), after ≤ other := by
    rw [split]
    exact forall_mem_cons.mpr ⟨result.le.1, result.le.2⟩
  rcases result with ⟨rfl, indexEq, _⟩ | ⟨i, found, free, indexEq, smaller', _⟩
  · exact Or.inr ⟨0, rfl, isFree, indexEq, smaller, smallestAll⟩
  · rw [Nat.add_right_comm] at free indexEq
    exact Or.inr ⟨i + 1, found, free, indexEq, List.lt_trans smaller' smaller, smallestAll⟩

/-- The search over derived keys finds a smallest unmarked key, unless a derivation fails. -/
theorem settles_findSmallestUnused (source : DerivesFrom ctx keys) (offset : Nat)
    (placeholders : List KeyPlaceholder) (j : Nat)
    (covered : j + placeholders.length ≤ 8 * used.length) {smallest : Bytes}
    (lengthEq : smallest.length = 33) (index : Option Nat) (client : σ) :
    Settles (fun found => SearchResult (marks used) (comparedKeys keys offset placeholders) j
        (smallest.drop offset) index (found.1.drop offset) found.2.1)
      (FailsToDerive ctx placeholders)
      (findSmallestUnused ctx offset used placeholders j smallest index client) := by
  induction placeholders generalizing j smallest index client with
  | nil => exact Or.inl ⟨rfl, rfl, by simp [comparedKeys]⟩
  | cons key rest ih =>
    have position : bitvectorGet used j = some (marks used j) :=
      bitvectorGet_of_bound (by rw [length_cons] at covered; omega)
    have restCovered : j + 1 + rest.length ≤ 8 * used.length := by
      rw [length_cons] at covered
      omega
    have restFails : ∀ failure, FailsToDerive ctx rest failure →
        FailsToDerive ctx (key :: rest) failure :=
      FailsToDerive.mono (subset_cons_self key rest)
    rw [findSmallestUnused, position]
    cases mark : marks used j with
    | true =>
      exact (ih (j + 1) restCovered lengthEq index client).mono
        (fun _ result => result.skip mark) restFails
    | false =>
      refine (settles_derivePubkey source mem_cons_self client).bind ?_
      rintro ⟨_, client'⟩ rfl
      have comparison : cmpArrays (smallest.drop offset) ((keys.pubkey key).val.drop offset) > 0 ↔
          (keys.pubkey key).val.drop offset < smallest.drop offset :=
        cmpArrays_pos_iff (by
          rw [length_drop, length_drop, lengthEq, (keys.pubkey key).property])
      by_cases smaller : (keys.pubkey key).val.drop offset < smallest.drop offset
      · dsimp only
        rw [if_pos (comparison.mpr smaller)]
        exact (ih (j + 1) restCovered (keys.pubkey key).property (some j) client').mono
          (fun _ result => result.replace mark smaller) restFails
      · dsimp only
        rw [if_neg (fun positive => smaller (comparison.mp positive))]
        exact (ih (j + 1) restCovered lengthEq index client').mono
          (fun _ result => result.keep mark (List.not_lt.mp smaller)) restFails

/-! ## Rounds of the search -/

theorem marks_bitvectorSet {updated : Bytes} {position : Nat}
    (set : bitvectorSet used position true = some updated) :
    marks updated = addMark (marks used) position := by
  funext other
  rw [marks, bitvectorGet_bitvectorSet set, addMark]
  by_cases same : other = position
  · simp [same]
  · simp [same, marks]

section Rounds

variable {offset : Nat}

/-- A search that goes beyond the bitvector accesses it outside its bounds. -/
theorem findSmallestUnused_undefined (j : Nat) (derivable : ∀ key ∈ placeholders, Derivable ctx key)
    (inside : j ≤ 8 * used.length) (beyond : 8 * used.length < j + placeholders.length)
    (smallest : Bytes) (index : Option Nat) (client : σ) :
    Settles (fun _ => False) (· = .undefined)
      (findSmallestUnused ctx offset used placeholders j smallest index client) := by
  induction placeholders generalizing j smallest index client with
  | nil =>
    rw [length_nil] at beyond
    omega
  | cons key rest ih =>
    obtain ⟨keyDerivable, restDerivable⟩ := forall_mem_cons.mp derivable
    rw [length_cons] at beyond
    rw [findSmallestUnused]
    cases found : bitvectorGet used j with
    | none => rfl
    | some mark =>
      have below : ¬used.length ≤ j / 8 := fun outside => by
        rw [bitvectorGet_eq_none_iff.mpr outside] at found
        cases found
      have later := ih (j + 1) restDerivable (by omega) (by omega)
      cases mark with
      | true => exact later smallest index client
      | false =>
        obtain ⟨derived, isDerived⟩ := keyDerivable client
        have run : derivePubkey ctx key client = .ok derived := by rw [derivePubkey, isDerived]
        dsimp only
        rw [run]
        change Settles _ _ (ite _ _ _)
        split_ifs <;> exact later _ _ _

variable (source : DerivesFrom ctx keys)

include source

/-- A round picks a smallest unmarked key and marks it. Without an unmarked key below the initial
value it accesses the bitvector at index `-1`. -/
theorem nextMultisigKey_sorted (covered : placeholders.length ≤ 8 * used.length)
    (i : Nat) (client : σ) :
    Settles (fun next => ∃ position,
        (comparedKeys keys offset placeholders)[position]? = some (next.1.drop offset) ∧
        marks used position = false ∧ next.1.drop offset < (replicate 33 0xff).drop offset ∧
        (∀ other ∈ unmarked (marks used) 0 (comparedKeys keys offset placeholders),
          next.1.drop offset ≤ other) ∧
        next.2.1.length = used.length ∧ marks next.2.1 = addMark (marks used) position)
      (fun failure => FailsToDerive ctx placeholders failure ∨ failure = .undefined ∧
        ∀ other ∈ unmarked (marks used) 0 (comparedKeys keys offset placeholders),
          (replicate 33 0xff).drop offset ≤ other)
      (nextMultisigKey ctx true offset placeholders i used client) := by
  have topLength : (replicate 33 (0xff : UInt8)).length = 33 := length_replicate
  have fromStart : 0 + placeholders.length ≤ 8 * used.length := by omega
  rw [nextMultisigKey, if_pos rfl]
  refine ((settles_findSmallestUnused source offset placeholders 0 fromStart topLength none
    client).mono (fun _ result => result) fun _ fails => .inl fails).bind ?_
  rintro ⟨_, _, _⟩
    (⟨_, rfl, smallest⟩ | ⟨position, foundAt, free, rfl, below, smallest⟩)
  · exact Or.inr ⟨rfl, smallest⟩
  · rw [Nat.zero_add] at free ⊢
    have within : position < placeholders.length := by
      have bound := (List.getElem?_eq_some_iff.mp foundAt).1
      rwa [length_comparedKeys] at bound
    obtain ⟨_, set⟩ := exists_bitvectorSet (show position / 8 < used.length by omega) true
    simp only [set]
    exact ⟨position, foundAt, free, below, smallest, length_bitvectorSet set,
      marks_bitvectorSet set⟩

/-- As long as there are unmarked keys the rounds push selected keys. -/
theorem emitMultisigKeys_sorted (belowTop : ∀ item ∈ comparedKeys keys offset placeholders,
      item < (replicate 33 0xff).drop offset)
    {pushKey pushData : Nat → Bytes → Bytes}
    (pushes : ∀ i key, pushKey i key = pushData i (key.drop offset))
    (covered : placeholders.length ≤ 8 * used.length)
    (enough : rounds ≤
      (unmarked (marks used) 0 (comparedKeys keys offset placeholders)).length)
    (i : Nat) (client : σ) :
    Settles (fun emitted => ∃ picks, emitted.1 = pushedKeys pushData i picks ∧
        Selects (· ≤ ·) (comparedKeys keys offset placeholders) (marks used) picks ∧
        picks.length = rounds)
      (FailsToDerive ctx placeholders)
      (emitMultisigKeys ctx true offset placeholders pushKey rounds i used client) := by
  induction rounds generalizing used i client with
  | zero => exact ⟨[], rfl, .nil, rfl⟩
  | succ rounds ih =>
    refine ((nextMultisigKey_sorted source covered i client).mono (fun _ next => next)
      ?_).bind ?_
    · rintro _ (fails | ⟨-, smallest⟩)
      · exact fails
      · obtain ⟨item, mem⟩ := length_pos_iff_exists_mem.mp (Nat.zero_lt_of_lt enough)
        exact absurd (belowTop item ((unmarked_sublist _ _ _).subset mem))
          (List.not_lt.mpr (smallest item mem))
    rintro ⟨key, _, client'⟩ ⟨_, found, free, -, smallest, lengthEq, marked⟩
    dsimp only at found lengthEq marked
    have fewer := (unmarked_addMark_perm 0 found (by simpa using free)).length_eq
    rw [Nat.zero_add, length_cons, ← marked] at fewer
    refine (ih (by omega) (by omega) (i + 1) client').bind ?_
    rintro ⟨_, _⟩ ⟨picks, rfl, selects, count⟩
    refine ⟨key.drop offset :: picks, ?_, .cons found free smallest (marked ▸ selects),
      by simp [count]⟩
    simp only [pushedKeys, pushes]

/-- With more rounds than unmarked keys the bitvector is accessed outside its bounds. -/
theorem emitMultisigKeys_undefined (pushKey : Nat → Bytes → Bytes)
    (derivable : ∀ key ∈ placeholders, Derivable ctx key)
    (short : (unmarked (marks used) 0 (comparedKeys keys offset placeholders)).length < rounds)
    (i : Nat) (client : σ) :
    Settles (fun _ => False) (· = .undefined)
      (emitMultisigKeys ctx true offset placeholders pushKey rounds i used client) := by
  induction rounds generalizing used i client with
  | zero => omega
  | succ rounds ih =>
    by_cases covered : placeholders.length ≤ 8 * used.length
    case neg =>
      have search : Settles (fun _ => False) (· = .undefined) (findSmallestUnused ctx offset used
          placeholders 0 (replicate 33 0xff) none client) :=
        findSmallestUnused_undefined 0 derivable (Nat.zero_le _) (by omega) _ _ _
      rw [emitMultisigKeys, nextMultisigKey, if_pos rfl, search.eq_error]
      rfl
    refine ((nextMultisigKey_sorted source covered i client).mono (fun _ next => next)
      ?_).bind ?_
    · rintro _ (⟨-, key, mem, notDerivable⟩ | ⟨undefined, -⟩)
      · exact absurd (derivable key mem) notDerivable
      · exact undefined
    rintro ⟨key, _, client'⟩ ⟨_, found, free, -, -, lengthEq, marked⟩
    dsimp only at found lengthEq marked
    have fewer := (unmarked_addMark_perm 0 found (by simpa using free)).length_eq
    rw [Nat.zero_add, length_cons, ← marked] at fewer
    exact (ih (by omega) (i + 1) client').bind fun _ never => never.elim

end Rounds

end LedgerSyscoin.Handler
