import LedgerSyscoin.Handler.SignPsbt.Client
import LedgerSyscoin.Handler.SignPsbt.Review

/-!
# What a PSBT commits to

The client cannot choose what it answers to a lookup, only whether it answers: an
element of a tree and the value of a map at a key are determined by the roots. A call
that fails is not constrained. The map of an input is received several times; each time
it is the same map with the same keys.
-/

namespace LedgerSyscoin.Handler

open Foundation Common Boilerplate List
open Dialogue (AnsweredBy Runs answeredBy_append_iff answeredBy_transcript)
open Program (leafElement)

variable {bytes : Bytes}

/-- The elements of trees, the values of maps, and the outputs of serialized transactions. A map
has a value at a key only if the key is an element of the tree of its keys. -/
structure Commitments where
  element : (root : Digest) → (size index : Nat) → Option Bytes
  value : (map : MerkleizedMapCommitment) → (key : Bytes) → Option Bytes
  rawtx : (serialized : Bytes) → (outputIndex : UInt32) → TxidParserOutputs
  key_of_value : ∀ {map key bytes}, value map key = some bytes →
    ∃ index < map.size % 2 ^ 32, element map.keysRoot (map.size % 2 ^ 32) index = some key

namespace Commitments

variable (commitments : Commitments)

/-- What a call that succeeds returns is committed to. -/
def Holds : Dialogue.Exchange Answer → Prop
  | ⟨.leafElement root size index _, answer⟩ =>
    ∀ bytes, answer = .ok bytes → commitments.element root size index = some bytes
  | ⟨.mapValue map key _, answer⟩ =>
    ∀ bytes, answer = .ok bytes → commitments.value map key = some bytes
  | ⟨.streamMapValue map key, streamed⟩ => 0 ≤ streamed.ret →
      ∃ bytes, commitments.value map key = some bytes ∧ streamed.announced = some bytes.length ∧
        streamed.chunks.flatten = bytes
  | ⟨.parseRawtx map key outputIndex, (ret, outputs)⟩ => 0 ≤ ret →
      ∃ bytes, commitments.value map key = some bytes ∧
        outputs = commitments.rawtx bytes outputIndex
  | _ => True

/-- What the calls of a run return is committed to. -/
def HoldOn (exchanges : Trace) : Prop := ∀ exchange ∈ exchanges, commitments.Holds exchange

/-- The map whose commitment is an element of a tree. -/
def map (root : Digest) (size index : Nat) : Option MerkleizedMapCommitment :=
  (commitments.element root size index).bind fun rawOutput =>
    match readMapCommitment (bufferCreate rawOutput) Program.emptyMap with
    | (true, map) => some map
    | (false, _) => none

/-- A key of a map starts with the given byte. -/
def HasKeyType (map : MerkleizedMapCommitment) (keyType : UInt8) : Prop :=
  ∃ index < map.size % 2 ^ 32, ∃ data,
    commitments.element map.keysRoot (map.size % 2 ^ 32) index = some (keyType :: data)

variable {commitments} {exchanges first second : Trace}

theorem holdOn_append_iff :
    commitments.HoldOn (first ++ second) ↔ commitments.HoldOn first ∧ commitments.HoldOn second :=
  forall_mem_append

theorem hasKeyType_of_value {map : MerkleizedMapCommitment} {keyType : UInt8}
    (found : commitments.value map [keyType] = some bytes) :
    commitments.HasKeyType map keyType := by
  obtain ⟨index, inside, isKey⟩ := commitments.key_of_value found
  exact ⟨index, inside, [], isKey⟩

/-! ## Receiving maps -/

section Maps

variable {τ : Type} {callback : Option (ElementsCallback Program τ)} (invariant : Nat → τ → Prop)

/-- What holds before the keys are received, and is kept by the callback on each of them, holds
afterwards. -/
theorem checkMerkleTreeSortedLoop_returns {root : Digest} {size : Nat}
    {map : MerkleizedMapCommitment} {remaining curElIdx : Nat} {prevEl : Bytes} {state final : τ}
    {res : Int}
    (run : Runs (checkMerkleTreeSortedLoop leafElement root size callback map remaining curElIdx
      prevEl state) exchanges (.ok (res, final)))
    (succeeds : 0 ≤ res) (hold : commitments.HoldOn exchanges)
    (initially : invariant curElIdx state)
    (kept : ∀ {i current next key turn}, curElIdx ≤ i → i < curElIdx + remaining →
      commitments.element root size i = some key → invariant i current →
        Runs (ElementsCallback.call callback current map i key) turn (.ok next) →
          invariant (i + 1) next) :
    invariant (curElIdx + remaining) final := by
  induction remaining generalizing curElIdx prevEl state exchanges with
  | zero =>
    obtain ⟨rfl, ⟨⟩⟩ := run.pure
    exact initially
  | succ remaining ih =>
    rw [checkMerkleTreeSortedLoop] at run
    obtain ⟨answer, _, rfl, received⟩ := run.question
    cases answer with
    | error code =>
      obtain ⟨-, isFinal⟩ := received.pure
      cases isFinal
      simp at succeeds
    | ok key =>
      dsimp only at received
      split_ifs at received
      · obtain ⟨-, isFinal⟩ := received.pure
        cases isFinal
        simp at succeeds
      · obtain ⟨next, turn, later, rfl, called, loops⟩ := received.bind_ok
        have isKey := hold _ mem_cons_self key rfl
        have holdLater : commitments.HoldOn later := fun exchange mem =>
          hold exchange (mem_cons_of_mem _ (mem_append_right _ mem))
        have reached := kept (Nat.le_refl _) (by omega) isKey initially called
        rw [Nat.add_comm remaining 1, ← Nat.add_assoc]
        exact ih loops holdLater reached fun after inside => kept (by omega) (by omega)

/-- A map that is received is the one that is committed to, and the callback was called on its
keys. -/
theorem callGetMerkleizedMapWithCallback_returns {root : Digest} {size index : Nat}
    {map : MerkleizedMapCommitment} {state final : τ} {res : Int}
    (run : Runs (callGetMerkleizedMapWithCallback leafElement state root size index callback
      Program.emptyMap) exchanges (.ok (res, map, final)))
    (succeeds : 0 ≤ res) (hold : commitments.HoldOn exchanges) (initially : invariant 0 state)
    (kept : ∀ {i current next key turn}, i < map.size % 2 ^ 32 →
      commitments.element map.keysRoot (map.size % 2 ^ 32) i = some key → invariant i current →
        Runs (ElementsCallback.call callback current map i key) turn (.ok next) →
          invariant (i + 1) next) :
    commitments.map root size index = some map ∧ invariant (map.size % 2 ^ 32) final := by
  obtain ⟨answer, rest, rfl, received⟩ := run.question
  cases answer with
  | error code =>
    obtain ⟨-, isFinal⟩ := received.pure
    cases isFinal
    simp at succeeds
  | ok rawOutput =>
    have isElement := hold _ mem_cons_self rawOutput rfl
    have holdRest : commitments.HoldOn rest := fun exchange mem =>
      hold exchange (mem_cons_of_mem _ mem)
    dsimp only at received
    rcases isRead : readMapCommitment (bufferCreate rawOutput) Program.emptyMap with ⟨ok, _⟩
    rw [isRead] at received
    cases ok with
    | false =>
      obtain ⟨-, isFinal⟩ := received.pure
      cases isFinal
      simp at succeeds
    | true =>
      obtain ⟨⟨code, _⟩, _, _, rfl, loops, returns⟩ := received.bind_ok
      obtain ⟨rfl, ⟨⟩⟩ := returns.pure
      rw [append_nil] at holdRest
      refine ⟨?_, ?_⟩
      · rw [Commitments.map, isElement, Option.bind_some, isRead]
      · have reachedEnd := checkMerkleTreeSortedLoop_returns invariant loops succeeds holdRest
          initially fun _ inside => kept (by omega)
        rwa [Nat.zero_add] at reachedEnd

end Maps

theorem runs_callGetMerkleizedMap_ok {root : Digest} {size index : Nat} {res : Int}
    {map : MerkleizedMapCommitment}
    (run : Runs (Program.callGetMerkleizedMap root size index) exchanges (.ok (res, map)))
    (succeeds : 0 ≤ res) (hold : commitments.HoldOn exchanges) :
    commitments.map root size index = some map := by
  obtain ⟨⟨_, _, ⟨⟩⟩, _, _, rfl, receives, returns⟩ := run.bind_ok
  obtain ⟨rfl, ⟨⟩⟩ := returns.pure
  rw [append_nil] at hold
  exact (callGetMerkleizedMapWithCallback_returns (fun _ _ => True) receives succeeds hold trivial
    fun _ _ _ _ => trivial).1

/-! ## Received inputs -/

/-- A flag of an input tells whether a key of its map starts with a byte. -/
structure FlagOf (flag : InputInfo → Bool) (keyType : UInt8) : Prop where
  initially : flag InputInfo.zero = false
  keepsMap : ∀ input map, flag { input with inOut := { input.inOut with map } } = flag input
  kept : ∀ {device placeholderInfo site input map i key turn next},
    Runs (inputKeysCallback device placeholderInfo site input map i key) turn (.ok next) →
      flag next = (flag input || decide (key.head? = some keyType))

/-- The callback only sets the flag of the key that it is called on. -/
theorem runs_inputKeysCallback_ok {device : Device} {placeholderInfo : PlaceholderInfo}
    {site : Site} {input next : InputInfo} {map : MerkleizedMapCommitment} {i : Nat} {key : Bytes}
    {turn : Trace}
    (run : Runs (inputKeysCallback device placeholderInfo site input map i key) turn (.ok next)) :
    ∃ inOut, next = { input with
      inOut
      hasWitnessUtxo := input.hasWitnessUtxo || decide (key.head? = some psbtInWitnessUtxo)
      hasNonWitnessUtxo := input.hasNonWitnessUtxo || decide (key.head? = some psbtInNonWitnessUtxo)
      hasRedeemScript := input.hasRedeemScript || decide (key.head? = some psbtInRedeemScript)
      hasSighashType := input.hasSighashType || decide (key.head? = some psbtInSighashType) } := by
  cases key with
  | nil =>
    obtain ⟨-, isNext⟩ := run.pure
    cases isNext
    exact ⟨input.inOut, by simp⟩
  | cons keyType data =>
    rw [inputKeysCallback] at run
    split_ifs at run with isWitness isNonWitness isRedeem isSighash isDerivation
    · cases run.pure.2
      exact ⟨input.inOut, by simp [isWitness, psbtInWitnessUtxo, psbtInNonWitnessUtxo,
        psbtInRedeemScript, psbtInSighashType]⟩
    · cases run.pure.2
      exact ⟨input.inOut, by simp [isNonWitness, psbtInWitnessUtxo, psbtInNonWitnessUtxo,
        psbtInRedeemScript, psbtInSighashType]⟩
    · cases run.pure.2
      exact ⟨input.inOut, by simp [isRedeem, psbtInWitnessUtxo, psbtInNonWitnessUtxo,
        psbtInRedeemScript, psbtInSighashType]⟩
    · cases run.pure.2
      exact ⟨input.inOut, by simp [isSighash, psbtInWitnessUtxo, psbtInNonWitnessUtxo,
        psbtInRedeemScript, psbtInSighashType]⟩
    · obtain ⟨inOut, _, _, _, _, returns⟩ := run.bind_ok
      cases returns.pure.2
      exact ⟨inOut, by simp [isWitness, isNonWitness, isRedeem, isSighash]⟩
    · cases run.pure.2
      exact ⟨input.inOut, by simp [isWitness, isNonWitness, isRedeem, isSighash]⟩

theorem flagOf_hasWitnessUtxo : FlagOf InputInfo.hasWitnessUtxo psbtInWitnessUtxo where
  initially := rfl
  keepsMap _ _ := rfl
  kept run := by
    obtain ⟨_, rfl⟩ := runs_inputKeysCallback_ok run
    rfl

theorem flagOf_hasNonWitnessUtxo : FlagOf InputInfo.hasNonWitnessUtxo psbtInNonWitnessUtxo where
  initially := rfl
  keepsMap _ _ := rfl
  kept run := by
    obtain ⟨_, rfl⟩ := runs_inputKeysCallback_ok run
    rfl

theorem flagOf_hasRedeemScript : FlagOf InputInfo.hasRedeemScript psbtInRedeemScript where
  initially := rfl
  keepsMap _ _ := rfl
  kept run := by
    obtain ⟨_, rfl⟩ := runs_inputKeysCallback_ok run
    rfl

theorem flagOf_hasSighashType : FlagOf InputInfo.hasSighashType psbtInSighashType where
  initially := rfl
  keepsMap _ _ := rfl
  kept run := by
    obtain ⟨_, rfl⟩ := runs_inputKeysCallback_ok run
    rfl

section Inputs

variable {device : Device} {placeholderInfo : PlaceholderInfo} {site : Site} {root : Digest}
  {size index : Nat} {res : Int} {input : InputInfo}
  (run : Runs (receiveInput device placeholderInfo site root size index) exchanges
    (.ok (res, input)))
  (succeeds : 0 ≤ res) (hold : commitments.HoldOn exchanges)

include run succeeds hold

/-- An input that is received has the map that is committed to, and its flags tell which keys the
map has. -/
theorem receiveInput_returns {flag : InputInfo → Bool} {keyType : UInt8}
    (flagOf : FlagOf flag keyType) :
    commitments.map root size index = some input.inOut.map ∧
      (flag input = true ↔ commitments.HasKeyType input.inOut.map keyType) := by
  obtain ⟨⟨_, map, _⟩, _, _, rfl, receives, returns⟩ := run.bind_ok
  obtain ⟨rfl, ⟨⟩⟩ := returns.pure
  rw [append_nil] at hold
  rw [flagOf.keepsMap]
  refine callGetMerkleizedMapWithCallback_returns
    (fun i current => flag current = true ↔ ∃ j < i, ∃ data,
      commitments.element map.keysRoot (map.size % 2 ^ 32) j = some (keyType :: data))
    receives succeeds hold ?_ ?_
  · simp [flagOf.initially]
  · intro i current next key turn inside isKey invariant called
    rw [flagOf.kept called, Bool.or_eq_true, invariant, decide_eq_true_eq]
    constructor
    · rintro (⟨j, before, data, isElement⟩ | isHead)
      · exact ⟨j, by omega, data, isElement⟩
      · obtain ⟨data, rfl⟩ := head?_eq_some_iff.mp isHead
        exact ⟨i, by omega, data, isKey⟩
    · rintro ⟨j, before, data, isElement⟩
      rcases Nat.lt_succ_iff_lt_or_eq.mp before with earlier | rfl
      · exact .inl ⟨j, earlier, data, isElement⟩
      · cases isKey.symm.trans isElement
        exact .inr rfl

end Inputs

end Commitments

/-! ## A client that keeps a PSBT -/

namespace ClientStore

variable {store : ClientStore}

/-- A key at which a map has a value is one of its keys. -/
theorem exists_key_of_lookup {map : MerkleizedMapCommitment} {key : Bytes}
    (found : store.lookup map key = some bytes) :
    ∃ index < map.size % 2 ^ 32, (store.tree (rootNumber map.keysRoot))[index]? = some key := by
  simp only [lookup] at found
  split_ifs at found with size
  obtain ⟨before, _, isEntries, -⟩ := lookup_eq_some_iff.mp found
  have isMap : rootNumber map.keysRoot % 4 ≠ 0 := by
    intro noMap
    simp [entries, noMap] at isEntries
  refine ⟨before.length, ?_, ?_⟩
  · rw [size, isEntries, length_append, length_cons]
    omega
  · rw [tree_eq_keys isMap, isEntries, getElem?_map, getElem?_append_right le_rfl, Nat.sub_self]
    rfl

/-- What the client keeps is committed to. -/
def commitments (store : ClientStore) (H : HashFunction) : Commitments where
  element root _ index := (store.tree (rootNumber root))[index]?
  value := store.lookup
  rawtx serialized outputIndex := (parseAnswer H (store.parse serialized) outputIndex).2
  key_of_value := exists_key_of_lookup

theorem eq_some_of_lookupAnswer {found : Option Bytes} {outLen : Nat}
    (answered : lookupAnswer found outLen = .ok bytes) : found = some bytes := by
  cases found with
  | none => cases answered
  | some value =>
    simp only [lookupAnswer] at answered
    split_ifs at answered
    cases answered
    rfl

/-- The client answers what it is committed to. -/
theorem holdOn_of_answeredBy {H : HashFunction} {others : (question : Question) → Answer question}
    {exchanges : Trace} (answered : AnsweredBy (store.answers H others) exchanges) :
    (store.commitments H).HoldOn exchanges := by
  rintro ⟨question, answer⟩ mem
  obtain rfl : answer = store.answers H others question := answered _ mem
  cases question with
  | leafElement root size index outLen
  | mapValue map key outLen => exact fun bytes found => eq_some_of_lookupAnswer found
  | streamMapValue map key =>
    simp only [Commitments.Holds, answers, streamAnswer]
    cases found : store.lookup map key with
    | none => exact fun nonneg => absurd nonneg (by decide)
    | some value => exact fun _ => ⟨value, found, rfl, flatten_singleton⟩
  | parseRawtx map key outputIndex =>
    simp only [Commitments.Holds, answers]
    cases found : store.lookup map key with
    | none => exact fun nonneg => absurd nonneg (Int.not_le.mpr (Int.negSucc_lt_zero 0))
    | some value => exact fun _ => ⟨value, found, rfl⟩
  | _ => trivial

end ClientStore

/-- A signature of the given kind is yielded. -/
def Question.isYieldOf (chosen : Signing → Bool) : Question → Bool
  | .yield signing _ => chosen signing
  | _ => false

/-- In a run in which the sample client gets a signature, there is a point at which it gets it. -/
theorem ClientStore.exists_run_at_yieldOf (device : Device) (store : ClientStore)
    (chosen : Signing → Bool)
    (yields : ((handlerSignPsbt device 1 store.sampleRequest).transcript
      store.sampleAnswers).any (fun exchange => exchange.1.isYieldOf chosen) = true) :
    ∃ before signing response resumed after result,
      Runs (handlerSignPsbt device 1 store.sampleRequest)
        (before ++ ⟨.yield signing response, resumed⟩ :: after) result ∧
      AnsweredBy store.sampleAnswers before ∧ chosen signing = true := by
  obtain ⟨⟨question, answer⟩, mem, isYielded⟩ := any_eq_true.mp yields
  obtain ⟨before, after, isTrace⟩ := append_of_mem mem
  have run := Dialogue.runs_transcript store.sampleAnswers
    (handlerSignPsbt device 1 store.sampleRequest)
  have answered := answeredBy_transcript store.sampleAnswers
    (handlerSignPsbt device 1 store.sampleRequest)
  cases question with
  | yield signing response =>
    rw [isTrace] at run answered
    exact ⟨before, signing, response, answer, after, _, run, (answeredBy_append_iff.mp answered).1,
      isYielded⟩
  | _ => cases isYielded

theorem ClientStore.exists_run_at_yield (device : Device) (store : ClientStore)
    (yields : ((handlerSignPsbt device 1 store.sampleRequest).transcript
      store.sampleAnswers).any (fun exchange => exchange.1.isYieldOf fun _ => true) = true) :
    ∃ before signing response resumed after result,
      Runs (handlerSignPsbt device 1 store.sampleRequest)
        (before ++ ⟨.yield signing response, resumed⟩ :: after) result ∧
      AnsweredBy store.sampleAnswers before := by
  obtain ⟨before, signing, response, resumed, after, result, run, answered, -⟩ :=
    exists_run_at_yieldOf device store _ yields
  exact ⟨before, signing, response, resumed, after, result, run, answered⟩

/-- The review in such a run. -/
theorem ClientStore.exists_review (device : Device) (store : ClientStore)
    (yields : ((handlerSignPsbt device 1 store.sampleRequest).transcript
      store.sampleAnswers).any (fun exchange => exchange.1.isYieldOf fun _ => true) = true) :
    ∃ review : Review device 1 store.sampleRequest,
      AnsweredBy store.sampleAnswers review.trace := by
  obtain ⟨_, _, _, _, _, _, run, answered⟩ := exists_run_at_yield device store yields
  obtain ⟨review, _, _, _, rfl, -⟩ := exists_review_of_yield run
  exact ⟨review, (answeredBy_append_iff.mp answered).1⟩

end LedgerSyscoin.Handler
