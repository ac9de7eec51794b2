import LedgerSyscoin.Handler.SignPsbt.Committed

/-!
# The reviewed inputs

The loop over the inputs is unrolled: for each input it is known how it was read, and
whether it was found to be internal. The state afterwards is determined by the inputs:
the sum of their amounts, the set of internal ones, and whether the user is warned.
-/

namespace LedgerSyscoin.Handler

open Foundation Common Boilerplate List
open Dialogue (Runs Unrolls forRange_unrolls)
open Program (refuseIf)

variable {received input : InputInfo} {i : Nat} {internalInputs : Bytes}
  {next : SignPsbtState × Bytes}

/-! ## The previous output -/

/-- The input with the amount and the script of its previous output. -/
def InputInfo.withPrevout (input : InputInfo) (amount : Nat) (scriptPubKey : Bytes) : InputInfo :=
  { input with
    prevoutAmount := amount
    inOut := { input.inOut with scriptPubKey := some scriptPubKey } }

/-- How the previous output of an input is read: from the previous transaction, from the witness
UTXO, or from both, which must agree. -/
inductive ReadsPrevout (device : Device) (received : InputInfo) :
    (exchanges : Trace) → (amount : Nat) → (scriptPubKey : Bytes) → Prop
  | nonWitness {hashing fetching : Trace} {prevoutHash : Bytes} {amount : Nat}
      {scriptPubKey : Bytes} (hasNonWitnessUtxo : received.hasNonWitnessUtxo = true)
      (hasWitnessUtxo : received.hasWitnessUtxo = false)
      (hashes : Runs (getPrevoutHash device received.inOut.map) hashing (.ok prevoutHash))
      (fetches : Runs (getAmountScriptpubkeyFromPsbtNonwitness received.inOut.map
        (some prevoutHash)) fetching (.ok (some (amount, scriptPubKey)))) :
      ReadsPrevout device received (hashing ++ fetching) amount scriptPubKey
  | witness {fetching : Trace} {amount : Nat} {scriptPubKey : Bytes}
      (hasNonWitnessUtxo : received.hasNonWitnessUtxo = false)
      (hasWitnessUtxo : received.hasWitnessUtxo = true)
      (fetches : Runs (getAmountScriptpubkeyFromPsbtWitness received.inOut.map) fetching
        (.ok (some (amount, scriptPubKey)))) :
      ReadsPrevout device received fetching amount scriptPubKey
  | both {hashing fetching comparing : Trace} {prevoutHash : Bytes} {amount : Nat}
      {scriptPubKey : Bytes} (hasNonWitnessUtxo : received.hasNonWitnessUtxo = true)
      (hasWitnessUtxo : received.hasWitnessUtxo = true)
      (hashes : Runs (getPrevoutHash device received.inOut.map) hashing (.ok prevoutHash))
      (fetches : Runs (getAmountScriptpubkeyFromPsbtNonwitness received.inOut.map
        (some prevoutHash)) fetching (.ok (some (amount, scriptPubKey))))
      (compares : Runs (getAmountScriptpubkeyFromPsbtWitness received.inOut.map) comparing
        (.ok (some (amount, scriptPubKey)))) :
      ReadsPrevout device received (hashing ++ (fetching ++ comparing)) amount scriptPubKey

variable {device : Device} {exchanges : Trace}

theorem runs_readNonWitnessUtxo_ok
    (run : Runs (readNonWitnessUtxo device received) exchanges (.ok input)) :
    (received.hasNonWitnessUtxo = false ∧ exchanges = [] ∧ input = received) ∨
      received.hasNonWitnessUtxo = true ∧ ∃ prevoutHash hashing fetching amount scriptPubKey,
        exchanges = hashing ++ fetching ∧
        Runs (getPrevoutHash device received.inOut.map) hashing (.ok prevoutHash) ∧
        Runs (getAmountScriptpubkeyFromPsbtNonwitness received.inOut.map (some prevoutHash))
          fetching (.ok (some (amount, scriptPubKey))) ∧
        input = received.withPrevout amount scriptPubKey := by
  rw [readNonWitnessUtxo] at run
  split_ifs at run with present
  · obtain ⟨prevoutHash, hashing, fetching, rfl, hashes, run⟩ := run.bind_ok
    obtain ⟨found, fetching, _, rfl, fetches, returns⟩ := run.bind_ok
    cases found with
    | none => exact returns.refused.elim
    | some found =>
      obtain ⟨amount, scriptPubKey⟩ := found
      obtain ⟨rfl, ⟨⟩⟩ := returns.pure
      exact .inr ⟨present, prevoutHash, hashing, fetching, amount, scriptPubKey, by simp, hashes,
        fetches, rfl⟩
  · obtain ⟨rfl, ⟨⟩⟩ := run.pure
    exact .inl ⟨by simpa using present, rfl, rfl⟩

theorem runs_readWitnessUtxo_ok (run : Runs (readWitnessUtxo received) exchanges (.ok input)) :
    (received.hasWitnessUtxo = false ∧ exchanges = [] ∧ input = received) ∨
      received.hasWitnessUtxo = true ∧ ∃ amount scriptPubKey,
        Runs (getAmountScriptpubkeyFromPsbtWitness received.inOut.map) exchanges
          (.ok (some (amount, scriptPubKey))) ∧
        if received.hasNonWitnessUtxo then received.inOut.scriptPubKey = some scriptPubKey ∧
          received.prevoutAmount = amount ∧ input = received
        else input = received.withPrevout amount scriptPubKey := by
  rw [readWitnessUtxo] at run
  by_cases present : received.hasWitnessUtxo = true
  · rw [if_neg (not_not.mpr present)] at run
    obtain ⟨found, _, _, rfl, _, returns⟩ := run.bind_ok
    cases found with
    | none => exact returns.refused.elim
    | some found =>
      obtain ⟨amount, scriptPubKey⟩ := found
      refine .inr ⟨present, amount, scriptPubKey, ?_⟩
      dsimp only at returns
      split_ifs at returns ⊢ with verified
      · obtain ⟨agrees, returns⟩ := returns.refuseIf_bind
        obtain ⟨rfl, ⟨⟩⟩ := returns.pure
        push Not at agrees
        exact ⟨by rwa [append_nil], agrees.1, agrees.2, rfl⟩
      · obtain ⟨rfl, ⟨⟩⟩ := returns.pure
        exact ⟨by rwa [append_nil], rfl⟩
  · rw [if_pos present] at run
    obtain ⟨rfl, ⟨⟩⟩ := run.pure
    exact .inl ⟨by simpa using present, rfl, rfl⟩

variable {placeholderInfo : PlaceholderInfo} {st : SignPsbtState}

/-- An input that is read was received, and then its previous output was read. -/
theorem runs_readInput_ok
    (run : Runs (readInput device placeholderInfo st i) exchanges (.ok input)) :
    ∃ res received receiving fetching amount scriptPubKey, exchanges = receiving ++ fetching ∧
      Runs (receiveInput device placeholderInfo (.input i) st.inputsRoot st.nInputs i) receiving
        (.ok (res, received)) ∧ 0 ≤ res ∧
      ReadsPrevout device received fetching amount scriptPubKey ∧
      input = received.withPrevout amount scriptPubKey := by
  obtain ⟨⟨res, received⟩, receiving, fetching, rfl, receives, run⟩ := run.bind_ok
  obtain ⟨succeeds, run⟩ := run.refuseIf_bind
  obtain ⟨-, run⟩ := run.refuseIf_bind
  obtain ⟨known, run⟩ := run.refuseIf_bind
  obtain ⟨verified, _, second, rfl, readsNonWitness, readsWitness⟩ := run.bind_ok
  rcases runs_readNonWitnessUtxo_ok readsNonWitness with ⟨absent, rfl, rfl⟩ |
    ⟨present, _, hashing, fetching, amount, scriptPubKey, rfl, hashes, fetches, rfl⟩
  · rcases runs_readWitnessUtxo_ok readsWitness with ⟨none, -, -⟩ |
      ⟨some, amount, scriptPubKey, fetches, isInput⟩
    · simp [absent, none] at known
    · rw [absent] at isInput
      exact ⟨res, verified, receiving, second, amount, scriptPubKey, by simp, receives,
        not_lt.mp succeeds, .witness absent some fetches, by simpa using isInput⟩
  · rcases runs_readWitnessUtxo_ok readsWitness with ⟨none, rfl, rfl⟩ |
      ⟨some, _, _, compares, isInput⟩
    · exact ⟨res, received, receiving, hashing ++ fetching, amount, scriptPubKey, by simp, receives,
        not_lt.mp succeeds, .nonWitness present none hashes fetches, rfl⟩
    · rw [if_pos (show (received.withPrevout amount scriptPubKey).hasNonWitnessUtxo = true from
        present)] at isInput
      obtain ⟨sameScript, sameAmount, rfl⟩ := isInput
      cases sameScript
      cases sameAmount
      exact ⟨res, received, receiving, _, amount, scriptPubKey, by simp, receives,
        not_lt.mp succeeds, .both present some hashes fetches compares, rfl⟩

/-! ## The state -/

/-- An input after the review: what was read, whether it is internal, and whether its type of
signature hash needs a warning. -/
structure ReviewedInput where
  input : InputInfo
  isInternal : Bool
  isNondefault : Bool

/-- Add the amount of an input to the sum. -/
def SignPsbtState.addInput (st : SignPsbtState) (input : InputInfo) : SignPsbtState :=
  { st with inputsTotalAmount := st.inputsTotalAmount + UInt64.ofNat input.prevoutAmount }

/-- An internal input without the previous transaction, under a policy of version 0. -/
def isUnverified (policy : PolicyNode) (reviewed : ReviewedInput) : Bool :=
  reviewed.isInternal && (getPolicySegwitVersion policy = 0 ∧ ¬reviewed.input.hasNonWitnessUtxo)

/-- The state after some inputs. -/
def SignPsbtState.afterInputs (st : SignPsbtState) (reviewed : List ReviewedInput) :
    SignPsbtState :=
  { st with
    inputsTotalAmount := st.inputsTotalAmount +
      UInt64.ofNat (reviewed.map (·.input.prevoutAmount)).sum
    showMissingNonwitnessutxoWarning := st.showMissingNonwitnessutxoWarning ||
      reviewed.any (isUnverified st.wallet.policy)
    showNondefaultSighashWarning := st.showNondefaultSighashWarning ||
      reviewed.any fun input => input.isInternal && input.isNondefault }

namespace SignPsbtState

variable (st : SignPsbtState)

theorem afterInputs_external (input : InputInfo) (isNondefault : Bool) :
    st.afterInputs [⟨input, false, isNondefault⟩] = st.addInput input := by
  simp [afterInputs, addInput, isUnverified]

theorem afterInputs_internal (input : InputInfo) (isNondefault : Bool) :
    st.afterInputs [⟨input, true, isNondefault⟩] =
      { st.addInput input with
        showMissingNonwitnessutxoWarning := st.showMissingNonwitnessutxoWarning ||
          isUnverified st.wallet.policy ⟨input, true, isNondefault⟩
        showNondefaultSighashWarning := st.showNondefaultSighashWarning || isNondefault } := by
  simp [afterInputs, addInput]

theorem afterInputs_nil : st.afterInputs [] = st := by
  simp [afterInputs]

theorem afterInputs_append (first second : List ReviewedInput) :
    (st.afterInputs first).afterInputs second = st.afterInputs (first ++ second) := by
  simp [afterInputs, UInt64.ofNat_add, UInt64.add_assoc, Bool.or_assoc]

end SignPsbtState

/-! ## One input -/

/-- An internal input has the fields that its policy asks for. -/
structure FieldsPresent (policy : PolicyNode) (input : InputInfo) : Prop where
  nonWitnessUtxo : getPolicySegwitVersion policy = -1 → input.hasNonWitnessUtxo = true
  witnessUtxo : 0 ≤ getPolicySegwitVersion policy → input.hasWitnessUtxo = true

theorem runs_checkInternalInput_ok {st next : SignPsbtState}
    (run : Runs (checkInternalInput st input i) exchanges (.ok next)) :
    FieldsPresent st.wallet.policy input ∧
      ∃ isNondefault, Runs (readNondefaultSighash st input i) exchanges (.ok isNondefault) ∧
        next = { st with
          showMissingNonwitnessutxoWarning := st.showMissingNonwitnessutxoWarning ||
            isUnverified st.wallet.policy ⟨input, true, isNondefault⟩
          showNondefaultSighashWarning := st.showNondefaultSighashWarning || isNondefault } := by
  rw [checkInternalInput] at run
  obtain ⟨nonWitness, run⟩ := run.refuseIf_bind
  obtain ⟨witness, run⟩ := run.refuseIf_bind
  obtain ⟨isNondefault, _, _, rfl, reads, returns⟩ := run.bind_ok
  obtain ⟨rfl, ⟨⟩⟩ := returns.pure
  rw [append_nil]
  refine ⟨⟨fun isLegacy => ?_, fun isSegwit => ?_⟩, isNondefault, reads, by simp [isUnverified]⟩
  · by_contra absent
    exact nonWitness ⟨isLegacy, absent⟩
  · by_contra absent
    exact witness ⟨isSegwit, absent⟩

/-- A turn of the loop over the inputs. -/
inductive ReviewsInput (device : Device) (placeholderInfo : PlaceholderInfo) (i : Nat)
    (st : SignPsbtState) (internalInputs : Bytes) :
    Trace → SignPsbtState × Bytes → ReviewedInput → Prop
  | external {reading comparing : Trace} {input : InputInfo}
      (reads : Runs (readInput device placeholderInfo st i) reading (.ok input))
      (compares : Runs (isInOutInternal (st.addInput input) input.inOut (.input i) true) comparing
        (.ok (some false))) :
      ReviewsInput device placeholderInfo i st internalInputs (reading ++ comparing)
        (st.afterInputs [⟨input, false, false⟩], internalInputs) ⟨input, false, false⟩
  | internal {reading comparing checking : Trace} {input : InputInfo} {isNondefault : Bool}
      {updated : Bytes}
      (reads : Runs (readInput device placeholderInfo st i) reading (.ok input))
      (compares : Runs (isInOutInternal (st.addInput input) input.inOut (.input i) true) comparing
        (.ok (some true)))
      (sets : bitvectorSet internalInputs i true = some updated)
      (present : FieldsPresent st.wallet.policy input)
      (checks : Runs (readNondefaultSighash (st.addInput input) input i) checking
        (.ok isNondefault)) :
      ReviewsInput device placeholderInfo i st internalInputs (reading ++ (comparing ++ checking))
        (st.afterInputs [⟨input, true, isNondefault⟩], updated) ⟨input, true, isNondefault⟩

/-- Every turn starts with reading the input. -/
theorem ReviewsInput.exists_reads {reviewed : ReviewedInput}
    (turn : ReviewsInput device placeholderInfo i st internalInputs exchanges next reviewed) :
    ∃ reading rest, exchanges = reading ++ rest ∧
      Runs (readInput device placeholderInfo st i) reading (.ok reviewed.input) := by
  cases turn with
  | external reads compares => exact ⟨_, _, rfl, reads⟩
  | internal reads compares sets present checks => exact ⟨_, _, rfl, reads⟩

theorem exists_reviewsInput
    (run : Runs (preprocessInput device placeholderInfo i (st, internalInputs)) exchanges
      (.ok next)) :
    ∃ reviewed,
      ReviewsInput device placeholderInfo i st internalInputs exchanges next reviewed := by
  obtain ⟨_, _, rest, rfl, reads, run⟩ := run.bind_ok
  obtain ⟨isInternal, _, rest, rfl, compares, run⟩ := run.bind_ok
  cases isInternal with
  | none => exact run.refused.elim
  | some isInternal =>
    cases isInternal with
    | false =>
      obtain ⟨rfl, ⟨⟩⟩ := run.pure
      rw [append_nil]
      have turn : ReviewsInput device placeholderInfo i st internalInputs _ _ _ :=
        .external reads compares
      rw [SignPsbtState.afterInputs_external] at turn
      exact ⟨_, turn⟩
    | true =>
      dsimp only at run
      cases sets : bitvectorSet internalInputs i true with
      | none =>
        rw [sets] at run
        exact run.undefined.elim
      | some updated =>
        rw [sets] at run
        obtain ⟨_, _, rest, rfl, checks, returns⟩ := run.bind_ok
        obtain ⟨rfl, ⟨⟩⟩ := returns.pure
        obtain ⟨present, _, checksSighash, rfl⟩ := runs_checkInternalInput_ok checks
        rw [append_nil]
        have turn := ReviewsInput.internal reads compares sets present checksSighash
        rw [SignPsbtState.afterInputs_internal] at turn
        exact ⟨_, turn⟩

/-! ## All inputs -/

/-- The loop over the inputs, unrolled. -/
def ReviewsInputs (device : Device) (placeholderInfo : PlaceholderInfo) (st : SignPsbtState) :
    Trace → SignPsbtState × Bytes → List ReviewedInput → Prop :=
  Unrolls (fun i progress => ReviewsInput device placeholderInfo i progress.1 progress.2)
    (st, replicate (bitvectorRealSize maxNInputsCanSign) 0)

theorem exists_reviewsInputs {final : SignPsbtState × Bytes}
    (run : Runs (preprocessInputs device st) exchanges (.ok final)) :
    ∃ placeholderInfo finding reviewing reviewed, exchanges = finding ++ reviewing ∧
      Runs (findFirstInternalKeyPlaceholder device st) finding (.ok placeholderInfo) ∧
      reviewed.length = st.nInputs ∧
      ReviewsInputs device placeholderInfo st reviewing final reviewed := by
  obtain ⟨placeholderInfo, finding, reviewing, rfl, finds, loops⟩ := run.bind_ok
  obtain ⟨reviewed, length, unrolls⟩ := forRange_unrolls
    (fun i progress => ReviewsInput device placeholderInfo i progress.1 progress.2) loops
    fun ran => exists_reviewsInput ran
  exact ⟨placeholderInfo, finding, reviewing, reviewed, rfl, finds, length, unrolls⟩

section Reviewed

variable {device : Device} {placeholderInfo : PlaceholderInfo} {st : SignPsbtState}
  {exchanges : Trace} {final : SignPsbtState × Bytes} {reviewed : List ReviewedInput}
  (reviews : ReviewsInputs device placeholderInfo st exchanges final reviewed)

include reviews

/-- The state and the set of internal inputs after the loop. -/
theorem final_of_reviewsInputs :
    final.1 = st.afterInputs reviewed ∧ ∀ i, bitvectorGet final.2 i = some true ↔
      ∃ input, reviewed[i]? = some input ∧ input.isInternal = true := by
  induction reviews with
  | nil =>
    refine ⟨st.afterInputs_nil.symm, fun i => iff_of_false ?_ (by simp)⟩
    by_cases inside : i / 8 < bitvectorRealSize maxNInputsCanSign
    · rw [bitvectorGet_replicate inside]
      simp
    · rw [bitvectorGet_eq_none_iff.mpr (by simpa using inside)]
      simp
  | @snoc earlier turned current next seen input unrolled turn ih =>
    obtain ⟨_, _⟩ := current
    obtain ⟨rfl, bits⟩ := ih
    have added : ∀ i, (∃ found, (seen ++ [input])[i]? = some found ∧ found.isInternal = true) ↔
        (∃ found, seen[i]? = some found ∧ found.isInternal = true) ∨
          i = seen.length ∧ input.isInternal = true := by
      intro i
      rcases Nat.lt_trichotomy i seen.length with inside | rfl | outside
      · rw [getElem?_append_left inside]
        simp [Nat.ne_of_lt inside]
      · simp
      · rw [getElem?_eq_none (by simp; omega), getElem?_eq_none (by omega)]
        simp [Nat.ne_of_gt outside]
    cases turn with
    | external reads compares =>
      refine ⟨st.afterInputs_append _ _, fun i => ?_⟩
      rw [added, bits]
      simp
    | internal reads compares sets present checks =>
      refine ⟨st.afterInputs_append _ _, fun i => ?_⟩
      rw [added, bitvectorGet_bitvectorSet sets, ← bits]
      split_ifs with isLast <;> simp [isLast]

end Reviewed

/-! ## Internal inputs -/

namespace Review

variable {device : Device} {protocolVersion : Nat} {readBuffer : Buffer}

/-- The review of an internal input. -/
structure InternalInput (review : Review device protocolVersion readBuffer) (i : Nat) where
  placeholderInfo : PlaceholderInfo
  earlier : List ReviewedInput
  input : InputInfo
  isNondefault : Bool
  skipped : Trace
  reading : Trace
  comparing : Trace
  checking : Trace
  later : Trace
  inputs_eq : review.inputs = skipped ++ (reading ++ (comparing ++ (checking ++ later)))
  reads : Runs (readInput device placeholderInfo (review.initial.afterInputs earlier) i) reading
    (.ok input)
  compares : Runs (isInOutInternal ((review.initial.afterInputs earlier).addInput input) input.inOut
    (.input i) true) comparing (.ok (some true))
  present : FieldsPresent review.initial.wallet.policy input
  checks :
    Runs (readNondefaultSighash ((review.initial.afterInputs earlier).addInput input) input i)
    checking (.ok isNondefault)
  warnsUnverified : isUnverified review.initial.wallet.policy ⟨input, true, isNondefault⟩ = true →
    review.preprocessed.showMissingNonwitnessutxoWarning = true
  warnsNondefault : isNondefault = true → review.preprocessed.showNondefaultSighashWarning = true

theorem exists_internalInput (review : Review device protocolVersion readBuffer)
    (isInternal : bitvectorGet review.internalInputs i = some true) :
    Nonempty (review.InternalInput i) := by
  obtain ⟨placeholderInfo, finding, _, reviewed, inputs_eq, -, -, reviews⟩ :=
    exists_reviewsInputs review.processesInputs
  obtain ⟨isPreprocessed, isSet⟩ := final_of_reviewsInputs reviews
  obtain ⟨_, isFound, foundInternal⟩ := (isSet i).mp isInternal
  have mem := mem_of_getElem? isFound
  obtain ⟨⟨_, _⟩, _, first, _, last, rfl, before, turn⟩ := reviews.get isFound
  obtain ⟨isState, -⟩ := final_of_reviewsInputs before
  dsimp only at isState isPreprocessed
  subst isState
  cases turn with
  | external reads compares => cases foundInternal
  | @internal reading comparing checking input isNondefault updated reads compares sets present
      checks =>
      refine ⟨{
        placeholderInfo, earlier := reviewed.take i, input, isNondefault,
        skipped := finding ++ first, reading, comparing, checking, later := last,
        inputs_eq := by rw [inputs_eq]; simp
        reads, compares, present, checks
        warnsUnverified := fun unverified => ?_
        warnsNondefault := fun nondefault => ?_ }⟩
      · rw [isPreprocessed]
        exact Bool.or_eq_true_iff.mpr (.inr (any_eq_true.mpr ⟨_, mem, unverified⟩))
      · rw [isPreprocessed]
        exact Bool.or_eq_true_iff.mpr (.inr (any_eq_true.mpr ⟨_, mem, by simpa using
          nondefault⟩))

/-- The state after the inputs. -/
theorem preprocessed_eq (review : Review device protocolVersion readBuffer) :
    ∃ reviewed, review.preprocessed = review.initial.afterInputs reviewed := by
  obtain ⟨_, _, _, reviewed, -, -, -, reviews⟩ := exists_reviewsInputs review.processesInputs
  exact ⟨reviewed, (final_of_reviewsInputs reviews).1⟩

end Review

end LedgerSyscoin.Handler
