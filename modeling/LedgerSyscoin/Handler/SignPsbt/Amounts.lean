import LedgerSyscoin.Handler.SignPsbt.Fees
import LedgerSyscoin.Handler.SignPsbt.SighashTypes

/-!
# Amounts of the inputs

The amount and the script of the output that an input spends are read when the input is
reviewed, when the hashes over all inputs are computed, and when it is signed. If
lookups return what is committed to, these are the same, even if the client denies what
is there: a field that was found is one that the review has seen, and if there are two,
the review has compared them.
-/

namespace LedgerSyscoin.Handler

open Foundation Common Boilerplate List
open Dialogue (Runs)

variable {i : Nat} {hashes : SegwitHashes} {sighash : Digest}

/-! ## The committed previous output -/

/-- The amount and the script in a witness UTXO. -/
def witnessPrevout (witnessUtxo : Bytes) : Nat × Bytes :=
  (leNat (witnessUtxo.take 8), witnessUtxo.drop 9)

/-- The amount and the script of the output that was parsed. -/
def TxidParserOutputs.prevout (outputs : TxidParserOutputs) : Nat × Bytes :=
  (outputs.voutValue, outputs.voutScriptpubkey.take outputs.voutScriptpubkeyLen.toNat)

variable {st : SignPsbtState} {device : Device}

namespace Commitments

variable {H : HashFunction} {received : InputInfo} {amount : Nat} {scriptPubKey : Bytes}

/-- The output of the previous transaction that an input spends. -/
def previousOutput (commitments : Commitments) (map : MerkleizedMapCommitment) :
    Option TxidParserOutputs := do
  let rawtx ← commitments.value map [psbtInNonWitnessUtxo]
  let prevoutN ← commitments.value map [psbtInOutputIndex]
  return commitments.rawtx rawtx (UInt32.ofNat (leNat prevoutN))

variable {commitments : Commitments} {map : MerkleizedMapCommitment} {exchanges : Trace}
  {prevout : Nat × Bytes}

theorem runs_getAmountScriptpubkeyFromPsbtWitness_some
    (run : Runs (getAmountScriptpubkeyFromPsbtWitness map) exchanges (.ok (some prevout)))
    (hold : commitments.HoldOn exchanges) :
    ∃ witnessUtxo, commitments.value map [psbtInWitnessUtxo] = some witnessUtxo ∧
      prevout = witnessPrevout witnessUtxo := by
  obtain ⟨answer, _, rfl, received⟩ := run.question
  cases answer with
  | error code => cases received.pure.2
  | ok witnessUtxo =>
    refine ⟨witnessUtxo, hold _ mem_cons_self witnessUtxo rfl, ?_⟩
    dsimp only at received
    split at received
    · cases received.pure.2
    · split_ifs at received
      · cases received.pure.2
      · cases received.pure.2
        rfl

theorem runs_getAmountScriptpubkeyFromPsbtNonwitness_some {expectedPrevoutHash : Option Bytes}
    (run : Runs (getAmountScriptpubkeyFromPsbtNonwitness map expectedPrevoutHash) exchanges
      (.ok (some prevout)))
    (hold : commitments.HoldOn exchanges) :
    ∃ outputs, commitments.previousOutput map = some outputs ∧ prevout = outputs.prevout ∧
      ∀ prevoutHash, expectedPrevoutHash = some prevoutHash → prevoutHash = outputs.txid.val := by
  obtain ⟨found, _, rest, rfl, fetches, parses⟩ := run.bind_ok
  cases found with
  | none => cases parses.pure.2
  | some prevoutN =>
    obtain ⟨rfl, -⟩ := fetches.valueOfLength
    obtain ⟨⟨res, outputs⟩, rest, rfl, checks⟩ := parses.question
    have isIndex := hold _ mem_cons_self prevoutN rfl
    have isParsed := hold ⟨.parseRawtx map [psbtInNonWitnessUtxo]
      (UInt32.ofNat (leNat prevoutN)), (res, outputs)⟩ (by simp)
    dsimp only at checks
    split_ifs at checks with failed differs tooLong
    · cases checks.pure.2
    · cases checks.pure.2
    · exact checks.undefined.elim
    · obtain ⟨_, isRawtx, isOutputs⟩ := isParsed (not_lt.mp failed)
      cases checks.pure.2
      refine ⟨outputs, by simp [previousOutput, isRawtx, isIndex, isOutputs], rfl, ?_⟩
      rintro prevoutHash rfl
      simpa using differs

theorem hasKeyType_of_previousOutput {outputs : TxidParserOutputs}
    (isOutputs : commitments.previousOutput map = some outputs) :
    commitments.HasKeyType map psbtInNonWitnessUtxo := by
  obtain ⟨_, isRawtx, -⟩ := Option.bind_eq_some_iff.mp isOutputs
  exact hasKeyType_of_value isRawtx

/-- Whatever the client denies, the previous output is found in one of the two fields. -/
theorem runs_getAmountScriptpubkeyFromPsbt_some
    (run : Runs (getAmountScriptpubkeyFromPsbt map) exchanges (.ok (some prevout)))
    (hold : commitments.HoldOn exchanges) :
    (∃ witnessUtxo, commitments.value map [psbtInWitnessUtxo] = some witnessUtxo ∧
      prevout = witnessPrevout witnessUtxo) ∨
    ∃ outputs, commitments.previousOutput map = some outputs ∧ prevout = outputs.prevout := by
  obtain ⟨found, _, _, rfl, readsWitness, continues⟩ := run.bind_ok
  obtain ⟨holdFirst, holdSecond⟩ := holdOn_append_iff.mp hold
  cases found with
  | some found =>
    cases continues.pure.2
    exact .inl (runs_getAmountScriptpubkeyFromPsbtWitness_some readsWitness holdFirst)
  | none =>
    obtain ⟨outputs, isOutputs, isPrevout, -⟩ :=
      runs_getAmountScriptpubkeyFromPsbtNonwitness_some continues holdSecond
    exact .inr ⟨outputs, isOutputs, isPrevout⟩

/-- The map of an input is the committed one. -/
theorem runs_getInputMap_ok
    (run : Runs (getInputMap st i) exchanges (.ok map)) (hold : commitments.HoldOn exchanges) :
    commitments.map st.inputsRoot st.nInputs i = some map := by
  obtain ⟨⟨_, _⟩, _, _, rfl, calls, checks⟩ := run.bind_ok
  obtain ⟨holdCalling, -⟩ := holdOn_append_iff.mp hold
  dsimp only at checks
  split_ifs at checks with failed
  · obtain ⟨_, _, _, _, refuses, _⟩ := checks.bind_ok
    exact refuses.refused.elim
  · cases checks.pure.2
    exact runs_callGetMerkleizedMap_ok calls (not_lt.mp failed) holdCalling

/-! ## The previous output of a reviewed input -/

/-- What the review knows of the previous output of an input: what is committed in either of the
two fields. -/
structure PrevoutReviewed (commitments : Commitments) (map : MerkleizedMapCommitment)
    (prevout : Nat × Bytes) : Prop where
  witness : ∀ witnessUtxo, commitments.value map [psbtInWitnessUtxo] = some witnessUtxo →
    prevout = witnessPrevout witnessUtxo
  nonWitness : ∀ outputs, commitments.previousOutput map = some outputs → prevout = outputs.prevout

theorem PrevoutReviewed.of_readsPrevout
    (reads : ReadsPrevout device received exchanges amount scriptPubKey)
    (hold : commitments.HoldOn exchanges) (hasWitnessUtxo : received.hasWitnessUtxo = true ↔
      commitments.HasKeyType received.inOut.map psbtInWitnessUtxo)
    (hasNonWitnessUtxo : received.hasNonWitnessUtxo = true ↔
      commitments.HasKeyType received.inOut.map psbtInNonWitnessUtxo) :
    PrevoutReviewed commitments received.inOut.map (amount, scriptPubKey) := by
  have witnessSeen : ∀ {witnessUtxo}, commitments.value received.inOut.map [psbtInWitnessUtxo] =
      some witnessUtxo → received.hasWitnessUtxo = true :=
    fun found => hasWitnessUtxo.mpr (hasKeyType_of_value found)
  have nonWitnessSeen : ∀ {outputs}, commitments.previousOutput received.inOut.map = some outputs →
      received.hasNonWitnessUtxo = true :=
    fun found => hasNonWitnessUtxo.mpr (hasKeyType_of_previousOutput found)
  cases reads with
  | nonWitness present absent hashes fetches =>
    obtain ⟨_, holdFetching⟩ := holdOn_append_iff.mp hold
    obtain ⟨outputs, isOutputs, isPrevout, -⟩ :=
      runs_getAmountScriptpubkeyFromPsbtNonwitness_some fetches holdFetching
    refine ⟨fun witnessUtxo found => ?_, fun others found => ?_⟩
    · cases absent.symm.trans (witnessSeen found)
    · cases isOutputs.symm.trans found
      exact isPrevout
  | witness absent present fetches =>
    obtain ⟨witnessUtxo, isWitnessUtxo, isPrevout⟩ :=
      runs_getAmountScriptpubkeyFromPsbtWitness_some fetches hold
    refine ⟨fun other found => ?_, fun outputs found => ?_⟩
    · cases isWitnessUtxo.symm.trans found
      exact isPrevout
    · cases absent.symm.trans (nonWitnessSeen found)
  | both _ _ hashes fetches compares =>
    obtain ⟨_, holdRest⟩ := holdOn_append_iff.mp hold
    obtain ⟨holdFetching, holdComparing⟩ := holdOn_append_iff.mp holdRest
    obtain ⟨outputs, isOutputs, isPrevout, -⟩ :=
      runs_getAmountScriptpubkeyFromPsbtNonwitness_some fetches holdFetching
    obtain ⟨witnessUtxo, isWitnessUtxo, isSame⟩ :=
      runs_getAmountScriptpubkeyFromPsbtWitness_some compares holdComparing
    refine ⟨fun other found => ?_, fun others found => ?_⟩
    · cases isWitnessUtxo.symm.trans found
      exact isSame
    · cases isOutputs.symm.trans found
      exact isPrevout

/-- What is read later is what the review has read. -/
theorem PrevoutReviewed.eq_of_read {later : Nat × Bytes}
    (reviewed : PrevoutReviewed commitments map prevout)
    (run : Runs (getAmountScriptpubkeyFromPsbt map) exchanges (.ok (some later)))
    (hold : commitments.HoldOn exchanges) : later = prevout := by
  rcases runs_getAmountScriptpubkeyFromPsbt_some run hold with ⟨witnessUtxo, found, isLater⟩ |
    ⟨outputs, found, isLater⟩
  · rw [isLater, reviewed.witness witnessUtxo found]
  · rw [isLater, reviewed.nonWitness outputs found]

/-- With the previous transaction, its id is that of the input. -/
theorem verified_of_readsPrevout
    (reads : ReadsPrevout device received exchanges amount scriptPubKey)
    (hold : commitments.HoldOn exchanges) (present : received.hasNonWitnessUtxo = true)
    (sized : ∀ prevoutHash, commitments.value received.inOut.map [psbtInPreviousTxid] =
      some prevoutHash → prevoutHash.length = 32) :
    ∃ outputs, commitments.previousOutput received.inOut.map = some outputs ∧
      (amount, scriptPubKey) = outputs.prevout ∧
      commitments.value received.inOut.map [psbtInPreviousTxid] = some outputs.txid.val := by
  obtain ⟨hashing, fetching, rest, prevoutHash, rfl, hashes, fetches⟩ :
      ∃ hashing fetching rest prevoutHash, exchanges = hashing ++ (fetching ++ rest) ∧
        Runs (getPrevoutHash device received.inOut.map) hashing (.ok prevoutHash) ∧
        Runs (getAmountScriptpubkeyFromPsbtNonwitness received.inOut.map (some prevoutHash))
          fetching (.ok (some (amount, scriptPubKey))) := by
    cases reads with
    | nonWitness _ _ hashes fetches =>
      exact ⟨_, _, [], _, by rw [append_nil], hashes, fetches⟩
    | witness absent _ _ => cases absent.symm.trans present
    | both _ _ hashes fetches compares => exact ⟨_, _, _, _, rfl, hashes, fetches⟩
  obtain ⟨holdHashing, holdRest⟩ := holdOn_append_iff.mp hold
  obtain ⟨holdFetching, -⟩ := holdOn_append_iff.mp holdRest
  obtain ⟨outputs, isOutputs, isPrevout, isTxid⟩ :=
    runs_getAmountScriptpubkeyFromPsbtNonwitness_some fetches holdFetching
  refine ⟨outputs, isOutputs, isPrevout, ?_⟩
  obtain ⟨answer, rest, rfl, received⟩ := hashes.question
  cases answer with
  | error code => exact received.refused.elim
  | ok bytes =>
    have isValue := holdHashing _ mem_cons_self bytes rfl
    obtain ⟨-, isHash⟩ := received.pure
    cases isHash
    rw [← isTxid _ rfl, isValue, drop_of_length_le, append_nil]
    simp [Device.uninitialized, sized bytes isValue]

/-! ## The hashes over all inputs -/

section Loops

variable {st : SignPsbtState} {remaining index : Nat} {prevouts : List (Nat × Bytes)}

/-- The amounts and scripts that are hashed are those of the review. -/
theorem runs_hashAmountsLoop_ok
    (reviewed : ∀ i map prevout, commitments.map st.inputsRoot st.nInputs i = some map →
      prevouts[i]? = some prevout → PrevoutReviewed commitments map prevout)
    {amounts scriptPubkeys finalAmounts finalScriptPubkeys : Bytes}
    (run : Runs (hashAmountsLoop st remaining index amounts scriptPubkeys) exchanges
      (.ok (finalAmounts, finalScriptPubkeys)))
    (hold : commitments.HoldOn exchanges) (all : index + remaining = prevouts.length) :
    finalAmounts = amounts ++ (prevouts.drop index).flatMap (fun prevout => leBytes 8 prevout.1) ∧
      finalScriptPubkeys = scriptPubkeys ++
        (prevouts.drop index).flatMap
          (fun prevout => varintWrite prevout.2.length ++ prevout.2) := by
  induction remaining generalizing index amounts scriptPubkeys exchanges with
  | zero =>
    cases run.pure.2
    rw [drop_of_length_le (by omega)]
    simp
  | succ remaining ih =>
    obtain ⟨map, _, rest, rfl, receives, continues⟩ := run.bind_ok
    obtain ⟨found, _, rest, rfl, fetches, loops⟩ := continues.bind_ok
    simp only [holdOn_append_iff] at hold
    obtain ⟨holdReceiving, holdFetching, holdRest⟩ := hold
    cases found with
    | none => exact loops.refused.elim
    | some found =>
      have inside : index < prevouts.length := by omega
      have isFound : found = prevouts[index] :=
        (reviewed index map _ (runs_getInputMap_ok receives holdReceiving)
          (getElem?_eq_getElem inside)).eq_of_read fetches holdFetching
      obtain ⟨isAmounts, isScriptPubkeys⟩ := ih loops holdRest (by omega)
      rw [drop_eq_getElem_cons inside, isAmounts, isScriptPubkeys, ← isFound]
      simp

/-- The id of the previous transaction is read for every input. -/
theorem runs_hashPrevoutsLoop_ok {prevouts sequences : Bytes} {final : Bytes × Bytes}
    (run : Runs (hashPrevoutsLoop st remaining index prevouts sequences) exchanges (.ok final))
    (hold : commitments.HoldOn exchanges) (after : index ≤ i) (inside : i < index + remaining) :
    ∃ map prevoutHash, commitments.map st.inputsRoot st.nInputs i = some map ∧
      commitments.value map [psbtInPreviousTxid] = some prevoutHash ∧ prevoutHash.length = 32 := by
  induction remaining generalizing index prevouts sequences exchanges with
  | zero => omega
  | succ remaining ih =>
    obtain ⟨map, _, rest, rfl, receives, continues⟩ := run.bind_ok
    obtain ⟨prevoutHash, _, rest, rfl, hashes, proceeds⟩ := continues.bind_ok
    obtain ⟨_, _, rest, rfl, _, sequencing⟩ := proceeds.bind_ok
    obtain ⟨_, _, rest, rfl, _, loops⟩ := sequencing.bind_ok
    simp only [holdOn_append_iff] at hold
    obtain ⟨holdReceiving, holdHashing, -, -, holdRest⟩ := hold
    rcases Nat.eq_or_lt_of_le after with rfl | later
    · obtain ⟨rfl, sized⟩ := hashes.requireValue
      exact ⟨map, prevoutHash, runs_getInputMap_ok receives holdReceiving,
        holdHashing _ mem_cons_self prevoutHash rfl, sized⟩
    · exact ih loops holdRest later (by omega)

/-- What is hashed for all inputs. -/
theorem runs_computeSegwitHashes_ok
    (reviewed : ∀ i map prevout, commitments.map st.inputsRoot st.nInputs i = some map →
      prevouts[i]? = some prevout → PrevoutReviewed commitments map prevout)
    (run : Runs (computeSegwitHashes H st) exchanges (.ok hashes))
    (hold : commitments.HoldOn exchanges) (all : prevouts.length = st.nInputs) :
    hashes.shaAmounts = H (prevouts.flatMap fun prevout => leBytes 8 prevout.1) ∧
      hashes.shaScriptpubkeys =
        H (prevouts.flatMap fun prevout => varintWrite prevout.2.length ++ prevout.2) ∧
      ∀ i < st.nInputs, ∃ map prevoutHash, commitments.map st.inputsRoot st.nInputs i = some map ∧
        commitments.value map [psbtInPreviousTxid] = some prevoutHash ∧
        prevoutHash.length = 32 := by
  obtain ⟨⟨_, _⟩, _, rest, rfl, loopsPrevouts, continues⟩ := run.bind_ok
  obtain ⟨found, _, rest, rfl, _, proceeds⟩ := continues.bind_ok
  cases found with
  | none => exact proceeds.refused.elim
  | some found =>
    obtain ⟨⟨_, _⟩, _, rest, rfl, loopsAmounts, returns⟩ := proceeds.bind_ok
    cases returns.pure.2
    simp only [holdOn_append_iff] at hold
    obtain ⟨holdFirst, _, holdThird, _⟩ := hold
    obtain ⟨rfl, rfl⟩ := runs_hashAmountsLoop_ok reviewed loopsAmounts holdThird (by omega)
    exact ⟨rfl, rfl, fun i inside =>
      runs_hashPrevoutsLoop_ok loopsPrevouts holdFirst (Nat.zero_le i) (by omega)⟩

end Loops

/-! ## The hash that is signed -/

theorem length_of_getSequence {nSequence : Bytes}
    (run : Runs (getSequence map) exchanges (.ok nSequence)) : nSequence.length = 4 := by
  obtain ⟨found, _, _, _, fetches, returns⟩ := run.bind_ok
  cases found with
  | none =>
    cases returns.pure.2
    rfl
  | some found =>
    cases returns.pure.2
    exact fetches.valueOfLength.2

theorem length_of_signedOutputsHash {sighashByte : UInt32} {hash : Bytes}
    (run : Runs (signedOutputsHash H st hashes sighashByte i) exchanges (.ok hash)) :
    hash.length = 32 := by
  rw [signedOutputsHash] at run
  split_ifs at run
  · cases run.pure.2
    exact (H hashes.shaOutputs.val).property
  · obtain ⟨found, _, _, _, _, returns⟩ := run.bind_ok
    cases found with
    | none => exact returns.refused.elim
    | some output =>
      cases returns.pure.2
      exact (H (H output).val).property
  · cases run.pure.2
    exact length_replicate

/-- The hash covers the amount of the witness UTXO, before the last 44 bytes: the sequence number,
the hash of the outputs, the lock time and the type. -/
theorem runs_computeSighashSegwitv0_ok {input : InputInfo}
    (run : Runs (computeSighashSegwitv0 H st hashes input i) exchanges (.ok sighash))
    (hold : commitments.HoldOn exchanges) : ∃ witnessUtxo context rest,
      commitments.value input.inOut.map [psbtInWitnessUtxo] = some witnessUtxo ∧
      8 ≤ witnessUtxo.length ∧ rest.length = 44 ∧
      sighash = H (H (context ++ witnessUtxo.take 8 ++ rest)).val := by
  obtain ⟨_, _, rest, rfl, _, continues⟩ := run.bind_ok
  obtain ⟨_, _, rest, rfl, _, proceeds⟩ := continues.bind_ok
  obtain ⟨context, _, rest, rfl, _, fetches⟩ := proceeds.bind_ok
  obtain ⟨answer, rest, rfl, received⟩ := fetches.question
  cases answer with
  | error code => exact received.refused.elim
  | ok witnessUtxo =>
    have isValue := hold ⟨.mapValue input.inOut.map [psbtInWitnessUtxo]
      (8 + 1 + maxPrevoutScriptpubkeyLen), .ok witnessUtxo⟩ (by simp) witnessUtxo rfl
    dsimp only at received
    split_ifs at received with short
    · obtain ⟨_, _, _, _, refuses, _⟩ := received.bind_ok
      exact refuses.refused.elim
    · obtain ⟨nSequence, _, rest, rfl, reads, finishes⟩ := received.bind_ok
      obtain ⟨hashOutputs, _, rest, rfl, hashesOutputs, returns⟩ := finishes.bind_ok
      cases returns.pure.2
      refine ⟨witnessUtxo, context, nSequence ++ hashOutputs ++ leBytes 4 st.locktime.toNat ++
        leBytes 4 input.sighashType.toNat, isValue, not_lt.mp short, ?_, by simp⟩
      simp [length_of_getSequence reads, length_of_signedOutputsHash hashesOutputs]

end Commitments

/-- The hash that is signed under a policy of version 0 covers the amount of the witness UTXO. -/
theorem ComputesSighash.covers_witnessUtxo
    {placeholderInfo : PlaceholderInfo} {typed signed : InputInfo}
    {computing : Trace} {commitments : Commitments}
    (computes : ComputesSighash device st hashes placeholderInfo i typed computing signed sighash)
    (hold : commitments.HoldOn computing) (isSegwit : typed.hasWitnessUtxo = true)
    (isVersion0 : getPolicySegwitVersion st.wallet.policy = 0) :
    ∃ witnessUtxo context rest,
      commitments.value typed.inOut.map [psbtInWitnessUtxo] = some witnessUtxo ∧
      8 ≤ witnessUtxo.length ∧ rest.length = 44 ∧
      sighash = device.crypto.sha256
        (device.crypto.sha256 (context ++ witnessUtxo.take 8 ++ rest)).val := by
  cases computes with
  | legacy isLegacy _ _ _ => cases isLegacy.symm.trans isSegwit
  | segwitv0 _ _ fetches isSigned computes =>
    obtain ⟨-, holdHashing⟩ := Commitments.holdOn_append_iff.mp hold
    obtain ⟨_, _, rfl⟩ := runs_readWitnessProgram_ok fetches
    have sameMap : signed.inOut.map = typed.inOut.map := by
      rw [isSigned, withDefaultSighash]
      split_ifs <;> rfl
    rw [← sameMap]
    exact Commitments.runs_computeSighashSegwitv0_ok computes holdHashing
  | segwitv1 _ isVersion1 _ _ _ _ => cases isVersion0.symm.trans isVersion1

/-! ## Agreement -/

/-- The amount and the script of the previous output; the script of a reviewed input is there. -/
def ReviewedInput.prevout (reviewed : ReviewedInput) : Nat × Bytes :=
  (reviewed.input.prevoutAmount, reviewed.input.inOut.scriptPubKey.getD [])

section Agreement

variable {device : Device} {protocolVersion : Nat} {readBuffer : Buffer}
  {review : Review device protocolVersion readBuffer} {inputs : List ReviewedInput}
  {outputs : List ReviewedOutput} {commitments : Commitments} {reviewed : ReviewedInput}

/-- How a reviewed input was read. -/
theorem Review.Reads.exists_readsPrevout (reads : review.Reads inputs outputs)
    (hold : commitments.HoldOn review.inputs)
    (isInput : inputs[i]? = some reviewed) :
    ∃ received fetching amount scriptPubKey, commitments.HoldOn fetching ∧
      ReadsPrevout device received fetching amount scriptPubKey ∧
      reviewed.input = received.withPrevout amount scriptPubKey ∧
      commitments.map review.initial.inputsRoot review.initial.nInputs i =
        some received.inOut.map ∧
      (received.hasWitnessUtxo = true ↔
        commitments.HasKeyType received.inOut.map psbtInWitnessUtxo) ∧
      (received.hasNonWitnessUtxo = true ↔
        commitments.HasKeyType received.inOut.map psbtInNonWitnessUtxo) := by
  obtain ⟨_, _, _, isInputs, -, -, reviews⟩ := reads.inputs
  obtain ⟨⟨_, _⟩, _, _, _, _, rfl, before, turn⟩ := reviews.get isInput
  obtain ⟨isState, -⟩ := final_of_reviewsInputs before
  dsimp only at isState
  subst isState
  obtain ⟨_, _, rfl, readsInput⟩ := turn.exists_reads
  obtain ⟨_, received, _, fetching, amount, scriptPubKey, rfl, receives, succeeds,
    readsPrevout, isRead⟩ := runs_readInput_ok readsInput
  simp only [isInputs, Commitments.holdOn_append_iff] at hold
  obtain ⟨-, -, ⟨⟨holdReceiving, holdFetching⟩, -⟩, -⟩ := hold
  have witness := Commitments.receiveInput_returns receives succeeds holdReceiving
    Commitments.flagOf_hasWitnessUtxo
  have nonWitness := Commitments.receiveInput_returns receives succeeds holdReceiving
    Commitments.flagOf_hasNonWitnessUtxo
  exact ⟨received, fetching, amount, scriptPubKey, holdFetching, readsPrevout, isRead, witness.1,
    witness.2, nonWitness.2⟩

/-- The previous output of a reviewed input. -/
theorem Review.Reads.prevoutReviewed (reads : review.Reads inputs outputs)
    (hold : commitments.HoldOn review.inputs) {i : Nat} {reviewed : ReviewedInput}
    (isInput : inputs[i]? = some reviewed) :
    reviewed.input.inOut.scriptPubKey = some reviewed.prevout.2 ∧
      commitments.map review.initial.inputsRoot review.initial.nInputs i =
        some reviewed.input.inOut.map ∧
      Commitments.PrevoutReviewed commitments reviewed.input.inOut.map reviewed.prevout := by
  obtain ⟨_, _, _, _, holdFetching, readsPrevout, isRead, isMap,
    witness, nonWitness⟩ := reads.exists_readsPrevout hold isInput
  have prevoutReviewed := Commitments.PrevoutReviewed.of_readsPrevout readsPrevout holdFetching
    witness nonWitness
  rw [ReviewedInput.prevout, isRead]
  exact ⟨rfl, isMap, prevoutReviewed⟩

/-- The warning of unverified inputs is shown if an internal input needs it. -/
theorem Review.Reads.warned_of_isUnverified (reads : review.Reads inputs outputs)
    (mem : reviewed ∈ inputs)
    (unverified : isUnverified review.initial.wallet.policy reviewed = true) :
    ⟨.screen .warnUnverifiedSegwitInputs, true⟩ ∈ review.trace := by
  have shown : review.preprocessed.showMissingNonwitnessutxoWarning = true := by
    rw [reads.preprocessed_eq]
    exact Bool.or_eq_true_iff.mpr (.inr (any_eq_true.mpr ⟨reviewed, mem, unverified⟩))
  obtain ⟨_, _, _, isAlerts, _, run⟩ := review.alertsUser.bind_ok
  obtain ⟨_, _, _, rfl, warns, _⟩ := run.bind_ok
  rw [Program.runs_confirmIf_ok_iff, if_pos shown] at warns
  simp [Review.trace, isAlerts, warns]

/-- An internal input has the fields that its policy asks for. -/
theorem Review.Reads.fieldsPresent (reads : review.Reads inputs outputs)
    (isInput : inputs[i]? = some reviewed)
    (isInternal : reviewed.isInternal = true) :
    FieldsPresent review.initial.wallet.policy reviewed.input := by
  obtain ⟨_, _, _, _, _, _, reviews⟩ := reads.inputs
  obtain ⟨⟨_, _⟩, _, _, _, _, _, before, turn⟩ := reviews.get isInput
  obtain ⟨isState, -⟩ := final_of_reviewsInputs before
  dsimp only at isState
  subst isState
  cases turn with
  | external _ _ => cases isInternal
  | internal _ _ _ present _ => exact present

theorem segwitVersion_of_type {policy : PolicyNode} (notTaproot : policy.type ≠ .tr) :
    getPolicySegwitVersion policy = -1 ∨ getPolicySegwitVersion policy = 0 := by
  unfold getPolicySegwitVersion
  split <;> simp_all [PolicyNode.type]

/-- Without the warning, the previous transaction of an internal input was checked, unless the
policy is a taproot one. -/
theorem Review.Reads.verified (reads : review.Reads inputs outputs)
    (hold : commitments.HoldOn review.inputs)
    (notWarned : ⟨.screen .warnUnverifiedSegwitInputs, true⟩ ∉ review.trace)
    (notTaproot : review.initial.wallet.policy.type ≠ .tr) {i : Nat} {reviewed : ReviewedInput}
    (isInput : inputs[i]? = some reviewed) (isInternal : reviewed.isInternal = true)
    (sized : ∀ prevoutHash, commitments.value reviewed.input.inOut.map [psbtInPreviousTxid] =
      some prevoutHash → prevoutHash.length = 32) :
    ∃ outputs, commitments.previousOutput reviewed.input.inOut.map = some outputs ∧
      reviewed.prevout = outputs.prevout ∧
      commitments.value reviewed.input.inOut.map [psbtInPreviousTxid] = some outputs.txid.val := by
  have verified : reviewed.input.hasNonWitnessUtxo = true := by
    by_contra absent
    rcases segwitVersion_of_type notTaproot with isLegacy | isVersion0
    · exact absent ((reads.fieldsPresent isInput isInternal).nonWitnessUtxo isLegacy)
    · exact notWarned (reads.warned_of_isUnverified (mem_of_getElem? isInput)
        (by simp [isUnverified, isInternal, isVersion0, absent]))
  obtain ⟨_, _, _, _, holdFetching, readsPrevout, isRead, -, -, -⟩ :=
    reads.exists_readsPrevout hold isInput
  rw [isRead] at verified sized
  have isVerified := Commitments.verified_of_readsPrevout readsPrevout holdFetching verified sized
  rw [ReviewedInput.prevout, isRead]
  exact isVerified

/-- What is hashed for all inputs is what was reviewed, and the ids of the previous transactions
have the right length. -/
theorem Review.Reads.hashed (reads : review.Reads inputs outputs)
    (holdInputs : commitments.HoldOn review.inputs) {hashing : Trace}
    (run : Runs (computeSegwitHashes device.crypto.sha256 review.reviewed) hashing (.ok hashes))
    (hold : commitments.HoldOn hashing) : hashes.shaAmounts = device.crypto.sha256
        ((inputs.map ReviewedInput.prevout).flatMap fun prevout => leBytes 8 prevout.1) ∧
      hashes.shaScriptpubkeys = device.crypto.sha256
        ((inputs.map ReviewedInput.prevout).flatMap fun prevout =>
          varintWrite prevout.2.length ++ prevout.2) ∧
      ∀ (i : Nat) (input : ReviewedInput), inputs[i]? = some input →
        ∀ prevoutHash, commitments.value input.input.inOut.map [psbtInPreviousTxid] =
          some prevoutHash → prevoutHash.length = 32 := by
  have length : inputs.length = review.reviewed.nInputs := by
    obtain ⟨_, _, _, _, _, length, _⟩ := reads.inputs
    rw [length, review.reviewed_nInputs]
  have reviewed : ∀ i map prevout,
      commitments.map review.reviewed.inputsRoot review.reviewed.nInputs i = some map →
        (inputs.map ReviewedInput.prevout)[i]? = some prevout →
          Commitments.PrevoutReviewed commitments map prevout := by
    intro i map prevout isMap isPrevout
    rw [getElem?_map, Option.map_eq_some_iff] at isPrevout
    obtain ⟨input, isInput, rfl⟩ := isPrevout
    obtain ⟨-, isSame, prevoutReviewed⟩ := reads.prevoutReviewed holdInputs isInput
    rw [review.reviewed_inputsRoot, review.reviewed_nInputs, isSame] at isMap
    cases isMap
    exact prevoutReviewed
  obtain ⟨isAmounts, isScripts, hasTxid⟩ :=
    Commitments.runs_computeSegwitHashes_ok reviewed run hold (by rw [length_map, length])
  refine ⟨isAmounts, isScripts, fun i input isInput prevoutHash isHash => ?_⟩
  obtain ⟨inside, -⟩ := List.getElem?_eq_some_iff.mp isInput
  obtain ⟨map, _, isMap, isValue, sized⟩ := hasTxid i (length ▸ inside)
  obtain ⟨-, isSame, -⟩ := reads.prevoutReviewed holdInputs isInput
  rw [review.reviewed_inputsRoot, review.reviewed_nInputs, isSame] at isMap
  cases isMap
  cases isValue.symm.trans isHash
  exact sized

/-- The hash that is signed covers the amount that was reviewed. -/
theorem Review.Reads.signs_amount (reads : review.Reads inputs outputs)
    (holdInputs : commitments.HoldOn review.inputs) {signed : Trace} {signing : Signing}
    (attempt : SigningAttempt device review.reviewed review.internalInputs signed signing)
    (holdReceiving : commitments.HoldOn attempt.receiving)
    (holdReading : commitments.HoldOn attempt.reading)
    (holdComputing : commitments.HoldOn attempt.computing)
    (isSegwit : attempt.typed.hasWitnessUtxo = true)
    (isVersion0 : getPolicySegwitVersion review.initial.wallet.policy = 0) :
    ∃ input context rest, inputs[attempt.curInputIndex]? = some input ∧ rest.length = 44 ∧
      attempt.sighash = device.crypto.sha256
        (device.crypto.sha256 (context ++ leBytes 8 input.prevout.1 ++ rest)).val := by
  have inside : attempt.curInputIndex < inputs.length := by
    obtain ⟨_, _, _, _, _, length, _⟩ := reads.inputs
    rw [length, ← review.reviewed_nInputs]
    exact attempt.inside
  have isInput := getElem?_eq_getElem inside
  obtain ⟨-, isMap, prevoutReviewed⟩ := reads.prevoutReviewed holdInputs isInput
  obtain ⟨isReceived, -⟩ := Commitments.receiveInput_returns attempt.receives attempt.succeeds
    holdReceiving Commitments.flagOf_hasWitnessUtxo
  rw [review.reviewed_inputsRoot, review.reviewed_nInputs, isMap] at isReceived
  have sameMap := Option.some.inj isReceived
  obtain ⟨_, isTyped, -⟩ := runs_readSighashType_ok attempt.readsType holdReading
  obtain ⟨witnessUtxo, context, rest, isValue, enough, isRest, isSighash⟩ :=
    attempt.computes.covers_witnessUtxo holdComputing isSegwit
      (by rw [review.reviewed_wallet, isVersion0])
  rw [isTyped, ← sameMap] at isValue
  refine ⟨_, context, rest, isInput, isRest, ?_⟩
  have isAmount : (inputs[attempt.curInputIndex]).prevout.1 = leNat (witnessUtxo.take 8) :=
    congrArg Prod.fst (prevoutReviewed.witness witnessUtxo isValue)
  have isBytes := leBytes_leNat (witnessUtxo.take 8)
  rw [length_take, Nat.min_eq_left enough] at isBytes
  rw [isSighash, isAmount, isBytes]

end Agreement

/-- The amounts and scripts that are hashed are those that were reviewed. -/
structure AmountsAgree {device : Device} {protocolVersion : Nat} {readBuffer : Buffer}
    (commitments : Commitments) (review : Review device protocolVersion readBuffer)
    (inputs : List ReviewedInput) {signed : Trace} {signing : Signing}
    (attempt : SigningAttempt device review.reviewed review.internalInputs signed signing) :
    Prop where
  scripts : ∀ input ∈ inputs, input.input.inOut.scriptPubKey = some input.prevout.2
  total : review.reviewed.inputsTotalAmount = UInt64.ofNat (inputs.map (·.prevout.1)).sum
  shaAmounts : attempt.hashes.shaAmounts = device.crypto.sha256
    ((inputs.map ReviewedInput.prevout).flatMap fun prevout => leBytes 8 prevout.1)
  shaScriptpubkeys : attempt.hashes.shaScriptpubkeys = device.crypto.sha256
    ((inputs.map ReviewedInput.prevout).flatMap fun prevout =>
      varintWrite prevout.2.length ++ prevout.2)
  segwitv0 : attempt.typed.hasWitnessUtxo = true →
    getPolicySegwitVersion review.initial.wallet.policy = 0 →
      ∃ input context rest, inputs[attempt.curInputIndex]? = some input ∧ rest.length = 44 ∧
        attempt.sighash = device.crypto.sha256
          (device.crypto.sha256 (context ++ leBytes 8 input.prevout.1 ++ rest)).val
  verified : ⟨.screen .warnUnverifiedSegwitInputs, true⟩ ∉ review.trace →
    review.initial.wallet.policy.type ≠ .tr → ∀ i input, inputs[i]? = some input →
      input.isInternal = true → ∃ map outputs,
        commitments.map review.initial.inputsRoot review.initial.nInputs i = some map ∧
        commitments.previousOutput map = some outputs ∧ input.prevout = outputs.prevout ∧
        commitments.value map [psbtInPreviousTxid] = some outputs.txid.val

/-- When a signature is yielded, the amounts and the scripts that were hashed are those that were
reviewed. -/
theorem amountsAgree_of_yield {device : Device} {protocolVersion : Nat} {readBuffer : Buffer}
    {commitments : Commitments} {before after : Trace} {signing : Signing} {response : Bytes}
    {resumed : Bool} {result : Except Stop Unit}
    (run : Runs (handlerSignPsbt device protocolVersion readBuffer)
      (before ++ ⟨.yield signing response, resumed⟩ :: after) result)
    (hold : commitments.HoldOn before) :
    ∃ (review : Review device protocolVersion readBuffer) (inputs : List ReviewedInput)
      (outputs : List ReviewedOutput) (signed : Trace)
      (attempt : SigningAttempt device review.reviewed review.internalInputs signed signing),
      before = review.trace ++ signed ∧ review.Reads inputs outputs ∧
        AmountsAgree commitments review inputs attempt := by
  obtain ⟨review, signed, _, _, rfl, signs⟩ := exists_review_of_yield run
  obtain ⟨attempt⟩ := exists_attempt_of_yield signs
  obtain ⟨inputs, outputs, reads⟩ := review.exists_reads
  refine ⟨review, inputs, outputs, signed, attempt, rfl, reads, ?_⟩
  rw [Review.trace] at hold
  simp only [Commitments.holdOn_append_iff] at hold
  obtain ⟨⟨_, holdInputs, _⟩, holdSigned⟩ := hold
  rw [attempt.exchanges_eq] at holdSigned
  simp only [Commitments.holdOn_append_iff] at holdSigned
  obtain ⟨holdHashing, _, _, _, holdReceiving, _, holdReading, holdComputing, _⟩ := holdSigned
  obtain ⟨isAmounts, isScripts, sized⟩ :=
    reads.hashed holdInputs attempt.hashesTransaction holdHashing
  refine ⟨fun input mem => ?_, ?_, isAmounts, isScripts,
    reads.signs_amount holdInputs attempt holdReceiving holdReading holdComputing,
    fun notWarned notTaproot i input isInput isInternal => ?_⟩
  · obtain ⟨i, isInput⟩ := mem_iff_getElem?.mp mem
    exact (reads.prevoutReviewed holdInputs isInput).1
  · exact reads.inputsTotalAmount_eq
  · obtain ⟨-, isMap, -⟩ := reads.prevoutReviewed holdInputs isInput
    obtain ⟨spent, isSpent, isPrevout, isTxid⟩ := reads.verified holdInputs notWarned notTaproot
      isInput isInternal (sized i input isInput)
    exact ⟨_, spent, isMap, isSpent, isPrevout, isTxid⟩

theorem amountsAgree_of_yield_highFee :
    ∃ (signing : Signing) (review : Review sampleDevice 1 highFeeStore.sampleRequest)
      (inputs : List ReviewedInput) (outputs : List ReviewedOutput) (signed : Trace)
      (attempt : SigningAttempt sampleDevice review.reviewed review.internalInputs signed signing),
      review.Reads inputs outputs ∧
        AmountsAgree (highFeeStore.commitments sampleCrypto.sha256) review inputs attempt := by
  obtain ⟨before, signing, response, resumed, after, result, run, answered⟩ :=
    ClientStore.exists_run_at_yield sampleDevice highFeeStore (by decide +kernel)
  obtain ⟨review, inputs, outputs, signed, attempt, -, reads, agree⟩ :=
    amountsAgree_of_yield run (ClientStore.holdOn_of_answeredBy answered)
  exact ⟨signing, review, inputs, outputs, signed, attempt, reads, agree⟩

end LedgerSyscoin.Handler
