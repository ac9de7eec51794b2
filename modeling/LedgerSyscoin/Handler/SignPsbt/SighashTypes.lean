import LedgerSyscoin.Handler.SignPsbt.ReviewedOutputs

/-!
# Types of signature hashes

The type of the signature hash of an input is checked when the input is reviewed, and
read again when it is signed. If lookups return what is committed to, it is the same
one, so that a signature is made only with a type that needs no warning, or after the
user has accepted the warning.
-/

namespace LedgerSyscoin.Handler

open Foundation Common Boilerplate
open Dialogue (Runs)
open Program (refuseIf runs_confirmIf_ok_iff)

/-! ## Reading the type -/

variable {st : SignPsbtState}

section Reading

variable {commitments : Commitments} {exchanges : Trace}

/-- The type that is committed to in a map. -/
def Commitments.sighashType (commitments : Commitments) (map : MerkleizedMapCommitment) :
    Option UInt32 :=
  (commitments.value map [psbtInSighashType]).map fun bytes => UInt32.ofNat (leNat bytes)

theorem sighashType_of_valueOfLength {map : MerkleizedMapCommitment} {bytes : Bytes}
    (run : Runs (Program.valueOfLength map psbtInSighashType 4) exchanges (.ok (some bytes)))
    (hold : commitments.HoldOn exchanges) :
    commitments.sighashType map = some (UInt32.ofNat (leNat bytes)) := by
  obtain ⟨rfl, -⟩ := run.valueOfLength
  rw [Commitments.sighashType, hold _ List.mem_cons_self bytes rfl, Option.map_some]

/-- When an input is signed, the type that is committed to is read, if there is one. -/
theorem runs_readSighashType_ok {received typed : InputInfo}
    (run : Runs (readSighashType received) exchanges (.ok typed))
    (hold : commitments.HoldOn exchanges) :
    ∃ sighashType, typed = { received with sighashType } ∧ (received.hasSighashType = true →
      commitments.sighashType received.inOut.map = some sighashType) := by
  rw [readSighashType] at run
  split_ifs at run with present
  · obtain ⟨found, _, _, rfl, fetches, returns⟩ := run.bind_ok
    cases found with
    | none => exact returns.refused.elim
    | some bytes =>
      obtain ⟨rfl, ⟨⟩⟩ := returns.pure
      rw [List.append_nil] at hold
      exact ⟨_, rfl, fun _ => sighashType_of_valueOfLength fetches hold⟩
  · obtain ⟨rfl, ⟨⟩⟩ := run.pure
    exact ⟨received.sighashType, rfl, fun has => absurd has present⟩

/-- A type that may be used for the input at an index. -/
structure TypeAllowed (st : SignPsbtState) (i : Nat) (sighashType : UInt32) (isNondefault : Bool) :
    Prop where
  needsNoWarning : isNondefault = false →
    (0 < getPolicySegwitVersion st.wallet.policy ∧ sighashType = sighashDefault) ∨
      sighashType = sighashAll
  needsWarning : isNondefault = true →
    0 ≤ getPolicySegwitVersion st.wallet.policy ∧ isNondefaultSighash sighashType = true
  single : sighashType &&& sighashSingle = sighashSingle → i < st.nOutputs

theorem runs_checkSighashType_ok {sighashType : UInt32} {i : Nat} {isNondefault : Bool}
    (run : Runs (checkSighashType st sighashType i) exchanges (.ok isNondefault)) :
    exchanges = [] ∧ TypeAllowed st i sighashType isNondefault := by
  rw [checkSighashType] at run
  obtain ⟨allowed, run⟩ := run.refuseIf_bind
  obtain ⟨notSingle, run⟩ := run.refuseIf_bind
  obtain ⟨rfl, ⟨⟩⟩ := run.pure
  refine ⟨rfl, ⟨fun isDefault => ?_, fun notDefault => ?_, fun isSingle => ?_⟩⟩
  · simpa only [Bool.not_eq_false', decide_eq_true_eq] using isDefault
  · by_contra forbidden
    rw [Bool.not_eq_true'] at notDefault
    exact allowed ⟨by rw [notDefault]; decide, forbidden⟩
  · by_contra outside
    exact notSingle ⟨isSingle, not_lt.mp outside⟩

/-- When an input is reviewed, the type that is committed to is checked, if there is one. -/
theorem runs_readNondefaultSighash_ok {input : InputInfo} {i : Nat} {isNondefault : Bool}
    (run : Runs (readNondefaultSighash st input i) exchanges (.ok isNondefault))
    (hold : commitments.HoldOn exchanges) (present : input.hasSighashType = true) :
    ∃ sighashType, commitments.sighashType input.inOut.map = some sighashType ∧
      TypeAllowed st i sighashType isNondefault := by
  rw [readNondefaultSighash, if_neg (not_not.mpr present)] at run
  obtain ⟨found, _, _, rfl, fetches, checks⟩ := run.bind_ok
  cases found with
  | none => exact checks.refused.elim
  | some bytes =>
    obtain ⟨rfl, allowed⟩ := runs_checkSighashType_ok checks
    rw [List.append_nil] at hold
    exact ⟨_, sighashType_of_valueOfLength fetches hold, allowed⟩

end Reading

/-! ## The type that is signed with -/

variable {device : Device}

/-- Reading the witness program changes the scripts only. -/
theorem runs_readWitnessProgram_ok {typed read : InputInfo} {exchanges : Trace}
    (run : Runs (readWitnessProgram device typed) exchanges (.ok read)) :
    ∃ scriptPubKey script, read = { typed with
      inOut := { typed.inOut with scriptPubKey := some scriptPubKey }, script } := by
  obtain ⟨found, _, rest, rfl, _, run⟩ := run.bind_ok
  cases found with
  | none => exact run.refused.elim
  | some found =>
    obtain ⟨_, scriptPubKey⟩ := found
    dsimp only at run
    split_ifs at run with redeems
    · obtain ⟨answer, rest, rfl, checks⟩ := run.question
      cases answer with
      | error code => exact checks.refused.elim
      | ok redeemScript =>
        obtain ⟨-, returns⟩ := checks.refuseIf_bind
        cases returns.pure.2
        exact ⟨scriptPubKey, redeemScript, rfl⟩
    · cases run.pure.2
      exact ⟨scriptPubKey, scriptPubKey, rfl⟩

/-- The input that is signed has the type that was read, or the default one of its policy. -/
theorem ComputesSighash.sighashType_eq
    {hashes : SegwitHashes} {placeholderInfo : PlaceholderInfo} {i : Nat} {typed signed : InputInfo}
    {computing : Trace} {sighash : Digest}
    (computes : ComputesSighash device st hashes placeholderInfo i typed computing signed sighash) :
    (typed.hasSighashType = true ∧ signed.sighashType = typed.sighashType) ∨
      typed.hasSighashType = false ∧ (signed.sighashType = sighashAll ∨
        getPolicySegwitVersion st.wallet.policy = 1 ∧ signed.sighashType = sighashDefault) := by
  cases present : typed.hasSighashType with
  | true =>
    refine .inl ⟨rfl, ?_⟩
    cases computes with
    | legacy isLegacy fetches isSigned computes => simp [isSigned, withDefaultSighash, present]
    | segwitv0 isSegwit isVersion0 fetches isSigned computes =>
      obtain ⟨_, _, rfl⟩ := runs_readWitnessProgram_ok fetches
      simp [isSigned, withDefaultSighash, present]
    | segwitv1 isSegwit isVersion1 fetches isSigned computes tweaks =>
      obtain ⟨_, _, rfl⟩ := runs_readWitnessProgram_ok fetches
      simp [isSigned, withDefaultSighash, present]
  | false =>
    refine .inr ⟨rfl, ?_⟩
    cases computes with
    | legacy isLegacy fetches isSigned computes => simp [isSigned, withDefaultSighash, present]
    | segwitv0 isSegwit isVersion0 fetches isSigned computes =>
      obtain ⟨_, _, rfl⟩ := runs_readWitnessProgram_ok fetches
      simp [isSigned, withDefaultSighash, present]
    | segwitv1 isSegwit isVersion1 fetches isSigned computes tweaks =>
      obtain ⟨_, _, rfl⟩ := runs_readWitnessProgram_ok fetches
      simp [isSigned, withDefaultSighash, present, isVersion1]

/-- A signature of this type may be made after the given exchanges. -/
inductive SighashAllowed (policy : PolicyNode) (before : Trace) (sighashType : UInt32) : Prop
  | all (isAll : sighashType = sighashAll)
  | default (isTaproot : policy.type = .tr) (isDefault : sighashType = sighashDefault)
  | warned (isSegwit : 0 ≤ getPolicySegwitVersion policy)
      (isNondefault : sighashType ∈ [sighashNone, sighashSingle, sighashAll ||| sighashAnyonecanpay,
        sighashNone ||| sighashAnyonecanpay, sighashSingle ||| sighashAnyonecanpay])
      (accepted : ⟨.screen .warnNondefaultSighash, true⟩ ∈ before)

theorem type_of_segwitVersion {policy : PolicyNode}
    (isTaproot : 0 < getPolicySegwitVersion policy) :
    policy.type = .tr := by
  unfold getPolicySegwitVersion at isTaproot
  split at isTaproot <;> first | rfl | omega

theorem mem_of_isNondefaultSighash {sighashType : UInt32}
    (isNondefault : isNondefaultSighash sighashType = true) :
    sighashType ∈ [sighashNone, sighashSingle, sighashAll ||| sighashAnyonecanpay,
      sighashNone ||| sighashAnyonecanpay, sighashSingle ||| sighashAnyonecanpay] := by
  simp only [isNondefaultSighash, decide_eq_true_eq] at isNondefault
  rcases isNondefault with rfl | rfl | rfl | rfl | rfl <;> decide

/-- The warning was accepted if an internal input needs it. -/
theorem warned_of_isNondefault {protocolVersion : Nat} {readBuffer : Buffer}
    (review : Review device protocolVersion readBuffer)
    (shown : review.preprocessed.showNondefaultSighashWarning = true) :
    ⟨.screen .warnNondefaultSighash, true⟩ ∈ review.trace := by
  obtain ⟨_, _, _, isAlerts, _, run⟩ := review.alertsUser.bind_ok
  obtain ⟨_, _, _, rfl, _, warns⟩ := run.bind_ok
  rw [runs_confirmIf_ok_iff, if_pos shown] at warns
  simp [Review.trace, isAlerts, warns]

section Yielded

variable {device : Device} {protocolVersion : Nat} {readBuffer : Buffer}
  {review : Review device protocolVersion readBuffer} {commitments : Commitments}
  {signing : Signing} {exchanges : Trace}

/-- When an input is signed, it is received as it was when it was reviewed. -/
theorem same_of_received
    (attempt : SigningAttempt device review.reviewed review.internalInputs exchanges signing)
    (internal : review.InternalInput attempt.curInputIndex)
    (holdReview : commitments.HoldOn review.inputs)
    (holdAttempt : commitments.HoldOn exchanges) {flag : InputInfo → Bool} {keyType : UInt8}
    (flagOf : Commitments.FlagOf flag keyType)
    (keepsPrevout : ∀ input amount script, flag (input.withPrevout amount script) = flag input) :
    attempt.received.inOut.map = internal.input.inOut.map ∧
      flag attempt.received = flag internal.input := by
  rw [internal.inputs_eq] at holdReview
  rw [attempt.exchanges_eq] at holdAttempt
  simp only [Commitments.holdOn_append_iff] at holdReview holdAttempt
  obtain ⟨_, holdReading, _⟩ := holdReview
  obtain ⟨_, _, _, _, holdReceiving, _⟩ := holdAttempt
  obtain ⟨_, _, _, _, amount, script, isReading, receives, succeeds, _,
    isInput⟩ := runs_readInput_ok internal.reads
  rw [isReading, Commitments.holdOn_append_iff] at holdReading
  have reviewed := Commitments.receiveInput_returns receives succeeds holdReading.1 flagOf
  have signed := Commitments.receiveInput_returns attempt.receives attempt.succeeds holdReceiving
    flagOf
  rw [review.reviewed_inputsRoot, review.reviewed_nInputs] at signed
  have sameMap := Option.some.inj (signed.1.symm.trans reviewed.1)
  rw [isInput, keepsPrevout, Bool.eq_iff_iff, signed.2, sameMap, reviewed.2]
  exact ⟨rfl, Iff.rfl⟩

/-- The type of a signature hash that is computed was checked when the input was reviewed. -/
theorem sighashAllowed_of_attempt
    (attempt : SigningAttempt device review.reviewed review.internalInputs exchanges signing)
    (holdReview : commitments.HoldOn review.inputs) (holdAttempt : commitments.HoldOn exchanges) :
    SighashAllowed review.initial.wallet.policy review.trace attempt.signed.sighashType ∧
      (attempt.signed.sighashType &&& sighashSingle = sighashSingle →
        attempt.curInputIndex < review.initial.nOutputs) := by
  obtain ⟨internal⟩ := review.exists_internalInput attempt.isInternal
  obtain ⟨sameMap, sameFlag⟩ := same_of_received attempt internal holdReview holdAttempt
    Commitments.flagOf_hasSighashType fun _ _ _ => rfl
  have holdReading := holdAttempt
  rw [attempt.exchanges_eq] at holdReading
  simp only [Commitments.holdOn_append_iff] at holdReading
  obtain ⟨_, _, _, _, _, _, holdReading, _⟩ := holdReading
  obtain ⟨sighashType, isTyped, isRead⟩ := runs_readSighashType_ok attempt.readsType holdReading
  have typeOfSigned := attempt.computes.sighashType_eq
  rw [isTyped, review.reviewed_wallet] at typeOfSigned
  rcases typeOfSigned with ⟨present, sameType⟩ | ⟨-, isAll | ⟨isTaproot, isDefault⟩⟩
  · -- The type was checked when the input was reviewed.
    rw [internal.inputs_eq] at holdReview
    simp only [Commitments.holdOn_append_iff] at holdReview
    obtain ⟨_, _, _, holdChecking, _⟩ := holdReview
    obtain ⟨checked, isChecked, allowed⟩ := runs_readNondefaultSighash_ok internal.checks
      holdChecking (by rw [← sameFlag]; exact present)
    have isSame : checked = sighashType := by
      rw [← sameMap, isRead present] at isChecked
      exact (Option.some.inj isChecked).symm
    subst isSame
    rw [sameType]
    refine ⟨?_, allowed.single⟩
    cases warned : internal.isNondefault with
    | false =>
      rcases allowed.needsNoWarning warned with ⟨isTaproot, isDefault⟩ | isAll
      · exact .default (type_of_segwitVersion isTaproot) isDefault
      · exact .all isAll
    | true =>
      obtain ⟨isSegwit, isNondefault⟩ := allowed.needsWarning warned
      exact .warned isSegwit (mem_of_isNondefaultSighash isNondefault)
        (warned_of_isNondefault review (internal.warnsNondefault warned))
  · rw [isAll]
    exact ⟨.all rfl, fun isSingle => absurd isSingle (by decide)⟩
  · rw [isDefault]
    exact ⟨.default (type_of_segwitVersion (by omega)) rfl,
      fun isSingle => absurd isSingle (by decide)⟩

end Yielded

theorem SighashAllowed.append {policy : PolicyNode} {before later : Trace} {sighashType : UInt32}
    (allowed : SighashAllowed policy before sighashType) :
    SighashAllowed policy (before ++ later) sighashType := by
  cases allowed with
  | all isAll => exact .all isAll
  | default isTaproot isDefault => exact .default isTaproot isDefault
  | warned isSegwit isNondefault accepted =>
    exact .warned isSegwit isNondefault (List.mem_append_left _ accepted)

/-- Every signature that is yielded is of a type that needs no warning, or the user accepted the
warning; and if the type is for a single output, there is an output at the index of the input. -/
theorem sighashAllowed_of_yield {device : Device} {protocolVersion : Nat} {readBuffer : Buffer}
    {commitments : Commitments} {before after : Trace} {signing : Signing} {response : Bytes}
    {resumed : Bool} {result : Except Stop Unit}
    (run : Runs (handlerSignPsbt device protocolVersion readBuffer)
      (before ++ ⟨.yield signing response, resumed⟩ :: after) result)
    (hold : commitments.HoldOn before) :
    SighashAllowed signing.wallet.policy before signing.sighashType ∧
      ∃ request, Runs (readSignPsbtRequest readBuffer) [] (.ok request) ∧
        (signing.sighashType &&& sighashSingle = sighashSingle →
          signing.curInputIndex < request.nOutputs) := by
  obtain ⟨review, signed, _, _, rfl, signs⟩ := exists_review_of_yield run
  obtain ⟨attempt⟩ := exists_attempt_of_yield signs
  obtain ⟨request, _, _, _, _, _, _, _, parses, _, _, _, _, isInitial⟩ :=
    runs_initGlobalState_ok review.opens
  obtain ⟨holdTrace, holdAttempt⟩ := Commitments.holdOn_append_iff.mp hold
  rw [Review.trace] at holdTrace
  simp only [Commitments.holdOn_append_iff] at holdTrace
  obtain ⟨_, holdReview, _⟩ := holdTrace
  obtain ⟨allowed, single⟩ := sighashAllowed_of_attempt attempt holdReview holdAttempt
  have nOutputs : review.initial.nOutputs = request.nOutputs := by rw [isInitial]; rfl
  rw [attempt.isSigning]
  refine ⟨?_, request, parses, nOutputs ▸ single⟩
  have samePolicy := congrArg WalletInUse.policy review.reviewed_wallet
  rw [← samePolicy] at allowed
  exact allowed.append

/-- A client that asks for a signature that covers one input and one output. -/
def singleStore : ClientStore := sampleStore [sampleInput 100000 0x83] [sampleOutput 90000]

theorem sighashAllowed_of_yield_single : ∃ (before : Trace) (signing : Signing),
    SighashAllowed signing.wallet.policy before signing.sighashType ∧
      ∃ request, Runs (readSignPsbtRequest singleStore.sampleRequest) [] (.ok request) ∧
        (signing.sighashType &&& sighashSingle = sighashSingle →
          signing.curInputIndex < request.nOutputs) := by
  obtain ⟨before, signing, response, resumed, after, result, run, answered⟩ :=
    ClientStore.exists_run_at_yield sampleDevice singleStore (by decide +kernel)
  exact ⟨before, signing, sighashAllowed_of_yield run
    (ClientStore.holdOn_of_answeredBy answered)⟩

end LedgerSyscoin.Handler
