import LedgerSyscoin.Handler.SignPsbt.Conduct

/-!
# Runs that yield a signature

What is done before a signature is yielded follows the same order in every run: the
request is read, the inputs and the outputs are processed and the transaction is
confirmed; the hashes over the transaction are computed; and for the placeholder and the
input that the signature is for, the input is received again, and the hash and the
signature are computed.
-/

namespace LedgerSyscoin.Handler

open Foundation Common Boilerplate List
open Dialogue (Runs Satisfies forRange runs_bind_at runs_ask_iff runs_fail_iff
  forRange_at)
open Program (refuse refuseIf orRefuse onRefusal runs_onRefusal_ok_iff)

variable {device : Device} {α β : Type} {before after exchanges : Trace} {signing : Signing}
  {response : Bytes} {resumed : Bool} {result : Except Stop Unit} {sw protocolVersion : Nat}
  {readBuffer : Buffer} {input : InputInfo}

/-! ## Where a signature is yielded -/

theorem Unsigned.ne (unsigned : Unsigned exchanges) :
    before ++ ⟨.yield signing response, resumed⟩ :: after ≠ exchanges := by
  rintro rfl
  cases unsigned _ (mem_append_right _ mem_cons_self)

variable {program : Program α} {next : α → Program β}

/-- A part that yields no signature returns before one is yielded. -/
theorem bind_at_yield {result : Except Stop β} (never : NeverYields program)
    (run : Runs (program >>= next) (before ++ ⟨.yield signing response, resumed⟩ :: after)
      result) :
    ∃ value first second, before = first ++ second ∧ Runs program first (.ok value) ∧
      Runs (next value) (second ++ ⟨.yield signing response, resumed⟩ :: after) result := by
  rcases runs_bind_at run with ⟨_, _, ran⟩ | returned
  · exact absurd rfl (never _ _ ran).ne
  · exact returned

theorem refuseIf_bind_at_yield {condition : Prop} [Decidable condition]
    {next : Unit → Program β} {result : Except Stop β} (run : Runs (refuseIf condition sw >>= next)
      (before ++ ⟨.yield signing response, resumed⟩ :: after) result) :
    ¬condition ∧ Runs (next ()) (before ++ ⟨.yield signing response, resumed⟩ :: after) result := by
  obtain ⟨_, _, _, rfl, ran, rest⟩ := bind_at_yield (quiet_refuseIf condition sw) run
  obtain ⟨fails, rfl⟩ := ran.refuseIf
  exact ⟨fails, rest⟩

theorem orRefuse_bind_at_yield {found : Option α} {result : Except Stop β}
    (run : Runs (orRefuse found sw >>= next)
      (before ++ ⟨.yield signing response, resumed⟩ :: after) result) :
    ∃ value, found = some value ∧
      Runs (next value) (before ++ ⟨.yield signing response, resumed⟩ :: after) result := by
  cases found with
  | some value => exact ⟨value, rfl, run⟩
  | none =>
    obtain ⟨_, _, _, _, ran, _⟩ := bind_at_yield (quiet_refuse sw) run
    exact ran.refused.elim

/-- Another call than the one that yields. -/
theorem question_bind_at_yield {asked : Question} {next : Answer asked → Program β}
    {result : Except Stop β} (notYield : asked.isYield = false)
    (run : Runs (Dialogue.question asked >>= next)
      (before ++ ⟨.yield signing response, resumed⟩ :: after) result) :
    ∃ answer rest, before = ⟨asked, answer⟩ :: rest ∧
      Runs (next answer) (rest ++ ⟨.yield signing response, resumed⟩ :: after) result := by
  obtain ⟨answer, rest, cut, ran⟩ := run.question
  cases before with
  | nil =>
    rw [nil_append, List.cons.injEq] at cut
    cases cut.1
    cases notYield
  | cons head before =>
    rw [cons_append, List.cons.injEq] at cut
    obtain ⟨rfl, rfl⟩ := cut
    exact ⟨answer, before, rfl, ran⟩

/-- If what is done after a refusal yields no signature, one is yielded before. -/
theorem onRefusal_at_yield {action : Program Unit} {result : Except Stop α}
    (never : NeverYields action)
    (run : Runs (onRefusal program action)
      (before ++ ⟨.yield signing response, resumed⟩ :: after) result) :
    ∃ after' result', Runs program (before ++ ⟨.yield signing response, resumed⟩ :: after')
      result' := by
  rcases run.tryCatch with ⟨_, ran, rfl⟩ | ⟨error, _, second, cut, ran, handled⟩
  · exact ⟨after, _, ran⟩
  · have unsignedSecond : Unsigned second := by
      cases error with
      | undefined =>
        obtain ⟨rfl, -⟩ := runs_fail_iff.mp handled
        exact unsigned_nil
      | refused =>
        rcases handled.bind with ⟨_, acted, -⟩ | ⟨_, _, _, rfl, acted, gaveUp⟩
        · exact never _ _ acted
        · obtain ⟨rfl, -⟩ := runs_fail_iff.mp gaveUp
          rw [append_nil]
          exact never _ _ acted
    rcases append_eq_append_iff.mp cut with ⟨middle, rfl, remaining⟩ | ⟨middle, rfl, remaining⟩
    · cases middle with
      | nil => exact absurd remaining (@Unsigned.ne [] _ _ _ _ _ unsignedSecond)
      | cons head middle =>
        rw [cons_append, List.cons.injEq] at remaining
        rw [← remaining.1] at ran
        exact ⟨middle, _, ran⟩
    · exact absurd remaining.symm unsignedSecond.ne

/-! ## The review -/

/-- The request is read without any exchange. -/
theorem runs_readSignPsbtRequest_ok {buffer : Buffer} {request : SignPsbtRequest}
    (run : Runs (readSignPsbtRequest buffer) exchanges (.ok request)) :
    exchanges = [] := by
  obtain ⟨_, _, run⟩ := run.orRefuse_bind
  obtain ⟨_, _, run⟩ := run.orRefuse_bind
  obtain ⟨_, run⟩ := run.refuseIf_bind
  obtain ⟨_, _, run⟩ := run.orRefuse_bind
  obtain ⟨_, _, run⟩ := run.orRefuse_bind
  exact run.pure.1

/-- How the initial state comes about. -/
theorem runs_initGlobalState_ok {initial : SignPsbtState}
    (run : Runs (initGlobalState device protocolVersion readBuffer) exchanges (.ok initial)) :
    ∃ request txVersion locktime walletPolicy reading receiving authorizing,
      exchanges = reading ++ (receiving ++ authorizing) ∧
      Runs (readSignPsbtRequest readBuffer) [] (.ok request) ∧
      Runs (processGlobalMap request.globalMap) reading (.ok (txVersion, locktime)) ∧
      (hasHmac request.walletHmac = true →
        device.checkWalletHmac request.walletId request.walletHmac = true) ∧
      Runs (receiveWalletPolicy device request.walletId) receiving (.ok walletPolicy) ∧
      Runs (authorizePolicy device (!hasHmac request.walletHmac) walletPolicy) authorizing
        (.ok ()) ∧
      initial = initialState protocolVersion request txVersion locktime walletPolicy := by
  obtain ⟨request, _, rest, rfl, parses, proceeds⟩ := run.bind_ok
  obtain rfl := runs_readSignPsbtRequest_ok parses
  obtain ⟨⟨txVersion, locktime⟩, reading, rest, rfl, reads, checks⟩ := proceeds.bind_ok
  obtain ⟨checked, continues⟩ := checks.refuseIf_bind
  obtain ⟨walletPolicy, receiving, rest, rfl, receives, finishes⟩ := continues.bind_ok
  obtain ⟨⟨⟩, authorizing, rest, rfl, authorizes, returns⟩ := finishes.bind_ok
  obtain ⟨rfl, ⟨⟩⟩ := returns.pure
  refine ⟨request, txVersion, locktime, walletPolicy, reading, receiving, authorizing, by simp,
    parses, reads, fun hasCode => ?_, receives, authorizes, rfl⟩
  by_contra invalid
  exact checked ⟨by simp [hasCode], invalid⟩

/-- The part of a run up to the signatures: the states and the exchanges of each step. -/
structure Review (device : Device) (protocolVersion : Nat) (readBuffer : Buffer) where
  initial : SignPsbtState
  preprocessed : SignPsbtState
  internalInputs : Bytes
  reviewed : SignPsbtState
  opening : Trace
  inputs : Trace
  alerts : Trace
  outputs : Trace
  confirmation : Trace
  opens : Runs (initGlobalState device protocolVersion readBuffer) opening (.ok initial)
  processesInputs : Runs (preprocessInputs device initial) inputs
    (.ok (preprocessed, internalInputs))
  alertsUser : Runs (showAlerts device preprocessed internalInputs) alerts (.ok ())
  processesOutputs : Runs (processOutputs device preprocessed) outputs (.ok reviewed)
  confirms : Runs (confirmTransaction device reviewed) confirmation (.ok ())

/-- The exchanges of a review. -/
def Review.trace {device : Device} {protocolVersion : Nat} {readBuffer : Buffer}
    (review : Review device protocolVersion readBuffer) : Trace :=
  review.opening ++ (review.inputs ++ (review.alerts ++ (review.outputs ++ review.confirmation)))

/-- A review that returns consists of its steps. -/
theorem runs_reviewTransaction_ok {st reviewed : SignPsbtState} {internalInputs : Bytes}
    (run : Runs (reviewTransaction device st) exchanges (.ok (reviewed, internalInputs))) :
    ∃ preprocessed inputs alerts outputs confirmation,
      exchanges = inputs ++ (alerts ++ (outputs ++ confirmation)) ∧
      Runs (preprocessInputs device st) inputs (.ok (preprocessed, internalInputs)) ∧
      Runs (showAlerts device preprocessed internalInputs) alerts (.ok ()) ∧
      Runs (processOutputs device preprocessed) outputs (.ok reviewed) ∧
      Runs (confirmTransaction device reviewed) confirmation (.ok ()) := by
  obtain ⟨⟨preprocessed, _⟩, inputs, rest, rfl, processesInputs, run⟩ := run.bind_ok
  obtain ⟨⟨⟩, alerts, rest, rfl, alertsUser, run⟩ := run.bind_ok
  obtain ⟨_, outputs, rest, rfl, processesOutputs, run⟩ := run.bind_ok
  obtain ⟨⟨⟩, confirmation, rest, rfl, confirms, run⟩ := run.bind_ok
  obtain ⟨rfl, ⟨⟩⟩ := run.pure
  exact ⟨preprocessed, inputs, alerts, outputs, confirmation, by simp, processesInputs,
    alertsUser, processesOutputs, confirms⟩

/-- A signature is yielded after a review, while the transaction is signed. -/
theorem exists_review_of_yield (run : Runs (handlerSignPsbt device protocolVersion readBuffer)
      (before ++ ⟨.yield signing response, resumed⟩ :: after) result) :
    ∃ (review : Review device protocolVersion readBuffer) (signed after' : Trace)
      (result' : Except Stop Unit), before = review.trace ++ signed ∧
        Runs (signTransaction device review.reviewed review.internalInputs)
          (signed ++ ⟨.yield signing response, resumed⟩ :: after') result' := by
  obtain ⟨-, starts⟩ := refuseIf_bind_at_yield run
  obtain ⟨initial, opening, _, rfl, opens, proceeds⟩ :=
    bind_at_yield quiet_initGlobalState starts
  obtain ⟨⟨reviewed, internalInputs⟩, _, signed, rfl, reviews, finishes⟩ :=
    bind_at_yield quiet_reviewTransaction proceeds
  obtain ⟨preprocessed, inputs, alerts, outputs, confirmation, rfl, processesInputs, alertsUser,
    processesOutputs, confirms⟩ := runs_reviewTransaction_ok reviews
  let review : Review device protocolVersion readBuffer :=
    ⟨initial, preprocessed, internalInputs, reviewed, opening, inputs, alerts, outputs,
      confirmation, opens, processesInputs, alertsUser, processesOutputs, confirms⟩
  rcases runs_bind_at finishes with ⟨after', result', signs⟩ | ⟨_, _, _, rfl, _, sends⟩
  · exact ⟨review, signed, after', result', (append_assoc ..).symm, signs⟩
  · exact absurd rfl (quiet_sendSw swOk _ _ sends).ne

/-! ## Signing an input -/

section Attempt

variable {st : SignPsbtState} {hashes : SegwitHashes} {placeholderIndex curInputIndex : Nat}
  {placeholderInfo : PlaceholderInfo} {made : Signing} {sighash : Digest}

/-- The calls that make a signature over a hash. -/
inductive MakesSignature (signing : Signing) (sighash : Digest) : Trace → Prop
  | ecdsa (signed : Bytes × Bytes) :
      MakesSignature signing sighash [⟨.signEcdsa signing sighash, some signed⟩]
  | schnorr (tweak : Option Bytes) (signed : Bytes × Bytes) :
      MakesSignature signing sighash [⟨.signSchnorr signing tweak sighash, some signed⟩]

/-- How the hash that is signed for an input comes about: what is read of the input, once the type
of the signature hash is known, the input that is signed, and the hash. -/
inductive ComputesSighash (device : Device) (st : SignPsbtState) (hashes : SegwitHashes)
    (placeholderInfo : PlaceholderInfo) (curInputIndex : Nat) (typed : InputInfo) :
    (exchanges : Trace) → (signed : InputInfo) → (sighash : Digest) → Prop
  | legacy {fetching hashing : Trace} {amount : Nat} {scriptPubKey : Bytes} {signed : InputInfo}
      {sighash : Digest} (isLegacy : typed.hasWitnessUtxo = false)
      (fetches : Runs (getAmountScriptpubkeyFromPsbtNonwitness typed.inOut.map none) fetching
        (.ok (some (amount, scriptPubKey))))
      (isSigned : signed = withDefaultSighash
        { typed with inOut := { typed.inOut with scriptPubKey := some scriptPubKey } } sighashAll)
      (computes : Runs (computeSighashLegacy device.crypto.sha256 st signed curInputIndex) hashing
        (.ok sighash)) :
      ComputesSighash device st hashes placeholderInfo curInputIndex typed (fetching ++ hashing)
        signed sighash
  | segwitv0 {fetching hashing : Trace} {read signed : InputInfo} {sighash : Digest}
      (isSegwit : typed.hasWitnessUtxo = true)
      (isVersion0 : getPolicySegwitVersion st.wallet.policy = 0)
      (fetches : Runs (readWitnessProgram device typed) fetching (.ok read))
      (isSigned : signed = withDefaultSighash read sighashAll)
      (computes : Runs (computeSighashSegwitv0 device.crypto.sha256 st hashes signed curInputIndex)
        hashing (.ok sighash)) :
      ComputesSighash device st hashes placeholderInfo curInputIndex typed (fetching ++ hashing)
        signed sighash
  | segwitv1 {fetching hashing tweaking : Trace} {read signed : InputInfo} {sighash : Digest}
      {tweak : Option Bytes} (isSegwit : typed.hasWitnessUtxo = true)
      (isVersion1 : getPolicySegwitVersion st.wallet.policy = 1)
      (fetches : Runs (readWitnessProgram device typed) fetching (.ok read))
      (isSigned : signed = withDefaultSighash read sighashDefault)
      (computes : Runs (computeSighashSegwitv1 device.crypto st hashes signed curInputIndex
        placeholderInfo) hashing (.ok sighash))
      (tweaks : Runs (taprootTweak st placeholderInfo signed) tweaking (.ok tweak)) :
      ComputesSighash device st hashes placeholderInfo curInputIndex typed
        (fetching ++ (hashing ++ tweaking)) signed sighash

theorem yieldSignature_at_yield {pubkey tapleafHash sig : Bytes}
    (run : Runs (yieldSignature st made pubkey tapleafHash sig)
      (before ++ ⟨.yield signing response, resumed⟩ :: after) result) :
    before = [] ∧ made = signing := by
  obtain ⟨_, rest, cut, ran⟩ := run.question
  have unsignedRest : Unsigned rest := quiet_refuseIf _ _ _ _ ran
  cases before with
  | nil =>
    rw [nil_append, List.cons.injEq] at cut
    cases cut.1
    exact ⟨rfl, rfl⟩
  | cons head before =>
    rw [cons_append, List.cons.injEq] at cut
    exact absurd cut.2 unsignedRest.ne

theorem checkSignPath_bind_at_yield {next : Unit → Program β} {result : Except Stop β}
    (run : Runs (checkSignPath made >>= next)
      (before ++ ⟨.yield signing response, resumed⟩ :: after) result) :
    Runs (next ()) (before ++ ⟨.yield signing response, resumed⟩ :: after) result := by
  rw [checkSignPath] at run
  split_ifs at run
  · have isEmpty := (runs_fail_iff.mp run).1
    simp at isEmpty
  · exact run

/-- A signature over a hash is made before it is yielded. -/
theorem signSighashEcdsaAndYield_at_yield (run : Runs (signSighashEcdsaAndYield st made sighash)
      (before ++ ⟨.yield signing response, resumed⟩ :: after) result) :
    made = signing ∧ MakesSignature signing sighash before := by
  have signs := checkSignPath_bind_at_yield run
  obtain ⟨_, _, rfl, received⟩ := question_bind_at_yield rfl signs
  obtain ⟨⟨_, _⟩, rfl, yields⟩ := orRefuse_bind_at_yield received
  obtain ⟨rfl, rfl⟩ := yieldSignature_at_yield yields
  exact ⟨rfl, .ecdsa _⟩

theorem signSighashSchnorrAndYield_at_yield {tweak : Option Bytes}
    (run : Runs (signSighashSchnorrAndYield st made tweak sighash)
      (before ++ ⟨.yield signing response, resumed⟩ :: after) result) :
    made = signing ∧ MakesSignature signing sighash before := by
  obtain ⟨-, checks⟩ := refuseIf_bind_at_yield run
  have signs := checkSignPath_bind_at_yield checks
  obtain ⟨_, _, rfl, received⟩ := question_bind_at_yield rfl signs
  obtain ⟨⟨_, _⟩, rfl, sized⟩ := orRefuse_bind_at_yield received
  obtain ⟨-, yields⟩ := refuseIf_bind_at_yield sized
  obtain ⟨rfl, rfl⟩ := yieldSignature_at_yield yields
  exact ⟨rfl, .schnorr tweak _⟩

/-- What was done for an input before a signature is yielded for it. -/
theorem signTransactionInput_at_yield
    (run : Runs (signTransactionInput device st hashes placeholderIndex placeholderInfo input
      curInputIndex) (before ++ ⟨.yield signing response, resumed⟩ :: after) result) :
    ∃ typed signed sighash reading computing making, before = reading ++ (computing ++ making) ∧
      Runs (readSighashType input) reading (.ok typed) ∧
      ComputesSighash device st hashes placeholderInfo curInputIndex typed computing signed
        sighash ∧
      MakesSignature signing sighash making ∧
      signing = signingFor st placeholderIndex curInputIndex placeholderInfo signed := by
  obtain ⟨typed, reading, rest, rfl, reads, signs⟩ :=
    bind_at_yield quiet_readSighashType run
  split_ifs at signs with isSegwit
  · obtain ⟨_, fetching, rest, rfl, fetches, signs⟩ := bind_at_yield
      quiet_readWitnessProgram signs
    split_ifs at signs with isVersion0 isVersion1
    · obtain ⟨sighash, hashing, making, rfl, computes, makes⟩ := bind_at_yield
        quiet_computeSighashSegwitv0 signs
      obtain ⟨rfl, isMade⟩ := signSighashEcdsaAndYield_at_yield makes
      exact ⟨typed, _, sighash, reading, fetching ++ hashing, making, by simp, reads,
        .segwitv0 isSegwit isVersion0 fetches rfl computes, isMade, rfl⟩
    · obtain ⟨sighash, hashing, rest, rfl, computes, signs⟩ := bind_at_yield
        quiet_computeSighashSegwitv1 signs
      obtain ⟨_, tweaking, making, rfl, tweaks, makes⟩ := bind_at_yield
        quiet_taprootTweak signs
      obtain ⟨rfl, isMade⟩ := signSighashSchnorrAndYield_at_yield makes
      exact ⟨typed, _, sighash, reading, fetching ++ (hashing ++ tweaking), making, by simp, reads,
        .segwitv1 isSegwit isVersion1 fetches rfl computes tweaks, isMade, rfl⟩
    · exact absurd rfl (quiet_refuse _ _ _ signs).ne
  · obtain ⟨found, fetching, rest, rfl, fetches, signs⟩ := bind_at_yield
      quiet_getAmountScriptpubkeyFromPsbtNonwitness signs
    cases found with
    | none => exact absurd rfl (quiet_refuse _ _ _ signs).ne
    | some found =>
      obtain ⟨_, _⟩ := found
      obtain ⟨sighash, hashing, making, rfl, computes, makes⟩ := bind_at_yield
        quiet_computeSighashLegacy signs
      obtain ⟨rfl, isMade⟩ := signSighashEcdsaAndYield_at_yield makes
      exact ⟨typed, _, sighash, reading, fetching ++ hashing, making, by simp, reads,
        .legacy (by simpa using isSegwit) fetches rfl computes, isMade, rfl⟩

end Attempt

/-! ## Signing the transaction -/

/-- What was done to sign the transaction before a signature is yielded. The exchanges of earlier
placeholders and of earlier inputs are skipped. -/
structure SigningAttempt (device : Device) (st : SignPsbtState) (internalInputs : Bytes)
    (exchanges : Trace) (signing : Signing) where
  hashes : SegwitHashes
  placeholderIndex : Nat
  curInputIndex : Nat
  placeholder : KeyPlaceholder
  tapleaf : Option PolicyNode
  internal : PlaceholderInfo
  placeholderInfo : PlaceholderInfo
  res : Int
  received : InputInfo
  typed : InputInfo
  signed : InputInfo
  sighash : Digest
  hashing : Trace
  skippedPlaceholders : Trace
  filling : Trace
  skippedInputs : Trace
  receiving : Trace
  leafHashing : Trace
  reading : Trace
  computing : Trace
  making : Trace
  exchanges_eq : exchanges = hashing ++ (skippedPlaceholders ++ (filling ++ (skippedInputs ++
    (receiving ++ (leafHashing ++ (reading ++ (computing ++ making)))))))
  hashesTransaction : Runs (computeSegwitHashes device.crypto.sha256 st) hashing (.ok hashes)
  isPlaceholder : (getKeyPlaceholderByIndex st.wallet.policy placeholderIndex).written =
    some (placeholder, tapleaf)
  fills : Runs (fillPlaceholderInfoIfInternal device st
    (.ofPlaceholder placeholder 0 tapleaf.isSome)) filling (.ok (some internal))
  inside : curInputIndex < st.nInputs
  isInternal : bitvectorGet internalInputs curInputIndex = some true
  receives : Runs (receiveInput device internal (.signing placeholderIndex curInputIndex)
    st.inputsRoot st.nInputs curInputIndex) receiving (.ok (res, received))
  succeeds : 0 ≤ res
  hashesLeaf : Runs (withTapleafHash st tapleaf received internal) leafHashing
    (.ok placeholderInfo)
  readsType : Runs (readSighashType received) reading (.ok typed)
  computes : ComputesSighash device st hashes placeholderInfo curInputIndex typed computing signed
    sighash
  makes : MakesSignature signing sighash making
  isSigning : signing = signingFor st placeholderIndex curInputIndex placeholderInfo signed

section Transaction

variable {st : SignPsbtState} {hashes : SegwitHashes} {internalInputs : Bytes}
  {tapleaf : Option PolicyNode} {placeholderIndex curInputIndex : Nat}
  {placeholderInfo : PlaceholderInfo}

theorem quiet_notifyTransaction (success : Bool) : NeverYields (notifyTransaction device success) :=
  .ite (quiet_notice _) (quiet.pure _)

theorem quiet_withTapleafHash : NeverYields (withTapleafHash st tapleaf input placeholderInfo) := by
  cases tapleaf with
  | none => exact quiet.pure _
  | some tapleaf => exact quiet.bindOption (quiet_question rfl) quiet_giveUp fun _ => quiet.pure _

/-- What was done for an internal input before a signature is yielded for it. -/
theorem signInternalInput_at_yield {i : Nat}
    (run : Runs (signInternalInput device st hashes tapleaf placeholderIndex placeholderInfo i)
      (before ++ ⟨.yield signing response, resumed⟩ :: after) result) :
    ∃ res received filled receiving leafHashing signs,
      before = receiving ++ (leafHashing ++ signs) ∧
      Runs (receiveInput device placeholderInfo (.signing placeholderIndex i) st.inputsRoot
        st.nInputs i) receiving (.ok (res, received)) ∧ 0 ≤ res ∧
      Runs (withTapleafHash st tapleaf received placeholderInfo) leafHashing (.ok filled) ∧
      ∃ after' result', Runs (signTransactionInput device st hashes placeholderIndex filled received
        i) (signs ++ ⟨.yield signing response, resumed⟩ :: after') result' := by
  obtain ⟨⟨res, received⟩, receiving, _, rfl, receives, continues⟩ :=
    bind_at_yield quiet_receiveInput run
  rcases runs_bind_at continues with ⟨_, _, checks⟩ | ⟨_, _, _, rfl, checks, hashesAndSigns⟩
  · obtain ⟨_, _, refuses⟩ := onRefusal_at_yield (quiet_notifyTransaction false) checks
    exact absurd rfl (quiet_refuseIf _ _ _ _ refuses).ne
  · obtain ⟨succeeds, rfl⟩ := (runs_onRefusal_ok_iff.mp checks).refuseIf
    obtain ⟨filled, leafHashing, signs, rfl, hashesLeaf, signing⟩ :=
      bind_at_yield quiet_withTapleafHash hashesAndSigns
    have atYield := onRefusal_at_yield
      (quiet.bind (quiet_sendSw swBadState) fun _ => quiet_notifyTransaction false) signing
    exact ⟨res, received, filled, receiving, leafHashing, signs, rfl, receives, not_lt.mp succeeds,
      hashesLeaf, atYield⟩

/-- What was done to sign the transaction before a signature is yielded. -/
theorem exists_attempt_of_yield (run : Runs (signTransaction device st internalInputs)
      (before ++ ⟨.yield signing response, resumed⟩ :: after) result) :
    Nonempty (SigningAttempt device st internalInputs before signing) := by
  obtain ⟨hashes, hashing, rest, rfl, hashesTransaction, signs⟩ :=
    bind_at_yield quiet_computeSegwitHashes run
  rcases runs_bind_at signs with ⟨_, _, loops⟩ | ⟨_, _, _, _, _, notifies⟩
  case inr => exact absurd rfl (quiet_notifyTransaction true _ _ notifies).ne
  obtain ⟨placeholderIndex, _, skippedPlaceholders, rest, _, _, -, rfl, -, turn⟩ :=
    forRange_at loops
  rw [Nat.zero_add, signPlaceholder] at turn
  cases isPlaceholder : (getKeyPlaceholderByIndex st.wallet.policy placeholderIndex).written with
  | none =>
    rw [isPlaceholder] at turn
    have isEmpty := turn.pure.1
    simp at isEmpty
  | some found =>
    obtain ⟨placeholder, tapleaf⟩ := found
    rw [isPlaceholder] at turn
    obtain ⟨filled, filling, rest, rfl, fills, loopsInputs⟩ :=
      bind_at_yield quiet_fillPlaceholderInfoIfInternal turn
    cases filled with
    | none =>
      have isEmpty := loopsInputs.pure.1
      simp at isEmpty
    | some internal =>
      obtain ⟨i, _, skippedInputs, rest, _, _, inside, rfl, -, inputTurn⟩ := forRange_at loopsInputs
      rw [Nat.zero_add, signInputIfInternal] at inputTurn
      split_ifs at inputTurn with isInternal
      · obtain ⟨res, received, placeholderInfo, receiving, leafHashing, signs, rfl, receives,
          succeeds, hashesLeaf, _, _, signsInput⟩ := signInternalInput_at_yield inputTurn
        obtain ⟨typed, signed, sighash, reading, computing, making, rfl, readsType, computes,
          makes, isSigning⟩ := signTransactionInput_at_yield signsInput
        exact ⟨{
          hashes, placeholderIndex, curInputIndex := i, placeholder, tapleaf, internal,
          placeholderInfo, res, received, typed, signed, sighash, hashing, skippedPlaceholders,
          filling, skippedInputs, receiving, leafHashing, reading, computing, making,
          exchanges_eq := rfl, hashesTransaction, isPlaceholder, fills, inside, isInternal,
          receives, succeeds, hashesLeaf, readsType, computes, makes, isSigning }⟩
      · have isEmpty := inputTurn.pure.1
        simp at isEmpty

end Transaction

end LedgerSyscoin.Handler
