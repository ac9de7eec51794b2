import LedgerSyscoin.Handler.SignPsbt.ReviewedOutputs

/-!
# The fee

The amounts are added up modulo 2^64, and so is ten times the fee. What the user
confirms, or what is compared with the fee of the exchange application, is the
difference of the sums as long as both wrap around equally often; the warning of a high
fee is right as long as ten times the fee wraps around as often as the sums.
-/

namespace LedgerSyscoin.Handler

open Foundation Common Boilerplate
open Dialogue (AnsweredBy Runs answeredBy_append_iff run_bind_of_ok)
open Program (runs_confirm_ok_iff runs_onRefusal_ok_iff)

variable {exchanges : Trace} {st : SignPsbtState} {fee : UInt64}

/-! ## The reviewed amounts -/

/-- The inputs and the outputs of a review. -/
structure Review.Reads {device : Device} {protocolVersion : Nat} {readBuffer : Buffer}
    (review : Review device protocolVersion readBuffer) (inputs : List ReviewedInput)
    (outputs : List ReviewedOutput) : Prop where
  inputs : ∃ placeholderInfo finding reviewing, review.inputs = finding ++ reviewing ∧
    Runs (findFirstInternalKeyPlaceholder device review.initial) finding (.ok placeholderInfo) ∧
    inputs.length = review.initial.nInputs ∧
    ReviewsInputs device placeholderInfo review.initial reviewing
      (review.preprocessed, review.internalInputs) inputs
  outputs : ∃ placeholderInfo finding counting reviewing nExternal,
    review.outputs = finding ++ (counting ++ reviewing) ∧
    Runs (findFirstInternalKeyPlaceholder device review.preprocessed) finding
      (.ok placeholderInfo) ∧
    outputs.length = review.preprocessed.nOutputs ∧
    (∃ reached, ReviewsOutputs device placeholderInfo { review.preprocessed with
      outputs := { OutputsInfo.zero with nExternal } } reviewing reached outputs) ∧
    review.reviewed = { review.preprocessed with outputs := { OutputsInfo.zero.after outputs with
      nExternal := outputs.countP fun output => !output.isInternal } }

/-- The exact sum of the amounts of the inputs. -/
def inputsTotal (inputs : List ReviewedInput) : Nat := (inputs.map (·.input.prevoutAmount)).sum

/-- The exact sum of the amounts of the outputs. -/
def outputsTotal (outputs : List ReviewedOutput) : Nat := (outputs.map (·.output.value.toNat)).sum

section Totals

variable {device : Device} {protocolVersion : Nat} {readBuffer : Buffer}
  (review : Review device protocolVersion readBuffer)

/-- Every review reads inputs and outputs. -/
theorem Review.exists_reads : ∃ inputs outputs, review.Reads inputs outputs := by
  obtain ⟨first, finding, reviewing, inputs, isInputs, finds, length, reviews⟩ :=
    exists_reviewsInputs review.processesInputs
  obtain ⟨second, finding', counting, reviewing', nExternal, outputs, isOutputs, finds', length',
    reviews', isReviewed⟩ := exists_reviewsOutputs review.processesOutputs
  exact ⟨inputs, outputs, ⟨first, finding, reviewing, isInputs, finds, length, reviews⟩,
    ⟨second, finding', counting, reviewing', nExternal, isOutputs, finds', length', reviews',
      isReviewed⟩⟩

variable {review} {inputs : List ReviewedInput} {outputs : List ReviewedOutput}
  (reads : review.Reads inputs outputs)

include reads

theorem Review.Reads.preprocessed_eq : review.preprocessed = review.initial.afterInputs inputs := by
  obtain ⟨_, _, _, _, _, _, reviews⟩ := reads.inputs
  exact (final_of_reviewsInputs reviews).1

theorem Review.Reads.reviewed_eq :
    review.reviewed = { review.initial.afterInputs inputs with
      outputs := { OutputsInfo.zero.after outputs with
        nExternal := outputs.countP fun output => !output.isInternal } } := by
  obtain ⟨_, _, _, _, _, _, _, _, _, isReviewed⟩ := reads.outputs
  rw [isReviewed, reads.preprocessed_eq]

theorem Review.Reads.inputsTotalAmount_eq :
    review.reviewed.inputsTotalAmount = UInt64.ofNat (inputsTotal inputs) := by
  obtain ⟨_, _, _, _, _, _, _, _, _, _, _, _, _, isInitial⟩ := runs_initGlobalState_ok review.opens
  rw [reads.reviewed_eq, isInitial]
  exact UInt64.zero_add _

theorem Review.Reads.totalAmount_eq :
    review.reviewed.outputs.totalAmount = UInt64.ofNat (outputsTotal outputs) := by
  rw [reads.reviewed_eq]
  exact UInt64.zero_add _

end Totals

/-! ## What is confirmed -/

theorem runs_confirmOrNotify_ok_iff {screen : Screen} :
    Runs (confirmOrNotify screen) exchanges (.ok ()) ↔ exchanges = [⟨.screen screen, true⟩] :=
  runs_onRefusal_ok_iff.trans runs_confirm_ok_iff

/-- The fee is high compared with the inputs. -/
def isHighFee (fee inputsTotalAmount : UInt64) : Bool :=
  10 * fee ≥ inputsTotalAmount ∧ inputsTotalAmount > 10000

theorem runs_confirmFee_ok (run : Runs (confirmFee st fee) exchanges (.ok ())) :
    exchanges =
      (if isHighFee fee st.inputsTotalAmount then [⟨.screen .warnHighFee, true⟩] else []) ++
      [⟨.screen (.validateTransaction fee (st.outputs.nExternal = 0)), true⟩] := by
  rw [confirmFee] at run
  simp only [isHighFee, decide_eq_true_eq]
  split_ifs at run ⊢ with isHigh
  · obtain ⟨⟨⟩, _, _, rfl, warns, validates⟩ := run.bind_ok
    rw [runs_confirmOrNotify_ok_iff.mp warns, runs_confirmOrNotify_ok_iff.mp validates]
  · exact runs_confirmOrNotify_ok_iff.mp run

theorem warnHighFee_mem_iff (run : Runs (confirmFee st fee) exchanges (.ok ())) :
    (∃ answer, ⟨.screen .warnHighFee, answer⟩ ∈ exchanges) ↔
      isHighFee fee st.inputsTotalAmount = true := by
  rw [runs_confirmFee_ok run]
  split_ifs with isHigh <;> simp [isHigh]

theorem validateTransaction_mem_iff {shown : UInt64} {isSelfTransfer : Bool}
    (run : Runs (confirmFee st fee) exchanges (.ok ())) :
    ⟨.screen (.validateTransaction shown isSelfTransfer), true⟩ ∈ exchanges ↔
      shown = fee ∧ isSelfTransfer = decide (st.outputs.nExternal = 0) := by
  rw [runs_confirmFee_ok run]
  split_ifs <;> simp

/-- The fee that is confirmed is the difference of the exact sums, and the warning of a high fee
is shown when it is one. -/
structure FeeExact (device : Device) (confirmation : Trace) (inputsTotal outputsTotal : Nat) :
    Prop where
  covered : outputsTotal ≤ inputsTotal
  expected : ∀ request, device.swap = some request →
    request.fees.toNat = inputsTotal - outputsTotal
  shown : device.swap = none → ∃ fee isSelfTransfer,
    ⟨.screen (.validateTransaction fee isSelfTransfer), true⟩ ∈ confirmation ∧
      fee.toNat = inputsTotal - outputsTotal
  warned : device.swap = none → ((∃ answer, ⟨.screen .warnHighFee, answer⟩ ∈ confirmation) ↔
    10000 < inputsTotal ∧ inputsTotal ≤ 10 * (inputsTotal - outputsTotal))

/-- Ten times the fee compares with the sum of the inputs as it should modulo 2^64: it wraps around
as often, or the remainders happen to compare in the same way. -/
def HighFeeComparable (inputsTotal fee : Nat) : Prop :=
  10 * fee / 2 ^ 64 = inputsTotal / 2 ^ 64 ∨
    (10 * fee / 2 ^ 64 < inputsTotal / 2 ^ 64 ∧
      (inputsTotal % 2 ^ 64 ≤ 10000 ∨ 10 * fee % 2 ^ 64 < inputsTotal % 2 ^ 64)) ∨
    inputsTotal / 2 ^ 64 < 10 * fee / 2 ^ 64 ∧ inputsTotal % 2 ^ 64 ≤ 10 * fee % 2 ^ 64

section Arithmetic

variable {inputsTotal outputsTotal : Nat}

theorem toNat_sub_ofNat_eq_iff (covered : UInt64.ofNat outputsTotal ≤ UInt64.ofNat inputsTotal) :
    (UInt64.ofNat inputsTotal - UInt64.ofNat outputsTotal).toNat = inputsTotal - outputsTotal ∧
      outputsTotal ≤ inputsTotal ↔ inputsTotal / 2 ^ 64 = outputsTotal / 2 ^ 64 := by
  have isDifference := UInt64.toNat_sub_of_le _ _ covered
  rw [UInt64.le_iff_toNat_le] at covered
  simp only [UInt64.toNat_ofNat'] at isDifference covered
  rw [isDifference]
  omega

theorem isHighFee_iff (sameWraps : inputsTotal / 2 ^ 64 = outputsTotal / 2 ^ 64)
    (covered : UInt64.ofNat outputsTotal ≤ UInt64.ofNat inputsTotal) :
    (isHighFee (UInt64.ofNat inputsTotal - UInt64.ofNat outputsTotal) (UInt64.ofNat inputsTotal) ↔
      10000 < inputsTotal ∧ inputsTotal ≤ 10 * (inputsTotal - outputsTotal)) ↔
      HighFeeComparable inputsTotal (inputsTotal - outputsTotal) := by
  have isDifference := ((toNat_sub_ofNat_eq_iff covered).mpr sameWraps).1
  have isProduct : (10 * (UInt64.ofNat inputsTotal - UInt64.ofNat outputsTotal)).toNat =
      10 * (inputsTotal - outputsTotal) % 2 ^ 64 := by
    rw [UInt64.toNat_mul, isDifference]
    rfl
  rw [UInt64.le_iff_toNat_le] at covered
  simp only [isHighFee, decide_eq_true_eq, ge_iff_le, gt_iff_lt, UInt64.le_iff_toNat_le,
    UInt64.lt_iff_toNat_lt, isProduct, UInt64.toNat_ofNat', HighFeeComparable] at covered ⊢
  have isLimit : (10000 : UInt64).toNat = 10000 := rfl
  rw [isLimit]
  omega

end Arithmetic

/-! ## Exactness -/

/-- A transaction that is confirmed: the sums modulo 2^64 cover the fee, and it is compared or
shown. -/
theorem runs_confirmTransaction_ok {device : Device}
    (run : Runs (confirmTransaction device st) exchanges (.ok ())) :
    st.outputs.totalAmount ≤ st.inputsTotalAmount ∧ st.outputs.nChange ≤ 10 ∧
      (∀ request, device.swap = some request → Runs (confirmSwap st request
        (st.inputsTotalAmount - st.outputs.totalAmount)) exchanges (.ok ())) ∧
      (device.swap = none → Runs (confirmFee st (st.inputsTotalAmount - st.outputs.totalAmount))
        exchanges (.ok ())) := by
  obtain ⟨covered, run⟩ := run.refuseIf_bind
  obtain ⟨fewChange, run⟩ := run.refuseIf_bind
  refine ⟨UInt64.not_lt.mp covered, not_lt.mp fewChange, fun request isSwap => ?_, fun noSwap => ?_⟩
  · simpa only [isSwap] using run
  · simpa only [noSwap] using run

theorem runs_confirmSwap_ok {request : SwapRequest}
    (run : Runs (confirmSwap st request fee) exchanges (.ok ())) :
    st.outputs.nExternal = 1 ∧ fee = request.fees ∧
      st.outputs.totalAmount - st.outputs.changeTotalAmount = request.amount := by
  obtain ⟨single, run⟩ := run.refuseIf_bind
  obtain ⟨sameFee, run⟩ := run.refuseIf_bind
  obtain ⟨sameAmount, -⟩ := run.refuseIf
  exact ⟨not_not.mp single, not_not.mp sameFee, not_not.mp sameAmount⟩

section Exact

variable {device : Device} {protocolVersion : Nat} {readBuffer : Buffer}
  {review : Review device protocolVersion readBuffer} {inputs : List ReviewedInput}
  {outputs : List ReviewedOutput}

/-- The fee is exact if and only if the sums wrap around equally often, and, unless the exchange
application asked for the transaction, ten times the fee compares as it should. -/
theorem feeExact_iff (reads : review.Reads inputs outputs) :
    FeeExact device review.confirmation (inputsTotal inputs) (outputsTotal outputs) ↔
      inputsTotal inputs / 2 ^ 64 = outputsTotal outputs / 2 ^ 64 ∧
        (device.swap = none → HighFeeComparable (inputsTotal inputs)
          (inputsTotal inputs - outputsTotal outputs)) := by
  obtain ⟨covered, -, comparesSwap, showsFee⟩ := runs_confirmTransaction_ok review.confirms
  rw [reads.inputsTotalAmount_eq, reads.totalAmount_eq] at covered comparesSwap showsFee
  cases isSwap : device.swap with
  | some request =>
    obtain ⟨-, isFee, -⟩ := runs_confirmSwap_ok (comparesSwap request isSwap)
    simp only [reduceCtorEq, false_implies, and_true]
    rw [← toNat_sub_ofNat_eq_iff covered, isFee]
    constructor
    · exact fun exact => ⟨exact.expected request isSwap, exact.covered⟩
    · rintro ⟨isDifference, isCovered⟩
      refine ⟨isCovered, fun other isOther => ?_, fun noSwap => ?_, fun noSwap => ?_⟩
      · cases isSwap.symm.trans isOther
        exact isDifference
      · cases isSwap.symm.trans noSwap
      · cases isSwap.symm.trans noSwap
  | none =>
    have warns := warnHighFee_mem_iff (showsFee isSwap)
    rw [reads.inputsTotalAmount_eq] at warns
    simp only [true_implies]
    constructor
    · intro exact
      obtain ⟨fee, isSelfTransfer, isShown, isFee⟩ := exact.shown isSwap
      obtain ⟨rfl, -⟩ := (validateTransaction_mem_iff (showsFee isSwap)).mp isShown
      have sameWraps := (toNat_sub_ofNat_eq_iff covered).mp ⟨isFee, exact.covered⟩
      exact ⟨sameWraps, (isHighFee_iff sameWraps covered).mp (warns.symm.trans
        (exact.warned isSwap))⟩
    · rintro ⟨sameWraps, comparable⟩
      obtain ⟨isDifference, isCovered⟩ := (toNat_sub_ofNat_eq_iff covered).mpr sameWraps
      refine ⟨isCovered, fun other isOther => ?_, fun _ => ?_, fun _ => ?_⟩
      · cases isSwap.symm.trans isOther
      · exact ⟨_, _, (validateTransaction_mem_iff (showsFee isSwap)).mpr ⟨rfl, rfl⟩, isDifference⟩
      · exact warns.trans ((isHighFee_iff sameWraps covered).mpr comparable)

end Exact

/-! ## Amounts that wrap around

With given answers, the amounts of a review are those that are read from the start. -/

/-- Read the amount of an input. -/
def inputAmount (device : Device) (protocolVersion : Nat) (readBuffer : Buffer) (i : Nat) :
    Program Nat := do
  let st ← initGlobalState device protocolVersion readBuffer
  let placeholderInfo ← findFirstInternalKeyPlaceholder device st
  let input ← readInput device placeholderInfo st i
  return input.prevoutAmount

/-- Read the amount of an output. -/
def outputAmount (device : Device) (protocolVersion : Nat) (readBuffer : Buffer) (j : Nat) :
    Program Nat := do
  let st ← initGlobalState device protocolVersion readBuffer
  let (st, _) ← preprocessInputs device st
  let placeholderInfo ← findFirstInternalKeyPlaceholder device st
  let output ← readOutput device placeholderInfo false st j
  return output.value.toNat

section Amounts

variable {device : Device} {protocolVersion : Nat} {readBuffer : Buffer}
  {review : Review device protocolVersion readBuffer} {inputs : List ReviewedInput}
  {outputs : List ReviewedOutput} {answers : (question : Question) → Answer question}

theorem Review.Reads.inputAmount_eq (reads : review.Reads inputs outputs)
    (answered : AnsweredBy answers review.trace) {i : Nat} {reviewed : ReviewedInput}
    (isInput : inputs[i]? = some reviewed) :
    (inputAmount device protocolVersion readBuffer i).run answers =
      .ok reviewed.input.prevoutAmount := by
  obtain ⟨_, _, _, isInputs, finds, -, reviews⟩ := reads.inputs
  obtain ⟨⟨_, _⟩, _, _, _, _, rfl, before, turn⟩ := reviews.get isInput
  obtain ⟨isState, -⟩ := final_of_reviewsInputs before
  dsimp only at isState
  subst isState
  obtain ⟨_, _, rfl, readsInput⟩ := turn.exists_reads
  simp only [Review.trace, isInputs, answeredBy_append_iff] at answered
  obtain ⟨inOpening, ⟨inFinding, -, ⟨inReading, -⟩, -⟩, -⟩ := answered
  rw [inputAmount, run_bind_of_ok (review.opens.run_eq inOpening),
    run_bind_of_ok (finds.run_eq inFinding)]
  exact run_bind_of_ok (readsInput.run_eq inReading) _

theorem Review.Reads.outputAmount_eq (reads : review.Reads inputs outputs)
    (answered : AnsweredBy answers review.trace) {j : Nat} {reviewed : ReviewedOutput}
    (isOutput : outputs[j]? = some reviewed) :
    (outputAmount device protocolVersion readBuffer j).run answers =
      .ok reviewed.output.value.toNat := by
  obtain ⟨_, _, _, _, _, isOutputs, finds, -, ⟨_, reviews⟩, -⟩ := reads.outputs
  obtain ⟨⟨_, _⟩, _, _, _, _, rfl, before, turn⟩ := reviews.get isOutput
  have isState := final_of_reviewsOutputs before
  rw [Prod.mk.injEq] at isState
  obtain ⟨rfl, -⟩ := isState
  obtain ⟨_, _, rfl, readsOutput⟩ := turn.exists_reads
  simp only [Review.trace, isOutputs, answeredBy_append_iff] at answered
  obtain ⟨inOpening, inInputs, -, ⟨inFinding, -, -, ⟨inReading, -⟩, -⟩, -⟩ := answered
  rw [outputAmount, run_bind_of_ok (review.opens.run_eq inOpening),
    run_bind_of_ok (review.processesInputs.run_eq inInputs)]
  dsimp only
  rw [run_bind_of_ok (finds.run_eq inFinding)]
  exact run_bind_of_ok (readsOutput.run_eq inReading) _

/-- There are as many inputs and outputs as the request says. -/
theorem Review.Reads.length_eq (reads : review.Reads inputs outputs) {nInputs nOutputs : Nat}
    (parsed : ((readSignPsbtRequest readBuffer).run noAnswers).map
      (fun request => (request.nInputs, request.nOutputs)) = .ok (nInputs, nOutputs)) :
    inputs.length = nInputs ∧ outputs.length = nOutputs := by
  obtain ⟨_, _, _, _, _, _, _, _, parses, _, _, _, _, isInitial⟩ :=
    runs_initGlobalState_ok review.opens
  obtain ⟨_, _, _, _, _, lengthInputs, _⟩ := reads.inputs
  obtain ⟨_, _, _, _, _, _, _, lengthOutputs, _⟩ := reads.outputs
  have nothing : AnsweredBy noAnswers [] := List.forall_mem_nil _
  rw [parses.run_eq nothing] at parsed
  cases parsed
  rw [lengthInputs, lengthOutputs, reads.preprocessed_eq, isInitial]
  exact ⟨rfl, rfl⟩

/-- The sums for one input and one output. -/
theorem Review.Reads.totals_eq (reads : review.Reads inputs outputs)
    (answered : AnsweredBy answers review.trace) {inputValue outputValue : Nat}
    (parsed : ((readSignPsbtRequest readBuffer).run noAnswers).map
      (fun request => (request.nInputs, request.nOutputs)) = .ok (1, 1))
    (isInput : (inputAmount device protocolVersion readBuffer 0).run answers = .ok inputValue)
    (isOutput : (outputAmount device protocolVersion readBuffer 0).run answers = .ok outputValue) :
    inputsTotal inputs = inputValue ∧ outputsTotal outputs = outputValue := by
  obtain ⟨oneInput, oneOutput⟩ := reads.length_eq parsed
  obtain ⟨_, rfl⟩ := List.length_eq_one_iff.mp oneInput
  obtain ⟨_, rfl⟩ := List.length_eq_one_iff.mp oneOutput
  have readInput := (reads.inputAmount_eq answered (i := 0) rfl).symm.trans isInput
  have readOutput := (reads.outputAmount_eq answered (j := 0) rfl).symm.trans isOutput
  exact ⟨Except.ok.inj readInput, Except.ok.inj readOutput⟩

end Amounts

theorem feeExact_iff_highFee :
    ∃ (review : Review sampleDevice 1 highFeeStore.sampleRequest) (inputs : List ReviewedInput)
      (outputs : List ReviewedOutput), review.Reads inputs outputs ∧
      FeeExact sampleDevice review.confirmation (inputsTotal inputs) (outputsTotal outputs) := by
  obtain ⟨review, answered⟩ := ClientStore.exists_review sampleDevice highFeeStore
    (by decide +kernel)
  obtain ⟨inputs, outputs, reads⟩ := review.exists_reads
  obtain ⟨isInputs, isOutputs⟩ : inputsTotal inputs = 100000 ∧ outputsTotal outputs = 90000 :=
    reads.totals_eq answered (by decide +kernel) (by decide +kernel) (by decide +kernel)
  refine ⟨review, inputs, outputs, reads, (feeExact_iff reads).mpr ?_⟩
  rw [isInputs, isOutputs]
  exact ⟨rfl, fun _ => .inl rfl⟩

/-- Two inputs whose amounts add up to more than 2^64. -/
def wrappingStore : ClientStore :=
  sampleStore [sampleInput (2 ^ 63) 1, sampleInput (2 ^ 63 + 100000) 1] [sampleOutput 90000]

/-- The fee that the user confirms is 10000, and what is paid is 2^64 more. -/
theorem not_feeExact_wrapping :
    ∃ (review : Review sampleDevice 1 wrappingStore.sampleRequest) (inputs : List ReviewedInput)
      (outputs : List ReviewedOutput), review.Reads inputs outputs ∧
      inputs.map (·.input.prevoutAmount) = [2 ^ 63, 2 ^ 63 + 100000] ∧
      outputs.map (·.output.value.toNat) = [90000] ∧
      ¬FeeExact sampleDevice review.confirmation (inputsTotal inputs) (outputsTotal outputs) := by
  obtain ⟨review, answered⟩ := ClientStore.exists_review sampleDevice wrappingStore
    (by decide +kernel)
  obtain ⟨inputs, outputs, reads⟩ := review.exists_reads
  obtain ⟨twoInputs, oneOutput⟩ : inputs.length = 2 ∧ outputs.length = 1 :=
    reads.length_eq (by decide +kernel)
  obtain ⟨first, second, rfl⟩ := List.length_eq_two.mp twoInputs
  obtain ⟨output, rfl⟩ := List.length_eq_one_iff.mp oneOutput
  have isFirst : first.input.prevoutAmount = 2 ^ 63 :=
    Except.ok.inj ((reads.inputAmount_eq answered (i := 0) rfl).symm.trans (by decide +kernel))
  have isSecond : second.input.prevoutAmount = 2 ^ 63 + 100000 :=
    Except.ok.inj ((reads.inputAmount_eq answered (i := 1) rfl).symm.trans (by decide +kernel))
  have isOutput : output.output.value.toNat = 90000 :=
    Except.ok.inj ((reads.outputAmount_eq answered (j := 0) rfl).symm.trans (by decide +kernel))
  refine ⟨review, _, _, reads, by simp [isFirst, isSecond], by simp [isOutput], fun exact => ?_⟩
  obtain ⟨fee, _, _, isFee⟩ := exact.shown rfl
  have small := fee.toNat_lt
  simp [inputsTotal, outputsTotal, isFirst, isSecond, isOutput] at isFee
  omega

end LedgerSyscoin.Handler
