import LedgerSyscoin.Handler.SignPsbt.ReviewedInputs

/-!
# The reviewed outputs

The loop over the outputs is unrolled: for each output it is known how it was read,
whether it was found to be of the wallet, and that it was shown if it is not. The sums
and counts afterwards are determined by the outputs. Counting the outputs beforehand
changes nothing else.
-/

namespace LedgerSyscoin.Handler

open Foundation Common Boilerplate
open Dialogue (Runs Unrolls forRange_unrolls forRange_keeps runs_pure_iff runs_fail_iff)
open Program (refuseIf runs_confirmIf_ok_iff)

/-- An output after the review: what was read, and whether it is of the wallet. -/
structure ReviewedOutput where
  output : OutputInfo
  isInternal : Bool

/-- The sums and counts after some outputs, all but the number of those that are shown. -/
def OutputsInfo.after (info : OutputsInfo) (reviewed : List ReviewedOutput) : OutputsInfo :=
  { info with
    totalAmount := info.totalAmount +
      UInt64.ofNat (reviewed.map (·.output.value.toNat)).sum
    changeTotalAmount := info.changeTotalAmount +
      UInt64.ofNat ((reviewed.filter (·.isInternal)).map (·.output.value.toNat)).sum
    nChange := info.nChange + reviewed.countP (·.isInternal) }

/-- The state after some outputs. -/
def SignPsbtState.afterOutputs (st : SignPsbtState) (reviewed : List ReviewedOutput) :
    SignPsbtState :=
  { st with outputs := st.outputs.after reviewed }

namespace SignPsbtState

variable (st : SignPsbtState)

/-- Add the amount of an output to the sum. -/
def addOutput (output : OutputInfo) : SignPsbtState :=
  { st with outputs := { st.outputs with
      totalAmount := st.outputs.totalAmount + output.value } }

theorem afterOutputs_nil : st.afterOutputs [] = st := by
  simp [afterOutputs, OutputsInfo.after]

theorem afterOutputs_append (first second : List ReviewedOutput) :
    (st.afterOutputs first).afterOutputs second = st.afterOutputs (first ++ second) := by
  simp [afterOutputs, OutputsInfo.after, UInt64.ofNat_add, UInt64.add_assoc, Nat.add_assoc]

theorem afterOutputs_external (output : OutputInfo) :
    st.afterOutputs [⟨output, false⟩] = st.addOutput output := by
  simp [afterOutputs, OutputsInfo.after, addOutput]

theorem afterOutputs_internal (output : OutputInfo) :
    st.afterOutputs [⟨output, true⟩] =
      { st.addOutput output with outputs := { (st.addOutput output).outputs with
          changeTotalAmount := st.outputs.changeTotalAmount + output.value
          nChange := st.outputs.nChange + 1 } } := by
  simp [afterOutputs, OutputsInfo.after, addOutput]

end SignPsbtState

/-! ## One output -/

variable {exchanges : Trace}

theorem runs_incrementInt_ok_iff {counter next : Nat} :
    Runs (incrementInt counter) exchanges (.ok next) ↔
      exchanges = [] ∧ counter + 1 < 2 ^ 31 ∧ next = counter + 1 := by
  rw [incrementInt]
  split_ifs with inside
  · simp only [runs_pure_iff, Except.ok.injEq, inside, true_and]
  · simp only [Program.undefined, runs_fail_iff, inside, reduceCtorEq, false_and, and_false]

/-- A turn of the loop over the outputs. -/
inductive ReviewsOutput (device : Device) (placeholderInfo : PlaceholderInfo) (j : Nat)
    (st : SignPsbtState) (externalOutputsCount : Nat) :
    Trace → SignPsbtState × Nat → ReviewedOutput → Prop
  | external {reading comparing showing : Trace} {output : OutputInfo}
      (reads : Runs (readOutput device placeholderInfo false st j) reading (.ok output))
      (compares : Runs (isInOutInternal (st.addOutput output) output.inOut (.output false j) false)
        comparing (.ok (some false)))
      (shows : Runs (displayOutput device (st.addOutput output) j (externalOutputsCount + 1) output)
        showing (.ok ())) :
      ReviewsOutput device placeholderInfo j st externalOutputsCount
        (reading ++ (comparing ++ showing))
        (st.afterOutputs [⟨output, false⟩], externalOutputsCount + 1) ⟨output, false⟩
  | internal {reading comparing : Trace} {output : OutputInfo}
      (reads : Runs (readOutput device placeholderInfo false st j) reading (.ok output))
      (compares : Runs (isInOutInternal (st.addOutput output) output.inOut (.output false j) false)
        comparing (.ok (some true))) :
      ReviewsOutput device placeholderInfo j st externalOutputsCount (reading ++ comparing)
        (st.afterOutputs [⟨output, true⟩], externalOutputsCount) ⟨output, true⟩

section Turns

variable {device : Device} {placeholderInfo : PlaceholderInfo} {j externalOutputsCount : Nat}
  {st : SignPsbtState} {next : SignPsbtState × Nat} {exchanges : Trace}

/-- Every turn starts with reading the output. -/
theorem ReviewsOutput.exists_reads {reviewed : ReviewedOutput}
    (turn : ReviewsOutput device placeholderInfo j st externalOutputsCount exchanges next
      reviewed) :
    ∃ reading rest, exchanges = reading ++ rest ∧
      Runs (readOutput device placeholderInfo false st j) reading (.ok reviewed.output) := by
  cases turn with
  | external reads compares shows => exact ⟨_, _, rfl, reads⟩
  | internal reads compares => exact ⟨_, _, rfl, reads⟩

theorem exists_reviewsOutput
    (run : Runs (verifyOutput device placeholderInfo false j (st, externalOutputsCount)) exchanges
      (.ok next)) :
    ∃ reviewed, ReviewsOutput device placeholderInfo j st externalOutputsCount exchanges next
      reviewed := by
  obtain ⟨_, _, rest, rfl, reads, run⟩ := run.bind_ok
  obtain ⟨isInternal, _, rest, rfl, compares, run⟩ := run.bind_ok
  cases isInternal with
  | none => exact run.refused.elim
  | some isInternal =>
    cases isInternal with
    | false =>
      obtain ⟨count, counting, rest, rfl, counts, run⟩ := run.bind_ok
      obtain ⟨rfl, -, rfl⟩ := runs_incrementInt_ok_iff.mp counts
      simp only [Bool.false_eq_true, if_false] at run
      obtain ⟨_, _, rest, rfl, shows, returns⟩ := run.bind_ok
      obtain ⟨rfl, ⟨⟩⟩ := returns.pure
      have turn := ReviewsOutput.external reads compares shows
      rw [SignPsbtState.afterOutputs_external] at turn
      rw [List.nil_append, List.append_nil]
      exact ⟨_, turn⟩
    | true =>
      simp only [Bool.false_eq_true, if_false] at run
      obtain ⟨_, _, rest, rfl, changes, returns⟩ := run.bind_ok
      obtain ⟨rfl, ⟨⟩⟩ := returns.pure
      obtain ⟨count, counting, rest, rfl, counts, updates⟩ := changes.bind_ok
      obtain ⟨rfl, -, rfl⟩ := runs_incrementInt_ok_iff.mp counts
      obtain ⟨rfl, ⟨⟩⟩ := updates.pure
      have turn : ReviewsOutput device placeholderInfo j st externalOutputsCount _ _ _ :=
        .internal reads compares
      rw [SignPsbtState.afterOutputs_internal] at turn
      simp only [List.append_nil]
      exact ⟨_, turn⟩

/-- Counting changes neither the sums nor the other fields. -/
theorem state_of_dryRun
    (run : Runs (verifyOutput device placeholderInfo true j (st, externalOutputsCount)) exchanges
      (.ok next)) : next.1 = st := by
  obtain ⟨output, _, rest, rfl, reads, run⟩ := run.bind_ok
  have noValue : output.value = 0 := by
    obtain ⟨⟨_, _⟩, _, _, _, _, reads⟩ := reads.bind_ok
    obtain ⟨-, reads⟩ := reads.refuseIf_bind
    obtain ⟨-, reads⟩ := reads.refuseIf_bind
    obtain ⟨_, _, _, _, amount, reads⟩ := reads.bind_ok
    obtain ⟨_, _, _, _, _, returns⟩ := reads.bind_ok
    cases amount.pure.2
    cases returns.pure.2
    rfl
  obtain ⟨isInternal, _, rest, rfl, _, run⟩ := run.bind_ok
  cases isInternal with
  | none => exact run.refused.elim
  | some isInternal =>
    cases isInternal with
    | false =>
      obtain ⟨_, _, rest, rfl, _, returns⟩ := run.bind_ok
      cases returns.pure.2
      simp [noValue]
    | true =>
      cases run.pure.2
      simp [noValue]

end Turns

/-! ## All outputs -/

/-- The loop over the outputs, unrolled. -/
def ReviewsOutputs (device : Device) (placeholderInfo : PlaceholderInfo) (st : SignPsbtState) :
    Trace → SignPsbtState × Nat → List ReviewedOutput → Prop :=
  Unrolls (fun j progress => ReviewsOutput device placeholderInfo j progress.1 progress.2) (st, 0)

variable {device : Device} {placeholderInfo : PlaceholderInfo}

theorem final_of_reviewsOutputs {st : SignPsbtState} {final : SignPsbtState × Nat}
    {reviewed : List ReviewedOutput}
    (reviews : ReviewsOutputs device placeholderInfo st exchanges final reviewed) :
    final = (st.afterOutputs reviewed, reviewed.countP fun output => !output.isInternal) := by
  induction reviews with
  | nil => rw [SignPsbtState.afterOutputs_nil, List.countP_nil]
  | @snoc earlier turned current next seen output unrolled turn ih =>
    subst ih
    cases turn with
    | external reads compares shows
    | internal reads compares => simp [SignPsbtState.afterOutputs_append]

/-- Counting the outputs only sets their number. -/
theorem state_of_countOutputs {st final : SignPsbtState}
    (run : Runs (countOutputs device placeholderInfo st) exchanges (.ok final)) :
    ∃ nExternal, final = { st with outputs := { st.outputs with nExternal } } := by
  rw [countOutputs] at run
  split_ifs at run
  · obtain ⟨_, _, rest, rfl, counts, run⟩ := run.bind_ok
    obtain ⟨_, _, _, _, _, returns⟩ := run.bind_ok
    cases returns.pure.2
    obtain ⟨⟨_, count⟩, _, rest, rfl, loops, returns⟩ := counts.bind_ok
    cases returns.pure.2
    have unchanged := forRange_keeps (fun _ progress => progress.1 = st) loops rfl
      fun same turn => (state_of_dryRun turn).trans same
    cases unchanged
    exact ⟨count, rfl⟩
  · cases run.pure.2
    exact ⟨st.outputs.nExternal, rfl⟩

/-- The outputs are counted first, if the device needs it, and then reviewed. -/
theorem exists_reviewsOutputs {st final : SignPsbtState}
    (run : Runs (processOutputs device st) exchanges (.ok final)) :
    ∃ placeholderInfo finding counting reviewing nExternal reviewed,
      exchanges = finding ++ (counting ++ reviewing) ∧
      Runs (findFirstInternalKeyPlaceholder device st) finding (.ok placeholderInfo) ∧
      reviewed.length = st.nOutputs ∧
      (∃ reached, ReviewsOutputs device placeholderInfo
        { st with outputs := { OutputsInfo.zero with nExternal } } reviewing reached reviewed) ∧
      final = { st with outputs := { OutputsInfo.zero.after reviewed with
        nExternal := reviewed.countP fun output => !output.isInternal } } := by
  obtain ⟨placeholderInfo, finding, rest, rfl, finds, run⟩ := run.bind_ok
  obtain ⟨_, counting, reviewing, rfl, counts, reads⟩ := run.bind_ok
  obtain ⟨nExternal, rfl⟩ := state_of_countOutputs counts
  obtain ⟨⟨_, _⟩, looping, rest, rfl, loops, returns⟩ := reads.bind_ok
  obtain ⟨rfl, ⟨⟩⟩ := returns.pure
  obtain ⟨reviewed, length, unrolls⟩ := forRange_unrolls
    (fun j progress => ReviewsOutput device placeholderInfo j progress.1 progress.2) loops
    fun ran => exists_reviewsOutput ran
  refine ⟨placeholderInfo, finding, counting, looping, nExternal, reviewed, by simp, finds, length,
    ⟨_, unrolls⟩, ?_⟩
  have reached := final_of_reviewsOutputs unrolls
  rw [Prod.mk.injEq] at reached
  obtain ⟨rfl, rfl⟩ := reached
  simp [SignPsbtState.afterOutputs, OutputsInfo.after]

/-! ## The state after the review -/

namespace Review

variable {device : Device} {protocolVersion : Nat} {readBuffer : Buffer}
  (review : Review device protocolVersion readBuffer)

/-- The sums, the counts and the warnings are all that changes. -/
theorem exists_reviewed_eq :
    ∃ inputs outputs, review.reviewed = { review.initial.afterInputs inputs with outputs } := by
  obtain ⟨inputs, isPreprocessed⟩ := review.preprocessed_eq
  obtain ⟨_, _, _, _, _, _, _, _, _, _, isReviewed⟩ := exists_reviewsOutputs review.processesOutputs
  rw [isPreprocessed] at isReviewed
  exact ⟨inputs, _, isReviewed⟩

/-- The fields that say what is hashed are those of the request. -/
theorem reviewed_request :
    review.reviewed.txVersion = review.initial.txVersion ∧
      review.reviewed.locktime = review.initial.locktime ∧
      review.reviewed.outputsRoot = review.initial.outputsRoot ∧
      review.reviewed.nOutputs = review.initial.nOutputs := by
  obtain ⟨_, _, isReviewed⟩ := review.exists_reviewed_eq
  rw [isReviewed]
  exact ⟨rfl, rfl, rfl, rfl⟩

theorem reviewed_inputsRoot : review.reviewed.inputsRoot = review.initial.inputsRoot := by
  obtain ⟨_, _, isReviewed⟩ := review.exists_reviewed_eq
  rw [isReviewed]
  rfl

theorem reviewed_nInputs : review.reviewed.nInputs = review.initial.nInputs := by
  obtain ⟨_, _, isReviewed⟩ := review.exists_reviewed_eq
  rw [isReviewed]
  rfl

theorem reviewed_wallet : review.reviewed.wallet = review.initial.wallet := by
  obtain ⟨_, _, isReviewed⟩ := review.exists_reviewed_eq
  rw [isReviewed]
  rfl

end Review

end LedgerSyscoin.Handler
