import LedgerSyscoin.Handler.SignPsbt.Fees

/-!
# Transactions for the exchange application

The exchange application calls with an address, an amount and a fee. They are copied
before the application runs, and compared with the transaction instead of showing it to
the user. At most 64 characters of the address are copied, so that the check for longer
ones never fails.
-/

namespace LedgerSyscoin.Swap

open Foundation Common Handler List
open Dialogue (Runs)

/-! ## Copying the parameters -/

/-- A string as it is passed in C: no character is zero. -/
abbrev CString := { characters : Bytes // 0 ∉ characters }

/-- The parameters of the call; amounts are big-endian. -/
structure CreateTransactionParameters where
  amount : Bytes
  feeAmount : Bytes
  destinationAddress : CString

/-- The bytes that `strncpy` writes. -/
def strncpy (source : CString) (n : Nat) : Bytes :=
  source.val.take n ++ replicate (n - source.val.length) 0

/-- The string that starts at the beginning of a buffer. -/
def stringOf (buffer : Bytes) : Bytes := buffer.takeWhile (· ≠ 0)

/-- An amount, aligned to the right in 8 bytes. -/
def readAmount (amount : Bytes) : UInt64 :=
  UInt64.ofNat (beNat (replicate (8 - amount.length) 0 ++ amount))

/-- Copy the parameters; `none` stands for the return value `false`. -/
def copyTransactionParameters (params : CreateTransactionParameters) : Option SwapRequest :=
  let destinationAddress := strncpy params.destinationAddress 64 ++ [0]
  if destinationAddress[64]? ≠ some 0 ∨ params.amount.length > 8 ∨ params.feeAmount.length > 8 then
    none
  else some ⟨stringOf destinationAddress, readAmount params.amount, readAmount params.feeAmount⟩

/-- At most `n` characters are copied. -/
theorem stringOf_strncpy (source : CString) (n : Nat) :
    stringOf (strncpy source n ++ [0]) = source.val.take n := by
  have noZero : ∀ character ∈ source.val.take n, (character ≠ 0 : Bool) = true := by
    intro character mem
    refine decide_eq_true fun isZero => ?_
    subst isZero
    exact source.property (mem_of_mem_take mem)
  rw [stringOf, strncpy, append_assoc, ← replicate_succ', replicate_succ,
    takeWhile_append_of_pos noZero]
  simp

theorem toNat_readAmount {amount : Bytes} (short : amount.length ≤ 8) :
    (readAmount amount).toNat = beNat amount := by
  have isValue : beNat (replicate (8 - amount.length) 0 ++ amount) = beNat amount := by
    rw [beNat, beNat, reverse_append, reverse_replicate, leNat_append_replicate_zero]
  have small := beNat_lt amount
  have bound : 256 ^ amount.length ≤ 256 ^ 8 := Nat.pow_le_pow_right (by omega) short
  rw [readAmount, isValue, UInt64.toNat_ofNat']
  exact Nat.mod_eq_of_lt (by omega)

/-- What is copied: the first 64 characters of the address, and the amounts. -/
theorem copyTransactionParameters_eq_some {params : CreateTransactionParameters}
    {request : SwapRequest} (copied : copyTransactionParameters params = some request) :
    request.destinationAddress = params.destinationAddress.val.take 64 ∧
      request.amount.toNat = beNat params.amount ∧
      request.fees.toNat = beNat params.feeAmount := by
  simp only [copyTransactionParameters] at copied
  split_ifs at copied with refused
  cases copied
  push Not at refused
  exact ⟨stringOf_strncpy _ _, toNat_readAmount refused.2.1, toNat_readAmount refused.2.2⟩

/-! ## The contract -/

/-- What the exchange application relies on: the policy is a default one, all inputs are internal,
one output is external, it has the address and the amount of the request, and the fee is the one of
the request. -/
structure SwapContract {device : Device} {protocolVersion : Nat} {readBuffer : Buffer}
    (params : CreateTransactionParameters) (review : Review device protocolVersion readBuffer)
    (inputs : List ReviewedInput) (outputs : List ReviewedOutput) : Prop where
  isDefault : review.initial.isWalletDefault = true
  isStandard : ∃ walletPolicy exchanges, walletPolicy.policy = review.initial.wallet.policy ∧
    Runs (requireStandard device walletPolicy) exchanges (.ok ())
  allInternal : ∀ input ∈ inputs, input.isInternal = true
  oneExternal : ∃ external, outputs.filter (fun output => !output.isInternal) = [external] ∧
    (∃ script, external.output.inOut.scriptPubKey = some script ∧
      device.getScriptAddress script = some params.destinationAddress.val) ∧
    external.output.value.toNat = beNat params.amount
  isFee : inputsTotal inputs = outputsTotal outputs + beNat params.feeAmount

/-- The sum of the amounts of the outputs of the wallet. -/
def internalTotal (outputs : List ReviewedOutput) : Nat :=
  ((outputs.filter (·.isInternal)).map (·.output.value.toNat)).sum

theorem outputsTotal_eq (outputs : List ReviewedOutput) :
    outputsTotal outputs = internalTotal outputs +
      ((outputs.filter (fun output => !output.isInternal)).map (·.output.value.toNat)).sum := by
  induction outputs with
  | nil => rfl
  | cons output outputs ih =>
    rw [outputsTotal, internalTotal] at ih ⊢
    cases isInternal : output.isInternal <;> simp [isInternal, ih] <;> omega

theorem exists_script_of_describeScript {device : Device} {scriptPubKey : Option Bytes}
    {address : Bytes} (described : describeScript device scriptPubKey = some (.address address)) :
    ∃ script, scriptPubKey = some script ∧ device.getScriptAddress script = some address := by
  cases scriptPubKey with
  | none => cases described
  | some script =>
    refine ⟨script, rfl, ?_⟩
    cases isAddress : device.getScriptAddress script with
    | some found =>
      simp only [describeScript, isAddress, Option.pure_def, Option.bind_eq_bind,
        Option.bind_some, Option.some.injEq, OutputDescription.address.injEq] at described
      rw [described]
    | none => simp [describeScript, isAddress, Option.bind_eq_some_iff] at described

section Contract

variable {device : Device} {protocolVersion : Nat} {readBuffer : Buffer}
  (review : Review device protocolVersion readBuffer) {inputs : List ReviewedInput}
  {outputs : List ReviewedOutput} {request : SwapRequest} (isSwap : device.swap = some request)

include isSwap

/-- Only a default policy is used. -/
theorem default_of_swap : review.initial.isWalletDefault = true ∧
    ∃ walletPolicy exchanges, walletPolicy.policy = review.initial.wallet.policy ∧
      Runs (requireStandard device walletPolicy) exchanges (.ok ()) := by
  obtain ⟨request, _, _, walletPolicy, _, _, authorizing, _, _, _, _, _, authorizes, isInitial⟩ :=
    runs_initGlobalState_ok review.opens
  cases isDefault : hasHmac request.walletHmac with
  | true =>
    rw [isDefault, authorizePolicy, if_neg (by decide)] at authorizes
    obtain ⟨noSwap, -⟩ := authorizes.refuseIf_bind
    simp [isSwap] at noSwap
  | false =>
    rw [isDefault, authorizePolicy, if_pos (by decide)] at authorizes
    rw [isInitial]
    exact ⟨by simp [initialState, isDefault], walletPolicy, authorizing, rfl, authorizes⟩

variable {review}

/-- An external input is refused. -/
theorem allInternal_of_swap (reads : review.Reads inputs outputs) :
    ∀ input ∈ inputs, input.isInternal = true := by
  obtain ⟨_, _, _, _, _, length, reviews⟩ := reads.inputs
  obtain ⟨_, isSet⟩ := final_of_reviewsInputs reviews
  obtain ⟨_, _, _, _, alerts, _⟩ := review.alertsUser.bind_ok
  obtain ⟨noneExternal, -⟩ := alerts.refuseIf_bind
  rw [isSwap, Option.isSome_some, eq_self_iff_true, or_true, and_true, gt_iff_lt, Nat.not_lt,
    Nat.le_zero, countExternalInputs, countP_eq_zero] at noneExternal
  intro input mem
  obtain ⟨i, inside, rfl⟩ := mem_iff_getElem.mp mem
  have isInput : inputs[i]? = some inputs[i] := getElem?_eq_getElem inside
  have nInputs : review.preprocessed.nInputs = inputs.length := by
    rw [length, reads.preprocessed_eq]
    rfl
  have notExternal := noneExternal i (mem_range.mpr (nInputs ▸ inside))
  simp only [isExternalInput, decide_not, Bool.not_eq_true', decide_eq_false_iff_not,
    not_not] at notExternal
  obtain ⟨_, isFound, isInternal⟩ := (isSet i).mp notExternal
  cases isInput.symm.trans isFound
  exact isInternal

/-- The address of an external output is the one of the request. -/
theorem address_of_swap (reads : review.Reads inputs outputs) {external : ReviewedOutput}
    (mem : external ∈ outputs) (isExternal : external.isInternal = false) :
    ∃ script, external.output.inOut.scriptPubKey = some script ∧
      device.getScriptAddress script = some request.destinationAddress := by
  obtain ⟨_, _, _, _, _, _, _, _, ⟨_, reviews⟩, _⟩ := reads.outputs
  obtain ⟨_, isOutput⟩ := mem_iff_getElem?.mp mem
  obtain ⟨_, _, _, _, _, _, _, turn⟩ := reviews.get isOutput
  cases turn with
  | internal reads compares => cases isExternal
  | @external _ _ _ output _ _ shows =>
    obtain ⟨description, isDescription, compares⟩ := shows.orRefuse_bind
    rw [isSwap] at compares
    cases description with
    | address address =>
      rw [← not_not.mp compares.refuseIf.1]
      exact exists_script_of_describeScript isDescription
    | opReturn shown => exact compares.refused.elim

/-- The only external output has the amount of the request. -/
theorem oneExternal_of_swap (reads : review.Reads inputs outputs) :
    ∃ external, outputs.filter (fun output => !output.isInternal) = [external] ∧
      external.output.value = request.amount := by
  obtain ⟨-, -, comparesSwap, -⟩ := runs_confirmTransaction_ok review.confirms
  obtain ⟨single, -, sameAmount⟩ := runs_confirmSwap_ok (comparesSwap request isSwap)
  rw [reads.reviewed_eq] at single sameAmount
  dsimp only at single sameAmount
  rw [countP_eq_length_filter] at single
  obtain ⟨external, isExternal⟩ := length_eq_one_iff.mp single
  refine ⟨external, isExternal, ?_⟩
  have isSum := outputsTotal_eq outputs
  rw [isExternal, map_singleton, sum_singleton] at isSum
  calc
    external.output.value =
        UInt64.ofNat (internalTotal outputs + external.output.value.toNat) -
          UInt64.ofNat (internalTotal outputs) := by
      rw [UInt64.ofNat_add, UInt64.ofNat_toNat, UInt64.add_comm, UInt64.add_sub_cancel]
    _ = request.amount := by
      rw [← isSum, ← sameAmount]
      simp [OutputsInfo.after, OutputsInfo.zero, outputsTotal, internalTotal]

/-- The fee is the one of the request. -/
theorem fee_of_swap (reads : review.Reads inputs outputs)
    (smallInputs : inputsTotal inputs < 2 ^ 64)
    (smallOutputs : outputsTotal outputs < 2 ^ 64) :
    inputsTotal inputs = outputsTotal outputs + request.fees.toNat := by
  obtain ⟨covered, -, comparesSwap, -⟩ := runs_confirmTransaction_ok review.confirms
  obtain ⟨-, isFee, -⟩ := runs_confirmSwap_ok (comparesSwap request isSwap)
  rw [reads.inputsTotalAmount_eq, reads.totalAmount_eq] at covered isFee
  have sameWraps : inputsTotal inputs / 2 ^ 64 = outputsTotal outputs / 2 ^ 64 := by
    rw [Nat.div_eq_of_lt smallInputs, Nat.div_eq_of_lt smallOutputs]
  obtain ⟨isDifference, _⟩ := (toNat_sub_ofNat_eq_iff covered).mpr sameWraps
  rw [← isFee, isDifference]
  omega

/-- A kept contract is about the whole address of the request. -/
theorem short_of_swapContract {params : CreateTransactionParameters}
    (copied : copyTransactionParameters params = some request)
    (reads : review.Reads inputs outputs) (contract : SwapContract params review inputs outputs) :
    params.destinationAddress.val.length ≤ 64 := by
  obtain ⟨isAddress, -⟩ := copyTransactionParameters_eq_some copied
  obtain ⟨external, isExternal, ⟨script, isScript, hasAddress⟩, -⟩ := contract.oneExternal
  obtain ⟨isOutput, notInternal⟩ := mem_filter.mp (isExternal ▸ mem_cons_self)
  obtain ⟨script', isScript', hasAddress'⟩ :=
    address_of_swap isSwap reads isOutput (by simpa using notInternal)
  cases isScript.symm.trans isScript'
  have same := Option.some.inj (hasAddress'.symm.trans hasAddress)
  have short := length_take_le 64 params.destinationAddress.val
  rwa [← isAddress, same] at short

end Contract

/-- When a signature is yielded for the exchange application and the sums do not wrap around, the
contract is kept if and only if the whole address of the request was copied. -/
theorem swapContract_iff_of_yield {device : Device} {protocolVersion : Nat} {readBuffer : Buffer}
    {params : CreateTransactionParameters} {request : SwapRequest} {before after : Trace}
    {signing : Signing} {response : Bytes} {resumed : Bool} {result : Except Stop Unit}
    (copied : copyTransactionParameters params = some request)
    (isSwap : device.swap = some request)
    (run : Runs (handlerSignPsbt device protocolVersion readBuffer)
      (before ++ ⟨.yield signing response, resumed⟩ :: after) result) :
    ∃ (review : Review device protocolVersion readBuffer) (inputs : List ReviewedInput)
      (outputs : List ReviewedOutput) (signed : Trace), before = review.trace ++ signed ∧
      review.Reads inputs outputs ∧
      (inputsTotal inputs < 2 ^ 64 → outputsTotal outputs < 2 ^ 64 →
        (SwapContract params review inputs outputs ↔
          params.destinationAddress.val.length ≤ 64)) := by
  obtain ⟨review, signed, _, _, rfl, -⟩ := exists_review_of_yield run
  obtain ⟨inputs, outputs, reads⟩ := review.exists_reads
  obtain ⟨isAddress, isAmount, isFee⟩ := copyTransactionParameters_eq_some copied
  refine ⟨review, inputs, outputs, signed, rfl, reads, fun smallInputs smallOutputs => ?_⟩
  refine ⟨short_of_swapContract isSwap copied reads, fun short => ?_⟩
  rw [take_of_length_le short] at isAddress
  obtain ⟨external, isExternal, hasAmount⟩ := oneExternal_of_swap isSwap reads
  obtain ⟨isOutput, notInternal⟩ := mem_filter.mp (isExternal ▸ mem_cons_self)
  obtain ⟨script, isScript, hasAddress⟩ :=
    address_of_swap isSwap reads isOutput (by simpa using notInternal)
  obtain ⟨isDefault, isStandard⟩ := default_of_swap review isSwap
  refine ⟨isDefault, isStandard, allInternal_of_swap isSwap reads,
    ⟨external, isExternal, ⟨script, isScript, isAddress ▸ hasAddress⟩, ?_⟩, ?_⟩
  · rw [hasAmount, isAmount]
  · rw [← isFee]
    exact fee_of_swap isSwap reads smallInputs smallOutputs

/-! ## An address of 64 characters -/

/-- A witness program of 33 bytes and version 1. -/
def longScript : Bytes := [0x51, 0x21] ++ replicate 33 9

/-- Its address. -/
def longAddress : Bytes :=
  textBytes "sys1ppyysjzgfpyysjzgfpyysjzgfpyysjzgfpyysjzgfpyysjzgfpyysj2t53cs"

/-- A client that pays to the address. -/
def longStore : ClientStore := sampleStore [sampleInput 100000 1] [outputTo longScript 90000]

/-- Parameters of a payment to the address, with what is behind it. -/
def swapParams (tail : Bytes) (noZero : 0 ∉ longAddress ++ tail) : CreateTransactionParameters :=
  ⟨[0x01, 0x5F, 0x90], [0x27, 0x10], ⟨longAddress ++ tail, noZero⟩⟩

/-- The sample device, when the exchange application asks for a payment to the address. -/
def swapDevice : Device := { sampleDevice with swap := some ⟨longAddress, 90000, 10000⟩ }

theorem swapContract_iff_of_yield_long : ∃ (review : Review swapDevice 1
    longStore.sampleRequest) (inputs : List ReviewedInput) (outputs : List ReviewedOutput),
    review.Reads inputs outputs ∧ (inputsTotal inputs < 2 ^ 64 → outputsTotal outputs < 2 ^ 64 →
      SwapContract (swapParams [] (by decide)) review inputs outputs) := by
  obtain ⟨before, signing, response, resumed, after, result, run, -⟩ :=
    ClientStore.exists_run_at_yield swapDevice longStore (by decide +kernel)
  have copied : copyTransactionParameters (swapParams [] (by decide)) =
      some ⟨longAddress, 90000, 10000⟩ := by decide
  obtain ⟨review, inputs, outputs, signed, -, reads, contract⟩ :=
    swapContract_iff_of_yield copied rfl run
  exact ⟨review, inputs, outputs, reads, fun smallInputs smallOutputs =>
    (contract smallInputs smallOutputs).mpr (by decide)⟩

/-- The address of the request has one more character than that of the output. -/
theorem not_swapContract_truncated :
    copyTransactionParameters (swapParams [ascii 'q'] (by decide)) = swapDevice.swap ∧
    ∃ (review : Review swapDevice 1 longStore.sampleRequest) (inputs : List ReviewedInput)
      (outputs : List ReviewedOutput) (before after : Trace) (signing : Signing) (response : Bytes)
      (resumed : Bool) (result : Except Stop Unit),
      Runs (handlerSignPsbt swapDevice 1 longStore.sampleRequest)
        (review.trace ++ before ++ ⟨.yield signing response, resumed⟩ :: after) result ∧
      review.Reads inputs outputs ∧ inputsTotal inputs = 100000 ∧ outputsTotal outputs = 90000 ∧
      ¬SwapContract (swapParams [ascii 'q'] (by decide)) review inputs outputs := by
  have copied : copyTransactionParameters (swapParams [ascii 'q'] (by decide)) =
      some ⟨longAddress, 90000, 10000⟩ := by decide
  refine ⟨copied, ?_⟩
  obtain ⟨before, signing, response, resumed, after, result, run, answered⟩ :=
    ClientStore.exists_run_at_yield swapDevice longStore (by decide +kernel)
  obtain ⟨review, signed, _, _, rfl, -⟩ := exists_review_of_yield run
  obtain ⟨inputs, outputs, reads⟩ := review.exists_reads
  obtain ⟨isInputs, isOutputs⟩ : inputsTotal inputs = 100000 ∧ outputsTotal outputs = 90000 :=
    reads.totals_eq (Dialogue.answeredBy_append_iff.mp answered).1 (by decide +kernel)
      (by decide +kernel) (by decide +kernel)
  refine ⟨review, inputs, outputs, signed, after, signing, response, resumed, result, run, reads,
    isInputs, isOutputs, fun contract => ?_⟩
  exact absurd (short_of_swapContract rfl copied reads contract) (by decide)

end LedgerSyscoin.Swap
