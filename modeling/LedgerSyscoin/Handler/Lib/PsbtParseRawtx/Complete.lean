import LedgerSyscoin.Handler.Lib.PsbtParseRawtx.Fields

/-!
# The raw transaction parser accepts every serialization

On the serialization of a transaction, followed by any bytes, the parser is done
exactly at the end of the serialization. It has hashed the base serialization
and reported the queried output.
-/

namespace LedgerSyscoin.Handler

open Foundation Common List

variable {counter limit : UInt32} {count : Nat} (state : ParseRawtxState)

/-! ## Loops over inputs and outputs -/

/-- Counting one more item of which `count + 1` are still to come. -/
theorem toNat_succ_add (counted : counter.toNat + (count + 1) = limit.toNat) :
    (counter + 1).toNat + count = limit.toNat := by
  have bound := limit.toNat_lt
  rw [UInt32.toNat_add, UInt32.toNat_one]
  omega

theorem lt_of_toNat_add
    (counted : counter.toNat + (count + 1) = limit.toNat) : counter < limit := by
  rw [UInt32.lt_iff_toNat_lt]
  omega

theorem not_lt_of_toNat_eq (counted : counter.toNat + 0 = limit.toNat) : ¬ counter < limit := by
  rw [UInt32.lt_iff_toNat_lt]
  omega

theorem consumes_inputs (inputs : List TxInput) (start : state.inputStep = 0)
    (counted : state.inCounter.toNat + inputs.length = state.nInputs.toNat)
    (small : ∀ input ∈ inputs, input.scriptSig.length < 2 ^ 31) :
    ∃ count size counter, Consumes parseRawtxInputs state
      (inputs.flatMap TxInput.serialize)
      { state.hash (inputs.flatMap TxInput.serialize) with
        inCounter := count
        scriptsigSize := size
        scriptsigCounter := counter } := by
  induction inputs generalizing state with
  | nil =>
    have nothing : Consumes parseRawtxInputs state [] state :=
      while_of_not counts_inputs.decreases (decide_eq_false (not_lt_of_toNat_eq counted))
    exact ⟨_, _, _, by simpa [ParseRawtxState.hash] using nothing⟩
  | cons input inputs ih =>
    obtain ⟨count, size, counter, rounds⟩ := ih
      { state.hash input.serialize with
        inCounter := state.inCounter + 1
        inputStep := 0
        scriptsigSize := UInt32.ofNat input.scriptSig.length
        scriptsigCounter := UInt32.ofNat input.scriptSig.length } rfl (toNat_succ_add counted)
      fun later member => small later (mem_cons_of_mem _ member)
    refine ⟨count, size, counter, ?_⟩
    have round := consumes_runInput state start (small input mem_cons_self)
    simpa [parseRawtxInputs, ParseRawtxState.hash, start] using
      round.while_cons counts_inputs.decreases (decide_eq_true (lt_of_toNat_add counted)) rounds

/-- What is reported after `outputs` when the output at `position` is queried. -/
def TxidParserOutputs.reportAmong (initial : TxidParserOutputs) (position : Nat)
    (outputs : List TxOutput) : TxidParserOutputs :=
  match outputs[position]? with
  | some output => initial.report output
  | none => initial

/-- The output being parsed is the queried one when its position is. -/
theorem isQueried_iff {state : ParseRawtxState} {position : Nat} (small : position < 2 ^ 32)
    (index : state.outputIndex = position) :
    state.isQueried = decide (state.outCounter.toNat = position) := by
  have toNat : (UInt32.ofInt (position : Int)).toNat = position := by
    rw [UInt32.ofInt, UInt32.toNat_ofNat']
    omega
  rw [ParseRawtxState.isQueried, index]
  congr 1
  rw [eq_iff_iff, ← UInt32.toNat_inj, toNat]
  constructor
  · exact fun query => query.2
  · exact fun same => ⟨by omega, same⟩

/-- What is reported after `outputs`, of which the first has the number `first`. -/
def TxidParserOutputs.reportFrom (initial : TxidParserOutputs) (first position : Nat)
    (outputs : List TxOutput) : TxidParserOutputs :=
  if first ≤ position then initial.reportAmong (position - first) outputs else initial

theorem reportFrom_cons (initial : TxidParserOutputs) (first position : Nat) (output : TxOutput)
    (outputs : List TxOutput) :
    initial.reportFrom first position (output :: outputs) =
      (if first = position then initial.report output else initial).reportFrom (first + 1)
        position outputs := by
  unfold TxidParserOutputs.reportFrom TxidParserOutputs.reportAmong
  rcases Nat.lt_trichotomy first position with before | rfl | after
  · obtain ⟨later, rfl⟩ := Nat.exists_eq_add_of_lt before
    have skipped : first + (later + 1) - (first + 1) = later := by omega
    simp [skipped, Nat.add_assoc]
  · simp
  · simp [Nat.not_le.mpr after, Nat.ne_of_gt after, show ¬ first + 1 ≤ position by omega]

theorem consumes_outputs {position : Nat} (inside : position < 2 ^ 32) (outputs : List TxOutput)
    (start : state.outputStep = 0)
    (counted : state.outCounter.toNat + outputs.length = state.nOutputs.toNat)
    (index : state.outputIndex = position)
    (small : ∀ output ∈ outputs, output.scriptPubkey.length < 2 ^ 31)
    (short : ∀ later output, outputs[later]? = some output →
      state.outCounter.toNat + later = position →
        output.scriptPubkey.length ≤ maxPrevoutScriptpubkeyLen) :
    ∃ count size counter, Consumes parseRawtxOutputs state
      (outputs.flatMap TxOutput.serialize)
      { state.hash (outputs.flatMap TxOutput.serialize) with
        outCounter := count
        scriptpubkeySize := size
        scriptpubkeyCounter := counter
        parserOutputs :=
          state.parserOutputs.reportFrom state.outCounter.toNat position outputs } := by
  induction outputs generalizing state with
  | nil =>
    have nothing : Consumes parseRawtxOutputs state [] state :=
      while_of_not counts_outputs.decreases (decide_eq_false (not_lt_of_toNat_eq counted))
    exact ⟨_, _, _, by simpa [ParseRawtxState.hash, TxidParserOutputs.reportFrom,
      TxidParserOutputs.reportAmong] using nothing⟩
  | cons output outputs ih =>
    have query := isQueried_iff inside index
    have next : (state.outCounter + 1).toNat = state.outCounter.toNat + 1 := by
      have later := toNat_succ_add counted
      rw [length_cons] at counted
      omega
    obtain ⟨count, size, counter, rounds⟩ := ih
      { state.hash output.serialize with
        outCounter := state.outCounter + 1
        outputStep := 0
        scriptpubkeySize := UInt32.ofNat output.scriptPubkey.length
        scriptpubkeyCounter := UInt32.ofNat output.scriptPubkey.length
        parserOutputs := if state.isQueried then state.parserOutputs.report output
          else state.parserOutputs } rfl (toNat_succ_add counted) index
      (fun later member => small later (mem_cons_of_mem _ member))
      fun later output found at' => short (later + 1) output found (by
        rw [← at', next]
        omega)
    refine ⟨count, size, counter, ?_⟩
    have round := consumes_runOutput state start (small output mem_cons_self)
      fun queried => short 0 output rfl (of_decide_eq_true (query.symm.trans queried))
    simpa [parseRawtxOutputs, ParseRawtxState.hash, start, reportFrom_cons, next, query] using
      round.while_cons counts_outputs.decreases (decide_eq_true (lt_of_toNat_add counted)) rounds

/-! ## Witnesses -/

theorem consumes_witStack (elements : List Bytes) (unread : state.isCurWitElemLenRead = false)
    (counted : state.witStackElCounter.toNat + elements.length = state.curWitStackElements.toNat)
    (small : ∀ element ∈ elements, element.length < 2 ^ 31) :
    ∃ count len read, Consumes witStack state (elements.flatMap varBytes)
      { state with
        witStackElCounter := count
        curWitElemLen := len
        curWitElBytesRead := read } := by
  induction elements generalizing state with
  | nil =>
    exact ⟨_, _, _, while_of_not counts_witStack.decreases
      (decide_eq_false (not_lt_of_toNat_eq counted))⟩
  | cons element elements ih =>
    obtain ⟨count, len, read, rounds⟩ := ih
      { state with
        witStackElCounter := state.witStackElCounter + 1
        isCurWitElemLenRead := false
        curWitElemLen := UInt32.ofNat element.length
        curWitElBytesRead := UInt32.ofNat element.length } rfl (toNat_succ_add counted)
      fun later member => small later (mem_cons_of_mem _ member)
    have round := consumes_witElem state unread (small element mem_cons_self)
    refine ⟨count, len, read, ?_⟩
    simpa [witStack, unread] using
      round.while_cons counts_witStack.decreases (decide_eq_true (lt_of_toNat_add counted)) rounds

theorem consumes_witFields (witnesses : List (List Bytes))
    (unread : state.isCurWitStackElementsRead = false)
    (counted : state.witCounter.toNat + witnesses.length = state.nInputs.toNat)
    (small : ∀ stack ∈ witnesses, SmallStack stack) :
    ∃ next, Consumes witFields state (witnesses.flatMap serializeStack) next ∧
      next.hashed = state.hashed ∧ next.parserOutputs = state.parserOutputs := by
  induction witnesses generalizing state with
  | nil =>
    exact ⟨state, while_of_not counts_witFields.decreases
      (decide_eq_false (not_lt_of_toNat_eq counted)), rfl, rfl⟩
  | cons stack witnesses ih =>
    obtain ⟨_, elementsSmall⟩ := small stack mem_cons_self
    obtain ⟨count, len, read, elements⟩ := consumes_witStack
      { state with
        isCurWitStackElementsRead := true
        curWitStackElements := UInt32.ofNat stack.length
        isCurWitElemLenRead := false
        witStackElCounter := 0 } stack rfl
      (by simp only [UInt32.toNat_ofNat', UInt32.toNat_zero]; omega) elementsSmall
    have round : Consumes (andThen readWitStackElements witStack) state
        (serializeStack stack) _ :=
      ((consumes_varintStage _ state (by omega)).unlessStage unread).andThen elements
    obtain ⟨next, rounds, hashed, reported⟩ := ih
      { state with
        witCounter := state.witCounter + 1
        isCurWitStackElementsRead := false
        curWitStackElements := UInt32.ofNat stack.length
        isCurWitElemLenRead := false
        witStackElCounter := count
        curWitElemLen := len
        curWitElBytesRead := read } rfl (toNat_succ_add counted)
      fun later member => small later (mem_cons_of_mem _ member)
    exact ⟨next, round.while_cons counts_witFields.decreases
      (decide_eq_true (lt_of_toNat_add counted)) rounds, hashed, reported⟩

/-! ## Whole transactions -/

section Whole

variable {tx : Transaction} {position : Nat}

/-- The witnesses of a transaction, after its outputs. -/
theorem consumes_witnesses (small : tx.Small) (segwit : state.isSegwit = tx.witnesses.isSome)
    (counter : state.witCounter = 0) (unread : state.isCurWitStackElementsRead = false)
    (count : state.nInputs = UInt32.ofNat tx.inputs.length) :
    ∃ next, Consumes parseRawtxWitnesses state tx.witnessBytes next ∧
      next.hashed = state.hashed ∧ next.parserOutputs = state.parserOutputs := by
  have inputsSmall := small.inputs
  unfold parseRawtxWitnesses Transaction.witnessBytes
  cases present : tx.witnesses with
  | none =>
    exact ⟨state, unlessStage_of_flag (by simp [segwit, present]), rfl, rfl⟩
  | some each =>
    obtain ⟨next, consumes, same⟩ := consumes_witFields state each.val unread (by
      rw [counter, count, UInt32.toNat_ofNat', each.property, UInt32.toNat_zero]
      omega) (small.witnesses each present)
    exact ⟨next, consumes.unlessStage (by simp [segwit, present]), same⟩

/-- The stages after the kind of the transaction is known. -/
theorem consumes_body (small : tx.Small) (inside : position < tx.outputs.length)
    (short : ∀ output, tx.outputs[position]? = some output →
      output.scriptPubkey.length ≤ maxPrevoutScriptpubkeyLen)
    (hashed : state.hashed = tx.version.val) (segwit : state.isSegwit = tx.witnesses.isSome)
    (index : state.outputIndex = position) :
    ∃ next, Consumes (runSteps ParseRawtxState.advance (parseRawtxSteps.drop 2)) state
        (tx.body ++ (tx.witnessBytes ++ tx.locktime.val)) next ∧ next.hashed = tx.baseBytes ∧
      next.parserOutputs = state.parserOutputs.reportAmong position tx.outputs := by
  have parts : tx.body ++ (tx.witnessBytes ++ tx.locktime.val) =
      varintWrite tx.inputs.length ++ ([] ++ (tx.inputs.flatMap TxInput.serialize ++
        (varintWrite tx.outputs.length ++ ([] ++ (tx.outputs.flatMap TxOutput.serialize ++
          ([] ++ (tx.witnessBytes ++ (tx.locktime.val ++ [])))))))) := by
    simp [Transaction.body, varList]
  have inputsSmall := small.inputs
  have outputsSmall := small.outputs
  rw [parts]
  obtain ⟨inCount, sigSize, sigCounter, inputs⟩ := consumes_inputs
    { state.hash (varintWrite tx.inputs.length) with
      nInputs := UInt32.ofNat tx.inputs.length
      inCounter := 0
      inputStep := 0
      curStep := state.curStep + 1 + 1 } tx.inputs rfl
    (by simp only [UInt32.toNat_ofNat', UInt32.toNat_zero]; omega) small.scriptSig
  obtain ⟨outCount, size, counter, outputs⟩ := consumes_outputs
    { state with
      hashed := state.hashed ++ varintWrite tx.inputs.length ++
        tx.inputs.flatMap TxInput.serialize ++ varintWrite tx.outputs.length
      nInputs := UInt32.ofNat tx.inputs.length
      inCounter := inCount
      inputStep := 0
      scriptsigSize := sigSize
      scriptsigCounter := sigCounter
      nOutputs := UInt32.ofNat tx.outputs.length
      outCounter := 0
      outputStep := 0
      curStep := state.curStep + 1 + 1 + 1 + 1 + 1 }
    (inside.trans (by omega)) tx.outputs rfl
    (by simp only [UInt32.toNat_ofNat', UInt32.toNat_zero]; omega) index small.scriptPubkey
    fun later output found at' => short output (by rwa [← at', UInt32.toNat_zero, Nat.zero_add])
  obtain ⟨next, witnesses, hashedEq, reported⟩ := consumes_witnesses
    { state with
      hashed := state.hashed ++ varintWrite tx.inputs.length ++
        tx.inputs.flatMap TxInput.serialize ++ varintWrite tx.outputs.length ++
          tx.outputs.flatMap TxOutput.serialize
      nInputs := UInt32.ofNat tx.inputs.length
      inCounter := inCount
      inputStep := 0
      scriptsigSize := sigSize
      scriptsigCounter := sigCounter
      nOutputs := UInt32.ofNat tx.outputs.length
      outCounter := outCount
      outputStep := 0
      scriptpubkeySize := size
      scriptpubkeyCounter := counter
      parserOutputs := state.parserOutputs.reportFrom 0 position tx.outputs
      witCounter := 0
      isCurWitStackElementsRead := false
      curStep := state.curStep + 1 + 1 + 1 + 1 + 1 + 1 + 1 } small segwit rfl rfl rfl
  refine ⟨_, (consumes_varintStage _ state (by omega)).runSteps_cons
    ((consumes_pureStage _ _).runSteps_cons (inputs.runSteps_cons
      ((consumes_varintStage _ _ (by omega)).runSteps_cons
        ((consumes_pureStage _ _).runSteps_cons (outputs.runSteps_cons
          ((consumes_pureStage _ _).runSteps_cons (witnesses.runSteps_cons
            ((consumes_hashBytesStage _ tx.locktime.property).runSteps_cons
              fun _ => rfl)))))))), ?_, reported⟩
  simp [ParseRawtxState.hash, ParseRawtxState.advance, hashedEq, hashed, Transaction.baseBytes,
    Transaction.body, varList]

/-- The encoding of a positive number starts with a byte other than zero. -/
theorem varintWrite_eq_cons {value : Nat} (positive : 0 < value) :
    ∃ first tail, varintWrite value = first :: tail ∧ first ≠ 0 := by
  rcases varintWrite_cases value with ⟨_, _, written⟩ | ⟨_, _, _, written⟩ |
    ⟨_, _, _, written⟩ | ⟨_, _, written⟩
  · refine ⟨_, _, written, fun zero => ?_⟩
    have toNat := congrArg UInt8.toNat zero
    rw [UInt8.toNat_ofNat', UInt8.toNat_zero] at toNat
    omega
  all_goals exact ⟨_, _, written, by decide⟩

/-- The stages after the version. -/
theorem consumes_afterVersion (small : tx.Small) (inside : position < tx.outputs.length)
    (short : ∀ output, tx.outputs[position]? = some output →
      output.scriptPubkey.length ≤ maxPrevoutScriptpubkeyLen)
    (hashed : state.hashed = tx.version.val) (index : state.outputIndex = position) :
    ∃ next, Consumes (runSteps ParseRawtxState.advance (parseRawtxSteps.drop 1)) state
        (tx.marker ++ (tx.body ++ (tx.witnessBytes ++ tx.locktime.val))) next ∧
      next.hashed = tx.baseBytes ∧
        next.parserOutputs = state.parserOutputs.reportAmong position tx.outputs := by
  by_cases segwit : tx.witnesses.isSome = true
  · obtain ⟨last, consumes, holds⟩ := consumes_body
      (ParseRawtxState.advance { state with isSegwit := true }) small inside short hashed
      segwit.symm index
    rw [Transaction.marker, if_pos segwit]
    exact ⟨last, Consumes.runSteps_cons (fun _ => rfl) consumes, holds⟩
  · obtain ⟨last, consumes, holds⟩ := consumes_body
      (ParseRawtxState.advance { state with isSegwit := false }) small inside short hashed
      (by simpa [ParseRawtxState.advance] using segwit) index
    obtain ⟨first, _, written, nonzero⟩ :=
      varintWrite_eq_cons (length_pos_iff.mpr tx.inputs_ne_nil)
    have starts : ∃ rest, tx.body ++ (tx.witnessBytes ++ tx.locktime.val) = first :: rest :=
      ⟨_, by rw [Transaction.body, varList, written]; rfl⟩
    obtain ⟨rest, bytes⟩ := starts
    rw [Transaction.marker, if_neg segwit, nil_append]
    rw [bytes] at consumes ⊢
    refine ⟨last, fun more => ?_, holds⟩
    have looks : parseRawtxCheckSegwit state (first :: rest ++ more) =
        .done { state with isSegwit := false } (first :: rest ++ more) := by
      simp [parseRawtxCheckSegwit, nonzero]
    change runSteps _ (parseRawtxCheckSegwit :: parseRawtxSteps.drop 2) _ _ = _
    rw [runSteps, looks]
    exact consumes more

/-- The parser takes in the serialization of a transaction, having hashed its base
serialization and reported the queried output. -/
theorem consumes_runRawtx (small : tx.Small) (inside : position < tx.outputs.length)
    (short : ∀ output, tx.outputs[position]? = some output →
      output.scriptPubkey.length ≤ maxPrevoutScriptpubkeyLen) (start : state.curStep = 0)
    (fresh : state.hashed = []) (index : state.outputIndex = position) :
    ∃ next, Consumes runRawtx state tx.serialize next ∧ next.hashed = tx.baseBytes ∧
      next.parserOutputs = state.parserOutputs.reportAmong position tx.outputs := by
  obtain ⟨next, consumes, holds⟩ := consumes_afterVersion
    (ParseRawtxState.advance (state.hash tx.version.val)) small inside short
    (by simp [ParseRawtxState.hash, ParseRawtxState.advance, fresh]) index
  rw [tx.serialize_eq]
  exact ⟨next, ((consumes_hashBytesStage state tx.version.property).runSteps_cons
    consumes).runTable start, holds⟩

end Whole

end LedgerSyscoin.Handler
