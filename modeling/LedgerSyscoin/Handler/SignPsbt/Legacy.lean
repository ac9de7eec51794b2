import LedgerSyscoin.Handler.SignPsbt.Amounts

/-!
# Signature hashes of legacy inputs

The message that is hashed for a legacy input is the transaction with a script code in
place of the script of the input. It is that of the described transaction, unless the
client denies a sequence number or the lock time. The script code is the script of the
previous output, or the redeem script if there is one, which is not compared with that
script.
-/

namespace LedgerSyscoin.Handler

open Foundation Common Boilerplate List
open Dialogue (Runs)

variable {i index : Nat} {inputs : List TxInput} {outputs : List TxOutput}
  {map : MerkleizedMapCommitment} {sighash : Digest}

/-! ## The message of a transaction -/

namespace Legacy

/-- The inputs with the script code in place of the script of the one at `index`, and without the
other scripts. -/
def signedInputs (inputs : List TxInput) (start index : Nat) (scriptCode : Bytes) : List TxInput :=
  (inputs.zipIdx start).map fun (input, i) =>
    { input with scriptSig := if i = index then scriptCode else [] }

/-- The message that is hashed twice for the input at `index`. -/
def message (version : FixedBytes 4) (inputs : List TxInput) (outputs : List TxOutput)
    (locktime : FixedBytes 4) (index : Nat) (scriptCode : Bytes) : Bytes :=
  version.val ++ (varList TxInput.serialize (signedInputs inputs 0 index scriptCode) ++
    (varList TxOutput.serialize outputs ++ (locktime.val ++ leBytes 4 sighashAll.toNat)))

end Legacy

/-- The message of a transaction. -/
def Transaction.legacyMessage (tx : Transaction) (index : Nat) (scriptCode : Bytes) : Bytes :=
  Legacy.message tx.version tx.inputs tx.outputs tx.locktime index scriptCode

/-! ## The message that is hashed -/

/-- The part of `computeSighashLegacy` before the hash. -/
def legacyMessage (st : SignPsbtState) (input : InputInfo) (curInputIndex : Nat) :
    Program Bytes := do
  let context ← hashLegacyInputsLoop st input curInputIndex st.nInputs 0
    (leBytes 4 st.txVersion.toNat ++ varintWrite st.nInputs)
  match ← hashOutputs st (context ++ varintWrite st.nOutputs) with
  | none => Program.refuse swIncorrectData
  | some context =>
    return context ++ leBytes 4 st.locktime.toNat ++ leBytes 4 input.sighashType.toNat

variable {st : SignPsbtState}

/-- The hash is that of the message. -/
theorem runs_computeSighashLegacy_ok {H : HashFunction} {input : InputInfo}
    {exchanges : Trace} (run : Runs (computeSighashLegacy H st input i) exchanges (.ok sighash)) :
    ∃ message, Runs (legacyMessage st input i) exchanges (.ok message) ∧
      sighash = H (H message).val := by
  obtain ⟨_, _, rest, rfl, loops, continues⟩ := run.bind_ok
  obtain ⟨found, _, rest, rfl, hashes, returns⟩ := continues.bind_ok
  cases found with
  | none => exact returns.refused.elim
  | some found =>
    obtain ⟨rfl, ⟨⟩⟩ := returns.pure
    exact ⟨_, loops.andThen (hashes.andThen (.done _)), rfl⟩

/-! ## Fields that may be denied -/

/-- What is used for an optional field of 4 bytes. -/
def servedField (default : FixedBytes 4) (answer : Except Int Bytes) : FixedBytes 4 :=
  match answer with
  | .error _ => default
  | .ok bytes => if sized : bytes.length = 4 then ⟨bytes, sized⟩ else default

/-- The client denies no value other than the default one. -/
def Harmless (default : FixedBytes 4) (committed : Option Bytes) (answer : Except Int Bytes) :
    Prop :=
  ∀ code bytes, answer = .error code → committed = some bytes → bytes = default.val

/-- The field that is used is the described one if and only if the client denies no other one. -/
theorem servedField_eq_iff {default field : FixedBytes 4} {committed : Option Bytes}
    {answer : Except Int Bytes} (described : committed.getD default.val = field.val)
    (sound : ∀ bytes, answer = .ok bytes → committed = some bytes) :
    servedField default answer = field ↔ Harmless default committed answer := by
  rw [Subtype.ext_iff]
  cases answer with
  | error code =>
    cases committed with
    | none => simpa [servedField, Harmless] using described
    | some bytes =>
      rw [Option.getD_some] at described
      simp [servedField, Harmless, described, eq_comm]
  | ok bytes =>
    rw [sound bytes rfl, Option.getD_some] at described
    subst described
    simp [servedField, Harmless, field.property]

/-- A sequence number that cannot be received is taken to be final. -/
def finalSequence : FixedBytes 4 := sizedBytes (replicate 4 0xFF)

/-- A lock time that is not there is 0. -/
def noLocktime : FixedBytes 4 := sizedBytes (replicate 4 0)

/-! ## Messages with served fields -/

namespace Legacy

variable {first second scriptCode : Bytes} {answers : List (Except Int Bytes)}

/-- The inputs with the sequence numbers that the client has answered with. -/
def servedInputs (inputs : List TxInput) (answers : List (Except Int Bytes)) : List TxInput :=
  inputs.zipWith (fun input answer =>
    { input with sequence := servedField finalSequence answer }) answers

theorem length_eq_of_length_varBytes
    (same : (varBytes first).length = (varBytes second).length) : first.length = second.length := by
  simp only [varBytes, length_append, length_varintWrite, varintSize] at same
  split_ifs at same <;> omega

theorem varBytes_inj : varBytes first = varBytes second ↔ first = second := by
  refine ⟨fun same => ?_, congrArg varBytes⟩
  have sameLength := length_eq_of_length_varBytes (congrArg List.length same)
  rw [varBytes, varBytes, sameLength] at same
  exact append_cancel_left same

theorem length_serialize (input : TxInput) :
    input.serialize.length = 40 + (varBytes input.scriptSig).length := by
  simp only [TxInput.serialize, length_append, input.txid.property, input.vout.property,
    input.sequence.property]
  omega

theorem one_le_length_varBytes (bytes : Bytes) : 1 ≤ (varBytes bytes).length := by
  rw [varBytes, length_append, length_varintWrite, varintSize]
  split_ifs <;> omega

theorem length_flatMap_signedInputs (inputs : List TxInput) (start index : Nat)
    (scriptCode : Bytes) :
    ((signedInputs inputs start index scriptCode).flatMap TxInput.serialize).length =
      41 * inputs.length + if start ≤ index ∧ index < start + inputs.length then
        (varBytes scriptCode).length - 1 else 0 := by
  have positive := one_le_length_varBytes scriptCode
  induction inputs generalizing start with
  | nil => simp [signedInputs]
  | cons input inputs ih =>
    have isCons : signedInputs (input :: inputs) start index scriptCode =
        { input with scriptSig := if start = index then scriptCode else [] } ::
          signedInputs inputs (start + 1) index scriptCode := rfl
    rw [isCons, flatMap_cons, length_append, ih, length_serialize, length_cons]
    dsimp only
    by_cases isCurrent : start = index
    · rw [if_pos isCurrent, if_neg (by omega), if_pos (by omega)]
      omega
    · have single : (varBytes []).length = 1 := rfl
      rw [if_neg isCurrent, single]
      split_ifs <;> omega

/-- Two inputs that spend the same output. -/
theorem serialize_eq_iff (input : TxInput) (sequence sequence' : FixedBytes 4)
    {script script' : Bytes}
    (sameLength : (varBytes script).length = (varBytes script').length) :
    TxInput.serialize { input with scriptSig := script, sequence := sequence } =
        TxInput.serialize { input with scriptSig := script', sequence := sequence' } ↔
      script = script' ∧ sequence = sequence' := by
  simp only [TxInput.serialize, append_cancel_left_eq]
  rw [append_eq_append_iff_of_length sameLength, varBytes_inj, Subtype.ext_iff]

theorem flatMap_signedInputs_servedInputs_iff (start : Nat) {served : Bytes}
    (length : answers.length = inputs.length)
    (sameLength : (varBytes served).length = (varBytes scriptCode).length) :
    (signedInputs (servedInputs inputs answers) start index served).flatMap TxInput.serialize =
        (signedInputs inputs start index scriptCode).flatMap TxInput.serialize ↔
      (start ≤ index → index < start + inputs.length → served = scriptCode) ∧
        ∀ (k : Nat) input answer, inputs[k]? = some input → answers[k]? = some answer →
          servedField finalSequence answer = input.sequence := by
  induction inputs generalizing answers start with
  | nil => simp [signedInputs, servedInputs]; omega
  | cons input inputs ih =>
    obtain ⟨answer, answers, rfl⟩ := exists_cons_of_length_eq_add_one length
    have scriptLength : (varBytes (if start = index then served else [])).length =
        (varBytes (if start = index then scriptCode else [])).length := by
      split_ifs
      · exact sameLength
      · rfl
    have first := serialize_eq_iff input (servedField finalSequence answer) input.sequence
      scriptLength
    have rest := ih (start + 1) (Nat.succ.inj length)
    simp only [signedInputs, servedInputs, zipWith_cons_cons, zipIdx_cons,
      map_cons, flatMap_cons] at first rest ⊢
    rw [append_eq_append_iff_of_length (by simp only [length_serialize, scriptLength]),
      first, rest, length_cons]
    constructor
    · rintro ⟨⟨sameScript, sameSequence⟩, laterScript, laterSequences⟩
      refine ⟨fun after before => ?_, fun k other answered isInput isAnswer => ?_⟩
      · by_cases isCurrent : start = index
        · simpa only [isCurrent, if_true] using sameScript
        · exact laterScript (by omega) (by omega)
      · cases k with
        | zero =>
          cases isInput
          cases isAnswer
          exact sameSequence
        | succ k => exact laterSequences k other answered isInput isAnswer
    · rintro ⟨sameScript, sequences⟩
      refine ⟨⟨?_, sequences 0 input answer rfl rfl⟩, fun after before => ?_, fun k => ?_⟩
      · split_ifs with isCurrent
        · exact sameScript (by omega) (by omega)
        · rfl
      · exact sameScript (by omega) (by omega)
      · exact sequences (k + 1)

/-- The message with the answers of the client is that of the inputs if and only if the script code,
the lock time and the sequence numbers are the same. -/
theorem message_servedInputs_eq_iff {version locktime served : FixedBytes 4}
    {servedCode : Bytes} (length : answers.length = inputs.length)
    (inside : index < inputs.length) :
    message version (servedInputs inputs answers) outputs served index servedCode =
        message version inputs outputs locktime index scriptCode ↔
      servedCode = scriptCode ∧ served = locktime ∧
        ∀ (k : Nat) input answer, inputs[k]? = some input → answers[k]? = some answer →
          servedField finalSequence answer = input.sequence := by
  have lengthServed : (servedInputs inputs answers).length = inputs.length := by
    simp [servedInputs, length]
  have lengthFirst := length_flatMap_signedInputs (servedInputs inputs answers) 0 index
    servedCode
  have lengthSecond := length_flatMap_signedInputs inputs 0 index scriptCode
  rw [lengthServed, if_pos (by omega)] at lengthFirst
  rw [if_pos (by omega)] at lengthSecond
  have sameNumber : (signedInputs (servedInputs inputs answers) 0 index servedCode).length =
      (signedInputs inputs 0 index scriptCode).length := by
    simp [signedInputs, lengthServed]
  rw [message, message]
  generalize varList TxOutput.serialize outputs = outputsBytes
  simp only [varList, sameNumber, append_assoc, append_cancel_left_eq]
  constructor
  · intro same
    have total := congrArg List.length same
    have positive := one_le_length_varBytes servedCode
    have positive' := one_le_length_varBytes scriptCode
    simp only [length_append, lengthFirst, lengthSecond, served.property,
      locktime.property] at total
    have sameLength : (varBytes servedCode).length = (varBytes scriptCode).length := by omega
    obtain ⟨sameInputs, sameRest⟩ := append_inj same (by omega)
    obtain ⟨sameCode, sequences⟩ :=
      (flatMap_signedInputs_servedInputs_iff 0 length sameLength).mp sameInputs
    refine ⟨sameCode (Nat.zero_le _) (by omega), ?_, sequences⟩
    exact Subtype.ext (append_cancel_right (append_cancel_left sameRest))
  · rintro ⟨rfl, rfl, sequences⟩
    rw [(flatMap_signedInputs_servedInputs_iff 0 length rfl).mpr ⟨fun _ _ => rfl, sequences⟩]

end Legacy

/-! ## What is fed to the hash -/

theorem runs_getSequence_ok {exchanges : Trace} {nSequence : Bytes}
    (run : Runs (getSequence map) exchanges (.ok nSequence)) :
    ∃ answer, exchanges = [⟨.mapValue map [psbtInSequence] 4, answer⟩] ∧
      nSequence = (servedField finalSequence answer).val := by
  obtain ⟨_, _, _, rfl, fetches, returns⟩ := run.bind_ok
  obtain ⟨answer, _, rfl, received⟩ := fetches.question
  refine ⟨answer, ?_⟩
  cases answer with
  | error code =>
    obtain ⟨rfl, ⟨⟩⟩ := received.pure
    obtain ⟨rfl, ⟨⟩⟩ := returns.pure
    exact ⟨rfl, rfl⟩
  | ok bytes =>
    obtain ⟨rfl, ⟨⟩⟩ := received.pure
    simp only [servedField]
    split_ifs at returns ⊢ with sized
    · obtain ⟨rfl, ⟨⟩⟩ := returns.pure
      exact ⟨rfl, rfl⟩
    · obtain ⟨rfl, ⟨⟩⟩ := returns.pure
      exact ⟨rfl, rfl⟩

namespace Commitments

variable {commitments : Commitments} {exchanges : Trace} {context fed : Bytes} {txInput : TxInput}
  {txOutput : TxOutput}

/-- The script code of a legacy input: the redeem script, if there is one. -/
def scriptCode (commitments : Commitments) (map : MerkleizedMapCommitment) (scriptPubKey : Bytes) :
    Bytes :=
  (commitments.value map [psbtInRedeemScript]).getD scriptPubKey

theorem prefixed_foldl_cbProcessData (chunks : List Bytes) (contexts : HashContexts) :
    (chunks.foldl (fun reached chunk => HashContexts.cbProcessData chunk reached)
      contexts).prefixed = contexts.prefixed.map (· ++ chunks.flatten) := by
  induction chunks generalizing contexts with
  | nil => simp
  | cons chunk chunks ih =>
    rw [foldl_cons, ih, HashContexts.cbProcessData]
    cases contexts.prefixed <;> simp

/-- A value that is streamed is fed to the context with its length. -/
theorem runs_updateHashesWithMapValue_ok {key : UInt8} {res : Int} {contexts : HashContexts}
    (run : Runs (updateHashesWithMapValue map key ⟨none, some context⟩) exchanges
      (.ok (res, contexts)))
    (succeeds : 0 ≤ res) (hold : commitments.HoldOn exchanges) :
    ∃ bytes, commitments.value map [key] = some bytes ∧
      contexts.prefixed = some (context ++ varBytes bytes) := by
  obtain ⟨_, _, rfl, returns⟩ := run.question
  cases returns.pure.2
  obtain ⟨bytes, isValue, isAnnounced, isBytes⟩ := hold _ mem_cons_self succeeds
  refine ⟨bytes, isValue, ?_⟩
  simp [HashContexts.replay, isAnnounced, HashContexts.cbProcessLen, prefixed_foldl_cbProcessData,
    isBytes, varBytes]

/-- The script code is fed with its length. -/
theorem runs_hashLegacyScriptCode_ok {input : InputInfo} {scriptPubKey : Bytes}
    (run : Runs (hashLegacyScriptCode input context) exchanges (.ok fed))
    (hold : commitments.HoldOn exchanges) (isScript : input.inOut.scriptPubKey = some scriptPubKey)
    (hasRedeemScript : input.hasRedeemScript = true ↔
      commitments.HasKeyType input.inOut.map psbtInRedeemScript) :
    fed = context ++ varBytes (commitments.scriptCode input.inOut.map scriptPubKey) := by
  rw [hashLegacyScriptCode] at run
  by_cases present : input.hasRedeemScript = true
  · rw [if_neg (not_not.mpr present)] at run
    obtain ⟨⟨_, _⟩, _, _, rfl, feeds, checks⟩ := run.bind_ok
    obtain ⟨succeeds, returns⟩ := checks.refuseIf_bind
    cases returns.pure.2
    obtain ⟨bytes, isValue, isFed⟩ := runs_updateHashesWithMapValue_ok feeds (not_lt.mp succeeds)
      (holdOn_append_iff.mp hold).1
    rw [isFed, Option.getD_some, scriptCode, isValue, Option.getD_some]
  · rw [if_pos present, isScript] at run
    cases run.pure.2
    have absent : commitments.value input.inOut.map [psbtInRedeemScript] = none := by
      by_contra found
      obtain ⟨bytes, isValue⟩ := Option.ne_none_iff_exists'.mp found
      exact present (hasRedeemScript.mpr (hasKeyType_of_value isValue))
    rw [scriptCode, absent, Option.getD_none, varBytes, append_assoc]

section Loops

variable {st : SignPsbtState} {input : InputInfo} {curInputIndex : Nat} {scriptPubKey : Bytes}

/-- The map at an index describes an input. -/
def DescribesInputAt (commitments : Commitments) (st : SignPsbtState) (i : Nat)
    (txInput : TxInput) : Prop :=
  ∃ map, commitments.map st.inputsRoot st.nInputs i = some map ∧
    DescribesInput (commitments.value map) txInput

/-- The answers to the lookups of the sequence numbers of the inputs from `i` on. -/
def SequenceAnswers (commitments : Commitments) (st : SignPsbtState) (exchanges : Trace) (i : Nat)
    (answers : List (Except Int Bytes)) : Prop :=
  ∀ k answer, answers[k]? = some answer → ∃ map,
    commitments.map st.inputsRoot st.nInputs (i + k) = some map ∧
      ⟨.mapValue map [psbtInSequence] 4, answer⟩ ∈ exchanges

variable
  (isMap : commitments.map st.inputsRoot st.nInputs curInputIndex = some input.inOut.map)
  (isScript : input.inOut.scriptPubKey = some scriptPubKey)
  (hasRedeemScript : input.hasRedeemScript = true ↔
    commitments.HasKeyType input.inOut.map psbtInRedeemScript)

include isMap isScript hasRedeemScript

/-- An input that is fed to the hash. -/
theorem runs_hashLegacyInput_ok (describes : commitments.DescribesInputAt st i txInput)
    (run : Runs (hashLegacyInput st input curInputIndex i context) exchanges (.ok fed))
    (hold : commitments.HoldOn exchanges) :
    ∃ map answer, commitments.map st.inputsRoot st.nInputs i = some map ∧
      ⟨.mapValue map [psbtInSequence] 4, answer⟩ ∈ exchanges ∧
      fed = context ++ TxInput.serialize { txInput with
        scriptSig := if i = curInputIndex then commitments.scriptCode input.inOut.map scriptPubKey
          else []
        sequence := servedField finalSequence answer } := by
  obtain ⟨map, _, rest, rfl, receives, continues⟩ := run.bind_ok
  obtain ⟨prevoutHash, _, rest, rfl, hashes, proceeds⟩ := continues.bind_ok
  obtain ⟨prevoutN, _, rest, rfl, numbers, scripts⟩ := proceeds.bind_ok
  obtain ⟨scripted, _, rest, rfl, feeds, finishes⟩ := scripts.bind_ok
  obtain ⟨_, _, rest, rfl, sequences, returns⟩ := finishes.bind_ok
  obtain ⟨rfl, ⟨⟩⟩ := returns.pure
  simp only [holdOn_append_iff] at hold
  obtain ⟨holdReceiving, holdHashing, holdNumbering, holdScripting, _, -⟩ := hold
  obtain ⟨answer, rfl, rfl⟩ := runs_getSequence_ok sequences
  have received : commitments.map st.inputsRoot st.nInputs i = some map := by
    rw [getLegacyInputMap] at receives
    split_ifs at receives with other
    · exact runs_getInputMap_ok receives holdReceiving
    · cases receives.pure.2
      rw [not_not.mp other, isMap]
  obtain ⟨_, isDescribed, describesInput⟩ := describes
  cases received.symm.trans isDescribed
  obtain ⟨rfl, -⟩ := hashes.requireValue
  obtain ⟨rfl, -⟩ := numbers.requireValue
  have isHash := (holdHashing _ mem_cons_self prevoutHash rfl).symm.trans describesInput.txid
  have isNumber := (holdNumbering _ mem_cons_self prevoutN rfl).symm.trans describesInput.vout
  cases isHash
  cases isNumber
  refine ⟨map, answer, received, by simp, ?_⟩
  have isScripted : scripted = context ++ txInput.txid.val ++ txInput.vout.val ++ varBytes
      (if i = curInputIndex then commitments.scriptCode input.inOut.map scriptPubKey else []) := by
    rw [hashLegacyScript] at feeds
    by_cases isCurrent : i = curInputIndex
    · rw [if_neg (not_not.mpr isCurrent)] at feeds
      rw [if_pos isCurrent]
      exact runs_hashLegacyScriptCode_ok feeds holdScripting isScript hasRedeemScript
    · rw [if_pos isCurrent] at feeds
      rw [if_neg isCurrent]
      cases feeds.pure.2
      rfl
  rw [isScripted]
  simp [TxInput.serialize]

/-- The inputs that are fed to the hash. -/
theorem runs_hashLegacyInputsLoop_ok (describes : ∀ k txInput, inputs[k]? = some txInput →
      commitments.DescribesInputAt st (i + k) txInput)
    (run : Runs (hashLegacyInputsLoop st input curInputIndex inputs.length i context) exchanges
      (.ok fed))
    (hold : commitments.HoldOn exchanges) : ∃ answers, answers.length = inputs.length ∧
      commitments.SequenceAnswers st exchanges i answers ∧
      fed = context ++ (Legacy.signedInputs (Legacy.servedInputs inputs answers) i curInputIndex
        (commitments.scriptCode input.inOut.map scriptPubKey)).flatMap TxInput.serialize := by
  induction inputs generalizing i context exchanges with
  | nil =>
    cases run.pure.2
    exact ⟨[], rfl, fun k answer isAnswer => by simp at isAnswer,
      by simp [Legacy.servedInputs, Legacy.signedInputs]⟩
  | cons txInput inputs ih =>
    obtain ⟨_, _, _, rfl, hashes, loops⟩ := run.bind_ok
    obtain ⟨holdHashing, holdLooping⟩ := holdOn_append_iff.mp hold
    obtain ⟨map, answer, isMap, asked, rfl⟩ := runs_hashLegacyInput_ok isMap isScript
      hasRedeemScript (describes 0 txInput rfl) hashes holdHashing
    have describesLater : ∀ k txInput, inputs[k]? = some txInput →
        commitments.DescribesInputAt st (i + 1 + k) txInput := by
      intro k txInput isInput
      rw [Nat.add_assoc, Nat.add_comm 1]
      exact describes (k + 1) txInput isInput
    obtain ⟨answers, length, areAnswers, rfl⟩ := ih describesLater loops holdLooping
    refine ⟨answer :: answers, by simp [length], ?_,
      by simp [Legacy.servedInputs, Legacy.signedInputs]⟩
    intro k answered isAnswered
    cases k with
    | zero =>
      cases isAnswered
      exact ⟨map, isMap, mem_append_left _ asked⟩
    | succ k =>
      obtain ⟨map, isMap, asked⟩ := areAnswers k answered isAnswered
      rw [Nat.add_assoc, Nat.add_comm 1] at isMap
      exact ⟨map, isMap, mem_append_right _ asked⟩

end Loops

section Outputs

variable {st : SignPsbtState}

/-- The map at an index describes an output. -/
def DescribesOutputAt (commitments : Commitments) (st : SignPsbtState) (i : Nat)
    (txOutput : TxOutput) : Prop :=
  ∃ map, commitments.map st.outputsRoot st.nOutputs i = some map ∧
    DescribesOutput (commitments.value map) txOutput

theorem runs_hashOutputN_some (describes : commitments.DescribesOutputAt st i txOutput)
    (run : Runs (hashOutputN st context i) exchanges (.ok (some fed)))
    (hold : commitments.HoldOn exchanges) : fed = context ++ txOutput.serialize := by
  rw [hashOutputN] at run
  split_ifs at run
  · cases run.pure.2
  · obtain ⟨⟨_, _⟩, _, rest, rfl, receives, continues⟩ := run.bind_ok
    dsimp only at continues
    split_ifs at continues with failed
    · cases continues.pure.2
    · obtain ⟨found, _, rest, rfl, amounts, scripts⟩ := continues.bind_ok
      simp only [holdOn_append_iff] at hold
      obtain ⟨holdReceiving, holdAmounting, holdRest⟩ := hold
      cases found with
      | none => cases scripts.pure.2
      | some amountRaw =>
        obtain ⟨answer, _, rfl, received⟩ := scripts.question
        cases answer with
        | error code =>
          dsimp only at received
          split_ifs at received
          · cases received.pure.2
          · exact received.undefined.elim
        | ok outScript =>
          cases received.pure.2
          obtain ⟨_, isDescribed, describesOutput⟩ := describes
          cases (runs_callGetMerkleizedMap_ok receives (not_lt.mp failed)
            holdReceiving).symm.trans isDescribed
          obtain ⟨rfl, -⟩ := amounts.valueOfLength
          cases (holdAmounting _ mem_cons_self amountRaw rfl).symm.trans
            describesOutput.value
          cases (holdRest _ mem_cons_self outScript rfl).symm.trans
            describesOutput.scriptPubkey
          simp [TxOutput.serialize, varBytes]

/-- The outputs that are fed to the hash. -/
theorem runs_hashOutputsLoop_some (describes : ∀ k txOutput, outputs[k]? = some txOutput →
      commitments.DescribesOutputAt st (i + k) txOutput)
    (run : Runs (hashOutputsLoop st outputs.length i context) exchanges (.ok (some fed)))
    (hold : commitments.HoldOn exchanges) :
    fed = context ++ outputs.flatMap TxOutput.serialize := by
  induction outputs generalizing i context exchanges with
  | nil =>
    cases run.pure.2
    simp
  | cons txOutput outputs ih =>
    obtain ⟨found, _, _, rfl, hashes, loops⟩ := run.bind_ok
    obtain ⟨holdHashing, holdLooping⟩ := holdOn_append_iff.mp hold
    cases found with
    | none => cases loops.pure.2
    | some next =>
      have isNext := runs_hashOutputN_some (describes 0 txOutput rfl) hashes holdHashing
      have describesLater : ∀ k txOutput, outputs[k]? = some txOutput →
          commitments.DescribesOutputAt st (i + 1 + k) txOutput := by
        intro k txOutput isOutput
        rw [Nat.add_assoc, Nat.add_comm 1]
        exact describes (k + 1) txOutput isOutput
      rw [ih describesLater loops holdLooping, isNext]
      simp

end Outputs

/-! ## The transaction that is described -/

/-- The PSBT that is committed to. -/
def psbt (commitments : Commitments) (request : SignPsbtRequest) : Psbt where
  globals key := commitments.value request.globalMap key
  inputs := (range request.nInputs).map fun i key =>
    (commitments.map request.inputsRoot request.nInputs i).bind (commitments.value · key)
  outputs := (range request.nOutputs).map fun i key =>
    (commitments.map request.outputsRoot request.nOutputs i).bind (commitments.value · key)

section Described

variable {request : SignPsbtRequest} {tx : Transaction}
  (describes : Describes (commitments.psbt request) tx) {k : Nat}

include describes

theorem length_of_describes :
    tx.inputs.length = request.nInputs ∧ tx.outputs.length = request.nOutputs := by
  have inputs := describes.inputs.length_eq
  have outputs := describes.outputs.length_eq
  simp only [psbt, length_map, length_range] at inputs outputs
  exact ⟨inputs.symm, outputs.symm⟩

theorem exists_describesInput (isInput : tx.inputs[k]? = some txInput) :
    ∃ map, commitments.map request.inputsRoot request.nInputs k = some map ∧
      DescribesInput (commitments.value map) txInput := by
  obtain ⟨_, present, describesInput⟩ := exists_of_forall₂ describes.inputs isInput
  obtain ⟨_, rfl⟩ := List.getElem?_eq_some_iff.mp present
  simp only [psbt, getElem_map, getElem_range] at describesInput
  obtain ⟨map, isMap, -⟩ := Option.bind_eq_some_iff.mp describesInput.txid
  refine ⟨map, isMap, ?_⟩
  simpa only [isMap, Option.bind_some] using describesInput

theorem describesInputAt (isRoot : st.inputsRoot = request.inputsRoot)
    (isNumber : st.nInputs = request.nInputs)
    (isInput : tx.inputs[k]? = some txInput) : commitments.DescribesInputAt st k txInput := by
  rw [DescribesInputAt, isRoot, isNumber]
  exact exists_describesInput describes isInput

theorem describesOutputAt (isRoot : st.outputsRoot = request.outputsRoot)
    (isNumber : st.nOutputs = request.nOutputs)
    (isOutput : tx.outputs[k]? = some txOutput) : commitments.DescribesOutputAt st k txOutput := by
  obtain ⟨_, present, describesOutput⟩ := exists_of_forall₂ describes.outputs isOutput
  obtain ⟨_, rfl⟩ := List.getElem?_eq_some_iff.mp present
  simp only [psbt, getElem_map, getElem_range] at describesOutput
  obtain ⟨map, isMap, -⟩ := Option.bind_eq_some_iff.mp describesOutput.value
  refine ⟨map, by rw [isRoot, isNumber, isMap], ?_⟩
  simpa only [isMap, Option.bind_some] using describesOutput

end Described

/-- The version is the committed one, and the lock time is what the client has answered with. -/
theorem runs_processGlobalMap_ok {globalMap : MerkleizedMapCommitment} {txVersion locktime : UInt32}
    (run : Runs (processGlobalMap globalMap) exchanges (.ok (txVersion, locktime)))
    (hold : commitments.HoldOn exchanges) :
    commitments.value globalMap [psbtGlobalTxVersion] = some (leBytes 4 txVersion.toNat) ∧
      ∃ answer, ⟨.mapValue globalMap [psbtGlobalFallbackLocktime] 9, answer⟩ ∈ exchanges ∧
        leBytes 4 locktime.toNat = (servedField noLocktime answer).val := by
  obtain ⟨⟨_, ⟨⟩⟩, checking, rest, rfl, _, continues⟩ := run.bind_ok
  obtain ⟨-, holdRest⟩ := holdOn_append_iff.mp hold
  dsimp only at continues
  split_ifs at continues
  · obtain ⟨_, _, _, _, refuses, _⟩ := continues.bind_ok
    exact refuses.refused.elim
  · obtain ⟨versionAnswer, rest, rfl, versioned⟩ := continues.question
    cases versionAnswer with
    | error code => exact versioned.refused.elim
    | ok version =>
      dsimp only at versioned
      split_ifs at versioned with sized
      · obtain ⟨_, _, _, _, refuses, _⟩ := versioned.bind_ok
        exact refuses.refused.elim
      · obtain ⟨answer, rest, rfl, locked⟩ := versioned.question
        have isVersion := holdRest _ mem_cons_self version rfl
        have asked : ⟨.mapValue globalMap [psbtGlobalFallbackLocktime] 9, answer⟩ ∈ checking ++
            (⟨.mapValue globalMap [psbtGlobalTxVersion] 9, .ok version⟩ ::
              ⟨.mapValue globalMap [psbtGlobalFallbackLocktime] 9, answer⟩ :: rest) := by simp
        have versionBytes := leBytes_ofNat_leNat ⟨version, not_not.mp sized⟩
        cases answer with
        | error code =>
          dsimp only at locked
          split_ifs at locked
          · cases locked.pure.2
            exact ⟨by rw [versionBytes, isVersion], _, asked, rfl⟩
          · exact locked.refused.elim
        | ok bytes =>
          dsimp only at locked
          split_ifs at locked with sizedLocktime
          · obtain ⟨_, _, _, _, refuses, _⟩ := locked.bind_ok
            exact refuses.refused.elim
          · cases locked.pure.2
            refine ⟨by rw [versionBytes, isVersion], _, asked, ?_⟩
            rw [servedField, dif_pos (not_not.mp sizedLocktime)]
            exact leBytes_ofNat_leNat ⟨bytes, not_not.mp sizedLocktime⟩

section Message

variable {st : SignPsbtState} {input : InputInfo} {curInputIndex : Nat} {scriptPubKey : Bytes}
  {request : SignPsbtRequest} {tx : Transaction}

/-- The message that is hashed: that of the described transaction, with the lock time and the
sequence numbers that the client has answered with. -/
theorem runs_legacyMessage_ok
    (isMap : commitments.map st.inputsRoot st.nInputs curInputIndex = some input.inOut.map)
    (isScript : input.inOut.scriptPubKey = some scriptPubKey)
    (hasRedeemScript : input.hasRedeemScript = true ↔
      commitments.HasKeyType input.inOut.map psbtInRedeemScript)
    (isType : input.sighashType = sighashAll)
    (nInputs : inputs.length = st.nInputs) (nOutputs : outputs.length = st.nOutputs)
    (describesInputs : ∀ k txInput, inputs[k]? = some txInput →
      commitments.DescribesInputAt st k txInput)
    (describesOutputs : ∀ k txOutput, outputs[k]? = some txOutput →
      commitments.DescribesOutputAt st k txOutput)
    {version locktime : FixedBytes 4} (isVersion : leBytes 4 st.txVersion.toNat = version.val)
    (isLocktime : leBytes 4 st.locktime.toNat = locktime.val) {message : Bytes}
    (run : Runs (legacyMessage st input curInputIndex) exchanges (.ok message))
    (hold : commitments.HoldOn exchanges) : ∃ answers, answers.length = inputs.length ∧
      commitments.SequenceAnswers st exchanges 0 answers ∧
      message = Legacy.message version (Legacy.servedInputs inputs answers) outputs locktime
        curInputIndex (commitments.scriptCode input.inOut.map scriptPubKey) := by
  obtain ⟨_, _, rest, rfl, loops, continues⟩ := run.bind_ok
  obtain ⟨found, _, rest, rfl, hashes, returns⟩ := continues.bind_ok
  cases found with
  | none => exact returns.refused.elim
  | some found =>
    cases returns.pure.2
    simp only [holdOn_append_iff] at hold
    obtain ⟨holdFirst, holdSecond, -⟩ := hold
    rw [← nInputs] at loops
    rw [hashOutputs, ← nOutputs] at hashes
    have describesFrom : ∀ k txInput, inputs[k]? = some txInput →
        commitments.DescribesInputAt st (0 + k) txInput := by
      simpa only [Nat.zero_add] using describesInputs
    have describesOutputsFrom : ∀ k txOutput, outputs[k]? = some txOutput →
        commitments.DescribesOutputAt st (0 + k) txOutput := by
      simpa only [Nat.zero_add] using describesOutputs
    obtain ⟨answers, length, areAnswers, rfl⟩ := runs_hashLegacyInputsLoop_ok isMap isScript
      hasRedeemScript describesFrom loops holdFirst
    have isFound := runs_hashOutputsLoop_some describesOutputsFrom hashes holdSecond
    refine ⟨answers, length, fun k answer isAnswer => ?_, ?_⟩
    · obtain ⟨map, isMap, asked⟩ := areAnswers k answer isAnswer
      exact ⟨map, isMap, mem_append_left _ asked⟩
    · rw [isFound, isVersion, isLocktime, isType]
      simp [Legacy.message, varList, Legacy.signedInputs, Legacy.servedInputs, length]

end Message

end Commitments

/-! ## What is signed for a legacy input -/

/-- The script code is the script of the previous output, or a script whose hash is in it. -/
def VerifiedScriptCode (crypto : WalletCrypto) (scriptPubKey scriptCode : Bytes) : Prop :=
  scriptCode = scriptPubKey ∨ scriptPubKey = p2shScript crypto (crypto.sha256 scriptCode)

/-- The message that is hashed for an input is that of the transaction, with a script code that
belongs to the previous output. -/
def LegacySigned (crypto : WalletCrypto) (tx : Transaction) (index : Nat)
    (scriptPubKey message : Bytes) : Prop :=
  ∃ scriptCode, message = tx.legacyMessage index scriptCode ∧
    VerifiedScriptCode crypto scriptPubKey scriptCode

/-- The output that an input spends is read from a previous transaction with the id that is
committed to. -/
structure Commitments.Spends (commitments : Commitments) (map : MerkleizedMapCommitment)
    (spent : TxidParserOutputs) : Prop where
  isOutput : commitments.previousOutput map = some spent
  isTxid : commitments.value map [psbtInPreviousTxid] = some spent.txid.val

/-- The client denies no lock time and no sequence number, and the redeem script, if there is one,
is that of the previous output. -/
structure Commitments.ServesLegacy (commitments : Commitments) (crypto : WalletCrypto)
    (request : SignPsbtRequest) (map : MerkleizedMapCommitment) (scriptPubKey : Bytes)
    (locktime : Except Int Bytes) (sequences : List (Except Int Bytes)) : Prop where
  locktime : Harmless noLocktime
    (commitments.value request.globalMap [psbtGlobalFallbackLocktime]) locktime
  sequences : ∀ (k : Nat) inputMap answer,
    commitments.map request.inputsRoot request.nInputs k = some inputMap →
      sequences[k]? = some answer →
        Harmless finalSequence (commitments.value inputMap [psbtInSequence]) answer
  redeemScript : ∀ redeemScript, commitments.value map [psbtInRedeemScript] = some redeemScript →
    VerifiedScriptCode crypto scriptPubKey redeemScript

/-- The answers to the lookups of the lock time and of the sequence numbers. -/
structure Commitments.AnsweredWith (commitments : Commitments) (request : SignPsbtRequest)
    (exchanges : Trace) (locktime : Except Int Bytes) (sequences : List (Except Int Bytes)) :
    Prop where
  isLocktime : ⟨.mapValue request.globalMap [psbtGlobalFallbackLocktime] 9, locktime⟩ ∈ exchanges
  areSequences : ∀ k answer, sequences[k]? = some answer → ∃ map,
    commitments.map request.inputsRoot request.nInputs k = some map ∧
      ⟨.mapValue map [psbtInSequence] 4, answer⟩ ∈ exchanges
  length : sequences.length = request.nInputs

/-- The hash that is signed under a legacy policy. -/
theorem ComputesSighash.exists_legacy {device : Device}
    {hashes : SegwitHashes} {placeholderInfo : PlaceholderInfo} {typed signed : InputInfo}
    {computing : Trace}
    (computes : ComputesSighash device st hashes placeholderInfo i typed computing signed sighash)
    (isLegacy : getPolicySegwitVersion st.wallet.policy = -1) :
    ∃ fetching hashing amount scriptPubKey, computing = fetching ++ hashing ∧
      Runs (getAmountScriptpubkeyFromPsbtNonwitness typed.inOut.map none) fetching
        (.ok (some (amount, scriptPubKey))) ∧
      signed.inOut.map = typed.inOut.map ∧ signed.inOut.scriptPubKey = some scriptPubKey ∧
      signed.hasRedeemScript = typed.hasRedeemScript ∧
      Runs (computeSighashLegacy device.crypto.sha256 st signed i) hashing (.ok sighash) := by
  cases computes with
  | legacy _ fetches isSigned computes =>
    refine ⟨_, _, _, _, rfl, fetches, ?_, ?_, ?_, computes⟩ <;>
      rw [isSigned, withDefaultSighash] <;> split_ifs <;> rfl
  | segwitv0 _ isVersion0 _ _ _ => cases isLegacy.symm.trans isVersion0
  | segwitv1 _ isVersion1 _ _ _ _ => cases isLegacy.symm.trans isVersion1

section Yielded

variable {device : Device} {protocolVersion : Nat} {readBuffer : Buffer}
  {review : Review device protocolVersion readBuffer} {commitments : Commitments}
  {signing : Signing} {exchanges : Trace} {request : SignPsbtRequest} {tx : Transaction}
  {policy : PolicyNode}

theorem segwitVersion_of_isTaproot (isTaproot : policy.type = .tr) :
    getPolicySegwitVersion policy = 1 := by
  cases policy with
  | tr placeholder tree => rfl
  | sh script | wsh script | andor x y z | thresh k scripts => cases isTaproot
  | constant token | withKey token | withUint32 token | withHash256 token | withHash160 token
  | multisig token | wrapper token | withScript2 token => cases token <;> cases isTaproot

/-- A legacy signature is of the type for everything. -/
theorem SighashAllowed.eq_sighashAll {before : Trace} {sighashType : UInt32}
    (allowed : SighashAllowed policy before sighashType)
    (isLegacy : getPolicySegwitVersion policy = -1) : sighashType = sighashAll := by
  cases allowed with
  | all isAll => exact isAll
  | default isTaproot isDefault =>
    have isVersion1 := segwitVersion_of_isTaproot isTaproot
    omega
  | warned isSegwit isNondefault accepted => omega

/-- The previous output of an internal input under a legacy policy. -/
theorem Review.InternalInput.exists_spends (internal : review.InternalInput i)
    (isLegacy : getPolicySegwitVersion review.initial.wallet.policy = -1)
    (hold : commitments.HoldOn review.inputs)
    (sized : ∀ prevoutHash, commitments.value internal.input.inOut.map [psbtInPreviousTxid] =
      some prevoutHash → prevoutHash.length = 32) :
    ∃ spent, commitments.Spends internal.input.inOut.map spent := by
  obtain ⟨_, _, _, _, _, _, isReading, _, _,
    readsPrevout, isInput⟩ := runs_readInput_ok internal.reads
  have present := internal.present.nonWitnessUtxo isLegacy
  rw [internal.inputs_eq, isReading] at hold
  simp only [Commitments.holdOn_append_iff] at hold
  obtain ⟨-, ⟨-, holdFetching⟩, -⟩ := hold
  rw [isInput] at present sized ⊢
  obtain ⟨spent, isOutput, -, isTxid⟩ := Commitments.verified_of_readsPrevout readsPrevout
    holdFetching present sized
  exact ⟨spent, isOutput, isTxid⟩

/-- The output that is signed for is that of a transaction with the id that is committed to. -/
theorem SigningAttempt.spends
    (attempt : SigningAttempt device review.reviewed review.internalInputs exchanges signing)
    (isLegacy : getPolicySegwitVersion review.initial.wallet.policy = -1)
    (holdInputs : commitments.HoldOn review.inputs) (hold : commitments.HoldOn exchanges)
    (sized : ∀ prevoutHash, commitments.value attempt.received.inOut.map [psbtInPreviousTxid] =
      some prevoutHash → prevoutHash.length = 32) {spent : TxidParserOutputs}
    (isOutput : commitments.previousOutput attempt.received.inOut.map = some spent) :
    commitments.Spends attempt.received.inOut.map spent := by
  obtain ⟨internal⟩ := review.exists_internalInput attempt.isInternal
  obtain ⟨sameMap, -⟩ := same_of_received attempt internal holdInputs hold
    Commitments.flagOf_hasNonWitnessUtxo fun _ _ _ => rfl
  rw [sameMap] at sized isOutput ⊢
  obtain ⟨_, spends⟩ := internal.exists_spends isLegacy holdInputs sized
  cases isOutput.symm.trans spends.isOutput
  exact spends

/-- What the request says is kept. -/
theorem Review.exists_processGlobalMap
    (parses : Runs (readSignPsbtRequest readBuffer) [] (.ok request)) :
    (review.reviewed.inputsRoot = request.inputsRoot ∧
      review.reviewed.nInputs = request.nInputs ∧
      review.reviewed.outputsRoot = request.outputsRoot ∧
      review.reviewed.nOutputs = request.nOutputs) ∧
    ∃ reading rest, review.opening = reading ++ rest ∧
      Runs (processGlobalMap request.globalMap) reading
        (.ok (review.reviewed.txVersion, review.reviewed.locktime)) := by
  obtain ⟨_, _, _, _, reading, receiving, authorizing, isOpening, parsesAs, reads,
    _, _, _, isInitial⟩ := runs_initGlobalState_ok review.opens
  have unasked : Dialogue.AnsweredBy noAnswers [] := forall_mem_nil _
  have isParsed := (parsesAs.run_eq unasked).symm.trans (parses.run_eq unasked)
  cases isParsed
  obtain ⟨isVersion, isLocktime, isOutputsRoot, nOutputs⟩ := review.reviewed_request
  rw [review.reviewed_inputsRoot, review.reviewed_nInputs, isVersion, isLocktime, isOutputsRoot,
    nOutputs, isInitial]
  exact ⟨⟨rfl, rfl, rfl, rfl⟩, reading, receiving ++ authorizing, isOpening, reads⟩

/-- The message that was made from the answers is that of the transaction if and only if the answers
do no harm. -/
theorem Commitments.legacySigned_iff {crypto : WalletCrypto} {scriptPubKey : Bytes}
    {locktime : Except Int Bytes}
    {sequences : List (Except Int Bytes)} (describes : Describes (commitments.psbt request) tx)
    (inside : index < request.nInputs)
    (answered : commitments.AnsweredWith request exchanges locktime sequences)
    (hold : commitments.HoldOn exchanges) : LegacySigned crypto tx index scriptPubKey
        (Legacy.message tx.version (Legacy.servedInputs tx.inputs sequences) tx.outputs
          (servedField noLocktime locktime) index (commitments.scriptCode map scriptPubKey)) ↔
      commitments.ServesLegacy crypto request map scriptPubKey locktime sequences := by
  obtain ⟨nInputs, -⟩ := length_of_describes describes
  have length : sequences.length = tx.inputs.length := by rw [answered.length, nInputs]
  have sameLocktime : servedField noLocktime locktime = tx.locktime ↔ Harmless noLocktime
      (commitments.value request.globalMap [psbtGlobalFallbackLocktime]) locktime :=
    servedField_eq_iff describes.locktime
      fun bytes isBytes => hold _ answered.isLocktime bytes isBytes
  have sameSequences : (∀ (k : Nat) input answer, tx.inputs[k]? = some input →
      sequences[k]? = some answer → servedField finalSequence answer = input.sequence) ↔
        ∀ (k : Nat) inputMap answer,
          commitments.map request.inputsRoot request.nInputs k = some inputMap →
            sequences[k]? = some answer →
              Harmless finalSequence (commitments.value inputMap [psbtInSequence]) answer := by
    have each : ∀ (k : Nat) input inputMap answer, tx.inputs[k]? = some input →
        commitments.map request.inputsRoot request.nInputs k = some inputMap →
          sequences[k]? = some answer → (servedField finalSequence answer = input.sequence ↔
            Harmless finalSequence (commitments.value inputMap [psbtInSequence]) answer) := by
      intro k input inputMap answer isInput isMap isAnswer
      obtain ⟨_, isDescribed, describesInput⟩ := exists_describesInput describes isInput
      obtain ⟨_, isAsked, mem⟩ := answered.areSequences k answer isAnswer
      cases isMap.symm.trans isAsked
      cases isMap.symm.trans isDescribed
      exact servedField_eq_iff describesInput.sequence fun bytes isBytes => hold _ mem bytes isBytes
    constructor
    · intro same k inputMap answer isMap isAnswer
      obtain ⟨insideAnswers, -⟩ := List.getElem?_eq_some_iff.mp isAnswer
      have isInput := getElem?_eq_getElem (length ▸ insideAnswers)
      exact (each k _ inputMap answer isInput isMap isAnswer).mp (same k _ answer isInput isAnswer)
    · intro harmless k input answer isInput isAnswer
      obtain ⟨inputMap, isMap, -⟩ := answered.areSequences k answer isAnswer
      exact (each k input inputMap answer isInput isMap isAnswer).mpr
        (harmless k inputMap answer isMap isAnswer)
  constructor
  · rintro ⟨_, isMessage, verified⟩
    obtain ⟨rfl, isLocktime, areSequences⟩ :=
      (Legacy.message_servedInputs_eq_iff length (nInputs ▸ inside)).mp isMessage
    refine ⟨sameLocktime.mp isLocktime, sameSequences.mp areSequences, 
      fun redeemScript isRedeem => ?_⟩
    rwa [Commitments.scriptCode, isRedeem, Option.getD_some] at verified
  · rintro ⟨harmless, harmlessSequences, redeems⟩
    refine ⟨commitments.scriptCode map scriptPubKey,
      (Legacy.message_servedInputs_eq_iff length (nInputs ▸ inside)).mpr
        ⟨rfl, sameLocktime.mpr harmless, sameSequences.mpr harmlessSequences⟩, ?_⟩
    rw [Commitments.scriptCode]
    cases isRedeem : commitments.value map [psbtInRedeemScript] with
    | none => exact .inl rfl
    | some redeemScript => exact redeems redeemScript isRedeem

/-- What is hashed for a legacy input is made from the answers, which do no harm if and only if it
belongs to the transaction. -/
theorem legacySigned_iff_of_attempt
    (attempt : SigningAttempt device review.reviewed review.internalInputs exchanges signing)
    (isLegacy : getPolicySegwitVersion review.initial.wallet.policy = -1)
    (parses : Runs (readSignPsbtRequest readBuffer) [] (.ok request))
    (describes : Describes (commitments.psbt request) tx)
    (hold : commitments.HoldOn (review.trace ++ exchanges)) :
    ∃ map spent hashing message locktime sequences,
      commitments.map request.inputsRoot request.nInputs attempt.curInputIndex = some map ∧
      commitments.Spends map spent ∧
      Runs (legacyMessage review.reviewed attempt.signed attempt.curInputIndex) hashing
        (.ok message) ∧
      attempt.sighash = device.crypto.sha256 (device.crypto.sha256 message).val ∧
      commitments.AnsweredWith request (review.trace ++ exchanges) locktime sequences ∧
      (LegacySigned device.crypto tx attempt.curInputIndex spent.prevout.2 message ↔
        commitments.ServesLegacy device.crypto request map spent.prevout.2 locktime
          sequences) := by
  obtain ⟨⟨isRoot, isNumber, isOutputsRoot, nOutputs⟩, _, _, isOpening, reads⟩ :=
    review.exists_processGlobalMap parses
  obtain ⟨holdTrace, holdSigned⟩ := Commitments.holdOn_append_iff.mp hold
  have holdAttempt := holdSigned
  rw [Review.trace, isOpening] at holdTrace
  rw [attempt.exchanges_eq] at holdAttempt
  simp only [Commitments.holdOn_append_iff] at holdTrace holdAttempt
  obtain ⟨⟨holdReading, -⟩, holdInputs, -⟩ := holdTrace
  obtain ⟨-, -, -, -, holdReceiving, -, holdTyping, holdComputing, -⟩ := holdAttempt
  obtain ⟨isVersion, locktime, asked, isLocktime⟩ :=
    Commitments.runs_processGlobalMap_ok reads holdReading
  -- The input that is signed is the one that was received, with the script of its output.
  obtain ⟨isMap, hasRedeemScript⟩ := Commitments.receiveInput_returns attempt.receives
    attempt.succeeds holdReceiving Commitments.flagOf_hasRedeemScript
  obtain ⟨_, isTyped, -⟩ := runs_readSighashType_ok attempt.readsType holdTyping
  obtain ⟨_, hashing, _, scriptPubKey, isComputing, fetches, sameMap, isScript, sameFlag,
    computes⟩ := attempt.computes.exists_legacy (by rw [review.reviewed_wallet, isLegacy])
  rw [isTyped] at fetches sameMap sameFlag
  rw [isComputing, Commitments.holdOn_append_iff] at holdComputing
  obtain ⟨message, makes, isSighash⟩ := runs_computeSighashLegacy_ok computes
  obtain ⟨spent, isOutput, isPrevout, -⟩ :=
    Commitments.runs_getAmountScriptpubkeyFromPsbtNonwitness_some fetches holdComputing.1
  have isType := (sighashAllowed_of_attempt attempt holdInputs holdSigned).1.eq_sighashAll isLegacy
  obtain ⟨nInputs, nTxOutputs⟩ := Commitments.length_of_describes describes
  have sized : ∀ prevoutHash, commitments.value attempt.received.inOut.map [psbtInPreviousTxid] =
      some prevoutHash → prevoutHash.length = 32 := by
    intro prevoutHash isHash
    have inside : attempt.curInputIndex < tx.inputs.length := by
      rw [nInputs, ← isNumber]
      exact attempt.inside
    obtain ⟨map, isSame, describesInput⟩ := Commitments.describesInputAt describes isRoot isNumber
      (getElem?_eq_getElem inside)
    cases isMap.symm.trans isSame
    cases isHash.symm.trans describesInput.txid
    exact (tx.inputs[attempt.curInputIndex]).txid.property
  have spends := attempt.spends isLegacy holdInputs holdSigned sized isOutput
  have sameVersion : leBytes 4 review.reviewed.txVersion.toNat = tx.version.val :=
    Option.some.inj (isVersion.symm.trans describes.version)
  rw [← sameMap] at isMap hasRedeemScript isOutput spends
  rw [← sameFlag] at hasRedeemScript
  obtain ⟨sequences, length, areSequences, rfl⟩ := Commitments.runs_legacyMessage_ok isMap isScript
    hasRedeemScript isType (nInputs.trans isNumber.symm) (nTxOutputs.trans nOutputs.symm)
    (fun _ _ => Commitments.describesInputAt describes isRoot isNumber)
    (fun _ _ => Commitments.describesOutputAt describes isOutputsRoot nOutputs)
    sameVersion isLocktime makes holdComputing.2
  rw [isRoot, isNumber] at isMap
  have answered :
      commitments.AnsweredWith request (review.trace ++ exchanges) locktime sequences := by
    refine ⟨?_, fun k answer isAnswer => ?_, by rw [length, nInputs]⟩
    · simp [Review.trace, isOpening, asked]
    · obtain ⟨map, isInputMap, mem⟩ := areSequences k answer isAnswer
      rw [isRoot, isNumber, Nat.zero_add] at isInputMap
      refine ⟨map, isInputMap, mem_append_right _ ?_⟩
      simp [attempt.exchanges_eq, isComputing, mem]
  have isScriptPubKey : scriptPubKey = spent.prevout.2 := congrArg Prod.snd isPrevout
  subst isScriptPubKey
  exact ⟨_, spent, hashing, _, locktime, sequences, isMap, spends, makes, isSighash, answered,
    Commitments.legacySigned_iff describes (isNumber ▸ attempt.inside) answered hold⟩

end Yielded

/-- When a signature is yielded under a legacy policy, it is over the hash of a message for the
described transaction with a script code of the previous output if and only if the client denies no
lock time and no sequence number, and no redeem script belongs to another output. -/
theorem legacySigned_iff_of_yield {device : Device} {protocolVersion : Nat} {readBuffer : Buffer}
    {commitments : Commitments} {before after : Trace} {signing : Signing} {response : Bytes}
    {resumed : Bool} {result : Except Stop Unit} {request : SignPsbtRequest} {tx : Transaction}
    (run : Runs (handlerSignPsbt device protocolVersion readBuffer)
      (before ++ ⟨.yield signing response, resumed⟩ :: after) result)
    (hold : commitments.HoldOn before)
    (isLegacy : getPolicySegwitVersion signing.wallet.policy = -1)
    (parses : Runs (readSignPsbtRequest readBuffer) [] (.ok request))
    (describes : Describes (commitments.psbt request) tx) :
    ∃ (review : Review device protocolVersion readBuffer) (signed : Trace)
      (attempt : SigningAttempt device review.reviewed review.internalInputs signed signing)
      (map : MerkleizedMapCommitment) (spent : TxidParserOutputs) (hashing : Trace)
      (message : Bytes) (locktime : Except Int Bytes) (sequences : List (Except Int Bytes)),
      before = review.trace ++ signed ∧
      commitments.map request.inputsRoot request.nInputs signing.curInputIndex = some map ∧
      commitments.Spends map spent ∧
      Runs (legacyMessage review.reviewed attempt.signed signing.curInputIndex) hashing
        (.ok message) ∧
      attempt.sighash = device.crypto.sha256 (device.crypto.sha256 message).val ∧
      commitments.AnsweredWith request before locktime sequences ∧
      (LegacySigned device.crypto tx signing.curInputIndex spent.prevout.2 message ↔
        commitments.ServesLegacy device.crypto request map spent.prevout.2 locktime
          sequences) := by
  obtain ⟨review, signed, _, _, rfl, signs⟩ := exists_review_of_yield run
  obtain ⟨attempt⟩ := exists_attempt_of_yield signs
  have isIndex : signing.curInputIndex = attempt.curInputIndex :=
    congrArg Signing.curInputIndex attempt.isSigning
  have isWallet : signing.wallet = review.initial.wallet :=
    (congrArg Signing.wallet attempt.isSigning).trans review.reviewed_wallet
  rw [isWallet] at isLegacy
  obtain ⟨map, spent, hashing, message, locktime, sequences, isMap, spends, makes, isSighash,
    answered, iff⟩ := legacySigned_iff_of_attempt attempt isLegacy parses describes hold
  refine ⟨review, signed, attempt, map, spent, hashing, message, locktime, sequences, rfl, ?_⟩
  rw [isIndex]
  exact ⟨isMap, spends, makes, isSighash, answered, iff⟩

/-! ## A legacy input with a redeem script -/

/-- A transaction with an output of the legacy sample wallet. -/
def spentTransaction : Transaction where
  version := sizedBytes [1, 0, 0, 0]
  inputs := [⟨sizedBytes (replicate 32 1), sizedBytes [0, 0, 0, 0], [], finalSequence⟩]
  inputs_ne_nil := cons_ne_nil _ _
  outputs := [⟨sizedBytes (leBytes 8 100000), legacyScript⟩]
  witnesses := none
  locktime := noLocktime

/-- A client of the legacy sample wallet that spends the output. -/
def legacyStore (redeemScript : Entries) : ClientStore :=
  { accountStore "pkh(@0/**)" 44 [([psbtInNonWitnessUtxo], spentTransaction.serialize) ::
      redeemScript ++ [sampleDerivation 0x06 44 0 0,
        ([psbtInPreviousTxid], (spentTransaction.txid sampleCrypto.sha256).val),
        ([psbtInOutputIndex], [0, 0, 0, 0])]] [sampleOutput 90000] with
    previous := [spentTransaction] }

/-- The transaction that such a client asks to sign. -/
def legacyTransaction : Transaction where
  version := sizedBytes [2, 0, 0, 0]
  inputs := [⟨spentTransaction.txid sampleCrypto.sha256, sizedBytes [0, 0, 0, 0], [],
    finalSequence⟩]
  inputs_ne_nil := cons_ne_nil _ _
  outputs := [⟨sizedBytes (leBytes 8 90000), otherScript⟩]
  witnesses := none
  locktime := noLocktime

/-- What the sample command says. -/
def ClientStore.parsedRequest (store : ClientStore) : SignPsbtRequest where
  globalMap := store.commitment ClientStore.globalRoot
  nInputs := store.inputs.length
  inputsRoot := Digest.ofNat ClientStore.inputsRoot
  nOutputs := store.outputs.length
  outputsRoot := Digest.ofNat ClientStore.outputsRoot
  walletId := sampleCrypto.sha256 store.header.serialize
  walletHmac := replicate 32 0

/-- A client that adds a redeem script, although the output needs none. -/
def redeemStore : ClientStore := legacyStore [([psbtInRedeemScript], [0x51])]

/-- The first input of a PSBT is signed for under a legacy policy. -/
def Signing.isLegacy (signing : Signing) : Bool :=
  getPolicySegwitVersion signing.wallet.policy = -1 && signing.curInputIndex = 0

theorem runs_of_transcript_eq_nil {program : Program α} {result : Except Stop α}
    (returns : program.run noAnswers = result) (unasked : program.transcript noAnswers = []) :
    Runs program [] result := by
  rw [← returns, ← unasked]
  exact Dialogue.runs_transcript _ _

theorem legacyStore_describes :
    Describes (((legacyStore []).commitments sampleCrypto.sha256).psbt
      (legacyStore []).parsedRequest) legacyTransaction :=
  ⟨by decide, by decide, .cons ⟨by decide, by decide, rfl, by decide⟩ .nil,
    .cons ⟨by decide, by decide⟩ .nil, rfl⟩

theorem redeemStore_describes :
    Describes ((redeemStore.commitments sampleCrypto.sha256).psbt redeemStore.parsedRequest)
      legacyTransaction :=
  ⟨by decide, by decide, .cons ⟨by decide, by decide, rfl, by decide⟩ .nil,
    .cons ⟨by decide, by decide⟩ .nil, rfl⟩

theorem legacySigned_iff_of_yield_pkh :
    ∃ (review : Review sampleDevice 1 (legacyStore []).sampleRequest) (signed : Trace)
      (signing : Signing)
      (attempt : SigningAttempt sampleDevice review.reviewed review.internalInputs signed signing)
      (message : Bytes),
      attempt.sighash = sampleCrypto.sha256 (sampleCrypto.sha256 message).val ∧
      LegacySigned sampleCrypto legacyTransaction signing.curInputIndex legacyScript message := by
  obtain ⟨before, signing, response, resumed, after, result, run, answered, isLegacy⟩ :=
    ClientStore.exists_run_at_yieldOf sampleDevice (legacyStore []) Signing.isLegacy
      (by decide +kernel)
  simp only [Signing.isLegacy, Bool.and_eq_true, decide_eq_true_eq] at isLegacy
  obtain ⟨review, signed, attempt, map, spent, hashing, message, locktime, sequences, -, isMap,
    spends, -, isSighash, answeredWith, iff⟩ := legacySigned_iff_of_yield run
      (ClientStore.holdOn_of_answeredBy answered) isLegacy.1
      (runs_of_transcript_eq_nil (by decide +kernel) (by decide +kernel)) legacyStore_describes
  rw [isLegacy.2] at isMap
  have isOnly : map = (legacyStore []).commitment (ClientStore.inputRoot 0) :=
    Option.some.inj (isMap.symm.trans (by decide))
  have found : (((legacyStore []).commitments sampleCrypto.sha256).previousOutput
      ((legacyStore []).commitment (ClientStore.inputRoot 0))).map
        (fun outputs => outputs.prevout.2) = some legacyScript := by decide
  rw [← isOnly, spends.isOutput] at found
  have isScript : spent.prevout.2 = legacyScript := Option.some.inj found
  rw [isScript] at iff
  refine ⟨review, signed, signing, attempt, message, isSighash, iff.mpr ⟨?_, ?_, ?_⟩⟩
  · intro code bytes _ isLocktime
    have absent : ((legacyStore []).commitments sampleCrypto.sha256).value
        (legacyStore []).parsedRequest.globalMap [psbtGlobalFallbackLocktime] = none := by
      decide
    cases absent.symm.trans isLocktime
  · intro k inputMap answer isInputMap isAnswer code bytes _ isSequence
    obtain ⟨inside, -⟩ := List.getElem?_eq_some_iff.mp isAnswer
    rw [answeredWith.length] at inside
    obtain rfl : k = 0 := Nat.lt_one_iff.mp inside
    cases isMap.symm.trans isInputMap
    have absent : ((legacyStore []).commitments sampleCrypto.sha256).value
        ((legacyStore []).commitment (ClientStore.inputRoot 0)) [psbtInSequence] = none := by
      decide
    rw [isOnly] at isSequence
    cases absent.symm.trans isSequence
  · intro redeemScript isRedeem
    have absent : ((legacyStore []).commitments sampleCrypto.sha256).value
        ((legacyStore []).commitment (ClientStore.inputRoot 0)) [psbtInRedeemScript] = none := by
      decide
    rw [isOnly] at isRedeem
    cases absent.symm.trans isRedeem

/-- The redeem script is signed for, although it does not belong to the output. -/
theorem not_legacySigned_redeemScript :
    ∃ (before after : Trace) (signing : Signing) (response : Bytes) (resumed : Bool)
      (result : Except Stop Unit) (review : Review sampleDevice 1 redeemStore.sampleRequest)
      (signed : Trace)
      (attempt : SigningAttempt sampleDevice review.reviewed review.internalInputs signed signing)
      (spent : TxidParserOutputs) (hashing : Trace) (message : Bytes),
      Runs (handlerSignPsbt sampleDevice 1 redeemStore.sampleRequest)
        (before ++ ⟨.yield signing response, resumed⟩ :: after) result ∧
      (redeemStore.commitments sampleCrypto.sha256).HoldOn before ∧
      getPolicySegwitVersion signing.wallet.policy = -1 ∧ before = review.trace ++ signed ∧
      (redeemStore.commitments sampleCrypto.sha256).Spends
        (redeemStore.commitment (ClientStore.inputRoot signing.curInputIndex)) spent ∧
      Runs (legacyMessage review.reviewed attempt.signed signing.curInputIndex) hashing
        (.ok message) ∧
      attempt.sighash = sampleCrypto.sha256 (sampleCrypto.sha256 message).val ∧
      ¬ LegacySigned sampleCrypto legacyTransaction signing.curInputIndex spent.prevout.2
        message := by
  obtain ⟨before, signing, response, resumed, after, result, run, answered, isLegacy⟩ :=
    ClientStore.exists_run_at_yieldOf sampleDevice redeemStore Signing.isLegacy (by decide +kernel)
  simp only [Signing.isLegacy, Bool.and_eq_true, decide_eq_true_eq] at isLegacy
  obtain ⟨review, signed, _, _, rfl, signs⟩ := exists_review_of_yield run
  obtain ⟨attempt⟩ := exists_attempt_of_yield signs
  have isIndex : signing.curInputIndex = attempt.curInputIndex :=
    congrArg Signing.curInputIndex attempt.isSigning
  have isWallet : signing.wallet = review.initial.wallet :=
    (congrArg Signing.wallet attempt.isSigning).trans review.reviewed_wallet
  have hold : (redeemStore.commitments sampleCrypto.sha256).HoldOn (review.trace ++ signed) :=
    ClientStore.holdOn_of_answeredBy answered
  obtain ⟨map, spent, hashing, message, locktime, sequences, isMap, spends, makes, isSighash, -,
    iff⟩ := legacySigned_iff_of_attempt attempt (by rw [← isWallet]; exact isLegacy.1)
      (runs_of_transcript_eq_nil (by decide +kernel) (by decide +kernel)) redeemStore_describes hold
  rw [← isIndex] at isMap makes iff
  rw [isLegacy.2] at isMap
  have isOnly : map = redeemStore.commitment (ClientStore.inputRoot 0) :=
    Option.some.inj (isMap.symm.trans (by decide))
  have found : ((redeemStore.commitments sampleCrypto.sha256).previousOutput
      (redeemStore.commitment (ClientStore.inputRoot 0))).map (fun outputs => outputs.prevout.2) =
        some legacyScript := by decide
  rw [← isOnly, spends.isOutput] at found
  have isScript : spent.prevout.2 = legacyScript := Option.some.inj found
  rw [isOnly] at spends iff
  refine ⟨_, after, signing, response, resumed, result, review, signed, attempt, spent, hashing,
    message, run, hold, isLegacy.1, rfl, by rwa [isLegacy.2], makes, isSighash, fun isSigned => ?_⟩
  have verified := (iff.mp isSigned).redeemScript [0x51] (by decide)
  rw [isScript] at verified
  exact absurd verified (by unfold VerifiedScriptCode; decide)

end LedgerSyscoin.Handler
