import LedgerSyscoin.Handler.SignPsbt.Handler

/-!
# Parts that yield no signature

No signature is yielded before the review is over, nor by the parts that compute what
is signed.
-/

namespace LedgerSyscoin.Handler

open Foundation Common Boilerplate
open Dialogue (Runs Satisfies Compositional runs_ask_iff runs_fail_iff)
open Program (refuse refuseIf orRefuse giveUp mapValue valueOfLength requireValue confirm confirmIf
  onRefusal leafElement callGetMerkleizedMap)

variable {asked : Question} {outLen length i : Nat} {hashContext : Bytes} {sighashByte : UInt32}

/-- The call that sends a signature to the client. -/
def Question.isYield : Question → Bool
  | .yield _ _ => true
  | _ => false

/-- No exchange is a signature that is yielded. -/
def Unsigned (exchanges : Trace) : Prop := ∀ exchange ∈ exchanges, exchange.1.isYield = false

/-- A program that yields no signature. -/
def NeverYields {α : Type} (program : Program α) : Prop :=
  Satisfies (fun exchanges _ => Unsigned exchanges) program

variable {device : Device} {α β : Type} {first second : Trace} {map : MerkleizedMapCommitment}
  {key : UInt8} {root : Digest} {size index remaining curInputIndex curOutputIndex : Nat}
  {placeholderInfo : PlaceholderInfo} {site : Site} {st : SignPsbtState} {input : InputInfo}
  {dryRun : Bool} {H : HashFunction} {context : Bytes} {hashes : SegwitHashes}

/-! ## Composition -/

theorem unsigned_nil : Unsigned [] := fun _ mem => absurd mem List.not_mem_nil

theorem unsigned_singleton {exchange : Dialogue.Exchange Answer}
    (notYield : exchange.1.isYield = false) : Unsigned [exchange] := by
  intro other mem
  rwa [List.mem_singleton.mp mem]

theorem Unsigned.append (unsignedFirst : Unsigned first) (unsignedSecond : Unsigned second) :
    Unsigned (first ++ second) := fun exchange mem =>
  (List.mem_append.mp mem).elim (unsignedFirst exchange) (unsignedSecond exchange)

theorem quiet : Compositional fun (exchanges : Trace) (_ : Option Stop) => Unsigned exchanges where
  nil := unsigned_nil
  append := .append

/-! ## Building blocks -/

theorem quiet_question (notYield : asked.isYield = false) :
    NeverYields (Dialogue.question asked : Program (Answer asked)) :=
  .question fun _ => unsigned_singleton notYield

theorem quiet_refuse (sw : Nat) : NeverYields (refuse sw : Program α) := by
  intro exchanges result run
  obtain ⟨rfl, rfl⟩ := run.refuse
  exact unsigned_singleton rfl

theorem quiet_refuse_bind (sw : Nat) (next : α → Program β) : NeverYields (refuse sw >>= next) := by
  intro exchanges result run
  rcases run.bind with ⟨_, failed, rfl⟩ | ⟨_, _, _, _, returned, _⟩
  · exact quiet_refuse sw _ _ failed
  · exact returned.refused.elim

theorem quiet_undefined : NeverYields (Program.undefined : Program α) := by
  intro exchanges result run
  obtain ⟨rfl, rfl⟩ := runs_fail_iff.mp run
  exact unsigned_nil

theorem quiet_giveUp : NeverYields (giveUp : Program α) := by
  intro exchanges result run
  obtain ⟨rfl, -⟩ := runs_fail_iff.mp run
  exact unsigned_nil

theorem quiet_refuseIf (condition : Prop) [Decidable condition] (sw : Nat) :
    NeverYields (refuseIf condition sw) :=
  .ite (quiet_refuse sw) (quiet.pure ())

theorem quiet_orRefuse (found : Option α) (sw : Nat) : NeverYields (orRefuse found sw) := by
  cases found with
  | none => exact quiet_refuse sw
  | some value => exact quiet.pure value

theorem quiet_confirm (screen : Screen) : NeverYields (confirm screen) :=
  quiet.bind (quiet_question rfl) fun _ => quiet_refuseIf _ _

theorem quiet_confirmIf (condition : Prop) [Decidable condition] (screen : Screen) :
    NeverYields (confirmIf condition screen) :=
  .ite (quiet_confirm screen) (quiet.pure ())

theorem quiet_sendSw (sw : Nat) : NeverYields (Program.sendSw sw) := by
  intro exchanges result run
  obtain ⟨_, _, rfl, ⟨⟩⟩ := runs_ask_iff.mp run
  exact unsigned_singleton rfl

theorem quiet_notice (notice : Notice) : NeverYields (Program.notice notice) := by
  intro exchanges result run
  obtain ⟨_, _, rfl, ⟨⟩⟩ := runs_ask_iff.mp run
  exact unsigned_singleton rfl

theorem quiet_onRefusal {program : Program α} {action : Program Unit}
    (quietProgram : NeverYields program) (quietAction : NeverYields action) :
    NeverYields (onRefusal program action) := by
  intro exchanges result run
  rcases run.tryCatch with ⟨_, ran, rfl⟩ | ⟨error, _, _, rfl, failed, handled⟩
  · exact quietProgram _ _ ran
  · refine (quietProgram _ _ failed).append ?_
    cases error with
    | undefined =>
      obtain ⟨rfl, -⟩ := runs_fail_iff.mp handled
      exact unsigned_nil
    | refused =>
      have gaveUp : NeverYields (action >>= fun _ => giveUp : Program α) :=
        quiet.bind quietAction fun _ => quiet_giveUp
      exact gaveUp _ _ handled

/-! ## Lookups -/

theorem quiet_mapValue : NeverYields (mapValue map key outLen) :=
  quiet_question rfl

theorem quiet_leafElement : NeverYields (leafElement root size index outLen) :=
  quiet_question rfl

theorem quiet_valueOfLength : NeverYields (valueOfLength map key length) :=
  quiet.bindExcept quiet_mapValue (fun _ => quiet.pure _) fun _ => quiet.pure _

theorem quiet_requireValue : NeverYields (requireValue map key length) :=
  quiet.bindOption quiet_valueOfLength (quiet_refuse _) quiet.pure

section Maps

variable {τ : Type} {callback : Option (ElementsCallback Program τ)}

/-- The callback is a part of the handler up to the signatures. -/
def QuietCallback (callback : Option (ElementsCallback Program τ)) : Prop :=
  ∀ call ∈ callback, ∀ state map index element,
    NeverYields (call state map index element)

theorem quiet_checkMerkleTreeSortedLoop (quietCallback : QuietCallback callback) {curElIdx : Nat}
    {prevEl : Bytes} {state : τ} :
    NeverYields (checkMerkleTreeSortedLoop leafElement root size callback map
      remaining curElIdx prevEl state) := by
  induction remaining generalizing curElIdx prevEl state with
  | zero => exact quiet.pure _
  | succ remaining ih =>
    rw [checkMerkleTreeSortedLoop]
    refine quiet.bindExcept quiet_leafElement (fun _ => quiet.pure _) fun element =>
      .ite (quiet.pure _) (quiet.bind ?_ fun state => ih)
    cases callback with
    | none => exact quiet.pure state
    | some call => exact quietCallback call rfl state map curElIdx element

theorem quiet_callGetMerkleizedMapWithCallback (quietCallback : QuietCallback callback)
    {state : τ} {out : MerkleizedMapCommitment} : NeverYields
      (callGetMerkleizedMapWithCallback leafElement state root size index callback out) :=
  quiet.bindExcept quiet_leafElement (fun _ => quiet.pure _) fun _ =>
    .ite (quiet.pure _)
      (quiet.bind (quiet_checkMerkleTreeSortedLoop quietCallback) fun _ => quiet.pure _)

theorem quiet_callGetMerkleizedMap : NeverYields (callGetMerkleizedMap root size index) :=
  quiet.bind
    (quiet_callGetMerkleizedMapWithCallback (fun _ mem => absurd mem (Option.not_mem_none _)))
    fun _ => quiet.pure _

end Maps

/-! ## Keys -/

theorem quiet_readDerivation {inOut : InOutInfo} {psbtKeyType : UInt8} {data : Bytes} :
    NeverYields
      (readDerivation device placeholderInfo site inOut psbtKeyType data map index) := by
  refine quiet.bind ?_ fun _ => quiet.pure _
  simp only [readChangeAndIndexFromPsbtBip32Derivation]
  generalize (if isTapDerivation psbtKeyType then 32 else 33) = keyLen
  split
  · exact quiet.pure _
  · refine quiet.bind (quiet_question rfl) fun streamed => ?_
    split
    · exact quiet_undefined
    all_goals exact quiet.pure _

theorem quiet_receiveInput :
    NeverYields (receiveInput device placeholderInfo site root size index) := by
  refine quiet.bind (quiet_callGetMerkleizedMapWithCallback ?_) fun _ => quiet.pure _
  rintro _ ⟨⟩ _ _ _ element
  cases element with
  | nil => exact quiet.pure _
  | cons keyType data =>
    rw [inputKeysCallback]
    split_ifs
    all_goals try exact quiet.pure _
    exact quiet.bind quiet_readDerivation fun _ => quiet.pure _

theorem quiet_receiveOutput :
    NeverYields (receiveOutput device placeholderInfo site root size index) := by
  refine quiet.bind (quiet_callGetMerkleizedMapWithCallback ?_) fun _ => quiet.pure _
  rintro _ ⟨⟩ _ _ _ element
  cases element with
  | nil => exact quiet.pure _
  | cons keyType data =>
    exact .ite (quiet.bind quiet_readDerivation fun _ => quiet.pure _) (quiet.pure _)

theorem quiet_fillPlaceholderInfoIfInternal :
    NeverYields (fillPlaceholderInfoIfInternal device st placeholderInfo) := by
  refine quiet.bind (quiet_question rfl) fun answer => ?_
  split
  · exact quiet.bind (quiet_question rfl) fun _ => quiet.pure _
  all_goals exact quiet.pure _

theorem quiet_findFirstInternalLoop {curIndex : Nat} :
    NeverYields (findFirstInternalLoop device st remaining curIndex) := by
  induction remaining generalizing curIndex with
  | zero => exact quiet_refuse _
  | succ remaining ih =>
    rw [findFirstInternalLoop]
    split
    · exact quiet_refuse _
    · exact quiet.bindOption quiet_fillPlaceholderInfoIfInternal ih fun _ => quiet.pure _

/-! ## Previous outputs -/

theorem quiet_getAmountScriptpubkeyFromPsbtWitness :
    NeverYields (getAmountScriptpubkeyFromPsbtWitness map) := by
  refine quiet.bindExcept quiet_mapValue (fun _ => quiet.pure _) fun rawWitnessUtxo => ?_
  dsimp only
  split
  · exact quiet.pure _
  · exact .ite (quiet.pure _) (quiet.pure _)

theorem quiet_getAmountScriptpubkeyFromPsbtNonwitness {expectedPrevoutHash : Option Bytes} :
    NeverYields (getAmountScriptpubkeyFromPsbtNonwitness map expectedPrevoutHash) := by
  refine quiet.bindOption quiet_valueOfLength (quiet.pure _) fun prevoutN =>
    quiet.bind (quiet_question rfl) fun answer => ?_
  dsimp only
  split_ifs
  · exact quiet.pure _
  · exact quiet.pure _
  · exact quiet.bind quiet_undefined fun _ => quiet.pure _
  · exact quiet.pure _

theorem quiet_getAmountScriptpubkeyFromPsbt : NeverYields (getAmountScriptpubkeyFromPsbt map) :=
  quiet.bindOption quiet_getAmountScriptpubkeyFromPsbtWitness
    quiet_getAmountScriptpubkeyFromPsbtNonwitness fun _ => quiet.pure _

theorem quiet_readNonWitnessUtxo : NeverYields (readNonWitnessUtxo device input) :=
  .ite (quiet.pure _) (quiet.bind
    (quiet.bindExcept quiet_mapValue (fun _ => quiet_refuse _) fun _ => quiet.pure _) fun _ =>
      quiet.bindOption quiet_getAmountScriptpubkeyFromPsbtNonwitness (quiet_refuse _) fun _ =>
        quiet.pure _)

theorem quiet_readWitnessUtxo : NeverYields (readWitnessUtxo input) :=
  .ite (quiet.pure _) (quiet.bindOption quiet_getAmountScriptpubkeyFromPsbtWitness
    (quiet_refuse _) fun _ =>
      .ite (quiet.bind (quiet_refuseIf _ _) fun _ => quiet.pure _) (quiet.pure _))

/-! ## Review -/

theorem quiet_isInOutInternal {state : SignPsbtState} {inOutInfo : InOutInfo}
    {isInput : Bool} : NeverYields (isInOutInternal state inOutInfo site isInput) := by
  rw [isInOutInternal]
  split
  · exact quiet.pure _
  · split
    · exact quiet.pure _
    · exact quiet.bindOption (quiet_question rfl) (quiet.pure _) fun _ => quiet.pure _

theorem quiet_readInput : NeverYields (readInput device placeholderInfo st curInputIndex) :=
  quiet.bind quiet_receiveInput fun _ => quiet.bind (quiet_refuseIf _ _) fun _ =>
    quiet.bind (quiet_refuseIf _ _) fun _ => quiet.bind (quiet_refuseIf _ _) fun _ =>
      quiet.bind quiet_readNonWitnessUtxo fun _ => quiet_readWitnessUtxo

theorem quiet_checkInternalInput : NeverYields (checkInternalInput st input curInputIndex) := by
  refine quiet.bind (quiet_refuseIf _ _) fun _ => quiet.bind (quiet_refuseIf _ _) fun _ =>
    quiet.bind ?_ fun _ => quiet.pure _
  exact .ite (quiet.pure _) (quiet.bindOption quiet_valueOfLength (quiet_refuse _) fun _ =>
    quiet.bind (quiet_refuseIf _ _) fun _ => quiet.bind (quiet_refuseIf _ _) fun _ =>
      quiet.pure _)

theorem quiet_preprocessInput {progress : SignPsbtState × Bytes} :
    NeverYields (preprocessInput device placeholderInfo curInputIndex progress) := by
  refine quiet.bind quiet_readInput fun input => quiet.bind quiet_isInOutInternal fun internal => ?_
  split
  · exact quiet_refuse _
  · exact quiet.pure _
  · split
    · exact quiet_undefined
    · exact quiet.bind quiet_checkInternalInput fun _ => quiet.pure _

theorem quiet_preprocessInputs : NeverYields (preprocessInputs device st) :=
  quiet.bind quiet_findFirstInternalLoop fun _ =>
    quiet.forRange (fun _ _ => quiet_preprocessInput) _ _ _

theorem quiet_showAlerts {internalInputs : Bytes} :
    NeverYields (showAlerts device st internalInputs) :=
  quiet.bind (quiet.bind (quiet_refuseIf _ _) fun _ => quiet_confirmIf _ _) fun _ =>
    quiet.bind (quiet_confirmIf _ _) fun _ => quiet_confirmIf _ _

theorem quiet_incrementInt {counter : Nat} : NeverYields (incrementInt counter) :=
  .ite (quiet.pure _) quiet_undefined

theorem quiet_displayOutput {externalOutputsCount : Nat} {output : OutputInfo} : NeverYields
      (displayOutput device st curOutputIndex externalOutputsCount output) := by
  refine quiet.bind (quiet_orRefuse _ _) fun description => ?_
  split
  · split
    · exact quiet_refuseIf _ _
    · exact quiet_refuse _
  · exact quiet_confirm _

theorem quiet_readOutput :
    NeverYields (readOutput device placeholderInfo dryRun st curOutputIndex) := by
  refine quiet.bind quiet_receiveOutput fun received => quiet.bind (quiet_refuseIf _ _) fun _ =>
    quiet.bind (quiet_refuseIf _ _) fun _ => quiet.bind ?_ fun value =>
      quiet.bind (quiet.bindExcept quiet_mapValue
        (fun _ => quiet.bind (quiet_refuseIf _ _) fun _ => quiet.pure _) fun _ => quiet.pure _)
        fun _ => quiet.pure _
  exact .ite (quiet.pure _) (quiet.bind quiet_requireValue fun _ => quiet.pure _)

theorem quiet_verifyOutput {progress : SignPsbtState × Nat} : NeverYields
      (verifyOutput device placeholderInfo dryRun curOutputIndex progress) := by
  refine quiet.bind quiet_readOutput fun output => quiet.bind quiet_isInOutInternal fun internal =>
    ?_
  split
  · exact quiet_refuse _
  · exact quiet.bind quiet_incrementInt fun count =>
      .ite (quiet.pure _) (quiet.bind quiet_displayOutput fun _ => quiet.pure _)
  · exact .ite (quiet.pure _)
      (quiet.bind (quiet.bind quiet_incrementInt fun _ => quiet.pure _) fun _ => quiet.pure _)

theorem quiet_readOutputs : NeverYields (readOutputs device placeholderInfo dryRun st) :=
  quiet.bind (quiet.forRange (fun _ _ => quiet_verifyOutput) _ _ _) fun _ => quiet.pure _

theorem quiet_processOutputs : NeverYields (processOutputs device st) := by
  refine quiet.bind quiet_findFirstInternalLoop fun placeholderInfo =>
    quiet.bind ?_ fun _ => quiet_readOutputs
  exact .ite (quiet.pure _) (quiet.bind quiet_readOutputs fun _ =>
    quiet.bind (quiet_confirmIf _ _) fun _ => quiet.pure _)

theorem quiet_confirmOrNotify (screen : Screen) : NeverYields (confirmOrNotify screen) :=
  quiet_onRefusal (quiet_confirm screen) (quiet_notice _)

theorem quiet_confirmTransaction : NeverYields (confirmTransaction device st) := by
  refine quiet.bind (quiet_refuseIf _ _) fun _ => quiet.bind (quiet_refuseIf _ _) fun _ => ?_
  dsimp only
  split
  · exact quiet.bind (quiet_refuseIf _ _) fun _ => quiet.bind (quiet_refuseIf _ _) fun _ =>
      quiet_refuseIf _ _
  · exact .ite (quiet.bind (quiet_confirmOrNotify _) fun _ => quiet_confirmOrNotify _)
      (quiet_confirmOrNotify _)

theorem quiet_reviewTransaction : NeverYields (reviewTransaction device st) :=
  quiet.bind quiet_preprocessInputs fun _ => quiet.bind quiet_showAlerts fun _ =>
    quiet.bind quiet_processOutputs fun _ => quiet.bind quiet_confirmTransaction fun _ =>
      quiet.pure _

/-! ## Request and wallet policy -/

theorem quiet_processGlobalMap {globalMap : MerkleizedMapCommitment} :
    NeverYields (processGlobalMap globalMap) := by
  refine quiet.bind (quiet_checkMerkleTreeSortedLoop
    (fun _ mem => absurd mem (Option.not_mem_none _))) fun checked =>
      .ite (quiet_refuse_bind _ _) (quiet.bindExcept quiet_mapValue (fun _ => quiet_refuse _)
        fun txVersion => .ite (quiet_refuse_bind _ _) (quiet.bindExcept quiet_mapValue ?_ ?_))
  · exact fun _ => .ite (quiet.pure _) (quiet_refuse _)
  · exact fun locktime => .ite (quiet_refuse_bind _ _) (quiet.pure _)

theorem quiet_readSignPsbtRequest {buffer : Buffer} : NeverYields (readSignPsbtRequest buffer) :=
  quiet.bind (quiet_orRefuse _ _) fun _ => quiet.bind (quiet_orRefuse _ _) fun _ =>
    quiet.bind (quiet_refuseIf _ _) fun _ => quiet.bind (quiet_orRefuse _ _) fun _ =>
      quiet.bind (quiet_orRefuse _ _) fun _ => quiet.pure _

theorem quiet_receiveWalletPolicy {walletId : Digest} :
    NeverYields (receiveWalletPolicy device walletId) := by
  refine quiet.bind (quiet_question rfl) fun serialized => quiet.bind (quiet_refuseIf _ _)
    fun _ => quiet.bind ?_ fun _ => quiet_orRefuse _ _
  rw [readAndParseWalletPolicy]
  split
  · exact quiet.pure _
  · split
    · exact quiet.pure _
    · refine quiet.bind (quiet_question rfl) fun preimage => ?_
      split <;> exact quiet.pure _

theorem quiet_isWalletPolicyStandard {header : PolicyMapWalletHeader} {policy : PolicyNode} :
    NeverYields (isWalletPolicyStandard device header policy) := by
  rw [isWalletPolicyStandard]
  split
  · exact quiet.pure _
  · split
    · exact quiet.pure _
    · refine quiet.bindExcept quiet_leafElement (fun _ => quiet.pure _) fun keyInfoStr => ?_
      dsimp only
      split <;> exact quiet.pure _

theorem quiet_authorizePolicy {isWalletDefault : Bool} {walletPolicy : WalletPolicy} :
    NeverYields (authorizePolicy device isWalletDefault walletPolicy) := by
  rw [authorizePolicy]
  split
  · exact quiet.bind quiet_isWalletPolicyStandard fun _ => quiet.bind (quiet_refuseIf _ _) fun _ =>
      quiet_refuseIf _ _
  · exact quiet.bind (quiet_refuseIf _ _) fun _ =>
      quiet.bind (quiet_onRefusal (quiet_confirm _) (quiet_notice _)) fun _ =>
        quiet_question rfl

theorem quiet_initGlobalState {protocolVersion : Nat} {readBuffer : Buffer} :
    NeverYields (initGlobalState device protocolVersion readBuffer) :=
  quiet.bind quiet_readSignPsbtRequest fun _ => quiet.bind quiet_processGlobalMap fun _ =>
    quiet.bind (quiet_refuseIf _ _) fun _ => quiet.bind quiet_receiveWalletPolicy fun _ =>
      quiet.bind quiet_authorizePolicy fun _ => quiet.pure _

/-! ## Hashes -/

theorem quiet_hashOutputN : NeverYields (hashOutputN st hashContext index) := by
  refine .ite (quiet.pure _) (quiet.bind quiet_callGetMerkleizedMap fun received =>
    .ite (quiet.pure _) (quiet.bindOption quiet_valueOfLength (quiet.pure _) fun amountRaw => ?_))
  exact quiet.bindExcept quiet_mapValue (fun _ => .ite (quiet.pure _) quiet_undefined) fun _ =>
    quiet.pure _

theorem quiet_hashOutputsLoop : NeverYields (hashOutputsLoop st remaining index hashContext) := by
  induction remaining generalizing index hashContext with
  | zero => exact quiet.pure _
  | succ remaining ih => exact quiet.bindOption quiet_hashOutputN (quiet.pure _) fun _ => ih

theorem quiet_getInputMap : NeverYields (getInputMap st index) :=
  quiet.bind quiet_callGetMerkleizedMap fun _ => .ite (quiet_refuse_bind _ _) (quiet.pure _)

theorem quiet_getSequence : NeverYields (getSequence map) :=
  quiet.bindOption quiet_valueOfLength (quiet.pure _) fun _ => quiet.pure _

theorem quiet_hashPrevoutsLoop {prevouts sequences : Bytes} :
    NeverYields (hashPrevoutsLoop st remaining index prevouts sequences) := by
  induction remaining generalizing index prevouts sequences with
  | zero => exact quiet.pure _
  | succ remaining ih =>
    exact quiet.bind quiet_getInputMap fun _ => quiet.bind quiet_requireValue fun _ =>
      quiet.bind quiet_requireValue fun _ => quiet.bind quiet_getSequence fun _ => ih

theorem quiet_hashAmountsLoop {amounts scriptPubkeys : Bytes} :
    NeverYields (hashAmountsLoop st remaining index amounts scriptPubkeys) := by
  induction remaining generalizing index amounts scriptPubkeys with
  | zero => exact quiet.pure _
  | succ remaining ih =>
    exact quiet.bind quiet_getInputMap fun map =>
      quiet.bindOption quiet_getAmountScriptpubkeyFromPsbt (quiet_refuse _) fun _ => ih

theorem quiet_computeSegwitHashes : NeverYields (computeSegwitHashes H st) :=
  quiet.bind quiet_hashPrevoutsLoop fun _ =>
    quiet.bindOption quiet_hashOutputsLoop (quiet_refuse _) fun _ =>
      quiet.bind quiet_hashAmountsLoop fun _ => quiet.pure _

theorem quiet_updateHashesWithMapValue {contexts : HashContexts} :
    NeverYields (updateHashesWithMapValue map key contexts) :=
  quiet.bind (quiet_question rfl) fun _ => quiet.pure _

theorem quiet_hashScriptCode : NeverYields (hashScriptCode H input context) := by
  rw [hashScriptCode]
  split
  · exact quiet.pure _
  · exact .ite (quiet.bind quiet_updateHashesWithMapValue fun hashed =>
      .ite (quiet_refuse_bind _ _) (.ite (quiet_refuse_bind _ _) (quiet.pure _))) (quiet_refuse _)

theorem quiet_signedOutputsHash :
    NeverYields (signedOutputsHash H st hashes sighashByte curInputIndex) := by
  refine .ite (quiet.pure _) (.ite ?_ (quiet.pure _))
  exact quiet.bindOption quiet_hashOutputN (quiet_refuse _) fun _ => quiet.pure _

theorem quiet_computeSighashSegwitv0 :
    NeverYields (computeSighashSegwitv0 H st hashes input curInputIndex) := by
  refine quiet.bind quiet_requireValue fun _ => quiet.bind quiet_requireValue fun _ =>
    quiet.bind quiet_hashScriptCode fun _ =>
      quiet.bindExcept quiet_mapValue (fun _ => quiet_refuse _) fun witnessUtxo => ?_
  exact .ite (quiet_refuse_bind _ _) (quiet.bind quiet_getSequence fun _ =>
    quiet.bind quiet_signedOutputsHash fun _ => quiet.pure _)

theorem quiet_signedInputFields : NeverYields (signedInputFields input) := by
  refine quiet.bind quiet_requireValue fun _ => quiet.bind quiet_requireValue fun _ =>
    quiet.bindExcept quiet_mapValue (fun _ => quiet_refuse _) fun witnessUtxo =>
      .ite (quiet_refuse_bind _ _) ?_
  split
  · exact quiet_undefined
  · exact quiet.bind quiet_getSequence fun _ => quiet.pure _

theorem quiet_signedOutputFields :
    NeverYields (signedOutputFields H st sighashByte curInputIndex) :=
  .ite (quiet.bindOption quiet_hashOutputN (quiet_refuse _) fun _ => quiet.pure _) (quiet.pure _)

theorem quiet_computeSighashSegwitv1 {crypto : WalletCrypto} : NeverYields
      (computeSighashSegwitv1 crypto st hashes input curInputIndex placeholderInfo) := by
  refine quiet.bind ?_ fun _ => quiet.bind quiet_signedOutputFields fun _ => quiet.pure _
  exact .ite quiet_signedInputFields (quiet.pure _)

theorem quiet_hashLegacyScriptCode : NeverYields (hashLegacyScriptCode input context) := by
  rw [hashLegacyScriptCode]
  split
  · split
    · exact quiet_undefined
    · exact quiet.pure _
  · exact quiet.bind quiet_updateHashesWithMapValue fun _ => quiet.bind (quiet_refuseIf _ _)
      fun _ => quiet.pure _

theorem quiet_hashLegacyInput : NeverYields (hashLegacyInput st input curInputIndex i context) := by
  refine quiet.bind ?_ fun _ => quiet.bind quiet_requireValue fun _ =>
    quiet.bind quiet_requireValue fun _ => quiet.bind ?_ fun _ => quiet.bind quiet_getSequence
      fun _ => quiet.pure _
  · exact .ite quiet_getInputMap (quiet.pure _)
  · exact .ite (quiet.pure _) quiet_hashLegacyScriptCode

theorem quiet_hashLegacyInputsLoop :
    NeverYields (hashLegacyInputsLoop st input curInputIndex remaining i context) := by
  induction remaining generalizing i context with
  | zero => exact quiet.pure _
  | succ remaining ih => exact quiet.bind quiet_hashLegacyInput fun _ => ih

theorem quiet_computeSighashLegacy : NeverYields (computeSighashLegacy H st input curInputIndex) :=
  quiet.bind quiet_hashLegacyInputsLoop fun _ =>
    quiet.bindOption quiet_hashOutputsLoop (quiet_refuse _) fun _ => quiet.pure _

/-! ## Signing an input -/

theorem quiet_readSighashType : NeverYields (readSighashType input) :=
  .ite (quiet.pure _)
    (quiet.bindOption quiet_valueOfLength (quiet_refuse _) fun _ => quiet.pure _)

theorem quiet_readWitnessProgram : NeverYields (readWitnessProgram device input) := by
  refine quiet.bindOption quiet_getAmountScriptpubkeyFromPsbtWitness (quiet_refuse _) fun found =>
    .ite (quiet.pure _) ?_
  exact quiet.bindExcept quiet_mapValue (fun _ => quiet_refuse _) fun _ =>
    quiet.bind (quiet_refuseIf _ _) fun _ => quiet.pure _

theorem quiet_taprootTweak : NeverYields (taprootTweak st placeholderInfo input) := by
  rw [taprootTweak]
  split
  · exact quiet.pure _
  · split
    · exact quiet.bind (quiet_question rfl) fun _ => quiet.bind (quiet_orRefuse _ _) fun _ =>
        quiet.pure _
    · exact quiet.pure _

end LedgerSyscoin.Handler
