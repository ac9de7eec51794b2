import LedgerSyscoin.Handler.SignPsbt.Client

/-!
# Signature hashes of segwit version 0

The signature hash of BIP-143 is defined over a transaction. If the client serves the
maps of a PSBT, the hash that the handler computes for an input is that of the
transaction that the PSBT describes, for each of the six types of signature hashes.
-/

namespace LedgerSyscoin.Handler

open Foundation Common Boilerplate List

variable {input : InputInfo} {scriptCode : Bytes}

/-! ## The signature hash of a transaction -/

/-- What a signature covers: all outputs, none, or the one at the index of the input. -/
inductive SighashBase where
  | all
  | none
  | single
  deriving DecidableEq

/-- The type of a signature hash. -/
structure SighashType where
  base : SighashBase
  anyoneCanPay : Bool
  deriving DecidableEq

/-- The number that stands for a type. -/
def SighashType.code (type : SighashType) : UInt32 :=
  (match type.base with
    | .all => 0x01
    | .none => 0x02
    | .single => 0x03) + if type.anyoneCanPay then 0x80 else 0x00

namespace Bip143

variable (H : HashFunction)

/-- Double hashing. -/
def hash256 (message : Bytes) : Bytes := (H (H message).val).val

def zeros : Bytes := replicate 32 0

def outpoint (input : TxInput) : Bytes := input.txid.val ++ input.vout.val

def hashPrevouts (tx : Transaction) (type : SighashType) : Bytes :=
  if type.anyoneCanPay then zeros else hash256 H (tx.inputs.flatMap outpoint)

def hashSequence (tx : Transaction) (type : SighashType) : Bytes :=
  if type = ⟨.all, false⟩ then hash256 H (tx.inputs.flatMap fun input => input.sequence.val)
  else zeros

def hashOutputs (tx : Transaction) (type : SighashType) (index : Nat) : Bytes :=
  match type.base with
  | .all => hash256 H (tx.outputs.flatMap TxOutput.serialize)
  | .none => zeros
  | .single =>
    match tx.outputs[index]? with
    | some output => hash256 H output.serialize
    | none => zeros

/-- The signature hash for the input at `index`, with its script code and its amount. -/
def sighash (tx : Transaction) (index : Fin tx.inputs.length) (scriptCode : Bytes)
    (amount : FixedBytes 8) (type : SighashType) : Digest :=
  let input := tx.inputs[index]
  H (H (tx.version.val ++ hashPrevouts H tx type ++ hashSequence H tx type ++ outpoint input ++
    varBytes scriptCode ++ amount.val ++ input.sequence.val ++ hashOutputs H tx type index ++
    tx.locktime.val ++ leBytes 4 type.code.toNat)).val

/-- The flags of the source select the same hash of the previous outputs. -/
theorem hashPrevouts_eq (tx : Transaction) (type : SighashType) :
    (if type.code &&& 0xFF &&& sighashAnyonecanpay = 0 then
        (H (H (tx.inputs.flatMap outpoint)).val).val
      else replicate 32 0) = hashPrevouts H tx type := by
  obtain ⟨base, anyoneCanPay⟩ := type
  cases anyoneCanPay with
  | false => rw [if_pos (by cases base <;> decide)]; rfl
  | true => rw [if_neg (by cases base <;> decide)]; rfl

/-- The flags of the source select the same hash of the sequence numbers. -/
theorem hashSequence_eq (tx : Transaction) (type : SighashType) :
    (if type.code &&& 0xFF &&& sighashAnyonecanpay = 0 ∧
          type.code &&& 0xFF &&& 0x1f ≠ sighashSingle ∧
          type.code &&& 0xFF &&& 0x1f ≠ sighashNone then
        (H (H (tx.inputs.flatMap fun input => input.sequence.val)).val).val
      else replicate 32 0) = hashSequence H tx type := by
  rw [hashSequence]
  by_cases isAll : type = ⟨.all, false⟩
  · rw [if_pos isAll, isAll, if_pos (by decide)]
    rfl
  · rw [if_neg isAll, if_neg]
    · rfl
    · revert isAll
      obtain ⟨base, anyoneCanPay⟩ := type
      cases base <;> cases anyoneCanPay <;> decide

/-- The script code of a witness program: the P2PKH script of a key hash, or the witness script
whose hash is the program. -/
inductive ScriptCode (witnessScript : Option Bytes) : (program scriptCode : Bytes) → Prop
  | p2wpkh (keyHash : FixedBytes 20) :
      ScriptCode witnessScript (0x00 :: 0x14 :: keyHash.val)
        ([0x76, 0xa9, 0x14] ++ keyHash.val ++ [0x88, 0xac])
  | p2wsh {script : Bytes} (present : witnessScript = some script) :
      ScriptCode witnessScript (0x00 :: 0x20 :: (H script).val) script

end Bip143

variable {answers : (question : Question) → Answer question} {content : PsbtMap}

/-! ## Script codes -/

variable {H : HashFunction}

/-- The script code of a witness program is fed to the context with its length. -/
theorem run_hashScriptCode (serves : ServesMap answers input.inOut.map content)
    (isScriptCode : Bip143.ScriptCode H (content [psbtInWitnessScript]) input.script scriptCode)
    (context : Bytes) :
    (hashScriptCode H input context).run answers = .ok (context ++ varBytes scriptCode) := by
  generalize isProgram : input.script = script at isScriptCode
  cases isScriptCode with
  | p2wpkh keyHash =>
    have isKey : isP2wpkh (0x00 :: 0x14 :: keyHash.val) := by
      simp [isP2wpkh, keyHash.property]
    have code : varBytes ([0x76, 0xa9, 0x14] ++ keyHash.val ++ [0x88, 0xac]) =
        beBytes 4 0x1976a914 ++ (keyHash.val ++ beBytes 2 0x88ac) := by
      have size : ([0x76, 0xa9, 0x14] ++ keyHash.val ++ [0x88, 0xac] : Bytes).length = 25 := by
        simp [keyHash.property]
      rw [varBytes, size, append_assoc, ← append_assoc]
      rfl
    rw [hashScriptCode, isProgram, if_pos isKey, Dialogue.run_pure, code]
    simp [keyHash.property]
  | p2wsh present =>
    have isScript : isP2wsh (0x00 :: 0x20 :: (H scriptCode).val) := by
      simp [isP2wsh, (H scriptCode).property]
    have notKey : ¬isP2wpkh (0x00 :: 0x20 :: (H scriptCode).val) := by
      simp [isP2wpkh, (H scriptCode).property]
    rw [hashScriptCode, isProgram, if_neg notKey, if_pos isScript,
      Dialogue.run_bind_of_ok (run_updateHashesWithMapValue serves present _ _)]
    have received : ¬(scriptCode.length : Int) < 0 := Int.not_lt.mpr (Int.natCast_nonneg _)
    simp [received, (H scriptCode).property]

/-! ## Inputs and outputs of the described transaction -/

section Described

variable {globalMap : MerkleizedMapCommitment} {st : SignPsbtState} {psbt : Psbt} {tx : Transaction}
  (serves : Serves answers globalMap st psbt) {index : Nat} {contents : List PsbtMap}
  {hashes : SegwitHashes}

include serves

theorem run_getInputMap (present : psbt.inputs[index]? = some content) :
    ∃ map, (getInputMap st index).run answers = .ok map ∧ ServesMap answers map content := by
  obtain ⟨map, received, servesMap⟩ := serves.inputs index content present
  refine ⟨map, ?_, servesMap⟩
  rw [getInputMap, Dialogue.run_bind_of_ok received]
  rfl

/-- The loop over the inputs hashes the outpoints and the sequence numbers that are left. -/
theorem run_hashPrevoutsLoop {inputs : List TxInput}
    (describes : List.Forall₂ DescribesInput contents inputs)
    (rest : psbt.inputs.drop index = contents) (prevouts sequences : Bytes) :
    (hashPrevoutsLoop st contents.length index prevouts sequences).run answers =
      .ok (prevouts ++ inputs.flatMap Bip143.outpoint,
        sequences ++ inputs.flatMap fun input => input.sequence.val) := by
  induction describes generalizing index prevouts sequences with
  | nil => simp [hashPrevoutsLoop]
  | @cons content input contents inputs describesInput _ ih =>
    obtain ⟨present, later⟩ := split_of_drop rest
    obtain ⟨_, received, servesMap⟩ := run_getInputMap serves present
    rw [length_cons, hashPrevoutsLoop, Dialogue.run_bind_of_ok received,
      Dialogue.run_bind_of_ok (run_requireValue servesMap describesInput.txid
        input.txid.property),
      Dialogue.run_bind_of_ok (run_requireValue servesMap describesInput.vout
        input.vout.property),
      Dialogue.run_bind_of_ok (run_getSequence servesMap describesInput), ih later]
    simp [Bip143.outpoint]

/-- An output is hashed if its script fits into the buffer. -/
theorem run_hashOutputN {output : TxOutput}
    (present : psbt.outputs[index]? = some content) (describes : DescribesOutput content output)
    (context : Bytes) : (hashOutputN st context index).run answers =
      if output.scriptPubkey.length ≤ maxOutputScriptpubkeyLen then
        .ok (some (context ++ output.serialize))
      else .error .undefined := by
  obtain ⟨_, received, servesMap⟩ := serves.outputs index content present
  have inside : ¬index ≥ st.nOutputs := by
    rw [serves.nOutputs, not_le]
    exact (List.getElem?_eq_some_iff.mp present).1
  have amount := run_valueOfLength servesMap describes.value
  rw [output.value.property] at amount
  rw [hashOutputN, if_neg inside, Dialogue.run_bind_of_ok received]
  simp only [lt_self_iff_false, if_false]
  rw [Dialogue.run_bind_of_ok amount]
  simp only
  rw [Dialogue.run_bind_of_ok (run_mapValue servesMap _ _), describes.scriptPubkey, lookupAnswer]
  split_ifs with fits
  · simp [TxOutput.serialize, varBytes]
  · rfl

/-- The scripts of all outputs fit into the buffer. -/
def ScriptsFit (outputs : List TxOutput) : Prop :=
  ∀ output ∈ outputs, output.scriptPubkey.length ≤ maxOutputScriptpubkeyLen

omit serves in
instance (outputs : List TxOutput) : Decidable (ScriptsFit outputs) :=
  inferInstanceAs (Decidable (∀ output ∈ outputs, _ ≤ _))

/-- The output at an index, if there is one, is hashed. -/
theorem run_hashOutputN_of_fits (describes : Describes psbt tx) (fits : ScriptsFit tx.outputs)
    (context : Bytes) (index : Nat) : (hashOutputN st context index).run answers =
      .ok (tx.outputs[index]?.map fun output => context ++ output.serialize) := by
  cases isOutput : tx.outputs[index]? with
  | none =>
    have outside := getElem?_eq_none_iff.mp isOutput
    rw [← describes.outputs.length_eq, ← serves.nOutputs] at outside
    rw [hashOutputN, if_pos outside]
    rfl
  | some output =>
    obtain ⟨_, present, describesOutput⟩ := exists_of_forall₂ describes.outputs isOutput
    rw [run_hashOutputN serves present describesOutput,
      if_pos (fits output (mem_of_getElem? isOutput))]
    rfl

/-- The loop over the outputs hashes those that are left if their scripts fit. -/
theorem run_hashOutputsLoop {outputs : List TxOutput}
    (describes : List.Forall₂ DescribesOutput contents outputs)
    (rest : psbt.outputs.drop index = contents) (context : Bytes) :
    (hashOutputsLoop st contents.length index context).run answers =
      if ScriptsFit outputs then .ok (some (context ++ outputs.flatMap TxOutput.serialize))
      else .error .undefined := by
  induction describes generalizing index context with
  | nil => simp [hashOutputsLoop, ScriptsFit]
  | @cons content output contents outputs describesOutput _ ih =>
    obtain ⟨present, later⟩ := split_of_drop rest
    have first := run_hashOutputN serves present describesOutput context
    rw [length_cons, hashOutputsLoop]
    have split : ScriptsFit (output :: outputs) ↔
        output.scriptPubkey.length ≤ maxOutputScriptpubkeyLen ∧ ScriptsFit outputs :=
      forall_mem_cons
    by_cases fits : output.scriptPubkey.length ≤ maxOutputScriptpubkeyLen
    · rw [if_pos fits] at first
      rw [Dialogue.run_bind_of_ok first]
      simp only [ih later, split, fits, true_and, flatMap_cons, append_assoc]
    · rw [if_neg fits] at first
      rw [Dialogue.run_bind_of_error first, if_neg fun all => fits (split.mp all).1]

/-- The hashes over the whole transaction, as far as version 0 needs them. -/
theorem run_computeSegwitHashes (H : HashFunction) (describes : Describes psbt tx) :
    (computeSegwitHashes H st).run answers =
      if ScriptsFit tx.outputs then
        match (hashAmountsLoop st st.nInputs 0 [] []).run answers with
        | .ok (amounts, scriptPubkeys) =>
          .ok {
            shaPrevouts := H (tx.inputs.flatMap Bip143.outpoint)
            shaAmounts := H amounts
            shaScriptpubkeys := H scriptPubkeys
            shaSequences := H (tx.inputs.flatMap fun input => input.sequence.val)
            shaOutputs := H (tx.outputs.flatMap TxOutput.serialize) }
        | .error stop => .error stop
      else .error .undefined := by
  have prevouts := run_hashPrevoutsLoop serves describes.inputs (drop_zero) [] []
  have outputs := run_hashOutputsLoop serves describes.outputs (drop_zero) []
  rw [← serves.nInputs] at prevouts
  rw [← serves.nOutputs] at outputs
  rw [computeSegwitHashes, Dialogue.run_bind_of_ok prevouts]
  simp only [hashOutputs]
  by_cases fits : ScriptsFit tx.outputs
  · rw [if_pos fits] at outputs
    rw [Dialogue.run_bind_of_ok outputs, if_pos fits]
    simp only [Dialogue.run_bind]
    cases (hashAmountsLoop st st.nInputs 0 [] []).run answers <;> simp
  · rw [if_neg fits] at outputs
    rw [Dialogue.run_bind_of_error outputs, if_neg fits]

/-- The hash of the outputs that a signature of the given type covers. -/
theorem run_signedOutputsHash (describes : Describes psbt tx) (fits : ScriptsFit tx.outputs)
    (shaOutputs : hashes.shaOutputs = H (tx.outputs.flatMap TxOutput.serialize))
    (type : SighashType) (index : Nat) :
    (signedOutputsHash H st hashes (type.code &&& 0xFF) index).run answers =
      .ok (Bip143.hashOutputs H tx type index) := by
  obtain ⟨base, anyoneCanPay⟩ := type
  cases base with
  | all =>
    rw [signedOutputsHash, if_pos (by cases anyoneCanPay <;> decide), shaOutputs]
    rfl
  | none =>
    rw [signedOutputsHash, if_neg (by cases anyoneCanPay <;> decide),
      if_neg (fun single => absurd single.1 (by cases anyoneCanPay <;> decide))]
    rfl
  | single =>
    have isSingle : (SighashType.mk .single anyoneCanPay).code &&& 0xFF &&& 0x1f =
        sighashSingle := by cases anyoneCanPay <;> decide
    rw [signedOutputsHash, if_neg (fun other => other.1 isSingle), Bip143.hashOutputs]
    have nOutputs := serves.nOutputs.trans describes.outputs.length_eq
    have hashed := run_hashOutputN_of_fits serves describes fits [] index
    cases isOutput : tx.outputs[index]? with
    | some output =>
      rw [isOutput] at hashed
      rw [if_pos ⟨isSingle, nOutputs ▸ (List.getElem?_eq_some_iff.mp isOutput).1⟩,
        Dialogue.run_bind_of_ok hashed]
      rfl
    | none =>
      rw [if_neg fun single => absurd isOutput (by simp [← nOutputs, single.2])]
      rfl

/-- An input to be signed: its map is served, its script is a witness program with a script code,
and the witness UTXO starts with the amount. -/
structure SegwitInput (answers : (question : Question) → Answer question) (H : HashFunction)
    (content : PsbtMap) (input : InputInfo) (scriptCode : Bytes) (amount : FixedBytes 8) :
    Prop where
  map : ServesMap answers input.inOut.map content
  scriptCode : Bip143.ScriptCode H (content [psbtInWitnessScript]) input.script scriptCode
  witnessUtxo : ∃ scriptPubkey, content [psbtInWitnessUtxo] = some (amount.val ++ scriptPubkey) ∧
    (amount.val ++ scriptPubkey).length ≤ 8 + 1 + maxPrevoutScriptpubkeyLen

/-- The hash that is signed, from the hashes over the whole transaction. -/
theorem run_computeSighashSegwitv0 (describes : Describes psbt tx)
    (fits : ScriptsFit tx.outputs) (version : leBytes 4 st.txVersion.toNat = tx.version.val)
    (locktime : leBytes 4 st.locktime.toNat = tx.locktime.val)
    (shaPrevouts : hashes.shaPrevouts = H (tx.inputs.flatMap Bip143.outpoint))
    (shaSequences : hashes.shaSequences =
      H (tx.inputs.flatMap fun input => input.sequence.val))
    (shaOutputs : hashes.shaOutputs = H (tx.outputs.flatMap TxOutput.serialize))
    {index : Fin tx.inputs.length} {amount : FixedBytes 8} {type : SighashType}
    (present : psbt.inputs[index.val]? = some content)
    (segwitInput : SegwitInput answers H content input scriptCode amount)
    (isType : input.sighashType = type.code) :
    (computeSighashSegwitv0 H st hashes input index).run answers =
      .ok (Bip143.sighash H tx index scriptCode amount type) := by
  have describesInput := describes.inputAt present
  obtain ⟨scriptPubkey, witnessUtxo, short⟩ := segwitInput.witnessUtxo
  have utxo := run_mapValue segwitInput.map psbtInWitnessUtxo (8 + 1 + maxPrevoutScriptpubkeyLen)
  rw [witnessUtxo, lookupAnswer, if_pos short] at utxo
  have long : ¬(amount.val ++ scriptPubkey).length < 8 := by
    rw [length_append, amount.property]
    omega
  rw [computeSighashSegwitv0]
  dsimp only
  rw [Dialogue.run_bind_of_ok (run_requireValue segwitInput.map describesInput.txid
      tx.inputs[index].txid.property),
    Dialogue.run_bind_of_ok (run_requireValue segwitInput.map describesInput.vout
      tx.inputs[index].vout.property),
    Dialogue.run_bind_of_ok (run_hashScriptCode segwitInput.map segwitInput.scriptCode _),
    Dialogue.run_bind_of_ok utxo]
  dsimp only
  rw [if_neg long, Dialogue.run_bind_of_ok (run_getSequence segwitInput.map describesInput),
    isType, Dialogue.run_bind_of_ok (run_signedOutputsHash serves describes fits shaOutputs type
      index), Dialogue.run_pure, version, locktime, shaPrevouts, shaSequences,
    take_left' amount.property, Bip143.hashPrevouts_eq, Bip143.hashSequence_eq]
  simp only [Bip143.sighash, Bip143.outpoint, append_assoc]

/-- The version and the lock time of the described transaction. -/
theorem run_processGlobalMap (describes : Describes psbt tx) :
    (processGlobalMap globalMap).run answers =
      .ok (UInt32.ofNat (leNat tx.version.val), UInt32.ofNat (leNat tx.locktime.val)) := by
  have version := run_mapValue serves.globals psbtGlobalTxVersion 9
  rw [describes.version, lookupAnswer, if_pos (by rw [tx.version.property]; decide)] at version
  have locktime := run_mapValue serves.globals psbtGlobalFallbackLocktime 9
  have described := describes.locktime
  rw [processGlobalMap, Dialogue.run_bind_of_ok serves.sorted]
  simp only [lt_self_iff_false, if_false]
  rw [Dialogue.run_bind_of_ok version]
  simp only [tx.version.property, ne_eq, not_true_eq_false, if_false]
  rw [Dialogue.run_bind_of_ok locktime]
  cases present : psbt.globals [psbtGlobalFallbackLocktime] with
  | none =>
    rw [present, Option.getD_none] at described
    rw [← described]
    rfl
  | some value =>
    rw [present, Option.getD_some] at described
    subst described
    rw [lookupAnswer, if_pos (by rw [tx.locktime.property]; decide)]
    simp [tx.locktime.property]

end Described

/-- The amount and the script of the previous output of every input can be read. -/
def PrevoutsKnown (answers : (question : Question) → Answer question) (st : SignPsbtState) : Prop :=
  ∀ index < st.nInputs, ∃ map found, (getInputMap st index).run answers = .ok map ∧
    (getAmountScriptpubkeyFromPsbt map).run answers = .ok (some found)

theorem exists_run_hashAmountsLoop {st : SignPsbtState} (known : PrevoutsKnown answers st)
    (remaining index : Nat) (inside : index + remaining ≤ st.nInputs)
    (amounts scriptPubkeys : Bytes) :
    ∃ hashed, (hashAmountsLoop st remaining index amounts scriptPubkeys).run answers =
      .ok hashed := by
  induction remaining generalizing index amounts scriptPubkeys with
  | zero => exact ⟨_, rfl⟩
  | succ remaining ih =>
    obtain ⟨_, _, received, read⟩ := known index (by omega)
    rw [hashAmountsLoop, Dialogue.run_bind_of_ok received, Dialogue.run_bind_of_ok read]
    exact ih (index + 1) (by omega) _ _

/-! ## The hash that is signed -/

/-- The parts of the handler that lead to the hash that is signed for an input: the version and the
lock time, the hashes over the whole transaction and the hash for the input. -/
def segwitv0Sighash (H : HashFunction) (globalMap : MerkleizedMapCommitment) (st : SignPsbtState)
    (input : InputInfo) (curInputIndex : Nat) : Program Digest := do
  let (txVersion, locktime) ← processGlobalMap globalMap
  let st := { st with txVersion, locktime }
  let hashes ← computeSegwitHashes H st
  computeSighashSegwitv0 H st hashes input curInputIndex

/-- For every PSBT whose fields are well formed and whose maps are served, every input with a
witness program of version 0 and every type of signature hash, the hash that is computed is that
of BIP-143 for the described transaction. It is computed if the scripts of the outputs fit and
the previous outputs of all inputs are known. -/
theorem segwitv0Sighash_eq_bip143 (H : HashFunction) {globalMap : MerkleizedMapCommitment}
    {st : SignPsbtState} {psbt : Psbt} {tx : Transaction}
    (serves : Serves answers globalMap st psbt) (describes : Describes psbt tx)
    (index : Fin tx.inputs.length) (type : SighashType) {input : InputInfo} {content : PsbtMap}
    {scriptCode : Bytes} {amount : FixedBytes 8}
    (present : psbt.inputs[index.val]? = some content)
    (segwitInput : SegwitInput answers H content input scriptCode amount)
    (isType : input.sighashType = type.code) :
    (∀ digest, (segwitv0Sighash H globalMap st input index).run answers = .ok digest →
      digest = Bip143.sighash H tx index scriptCode amount type) ∧
    (ScriptsFit tx.outputs → PrevoutsKnown answers st →
      (segwitv0Sighash H globalMap st input index).run answers =
        .ok (Bip143.sighash H tx index scriptCode amount type)) := by
  let signing : SignPsbtState := { st with
    txVersion := UInt32.ofNat (leNat tx.version.val)
    locktime := UInt32.ofNat (leNat tx.locktime.val) }
  have servesSigning : Serves answers globalMap signing psbt :=
    ⟨serves.globals, serves.sorted, serves.nInputs, serves.nOutputs, serves.inputs, serves.outputs⟩
  have start : (segwitv0Sighash H globalMap st input index).run answers =
      (computeSegwitHashes H signing >>= fun hashes =>
        computeSighashSegwitv0 H signing hashes input index).run answers := by
    rw [segwitv0Sighash, Dialogue.run_bind_of_ok (run_processGlobalMap serves describes)]
  have hashes := run_computeSegwitHashes servesSigning H describes
  by_cases fits : ScriptsFit tx.outputs
  case neg =>
    rw [if_neg fits] at hashes
    rw [start, Dialogue.run_bind_of_error hashes]
    exact ⟨nofun, fun all => absurd all fits⟩
  rw [if_pos fits] at hashes
  cases hashed : (hashAmountsLoop signing signing.nInputs 0 [] []).run answers with
  | error stop =>
    rw [hashed] at hashes
    rw [start, Dialogue.run_bind_of_error hashes]
    refine ⟨nofun, fun _ known => ?_⟩
    obtain ⟨_, returns⟩ := @exists_run_hashAmountsLoop answers signing known signing.nInputs 0
      (Nat.zero_add _).le [] []
    cases hashed.symm.trans returns
  | ok result =>
    rw [hashed] at hashes
    rw [start, Dialogue.run_bind_of_ok hashes, run_computeSighashSegwitv0 servesSigning describes
      fits (leBytes_ofNat_leNat tx.version) (leBytes_ofNat_leNat tx.locktime) rfl rfl rfl present
      segwitInput isType]
    exact ⟨fun digest isDigest => (Except.ok.inj isDigest).symm, fun _ _ => rfl⟩

/-! ## A PSBT with one input -/

/-- The P2WPKH input of the sample client. -/
def sampleInputInfo : InputInfo :=
  { InputInfo.zero with
    inOut := { InOutInfo.zero with map := highFeeStore.commitment (ClientStore.inputRoot 0) }
    script := sampleScript
    sighashType := 0x01 }

/-- A signature for the P2WPKH input that covers everything. -/
theorem segwitv0Sighash_eq_bip143_sample :
    (segwitv0Sighash sampleCrypto.sha256 (highFeeStore.commitment ClientStore.globalRoot)
        highFeeStore.sampleState sampleInputInfo 0).run highFeeStore.sampleAnswers =
      .ok (Bip143.sighash sampleCrypto.sha256 sampleTx ⟨0, Nat.one_pos⟩
        ([0x76, 0xa9, 0x14] ++ replicate 20 7 ++ [0x88, 0xac]) ⟨leBytes 8 100000, rfl⟩
        ⟨.all, false⟩) := by
  have serves : Serves highFeeStore.sampleAnswers
      (highFeeStore.commitment ClientStore.globalRoot) highFeeStore.sampleState
      highFeeStore.psbt :=
    ClientStore.serves (by decide) (by decide) (by decide) (by decide) (by decide)
  have segwitInput : SegwitInput highFeeStore.sampleAnswers sampleCrypto.sha256
      (fun key => (highFeeStore.inputs.getD 0 []).lookup key) sampleInputInfo
      ([0x76, 0xa9, 0x14] ++ replicate 20 7 ++ [0x88, 0xac]) ⟨leBytes 8 100000, rfl⟩ := by
    refine ⟨ClientStore.servesMap (by decide) (by decide), .p2wpkh ⟨replicate 20 7, rfl⟩,
      22 :: sampleScript, ?_, ?_⟩ <;> decide
  have known : PrevoutsKnown highFeeStore.sampleAnswers highFeeStore.sampleState := by
    intro index inside
    obtain rfl : index = 0 := Nat.lt_one_iff.mp inside
    exact ⟨highFeeStore.commitment (ClientStore.inputRoot 0), (100000, sampleScript), by decide,
      by decide⟩
  exact (segwitv0Sighash_eq_bip143 sampleCrypto.sha256 serves highFeeStore_describes
    ⟨0, Nat.one_pos⟩ ⟨.all, false⟩ rfl segwitInput rfl).2 (by decide) known

end LedgerSyscoin.Handler
