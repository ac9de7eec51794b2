import LedgerSyscoin.Handler.Lib.PsbtParseRawtx.Correctness
import LedgerSyscoin.Handler.SignPsbt.Bip143

/-!
# Signature hashes of segwit version 1

The signature hash of BIP-341 commits to the outputs that are spent by all inputs; for a
script of the tree, BIP-342 extends the message by the leaf. If the client serves a
PSBT, the hash that the handler computes for a taproot input is that of the described
transaction and the described previous outputs.
-/

namespace LedgerSyscoin.Handler

open Foundation Common Boilerplate List

variable {prevout : TxOutput}

/-! ## The signature hash of a taproot input -/

namespace Bip341

/-- The type of a signature hash: the default one, or an explicit one. -/
inductive HashType where
  | default
  | explicit (type : SighashType)
  deriving DecidableEq

namespace HashType

/-- The byte that stands for a type. -/
def code : HashType → UInt32
  | .default => 0x00
  | .explicit type => type.code

def anyoneCanPay : HashType → Bool
  | .default => false
  | .explicit type => type.anyoneCanPay

/-- The default type covers the outputs as the type for all of them does. -/
def base : HashType → SighashBase
  | .default => .all
  | .explicit type => type.base

end HashType

/-- How an output is spent: with the key, or with a leaf of the tree. -/
inductive SpendPath where
  | key
  | leaf (tapleafHash : Digest)

def SpendPath.extFlag : SpendPath → Nat
  | .key => 0
  | .leaf _ => 1

/-- The extension for a leaf: its hash, the version of the key, and no position of a code
separator. -/
def SpendPath.extension : SpendPath → Bytes
  | .key => []
  | .leaf tapleafHash => tapleafHash.val ++ [0x00] ++ [0xFF, 0xFF, 0xFF, 0xFF]

variable (H : HashFunction)

/-- The commitments to all inputs and the outputs that they spend. -/
def inputCommitments (tx : Transaction) (spent : List TxOutput) : Bytes :=
  (H (tx.inputs.flatMap Bip143.outpoint)).val ++
    (H (spent.flatMap fun output => output.value.val)).val ++
    (H (spent.flatMap fun output => varBytes output.scriptPubkey)).val ++
    (H (tx.inputs.flatMap fun input => input.sequence.val)).val

/-- The commitment to the output at an index; there is none without such an output. -/
def singleOutput (tx : Transaction) (type : HashType) (index : Nat) : Option Bytes :=
  match type.base with
  | .single => tx.outputs[index]?.map fun output => (H output.serialize).val
  | _ => some []

/-- The message for the input at `index`, without an annex; `spent` are the outputs that the inputs
spend. -/
def sigMsg (tx : Transaction) (spent : List TxOutput) (index : Fin tx.inputs.length)
    (type : HashType) (path : SpendPath) : Option Bytes := do
  let input := tx.inputs[index]
  let annexPresent := 0
  let prevout ← spent[index.val]?
  let single ← singleOutput H tx type index
  return [UInt8.ofNat type.code.toNat] ++ tx.version.val ++ tx.locktime.val ++
    (if type.anyoneCanPay then [] else inputCommitments H tx spent) ++
    (match type.base with
      | .all => (H (tx.outputs.flatMap TxOutput.serialize)).val
      | _ => []) ++
    [UInt8.ofNat (2 * path.extFlag + annexPresent)] ++
    (if type.anyoneCanPay then Bip143.outpoint input ++ prevout.serialize ++ input.sequence.val
      else leBytes 4 index) ++
    single

/-- A hash with a tag. -/
def taggedHash (tag : String) (message : Bytes) : Digest :=
  let tagHash := (H (tag.toList.map ascii)).val
  H (tagHash ++ tagHash ++ message)

/-- The signature hash for the input at `index`. -/
def sighash (tx : Transaction) (spent : List TxOutput) (index : Fin tx.inputs.length)
    (type : HashType) (path : SpendPath) : Option Digest := do
  let message ← sigMsg H tx spent index type path
  return taggedHash H "TapSighash" ([0x00] ++ message ++ path.extension)

/-- The flags of the source tell the types apart. -/
theorem anyonecanpay_iff (type : HashType) :
    type.code &&& 0xFF &&& 0x80 = sighashAnyonecanpay ↔ type.anyoneCanPay := by
  rcases type with _ | ⟨_ | _ | _, _ | _⟩ <;> decide

theorem single_iff (type : HashType) :
    type.code &&& 0xFF &&& 3 = sighashSingle ↔ type.base = .single := by
  rcases type with _ | ⟨_ | _ | _, _ | _⟩ <;> decide

theorem all_iff (type : HashType) :
    type.code &&& 0xFF &&& 3 ≠ sighashNone ∧ type.code &&& 0xFF &&& 3 ≠ sighashSingle ↔
      type.base = .all := by
  rcases type with _ | ⟨_ | _ | _, _ | _⟩ <;> decide

theorem code_and (type : HashType) : type.code &&& 0xFF = type.code := by
  rcases type with _ | ⟨_ | _ | _, _ | _⟩ <;> decide

end Bip341

/-! ## Previous outputs -/

/-- The output that an input spends: the witness UTXO and the output of the previous transaction,
of which at least one is there. -/
structure DescribesPrevout (map : PsbtMap) (input : TxInput) (output : TxOutput) : Prop where
  known : (map [psbtInWitnessUtxo]).isSome ∨ (map [psbtInNonWitnessUtxo]).isSome
  witness : ∀ value ∈ map [psbtInWitnessUtxo], value = output.serialize
  nonWitness : ∀ value ∈ map [psbtInNonWitnessUtxo], ∃ previous : Transaction,
    value = previous.serialize ∧ previous.outputs[leNat input.vout.val]? = some output

/-- A previous transaction is parsed: the output that is asked for is described; a script that is
too long is seen from its length. -/
def ServesRawtx (answers : (question : Question) → Answer question) (H : HashFunction)
    (map : MerkleizedMapCommitment) (content : PsbtMap) : Prop :=
  ∀ vout, match content [psbtInNonWitnessUtxo] with
    | none => (answers (.parseRawtx map [psbtInNonWitnessUtxo] vout)).1 < 0
    | some value => ∀ (previous : Transaction) (output : TxOutput), value = previous.serialize →
        previous.outputs[vout.toNat]? = some output →
          let parsed := answers (.parseRawtx map [psbtInNonWitnessUtxo] vout)
          if output.scriptPubkey.length ≤ maxPrevoutScriptpubkeyLen then
            0 ≤ parsed.1 ∧ parsed.2.Describes H previous output
          else parsed.1 < 0 ∨ parsed.2.voutScriptpubkeyLen.toNat > maxPrevoutScriptpubkeyLen

/-- The scripts of all outputs that are spent fit into their buffer. -/
def PrevoutsFit (spent : List TxOutput) : Prop :=
  ∀ output ∈ spent, output.scriptPubkey.length ≤ maxPrevoutScriptpubkeyLen

instance (spent : List TxOutput) : Decidable (PrevoutsFit spent) :=
  inferInstanceAs (Decidable (∀ output ∈ spent, _ ≤ _))

variable {answers : (question : Question) → Answer question}

/-- The amount of an output is written as it was read. -/
theorem leBytes_leNat_value (output : TxOutput) :
    leBytes 8 (leNat output.value.val) = output.value.val := by
  have written := leBytes_leNat output.value.val
  rwa [output.value.property] at written

theorem length_serialize_output (output : TxOutput) :
    output.serialize.length =
      8 + (varintWrite output.scriptPubkey.length).length + output.scriptPubkey.length := by
  rw [TxOutput.serialize, varBytes, length_append, length_append, output.value.property]
  omega

/-- A short script is preceded by one byte. -/
theorem serialize_output_of_short {output : TxOutput}
    (short : output.scriptPubkey.length ≤ maxPrevoutScriptpubkeyLen) :
    output.serialize =
      output.value.val ++ UInt8.ofNat output.scriptPubkey.length :: output.scriptPubkey := by
  have small : output.scriptPubkey.length ≤ 0xFC := le_trans short (by decide)
  have oneByte : varintWrite output.scriptPubkey.length =
      [UInt8.ofNat output.scriptPubkey.length] := by
    simp [varintWrite, varintSize, small]
  rw [TxOutput.serialize, varBytes, oneByte]
  rfl

section Prevout

variable {H : HashFunction} {map : MerkleizedMapCommitment} {content : PsbtMap} {input : TxInput}
  {output : TxOutput} (serves : ServesMap answers map content)

include serves

theorem run_getAmountScriptpubkeyFromPsbtWitness_absent
    (absent : content [psbtInWitnessUtxo] = none) :
    (getAmountScriptpubkeyFromPsbtWitness map).run answers = .ok none := by
  rw [getAmountScriptpubkeyFromPsbtWitness, Dialogue.run_bind_of_ok (run_mapValue serves _ _),
    absent]
  rfl

/-- The witness UTXO is read if its script fits. -/
theorem run_getAmountScriptpubkeyFromPsbtWitness
    (present : content [psbtInWitnessUtxo] = some output.serialize) :
    (getAmountScriptpubkeyFromPsbtWitness map).run answers =
      .ok (if output.scriptPubkey.length ≤ maxPrevoutScriptpubkeyLen then
        some (leNat output.value.val, output.scriptPubkey) else none) := by
  rw [getAmountScriptpubkeyFromPsbtWitness, Dialogue.run_bind_of_ok (run_mapValue serves _ _),
    present, lookupAnswer]
  have length := length_serialize_output output
  have positive := length_varintWrite_pos output.scriptPubkey.length
  by_cases short : output.scriptPubkey.length ≤ maxPrevoutScriptpubkeyLen
  · have size := output.value.property
    have smallByte : output.scriptPubkey.length < 256 := lt_of_le_of_lt short (by decide)
    have fits : (output.value.val ++ UInt8.ofNat output.scriptPubkey.length ::
        output.scriptPubkey).length = 8 + 1 + output.scriptPubkey.length := by
      rw [length_append, length_cons, size]
      omega
    have lengthByte : (output.value.val ++ UInt8.ofNat output.scriptPubkey.length ::
        output.scriptPubkey)[8]? = some (UInt8.ofNat output.scriptPubkey.length) := by
      rw [getElem?_append_right (by omega), size]
      rfl
    have script : (output.value.val ++ UInt8.ofNat output.scriptPubkey.length ::
        output.scriptPubkey).drop 9 = output.scriptPubkey := by
      rw [drop_append, size, drop_eq_nil_of_le (by omega)]
      rfl
    rw [serialize_output_of_short short, if_pos (by rw [fits]; omega), if_pos short]
    simp only [lengthByte]
    rw [if_neg (by rw [fits, UInt8.toNat_ofNat', Nat.mod_eq_of_lt smallByte]; simp),
      take_left' size, script]
    rfl
  · rw [if_neg (by omega), if_neg short]
    rfl

omit serves in
theorem toNat_vout (input : TxInput) :
    (UInt32.ofNat (leNat input.vout.val)).toNat = leNat input.vout.val := by
  have small := leNat_lt input.vout.val
  rw [input.vout.property] at small
  rw [UInt32.toNat_ofNat', Nat.mod_eq_of_lt (small.trans_eq (by norm_num))]

/-- The output of the previous transaction is asked for. -/
theorem run_getAmountScriptpubkeyFromPsbtNonwitness
    (describesInput : DescribesInput content input) :
    (getAmountScriptpubkeyFromPsbtNonwitness map none).run answers =
      let parsed := answers (.parseRawtx map [psbtInNonWitnessUtxo]
        (UInt32.ofNat (leNat input.vout.val)))
      if parsed.1 < 0 then .ok none
      else if parsed.2.voutScriptpubkeyLen.toNat > maxPrevoutScriptpubkeyLen then .error .undefined
      else .ok (some (parsed.2.voutValue,
        parsed.2.voutScriptpubkey.take parsed.2.voutScriptpubkeyLen.toNat)) := by
  have vout := run_valueOfLength serves describesInput.vout
  rw [input.vout.property] at vout
  rw [getAmountScriptpubkeyFromPsbtNonwitness, Dialogue.run_bind_of_ok vout]
  dsimp only
  rw [Dialogue.run_question_bind]
  generalize answers _ = parsed
  obtain ⟨_, _⟩ := parsed
  simp only [Option.any_none, Bool.false_eq_true, if_false]
  split_ifs <;> rfl

variable (servesRawtx : ServesRawtx answers H map content)
  (describesInput : DescribesInput content input)
  (describes : DescribesPrevout content input output)

include servesRawtx describesInput describes

/-- The amount and the script of an output that is spent are read if and only if the script
fits. -/
theorem run_getAmountScriptpubkeyFromPsbt_eq_iff (found : Nat × Bytes) :
    (getAmountScriptpubkeyFromPsbt map).run answers = .ok (some found) ↔
      output.scriptPubkey.length ≤ maxPrevoutScriptpubkeyLen ∧
        found = (leNat output.value.val, output.scriptPubkey) := by
  have nonwitness (known : ¬output.scriptPubkey.length ≤ maxPrevoutScriptpubkeyLen ∨
      (content [psbtInNonWitnessUtxo]).isSome) :
      (getAmountScriptpubkeyFromPsbtNonwitness map none).run answers = .ok (some found) ↔
        output.scriptPubkey.length ≤ maxPrevoutScriptpubkeyLen ∧
          found = (leNat output.value.val, output.scriptPubkey) := by
    rw [run_getAmountScriptpubkeyFromPsbtNonwitness serves describesInput]
    have served := servesRawtx (UInt32.ofNat (leNat input.vout.val))
    cases present : content [psbtInNonWitnessUtxo] with
    | none =>
      rw [present] at served known
      dsimp only at served ⊢
      rw [if_pos served]
      simp [known.resolve_right (by simp)]
    | some value =>
      rw [present] at served
      obtain ⟨previous, rfl, spent⟩ := describes.nonWitness value present
      have parsed := served previous output rfl (by rw [toNat_vout]; exact spent)
      dsimp only at parsed ⊢
      split_ifs at parsed with short
      · rw [if_neg (by omega), if_neg (by rw [parsed.2.scriptLen]; omega), parsed.2.value,
          parsed.2.scriptLen, parsed.2.script]
        simp [short, eq_comm]
      · split_ifs with failed tooLong
        · simp [short]
        · simp [short]
        · exact absurd parsed (by omega)
  rw [getAmountScriptpubkeyFromPsbt]
  cases present : content [psbtInWitnessUtxo] with
  | none =>
    rw [Dialogue.run_bind_of_ok (run_getAmountScriptpubkeyFromPsbtWitness_absent serves present)]
    exact nonwitness (.inr (describes.known.resolve_left (by simp [present])))
  | some value =>
    obtain rfl := describes.witness value present
    rw [Dialogue.run_bind_of_ok (run_getAmountScriptpubkeyFromPsbtWitness serves present)]
    split_ifs with short
    · simp [short, eq_comm]
    · exact nonwitness (.inl short)

end Prevout

/-! ## Hashes over the whole transaction -/

/-- The outputs that the inputs spend are described. -/
structure DescribesSpent (psbt : Psbt) (tx : Transaction) (spent : List TxOutput) : Prop where
  length : spent.length = tx.inputs.length
  prevout : ∀ (index : Nat) content input output, psbt.inputs[index]? = some content →
    tx.inputs[index]? = some input → spent[index]? = some output →
      DescribesPrevout content input output

/-- The previous transactions of all inputs are parsed. -/
def ServesPrevouts (answers : (question : Question) → Answer question) (H : HashFunction)
    (st : SignPsbtState) (psbt : Psbt) : Prop :=
  ∀ (index : Nat) content map, psbt.inputs[index]? = some content →
    (getInputMap st index).run answers = .ok map → ServesRawtx answers H map content

section Described

variable {H : HashFunction} {globalMap : MerkleizedMapCommitment} {st : SignPsbtState} {psbt : Psbt}
  {tx : Transaction} {spent : List TxOutput} (serves : Serves answers globalMap st psbt)
  (describes : Describes psbt tx)

include serves describes

section Amounts

variable (servesPrevouts : ServesPrevouts answers H st psbt)
  (describesSpent : DescribesSpent psbt tx spent) {index : Nat} {remaining : List TxOutput}

include servesPrevouts describesSpent

/-- The map of an input, and the output that it spends. -/
theorem exists_prevoutMap {output : TxOutput} (isSpent : spent[index]? = some output) :
    ∃ map, (getInputMap st index).run answers = .ok map ∧
      ∀ found, (getAmountScriptpubkeyFromPsbt map).run answers = .ok (some found) ↔
        output.scriptPubkey.length ≤ maxPrevoutScriptpubkeyLen ∧
          found = (leNat output.value.val, output.scriptPubkey) := by
  have inside := (List.getElem?_eq_some_iff.mp isSpent).1
  rw [describesSpent.length] at inside
  have isInput := getElem?_eq_getElem inside
  obtain ⟨_, present, describesInput⟩ := exists_of_forall₂ describes.inputs isInput
  obtain ⟨map, received, servesMap⟩ := run_getInputMap serves present
  exact ⟨map, received, run_getAmountScriptpubkeyFromPsbt_eq_iff servesMap
    (servesPrevouts index _ map present received) describesInput
    (describesSpent.prevout index _ _ output present isInput isSpent)⟩

/-- The loop over the inputs hashes the amounts and the scripts that are left, if and only if they
fit. -/
theorem run_hashAmountsLoop_eq_iff (rest : spent.drop index = remaining)
    (amounts scriptPubkeys : Bytes) (hashed : Bytes × Bytes) :
    (hashAmountsLoop st remaining.length index amounts scriptPubkeys).run answers = .ok hashed ↔
      PrevoutsFit remaining ∧ hashed =
        (amounts ++ remaining.flatMap fun output => output.value.val,
          scriptPubkeys ++ remaining.flatMap fun output => varBytes output.scriptPubkey) := by
  induction remaining generalizing index amounts scriptPubkeys with
  | nil => simp [hashAmountsLoop, PrevoutsFit, eq_comm]
  | cons output remaining ih =>
    obtain ⟨isSpent, later⟩ := split_of_drop rest
    obtain ⟨map, received, read⟩ :=
      exists_prevoutMap serves describes servesPrevouts describesSpent isSpent
    rw [length_cons, hashAmountsLoop, Dialogue.run_bind_of_ok received]
    have split : PrevoutsFit (output :: remaining) ↔
        output.scriptPubkey.length ≤ maxPrevoutScriptpubkeyLen ∧ PrevoutsFit remaining :=
      forall_mem_cons
    by_cases short : output.scriptPubkey.length ≤ maxPrevoutScriptpubkeyLen
    · rw [Dialogue.run_bind_of_ok ((read _).mpr ⟨short, rfl⟩)]
      dsimp only
      rw [ih later, leBytes_leNat_value, split]
      simp [short, varBytes]
    · rw [Dialogue.run_bind]
      cases result : (getAmountScriptpubkeyFromPsbt map).run answers with
      | error stop => simp [split, short]
      | ok found =>
        cases found with
        | none => simp [split, short, Program.refuse, Program.giveUp]
        | some found => exact absurd ((read found).mp result).1 short

end Amounts

/-- The commitment to the output at the index of the input, if the type asks for it. -/
theorem run_signedOutputFields (fits : ScriptsFit tx.outputs) (type : Bip341.HashType)
    (index : Nat) :
    (signedOutputFields H st (type.code &&& 0xFF) index).run answers =
      match Bip341.singleOutput H tx type index with
      | some single => .ok single
      | none => .error .refused := by
  rw [signedOutputFields, Bip341.singleOutput]
  cases base : type.base with
  | all | none => rw [if_neg (by rw [Bip341.single_iff, base]; decide)]; rfl
  | single =>
    rw [if_pos ((Bip341.single_iff type).mpr base)]
    rw [Dialogue.run_bind_of_ok (run_hashOutputN_of_fits serves describes fits [] index)]
    cases tx.outputs[index]? <;> rfl

end Described

/-- A taproot input to be signed: its map is served, and its script is that of the witness UTXO. -/
structure TaprootInput (answers : (question : Question) → Answer question) (content : PsbtMap)
    (input : InputInfo) (prevout : TxOutput) : Prop where
  map : ServesMap answers input.inOut.map content
  witnessUtxo : content [psbtInWitnessUtxo] = some prevout.serialize
  scriptPubKey : input.inOut.scriptPubKey = some prevout.scriptPubkey

/-- The fields of the input, or its index. -/
theorem run_signedInput {content : PsbtMap} {input : InputInfo}
    {txInput : TxInput} (taprootInput : TaprootInput answers content input prevout)
    (describesInput : DescribesInput content txInput)
    (short : prevout.scriptPubkey.length ≤ maxPrevoutScriptpubkeyLen) (anyoneCanPay : Bool)
    (index : Nat) : (signedInput anyoneCanPay input index).run answers =
      .ok (if anyoneCanPay then
        Bip143.outpoint txInput ++ prevout.serialize ++ txInput.sequence.val
      else leBytes 4 index) := by
  cases anyoneCanPay with
  | false => rfl
  | true =>
    have size := prevout.value.property
    have length := length_serialize_output prevout
    have small : (varintWrite prevout.scriptPubkey.length).length = 1 := by
      have smallLength : prevout.scriptPubkey.length ≤ 0xFC := le_trans short (by decide)
      simp [varintWrite, varintSize, smallLength]
    have utxo := run_mapValue taprootInput.map psbtInWitnessUtxo (8 + 1 + maxPrevoutScriptpubkeyLen)
    rw [taprootInput.witnessUtxo, lookupAnswer, if_pos (by omega)] at utxo
    simp only [signedInput, if_true, signedInputFields]
    rw [Dialogue.run_bind_of_ok (run_requireValue taprootInput.map describesInput.txid
        txInput.txid.property),
      Dialogue.run_bind_of_ok (run_requireValue taprootInput.map describesInput.vout
        txInput.vout.property), Dialogue.run_bind_of_ok utxo]
    dsimp only
    rw [if_neg (by omega), taprootInput.scriptPubKey]
    dsimp only
    rw [Dialogue.run_bind_of_ok (run_getSequence taprootInput.map describesInput),
      Dialogue.run_pure, TxOutput.serialize, take_left' size]
    simp [Bip143.outpoint, varBytes]

/-! ## The hash that is signed -/

/-- How the output is spent for a placeholder. -/
def PlaceholderInfo.spendPath (placeholderInfo : PlaceholderInfo) : Bip341.SpendPath :=
  if placeholderInfo.isTapscript then .leaf placeholderInfo.tapleafHash else .key

theorem trTaggedHash_eq (crypto : WalletCrypto) (tag : String) (message : Bytes) :
    trTaggedHash crypto (tag.toList.map ascii) message =
      Bip341.taggedHash crypto.sha256 tag message := rfl

theorem trTaggedHash_sighash (crypto : WalletCrypto) :
    trTaggedHash crypto bip0341SighashTag = Bip341.taggedHash crypto.sha256 "TapSighash" :=
  funext (trTaggedHash_eq crypto "TapSighash")

/-- The hash that is signed, from the hashes over the whole transaction. -/
theorem run_computeSighashSegwitv1 {crypto : WalletCrypto} {globalMap : MerkleizedMapCommitment}
    {st : SignPsbtState} {psbt : Psbt} {tx : Transaction} {spent : List TxOutput}
    (serves : Serves answers globalMap st psbt) (describes : Describes psbt tx)
    (fits : ScriptsFit tx.outputs) (version : leBytes 4 st.txVersion.toNat = tx.version.val)
    (locktime : leBytes 4 st.locktime.toNat = tx.locktime.val) {hashes : SegwitHashes}
    (inputHashes : hashes.shaPrevouts.val ++ hashes.shaAmounts.val ++ hashes.shaScriptpubkeys.val ++
      hashes.shaSequences.val = Bip341.inputCommitments crypto.sha256 tx spent)
    (shaOutputs : hashes.shaOutputs = crypto.sha256 (tx.outputs.flatMap TxOutput.serialize))
    {input : InputInfo} {index : Fin tx.inputs.length} {content : PsbtMap}
    {type : Bip341.HashType} (present : psbt.inputs[index.val]? = some content)
    (isSpent : spent[index.val]? = some prevout)
    (short : prevout.scriptPubkey.length ≤ maxPrevoutScriptpubkeyLen)
    (taprootInput : TaprootInput answers content input prevout)
    (isType : input.sighashType = type.code) (placeholderInfo : PlaceholderInfo) :
    (computeSighashSegwitv1 crypto st hashes input index placeholderInfo).run answers =
      match Bip341.sighash crypto.sha256 tx spent index type placeholderInfo.spendPath with
      | some digest => .ok digest
      | none => .error .refused := by
  have describesInput := describes.inputAt present
  have anyoneCanPay : decide (type.code &&& 0xFF &&& 0x80 = sighashAnyonecanpay) =
      type.anyoneCanPay := by
    rw [Bool.eq_iff_iff, decide_eq_true_eq, Bip341.anyonecanpay_iff]
  have outputHashes : (if type.code &&& 0xFF &&& 3 ≠ sighashNone ∧
      type.code &&& 0xFF &&& 3 ≠ sighashSingle then hashes.shaOutputs.val else []) =
      match type.base with
      | .all => (crypto.sha256 (tx.outputs.flatMap TxOutput.serialize)).val
      | _ => [] := by
    rw [shaOutputs]
    split_ifs with isAll
    · rw [(Bip341.all_iff type).mp isAll]
    · rw [Bip341.all_iff] at isAll
      split <;> simp_all
  rw [computeSighashSegwitv1]
  simp only [isType, anyoneCanPay]
  rw [Dialogue.run_bind_of_ok (run_signedInput taprootInput describesInput short _ _),
    Dialogue.run_bind, run_signedOutputFields serves describes fits, Bip341.sighash, Bip341.sigMsg,
    isSpent, outputHashes, inputHashes, version, locktime]
  have noSeparator : beBytes 4 0xffffffff = [0xFF, 0xFF, 0xFF, 0xFF] := by decide
  rw [trTaggedHash_sighash]
  generalize Bip341.taggedHash crypto.sha256 "TapSighash" = tagged
  cases Bip341.singleOutput crypto.sha256 tx type index with
  | none => simp only [Option.bind_eq_bind, Option.bind_some, Option.bind_none]
  | some single =>
    simp only [Option.bind_eq_bind, Option.bind_some, Option.pure_def, Dialogue.run_pure,
      Bip341.code_and, noSeparator]
    cases path : placeholderInfo.isTapscript <;>
      simp [PlaceholderInfo.spendPath, path, Bip341.SpendPath.extFlag, Bip341.SpendPath.extension]

/-- The parts of the handler that lead to the hash that is signed for a taproot input: the version
and the lock time, the hashes over the whole transaction and the hash for the input. -/
def segwitv1Sighash (crypto : WalletCrypto) (globalMap : MerkleizedMapCommitment)
    (st : SignPsbtState) (input : InputInfo) (curInputIndex : Nat)
    (placeholderInfo : PlaceholderInfo) : Program Digest := do
  let (txVersion, locktime) ← processGlobalMap globalMap
  let st := { st with txVersion, locktime }
  let hashes ← computeSegwitHashes crypto.sha256 st
  computeSighashSegwitv1 crypto st hashes input curInputIndex placeholderInfo

/-- For every PSBT whose fields are well formed and whose maps are served, every taproot input,
every placeholder and every type of signature hash, the hash that is computed is that of BIP-341
for the described transaction, extended as BIP-342 says if the placeholder is in a leaf. It is
computed if the scripts of the outputs and of the outputs that are spent fit. -/
theorem segwitv1Sighash_eq_bip341 (crypto : WalletCrypto) {globalMap : MerkleizedMapCommitment}
    {st : SignPsbtState} {psbt : Psbt} {tx : Transaction} {spent : List TxOutput}
    (serves : Serves answers globalMap st psbt) (describes : Describes psbt tx)
    (servesPrevouts : ServesPrevouts answers crypto.sha256 st psbt)
    (describesSpent : DescribesSpent psbt tx spent) (index : Fin tx.inputs.length)
    (type : Bip341.HashType) (placeholderInfo : PlaceholderInfo) {input : InputInfo}
    {content : PsbtMap} {prevout : TxOutput} (present : psbt.inputs[index.val]? = some content)
    (isSpent : spent[index.val]? = some prevout)
    (taprootInput : TaprootInput answers content input prevout)
    (isType : input.sighashType = type.code) :
    (∀ digest,
      (segwitv1Sighash crypto globalMap st input index placeholderInfo).run answers = .ok digest →
        Bip341.sighash crypto.sha256 tx spent index type placeholderInfo.spendPath =
          some digest) ∧
    (ScriptsFit tx.outputs → PrevoutsFit spent → ∀ digest,
      Bip341.sighash crypto.sha256 tx spent index type placeholderInfo.spendPath = some digest →
        (segwitv1Sighash crypto globalMap st input index placeholderInfo).run answers =
          .ok digest) := by
  let signing : SignPsbtState := { st with
    txVersion := UInt32.ofNat (leNat tx.version.val)
    locktime := UInt32.ofNat (leNat tx.locktime.val) }
  have servesSigning : Serves answers globalMap signing psbt :=
    ⟨serves.globals, serves.sorted, serves.nInputs, serves.nOutputs, serves.inputs, serves.outputs⟩
  have servesSigningPrevouts : ServesPrevouts answers crypto.sha256 signing psbt := servesPrevouts
  have start : (segwitv1Sighash crypto globalMap st input index placeholderInfo).run answers =
      (computeSegwitHashes crypto.sha256 signing >>= fun hashes =>
        computeSighashSegwitv1 crypto signing hashes input index placeholderInfo).run answers := by
    rw [segwitv1Sighash, Dialogue.run_bind_of_ok (run_processGlobalMap serves describes)]
  have hashes := run_computeSegwitHashes servesSigning crypto.sha256 describes
  have allInputs : signing.nInputs = spent.length := by
    rw [describesSpent.length, ← describes.inputs.length_eq]
    exact serves.nInputs
  by_cases fits : ScriptsFit tx.outputs
  case neg =>
    rw [if_neg fits] at hashes
    rw [start, Dialogue.run_bind_of_error hashes]
    exact ⟨nofun, fun all => absurd all fits⟩
  rw [if_pos fits] at hashes
  have loop := run_hashAmountsLoop_eq_iff servesSigning describes servesSigningPrevouts
    describesSpent (drop_zero) [] []
  rw [← allInputs] at loop
  cases hashed : (hashAmountsLoop signing signing.nInputs 0 [] []).run answers with
  | error stop =>
    rw [hashed] at hashes
    rw [start, Dialogue.run_bind_of_error hashes]
    refine ⟨nofun, fun _ prevoutsFit => ?_⟩
    cases hashed.symm.trans ((loop _).mpr ⟨prevoutsFit, rfl⟩)
  | ok result =>
  obtain ⟨prevoutsFit, rfl⟩ := (loop result).mp hashed
  rw [hashed] at hashes
  rw [start, Dialogue.run_bind_of_ok hashes, run_computeSighashSegwitv1 servesSigning describes fits
    (leBytes_ofNat_leNat tx.version) (leBytes_ofNat_leNat tx.locktime) rfl rfl present isSpent
    (prevoutsFit prevout (mem_of_getElem? isSpent)) taprootInput isType placeholderInfo]
  cases Bip341.sighash crypto.sha256 tx spent index type placeholderInfo.spendPath with
  | none => exact ⟨nofun, fun _ _ => nofun⟩
  | some digest =>
    refine ⟨fun other isOther => ?_, fun _ _ other isOther => ?_⟩
    · rw [Except.ok.inj isOther]
    · rw [Option.some.inj isOther]

/-! ## A PSBT with a taproot input -/

/-- The output that the input of the PSBT spends. -/
def taprootPrevout : TxOutput :=
  ⟨sizedBytes (leBytes 8 100000), [0x51, 0x20] ++ replicate 32 7⟩

/-- A client with a PSBT that has a taproot input and one output. -/
def taprootStore : ClientStore :=
  accountStore "tr(@0/**)" 86 [[([psbtInWitnessUtxo], taprootPrevout.serialize),
    ([psbtInPreviousTxid], replicate 32 5), ([psbtInOutputIndex], [1, 0, 0, 0])]]
    [sampleOutput 90000]

/-- The map of the input. -/
def taprootContent : PsbtMap := fun key => (taprootStore.inputs.getD 0 []).lookup key

/-- The answers of the client. -/
def taprootAnswers : (question : Question) → Answer question :=
  taprootStore.answers sampleCrypto.sha256 noAnswers

/-- The state in which the handler signs for it. -/
def taprootState : SignPsbtState :=
  taprootStore.state ⟨.tr ⟨0, 1, 0⟩ none, .v2, taprootStore.header.keysInfoMerkleRoot, 1⟩

/-- The input of the PSBT. -/
def taprootInputInfo : InputInfo :=
  { InputInfo.zero with
    inOut := { InOutInfo.zero with
      map := taprootStore.commitment (ClientStore.inputRoot 0)
      scriptPubKey := some taprootPrevout.scriptPubkey }
    sighashType := 0x83 }

/-- A placeholder inside a leaf. -/
def taprootLeafInfo : PlaceholderInfo :=
  ⟨⟨0, 1, 0⟩, 0, 0, [], sizedBytes (replicate 78 0), true, Digest.ofNat 3⟩

/-- A signature for a leaf that covers the input and the output at its index. -/
theorem segwitv1Sighash_eq_bip341_sample :
    ∃ digest, Bip341.sighash sampleCrypto.sha256 sampleTx [taprootPrevout] ⟨0, Nat.one_pos⟩
        (.explicit ⟨.single, true⟩) (.leaf (Digest.ofNat 3)) = some digest ∧
      (segwitv1Sighash sampleCrypto (taprootStore.commitment ClientStore.globalRoot) taprootState
        taprootInputInfo 0 taprootLeafInfo).run taprootAnswers = .ok digest := by
  have serves : Serves taprootAnswers (taprootStore.commitment ClientStore.globalRoot)
      taprootState taprootStore.psbt :=
    ClientStore.serves (by decide) (by decide) (by decide) (by decide) (by decide)
  have describes : Describes taprootStore.psbt sampleTx := by
    refine ⟨by decide, by decide, .cons ?_ .nil, .cons ?_ .nil, rfl⟩
    · exact ⟨by decide, by decide, rfl, by decide⟩
    · exact ⟨by decide, by decide⟩
  have present : taprootStore.psbt.inputs[0]? = some taprootContent := rfl
  have noRawtx : taprootContent [psbtInNonWitnessUtxo] = none := by decide
  have witnessUtxo : taprootContent [psbtInWitnessUtxo] = some taprootPrevout.serialize := by
    decide
  have describesSpent : DescribesSpent taprootStore.psbt sampleTx [taprootPrevout] := by
    refine ⟨rfl, fun index content input output isContent _ isOutput => ?_⟩
    obtain ⟨inside, rfl⟩ := List.getElem?_eq_some_iff.mp isOutput
    obtain rfl : index = 0 := Nat.lt_one_iff.mp inside
    cases present.symm.trans isContent
    refine ⟨.inl (by rw [witnessUtxo]; rfl), fun value mem => ?_, fun value mem => ?_⟩
    · exact (Option.some.inj (witnessUtxo.symm.trans mem)).symm
    · cases noRawtx.symm.trans mem
  have servesPrevouts : ServesPrevouts taprootAnswers sampleCrypto.sha256 taprootState
      taprootStore.psbt := by
    intro index content map isContent received vout
    obtain rfl : index = 0 := Nat.lt_one_iff.mp (List.getElem?_eq_some_iff.mp isContent).1
    cases present.symm.trans isContent
    have isMap : (getInputMap taprootState 0).run taprootAnswers =
        .ok (taprootStore.commitment (ClientStore.inputRoot 0)) := by decide
    cases isMap.symm.trans received
    rw [noRawtx]
    have nothing : taprootStore.lookup (taprootStore.commitment (ClientStore.inputRoot 0))
        [psbtInNonWitnessUtxo] = none := by decide
    simp [taprootAnswers, ClientStore.answers, nothing, ClientStore.parseAnswer]
  have taprootInput : TaprootInput taprootAnswers taprootContent taprootInputInfo taprootPrevout :=
    ⟨ClientStore.servesMap (by decide) (by decide), witnessUtxo, rfl⟩
  obtain ⟨digest, isDigest⟩ : ∃ digest, Bip341.sighash sampleCrypto.sha256 sampleTx
      [taprootPrevout] ⟨0, Nat.one_pos⟩ (.explicit ⟨.single, true⟩) (.leaf (Digest.ofNat 3)) =
        some digest :=
    ⟨_, rfl⟩
  exact ⟨digest, isDigest, (segwitv1Sighash_eq_bip341 sampleCrypto serves describes
    servesPrevouts describesSpent ⟨0, Nat.one_pos⟩ (.explicit ⟨.single, true⟩) taprootLeafInfo
    present rfl taprootInput rfl).2 (by decide) (by decide) digest isDigest⟩

end LedgerSyscoin.Handler
