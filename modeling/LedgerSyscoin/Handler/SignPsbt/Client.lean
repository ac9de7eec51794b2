import LedgerSyscoin.Common.SegwitAddr
import LedgerSyscoin.Handler.Lib.Policy.Usable
import LedgerSyscoin.Handler.Lib.WalletPolicy
import LedgerSyscoin.Handler.SignPsbt.Described
import LedgerSyscoin.Handler.SignPsbt.InternalKeys

/-!
# A client that keeps a PSBT

The client has the entries of the maps, the previous transactions, the header of the
wallet policy with its template, and the information on the keys. It answers every
question that is put to a client from what it keeps, so that the maps of its PSBT are
served.
-/

namespace LedgerSyscoin.Handler

open Foundation Common Boilerplate

variable (index : Nat) (map : MerkleizedMapCommitment)

/-- The entries of a map, sorted by their keys. -/
abbrev Entries := List (Bytes × Bytes)

/-- What the client keeps. -/
structure ClientStore where
  globals : Entries
  inputs : List Entries
  outputs : List Entries
  previous : List Transaction
  header : PolicyMapWalletHeader
  template : Bytes
  keysInfo : List Bytes

namespace ClientStore

variable (store : ClientStore)

/-! ## Roots

The client names its trees by numbers: 4, 8 and 12 for the trees of inputs, of outputs and of
keys, and for the keys and values of a map its position times four and its kind. -/

def globalRoot : Nat := 1
def inputRoot : Nat := 4 * index + 2
def outputRoot : Nat := 4 * index + 3
def inputsRoot : Nat := 4
def outputsRoot : Nat := 8
def keysRoot : Nat := 12

/-- The map with the given root. -/
def entries (root : Nat) : Entries :=
  match root % 4 with
  | 1 => store.globals
  | 2 => store.inputs.getD (root / 4) []
  | 3 => store.outputs.getD (root / 4) []
  | _ => []

/-- The commitment of the map with the given root. -/
def commitment (root : Nat) : MerkleizedMapCommitment :=
  ⟨(store.entries root).length, Digest.ofNat root, Digest.ofNat root⟩

def serializeCommitment : Bytes :=
  varintWrite map.size ++ map.keysRoot.val ++ map.valuesRoot.val

/-- The elements of the tree with the given root. -/
def tree (root : Nat) : List Bytes :=
  if root = inputsRoot then
    (List.range store.inputs.length).map fun i =>
      serializeCommitment (store.commitment (inputRoot i))
  else if root = outputsRoot then
    (List.range store.outputs.length).map fun i =>
      serializeCommitment (store.commitment (outputRoot i))
  else if root = keysRoot then store.keysInfo
  else (store.entries root).map Prod.fst

/-- The header of a wallet policy whose keys the client keeps. -/
def walletHeader (H : HashFunction) (name template : Bytes) (keysInfo : List Bytes) :
    PolicyMapWalletHeader :=
  ⟨name, .hashed template.length (H template), keysInfo.length, Digest.ofNat keysRoot⟩

/-! ## Answers -/

/-- The number of a root. -/
def rootNumber (root : Digest) : Nat := beNat root.val

/-- The value of a map at a key. -/
def lookup (key : Bytes) : Option Bytes :=
  let entries := store.entries (rootNumber map.keysRoot)
  if map.size % 2 ^ 32 = entries.length then entries.lookup key else none

/-- The previous transaction with the given serialization. -/
def parse (serialized : Bytes) : Option Transaction :=
  store.previous.find? fun previous => previous.serialize = serialized

/-- A value in one chunk. -/
def streamAnswer (value : Option Bytes) : Streamed :=
  match value with
  | none => ⟨-1, none, []⟩
  | some value => ⟨value.length, some value.length, [value]⟩

/-- The output of a previous transaction. -/
def parseAnswer (H : HashFunction) (previous : Option Transaction) (vout : UInt32) :
    Int × TxidParserOutputs :=
  match previous with
  | none => (-1, ⟨0, 0, [], Digest.ofNat 0⟩)
  | some previous =>
    match previous.outputs[vout.toNat]? with
    | none => (-1, ⟨0, 0, [], Digest.ofNat 0⟩)
    | some output => (0, ⟨leNat output.value.val, UInt32.ofNat output.scriptPubkey.length,
        output.scriptPubkey, previous.txid H⟩)

/-- A preimage, if it fits into the output. -/
def preimageAnswer (H : HashFunction) (known : List Bytes) (hash : Digest) (out : Bytes) :
    Preimage :=
  match known.find? (fun preimage => H preimage = hash) with
  | none => ⟨-1, out, []⟩
  | some preimage => ⟨preimage.length, preimage ++ out.drop preimage.length, preimage⟩

/-- The answers of the client, and for other questions those that are given. -/
def answers (H : HashFunction) (others : (question : Question) → Answer question) :
    (question : Question) → Answer question
  | .leafElement root _ index outLen => lookupAnswer (store.tree (rootNumber root))[index]? outLen
  | .mapValue map key outLen => lookupAnswer (store.lookup map key) outLen
  | .streamMapValue map key => streamAnswer (store.lookup map key)
  | .derivation _ _ _ root _ index =>
    streamAnswer ((store.entries (rootNumber root))[index]?.map Prod.snd)
  | .keyInfo _ index => lookupAnswer store.keysInfo[index]? maxCheckMerkleTreeSortedPreimageSize
  | .parseRawtx map key vout => parseAnswer H ((store.lookup map key).bind store.parse) vout
  | .preimage hash out => preimageAnswer H [store.header.serialize, store.template] hash out
  | question => others question

/-- The data of the command that asks to sign the PSBT. -/
def request (H : HashFunction) (walletHmac : Bytes) : Bytes :=
  serializeCommitment (store.commitment globalRoot) ++
    (varintWrite store.inputs.length ++ (Digest.ofNat inputsRoot).val) ++
    (varintWrite store.outputs.length ++ (Digest.ofNat outputsRoot).val) ++
    (H store.header.serialize).val ++ walletHmac

/-! ## The maps are served -/

/-- The PSBT that the client keeps. -/
def psbt : Psbt where
  globals key := store.globals.lookup key
  inputs := store.inputs.map fun entries key => entries.lookup key
  outputs := store.outputs.map fun entries key => entries.lookup key

variable {store} {H : HashFunction} {others : (question : Question) → Answer question} {root : Nat}

theorem rootNumber_ofNat (small : root < 2 ^ 64) : rootNumber (Digest.ofNat root) = root :=
  beNat_beBytes_of_lt (small.trans (by norm_num))

theorem lookup_commitment (small : root < 2 ^ 64)
    (short : (store.entries root).length < 2 ^ 32) (key : Bytes) :
    store.lookup (store.commitment root) key = (store.entries root).lookup key := by
  simp only [lookup, commitment, rootNumber_ofNat small, Nat.mod_eq_of_lt short, if_true]

theorem servesMap (small : root < 2 ^ 64) (short : (store.entries root).length < 2 ^ 32) :
    ServesMap (store.answers H others) (store.commitment root)
      fun key => (store.entries root).lookup key where
  value key outLen := by
    simp only [answers, lookup_commitment small short]
  stream key := by
    simp only [answers, lookup_commitment small short]
    cases (store.entries root).lookup key with
    | none => exact Int.negSucc_lt_zero 0
    | some value => exact ⟨rfl, rfl, List.flatten_singleton⟩

theorem tree_eq_keys (isMap : root % 4 ≠ 0) :
    store.tree root = (store.entries root).map Prod.fst := by
  have notInputs : root ≠ inputsRoot := fun isRoot => isMap (by rw [isRoot]; rfl)
  have notOutputs : root ≠ outputsRoot := fun isRoot => isMap (by rw [isRoot]; rfl)
  have notKeys : root ≠ keysRoot := fun isRoot => isMap (by rw [isRoot]; rfl)
  rw [tree, if_neg notInputs, if_neg notOutputs, if_neg notKeys]

theorem servesEntries {content : Entries} (small : root < 2 ^ 64)
    (isContent : store.entries root = content) (short : content.length < 2 ^ 32) :
    ServesMap (store.answers H others) (store.commitment root) fun key => content.lookup key := by
  subst isContent
  exact servesMap small short

theorem entries_inputRoot : store.entries (inputRoot index) = store.inputs[index]?.getD [] := by
  have kind : inputRoot index % 4 = 2 := Nat.mul_add_mod 4 index 2
  have position : inputRoot index / 4 = index := by rw [inputRoot]; omega
  rw [entries, kind, position]
  rfl

theorem entries_outputRoot : store.entries (outputRoot index) = store.outputs[index]?.getD [] := by
  have kind : outputRoot index % 4 = 3 := Nat.mul_add_mod 4 index 3
  have position : outputRoot index / 4 = index := by rw [outputRoot]; omega
  rw [entries, kind, position]
  rfl

/-- The state of the handler in which it signs for the client. -/
def state (store : ClientStore) (wallet : WalletInUse) : SignPsbtState where
  txVersion := 0
  locktime := 0
  nInputs := store.inputs.length
  inputsRoot := Digest.ofNat inputsRoot
  nOutputs := store.outputs.length
  outputsRoot := Digest.ofNat outputsRoot
  inputsTotalAmount := 0
  outputs := .zero
  isWalletDefault := true
  protocolVersion := 1
  wallet := wallet
  showMissingNonwitnessutxoWarning := false
  showNondefaultSighashWarning := false

/-- A client whose maps are received serves its PSBT. -/
theorem serves {wallet : WalletInUse}
    (few : store.inputs.length < 2 ^ 32 ∧ store.outputs.length < 2 ^ 32)
    (short : ∀ entries ∈ store.globals :: store.inputs ++ store.outputs, entries.length < 2 ^ 32)
    (sorted : (callCheckMerkleTreeSortedWithCallback Program.leafElement ()
      (Digest.ofNat globalRoot) (store.globals.length % 2 ^ 32) none
        (store.commitment globalRoot)).run (store.answers H others) = .ok (0, ()))
    (inputs : ∀ i < store.inputs.length, (Program.callGetMerkleizedMap (Digest.ofNat inputsRoot)
      store.inputs.length i).run (store.answers H others) =
        .ok (0, store.commitment (inputRoot i)))
    (outputs : ∀ i < store.outputs.length, (Program.callGetMerkleizedMap (Digest.ofNat outputsRoot)
      store.outputs.length i).run (store.answers H others) =
        .ok (0, store.commitment (outputRoot i))) :
    Serves (store.answers H others) (store.commitment globalRoot) (store.state wallet)
      store.psbt where
  globals := servesMap (by decide) (short _ (List.mem_append_left _ List.mem_cons_self))
  sorted := sorted
  nInputs := (List.length_map _).symm
  nOutputs := (List.length_map _).symm
  inputs index content present := by
    rw [psbt, List.getElem?_map, Option.map_eq_some_iff] at present
    obtain ⟨entries, isEntries, rfl⟩ := present
    obtain ⟨inside, -⟩ := List.getElem?_eq_some_iff.mp isEntries
    exact ⟨_, inputs index inside, servesEntries (by rw [inputRoot]; omega)
      (by rw [entries_inputRoot, isEntries, Option.getD_some])
      (short _ (List.mem_append_left _ (List.mem_cons_of_mem _ (List.mem_of_getElem? isEntries))))⟩
  outputs index content present := by
    rw [psbt, List.getElem?_map, Option.map_eq_some_iff] at present
    obtain ⟨entries, isEntries, rfl⟩ := present
    obtain ⟨inside, -⟩ := List.getElem?_eq_some_iff.mp isEntries
    exact ⟨_, outputs index inside, servesEntries (by rw [outputRoot]; omega)
      (by rw [entries_outputRoot, isEntries, Option.getD_some])
      (short _ (List.mem_append_right _ (List.mem_of_getElem? isEntries)))⟩

end ClientStore

/-! ## A device -/

/-- A user who approves everything, on a device that finds the given script for a wallet and
signs. -/
def approvingAnswers (walletScript : WalletInUse → Bytes) : (question : Question) → Answer question
  | .walletScript wallet _ => some (walletScript wallet)
  | .taptreeHash _ _ _ _ => some (Digest.ofNat 0)
  | .tapleafHash _ _ _ _ _ => some (Digest.ofNat 0)
  | .screen _ => true
  | .signEcdsa _ _ => some ([0x02], [0x30])
  | .signSchnorr _ _ _ => some ([0x02], List.replicate 64 0x01)
  | .yield _ _ => true
  | question => noAnswers question

/-- The account of the sample device for a purpose. -/
def samplePath (purpose : UInt8) : List UInt32 :=
  [0x80000000 + purpose.toUInt32, 0x80000000 + 57, 0x80000000]

/-- The key of all accounts of the sample device. -/
def sampleXpub : ExtendedPubkey := ⟨[0x04, 0x88, 0xB2, 0x1E] ++ List.replicate 74 0, by decide⟩

/-- The information on the key of an account, whose checksum is the start of the key. -/
def sampleKeyInfo (purpose : UInt8) : Bytes :=
  textBytes "[00000001/" ++ decimalText purpose.toNat ++ textBytes "'/57'/0']xpub661MyMwAqRbcEYS" ++
    textBytes "8w7XLSVeEsBXy79zSzH1J8vCdxAZningWLdN3zgtU6LBpB85b3D2yc8sfvZU521AAwdZafEz7" ++
    textBytes "mnzBBsz4wKY5e4FgHbK"

/-- The address of a script, in the array that also holds the text for a script without one. -/
def outputAddress (coding : AddressCoding) (script : Bytes) : Option Bytes :=
  (Common.getScriptAddress coding script
    (max (73 + coding.nativeSegwitPrefix.length + 1) maxOpreturnOutputDescSize)).toOption

/-- The text for a script without an address, up to the zero that ends it. -/
def outputDescription (script : Bytes) : Option Bytes :=
  (Common.formatOpscriptScript script).toOption.map List.dropLast

/-- The parameters of the coin. The scripts of the samples have no addresses in base58. -/
def sampleCoding : AddressCoding where
  p2pkhVersion := 63
  p2shVersion := 5
  nativeSegwitPrefix := textBytes "sys"
  base58EncodeAddress _ _ _ := none
  segwitAddrEncode := segwitAddrEncode

/-- A device of which all keys are the same. -/
def sampleDevice : Device where
  crypto := sampleCrypto
  target := .larger
  layout := deviceLayout
  haveNbgl := false
  pinValidated := true
  swap := none
  bip44CoinType := 57
  masterKeyFingerprint := 1
  parsePolicyMapKeyInfo := receivedKeyInfo sampleCrypto.sha256 ⟨List.replicate 82 0, rfl⟩
  getExtendedPubkeyAtPath _ := some sampleXpub
  bip32CKDpub key _ := some key
  checkWalletHmac _ _ := true
  getScriptAddress := outputAddress sampleCoding
  formatOpscriptScript := outputDescription
  stale _ := 0

/-- A derivation field of the sample device. -/
def sampleDerivation (keyType purpose : UInt8) (change addressIndex : Nat) : Bytes × Bytes :=
  (keyType :: sampleXpub.compressedPubkey, beBytes 4 1 ++
    ((samplePath purpose).map UInt32.toNat ++ [change, addressIndex]).flatMap (leBytes 4))

/-- The script of the sample wallet. -/
def sampleScript : Bytes := [0x00, 0x14] ++ List.replicate 20 7

/-- The script of the legacy sample wallet. -/
def legacyScript : Bytes := [0x76, 0xA9, 0x14] ++ List.replicate 20 7 ++ [0x88, 0xAC]

/-- An input of the sample wallet, without its previous transaction. -/
def sampleInput (amount : Nat) (sighashType : UInt8) : Entries :=
  [([psbtInWitnessUtxo], (TxOutput.mk (sizedBytes (leBytes 8 amount)) sampleScript).serialize),
    ([psbtInSighashType], [sighashType, 0, 0, 0]), sampleDerivation 0x06 84 0 0,
    ([psbtInPreviousTxid], List.replicate 32 5), ([psbtInOutputIndex], [1, 0, 0, 0])]

/-- An output to a script. -/
def outputTo (script : Bytes) (amount : Nat) : Entries :=
  [([psbtOutAmount], leBytes 8 amount), ([psbtOutScript], script)]

/-- The script of somebody else. -/
def otherScript : Bytes := [0x00, 0x14] ++ List.replicate 20 9

/-- An output to somebody else. -/
def sampleOutput (amount : Nat) : Entries := outputTo otherScript amount

/-- A client of a wallet with the key of a standard account. -/
def accountStore (template : String) (purpose : UInt8) (inputs outputs : List Entries) :
    ClientStore where
  globals := [([psbtGlobalTxVersion], [2, 0, 0, 0])]
  inputs := inputs
  outputs := outputs
  previous := []
  header := ClientStore.walletHeader sampleCrypto.sha256 [] (textBytes template)
    [sampleKeyInfo purpose]
  template := textBytes template
  keysInfo := [sampleKeyInfo purpose]

/-- A client of the sample wallet. -/
def sampleStore : (inputs outputs : List Entries) → ClientStore := accountStore "wpkh(@0/**)" 84

/-- A fee that is a tenth of the inputs. -/
def highFeeStore : ClientStore := sampleStore [sampleInput 100000 1] [sampleOutput 90000]

/-- The transaction that such a client asks to sign. -/
def sampleTx : Transaction where
  version := sizedBytes [2, 0, 0, 0]
  inputs := [⟨sizedBytes (List.replicate 32 5), sizedBytes [1, 0, 0, 0], [],
    sizedBytes (List.replicate 4 0xFF)⟩]
  inputs_ne_nil := List.cons_ne_nil _ _
  outputs := [⟨sizedBytes (leBytes 8 90000), otherScript⟩]
  witnesses := none
  locktime := sizedBytes [0, 0, 0, 0]

theorem highFeeStore_describes : Describes highFeeStore.psbt sampleTx where
  version := by decide
  locktime := by decide
  inputs := .cons ⟨by decide, by decide, rfl, by decide⟩ .nil
  outputs := .cons ⟨by decide, by decide⟩ .nil
  witnesses := rfl

/-- The answers of a client whose user approves everything. -/
def ClientStore.sampleAnswers (store : ClientStore) : (question : Question) → Answer question :=
  store.answers sampleCrypto.sha256 (approvingAnswers fun wallet =>
    if wallet.policy.type = .pkh then legacyScript else sampleScript)

/-- The state in which the sample wallet is signed for. -/
def ClientStore.sampleState (store : ClientStore) : SignPsbtState :=
  store.state ⟨.withKey .wpkh ⟨0, 1, 0⟩, .v2, store.header.keysInfoMerkleRoot, 1⟩

/-- The command that asks to sign the PSBT for a wallet that is not registered. -/
def ClientStore.sampleRequest (store : ClientStore) : Buffer :=
  bufferCreate (store.request sampleCrypto.sha256 (List.replicate 32 0))

end LedgerSyscoin.Handler
