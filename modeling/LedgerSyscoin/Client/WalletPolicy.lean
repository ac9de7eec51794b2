import LedgerSyscoin.Client.Buffertools
import LedgerSyscoin.Client.Python
import LedgerSyscoin.Client.Rust
import LedgerSyscoin.Common.Wallet.Header

/-!
# Wallet policies of the clients

Every client serializes a wallet policy to the header that the device reads, and hashes
it for the id of the wallet. Python and Rust encode strings in UTF-8; JavaScript takes
the low bytes of the UTF-16 code units for names and keys, and counts the UTF-8
descriptor template in code units. For ASCII strings these are the same bytes.
-/

namespace LedgerSyscoin.Client

open Foundation Common List

/-! ## Texts -/

abbrev Text := List Char

namespace Text

variable {text : Text}

def utf8 (text : Text) : Bytes := text.flatMap String.utf8EncodeChar

def utf16CodeUnits (char : Char) : List Nat :=
  if char.toNat < 0x10000 then [char.toNat]
  else [0xD800 + (char.toNat - 0x10000) / 0x400, 0xDC00 + (char.toNat - 0x10000) % 0x400]

def utf16 (text : Text) : List Nat := text.flatMap utf16CodeUnits

/-- `Buffer.from(text, 'ascii')`: the low bytes of the code units. -/
def lowBytes (text : Text) : Bytes := text.utf16.map UInt8.ofNat

def Ascii (text : Text) : Prop := ∀ char ∈ text, char.toNat < 128

instance (text : Text) : Decidable text.Ascii :=
  List.decidableBAll (fun char : Char => char.toNat < 128) text

theorem utf8EncodeChar_of_ascii {char : Char} (ascii : char.toNat < 128) :
    String.utf8EncodeChar char = [UInt8.ofNat char.toNat] := by
  have small : char.toNat ≤ 127 := Nat.lt_succ_iff.mp ascii
  simp [String.utf8EncodeChar, small]

/-- ASCII characters take one byte. -/
theorem utf8_of_ascii (ascii : text.Ascii) :
    text.utf8 = text.map fun char => UInt8.ofNat char.toNat := by
  induction text with
  | nil => rfl
  | cons char text ih =>
    obtain ⟨head, tail⟩ := forall_mem_cons.mp ascii
    rw [utf8, flatMap_cons, utf8EncodeChar_of_ascii head, map_cons, singleton_append]
    exact congrArg _ (ih tail)

theorem utf16_of_ascii (ascii : text.Ascii) : text.utf16 = text.map Char.toNat := by
  induction text with
  | nil => rfl
  | cons char text ih =>
    obtain ⟨_, tail⟩ := forall_mem_cons.mp ascii
    rw [utf16, flatMap_cons, utf16CodeUnits, if_pos (by omega), map_cons, singleton_append]
    exact congrArg _ (ih tail)

theorem lowBytes_of_ascii (ascii : text.Ascii) : text.lowBytes = text.utf8 := by
  rw [lowBytes, utf16_of_ascii ascii, utf8_of_ascii ascii, map_map]
  rfl

theorem length_utf8_of_ascii (ascii : text.Ascii) : text.utf8.length = text.length := by
  rw [utf8_of_ascii ascii, length_map]

theorem length_utf16_of_ascii (ascii : text.Ascii) : text.utf16.length = text.utf8.length := by
  rw [utf16_of_ascii ascii, length_utf8_of_ascii ascii, length_map]

end Text

variable (H : HashFunction)

/-! ## Python -/

namespace Python

/-- The class `WalletPolicy`. -/
structure WalletPolicy where
  name : Text
  descriptorTemplate : Text
  keysInfo : List Text
  version : WalletPolicyVersion

def serializeStr (value : Text) : Except Failure Bytes := do
  return [← toByte value.utf8.length] ++ value.utf8

namespace WalletPolicy

/-- The serialization of the base class. -/
def serializeBase (self : WalletPolicy) : Except Failure Bytes := do
  return [walletPolicyVersionByte self.version] ++ (← serializeStr self.name)

def serialize (self : WalletPolicy) : Except Failure Bytes := do
  let keysInfoHashes := self.keysInfo.map fun key => merkleComputeElementHash H key.utf8
  let descriptorTemplateSha256 := H self.descriptorTemplate.utf8
  let base ← self.serializeBase
  let descriptorTemplateLen ← writeVarint self.descriptorTemplate.utf8.length
  let template :=
    if self.version = .v1 then self.descriptorTemplate.utf8 else descriptorTemplateSha256.val
  let nKeys ← writeVarint self.keysInfo.length
  return base ++ descriptorTemplateLen ++ template ++ nKeys ++
    (MerkleTree.new H keysInfoHashes).root.val

def id (self : WalletPolicy) : Except Failure Digest := do
  return H (← self.serialize H)

end WalletPolicy

end Python

/-! ## JavaScript -/

namespace JavaScript

/-- The class `WalletPolicy`, which is always of version 2. -/
structure WalletPolicy where
  name : Text
  descriptorTemplate : Text
  keys : List Text

namespace WalletPolicy

def serialize (self : WalletPolicy) : Option Bytes := do
  let keyBuffers := self.keys.map Text.lowBytes
  let m := Merkle.new H (keyBuffers.map (merkleComputeElementHash H))
  let buf ← BufferWriter.new.writeUInt8 2
  let buf ← buf.writeVarSlice self.name.lowBytes
  let buf ← buf.writeVarInt self.descriptorTemplate.utf16.length
  let buf := buf.writeSlice (H self.descriptorTemplate.utf8).val
  let buf ← buf.writeVarInt self.keys.length
  let buf := buf.writeSlice m.getRoot.val
  return buf.buffer

def getId (self : WalletPolicy) : Option Digest := (self.serialize H).map H

end WalletPolicy

end JavaScript

/-! ## Rust -/

namespace Rust

/-- A key of a policy. The fingerprint, the derivation path and the extended public key are
given by the strings that the library displays for them. -/
structure WalletPubKey where
  inner : Text
  source : Option (Text × Text)
  multipath : Option Text

/-- The path without the leading `m`. -/
def stripMaster : Text → Option Text
  | 'm' :: path => some path
  | _ => none

def WalletPubKey.toText (key : WalletPubKey) : Text :=
  match key.source with
  | none => key.inner
  | some (fingerprint, derivationPath) =>
    ['['] ++ fingerprint ++ (stripMaster derivationPath).getD [] ++ [']'] ++ key.inner ++
      key.multipath.getD []

structure WalletPolicy where
  name : Text
  version : WalletPolicyVersion
  descriptorTemplate : Text
  keys : List WalletPubKey

namespace WalletPolicy

/-- The serialization; there is none if the Merkle tree panics. -/
def serialize (self : WalletPolicy) : Option Bytes := do
  let res := [walletPolicyVersionByte self.version]
  let res := res ++ [UInt8.ofNat self.name.utf8.length]
  let res := res ++ self.name.utf8
  let res := res ++ varintWrite self.descriptorTemplate.utf8.length
  let res := res ++
    if self.version = .v2 then (H self.descriptorTemplate.utf8).val
    else self.descriptorTemplate.utf8
  let res := res ++ varintWrite self.keys.length
  let tree ← MerkleTree.new H (self.keys.map fun key => H (0x00 :: key.toText.utf8))
  return res ++ tree.rootHash.val

def id (self : WalletPolicy) : Option Digest := (self.serialize H).map H

end WalletPolicy

end Rust

/-! ## Agreement with the device -/

/-- A wallet policy as it is written in all clients: its texts and its version. -/
structure PolicyText where
  name : Text
  descriptorTemplate : Text
  keysInfo : List Text
  version : WalletPolicyVersion

namespace PolicyText

/-- The header that the device computes the id of the wallet from. -/
def header (policy : PolicyText) : PolicyMapWalletHeader where
  name := policy.name.utf8
  template :=
    match policy.version with
    | .v1 => .text policy.descriptorTemplate.utf8
    | .v2 => .hashed policy.descriptorTemplate.utf8.length (H policy.descriptorTemplate.utf8)
  nKeys := policy.keysInfo.length
  keysInfoMerkleRoot := merkleTreeRoot H (policy.keysInfo.map Text.utf8)

/-- The longest template of the version. -/
def maxTemplateLength (target : Target) : WalletPolicyVersion → Nat
  | .v1 => maxDescriptorTemplateLengthV1
  | .v2 => maxDescriptorTemplateLengthV2 target

/-- The policies that the device supports, written in ASCII. -/
structure Supported (target : Target) (policy : PolicyText) : Prop where
  name : policy.name.length ≤ maxWalletNameLength
  descriptorTemplate : policy.descriptorTemplate.length ≤ maxTemplateLength target policy.version
  keys : 1 ≤ policy.keysInfo.length ∧ policy.keysInfo.length ≤ 252
  asciiName : policy.name.Ascii
  asciiTemplate : policy.descriptorTemplate.Ascii
  asciiKeys : ∀ key ∈ policy.keysInfo, key.Ascii

abbrev python (policy : PolicyText) : Python.WalletPolicy :=
  ⟨policy.name, policy.descriptorTemplate, policy.keysInfo, policy.version⟩

abbrev javaScript (policy : PolicyText) : JavaScript.WalletPolicy :=
  ⟨policy.name, policy.descriptorTemplate, policy.keysInfo⟩

/-- The policy of the Rust client whose keys are displayed as the texts. -/
structure IsRust (policy : PolicyText) (rust : Rust.WalletPolicy) : Prop where
  name : rust.name = policy.name
  version : rust.version = policy.version
  descriptorTemplate : rust.descriptorTemplate = policy.descriptorTemplate
  keys : rust.keys.map Rust.WalletPubKey.toText = policy.keysInfo

variable {H} {target : Target} {policy : PolicyText}

theorem maxTemplateLength_lt (target : Target) (version : WalletPolicyVersion) :
    maxTemplateLength target version < 2 ^ 16 := by
  cases version with
  | v1 => exact (by decide : maxDescriptorTemplateLengthV1 < 2 ^ 16)
  | v2 => cases target <;> decide

/-- The header of a supported policy is one that the device accepts. -/
theorem valid_header (supported : policy.Supported target) : (policy.header H).Valid target where
  name := by
    rw [header, Text.length_utf8_of_ascii supported.asciiName]
    exact supported.name
  template := by
    have fits := supported.descriptorTemplate
    rw [← Text.length_utf8_of_ascii supported.asciiTemplate] at fits
    rw [header]
    cases version : policy.version with
    | v1 | v2 =>
      rw [version] at fits
      exact fits
  nKeys := supported.keys.2

theorem length_template_lt (supported : policy.Supported target) :
    policy.descriptorTemplate.utf8.length < 2 ^ 16 := by
  rw [Text.length_utf8_of_ascii supported.asciiTemplate]
  exact lt_of_le_of_lt supported.descriptorTemplate (maxTemplateLength_lt target policy.version)

theorem python_serialize (supported : policy.Supported target) :
    policy.python.serialize H = .ok (policy.header H).serialize := by
  have nameFits : policy.python.name.utf8.length < 256 := by
    rw [python, Text.length_utf8_of_ascii supported.asciiName]
    exact lt_of_le_of_lt supported.name (by decide)
  have templateFits : policy.python.descriptorTemplate.utf8.length < 2 ^ 64 :=
    (length_template_lt supported).trans (by decide)
  have keysFit : policy.python.keysInfo.length < 2 ^ 64 :=
    lt_of_le_of_lt supported.keys.2 (by decide)
  have root : (Python.MerkleTree.new H (policy.keysInfo.map fun key =>
      merkleComputeElementHash H key.utf8)).root =
      merkleTreeRoot H (policy.keysInfo.map Text.utf8) := by
    rw [Python.root_new, merkleTreeRoot, merkleTree, leafHashes, map_map]
    rfl
  rw [Python.WalletPolicy.serialize, Python.WalletPolicy.serializeBase, Python.serializeStr,
    Python.toByte_eq nameFits, Python.writeVarint_eq templateFits, Python.writeVarint_eq keysFit]
  simp only [root, pure, Except.pure, ok_bind]
  cases version : policy.version with
  | v1
  | v2 => simp [PolicyMapWalletHeader.serialize, header, version, PolicyMapWalletHeader.version,
      PolicyMapWalletHeader.descriptorTemplateLen, HeaderTemplate.version, HeaderTemplate.length,
      HeaderTemplate.bytes]

theorem rust_serialize (supported : policy.Supported target) {rust : Rust.WalletPolicy}
    (isRust : policy.IsRust rust) : rust.serialize H = some (policy.header H).serialize := by
  have leaves : (rust.keys.map fun key => H (0x00 :: key.toText.utf8)) =
      leafHashes H (policy.keysInfo.map Text.utf8) := by
    rw [leafHashes, ← isRust.keys, map_map, map_map]
    rfl
  have nonempty : leafHashes H (policy.keysInfo.map Text.utf8) ≠ [] := by
    have positive := supported.keys.1
    intro empty
    have length := congrArg List.length empty
    rw [leafHashes, length_map, length_map, length_nil] at length
    omega
  obtain ⟨_, built, -, rootHash, -⟩ := Rust.exists_merkleTree_new (H := H) nonempty
  have nKeys : rust.keys.length = policy.keysInfo.length := by
    rw [← isRust.keys, length_map]
  rw [Rust.WalletPolicy.serialize, leaves, built, isRust.name, isRust.version,
    isRust.descriptorTemplate, nKeys]
  simp only [Option.bind_eq_bind, Option.bind_some, rootHash]
  cases version : policy.version with
  | v1 | v2 => simp [PolicyMapWalletHeader.serialize, header, version, merkleTreeRoot, merkleTree,
      PolicyMapWalletHeader.version, PolicyMapWalletHeader.descriptorTemplateLen,
      HeaderTemplate.version, HeaderTemplate.length, HeaderTemplate.bytes]

theorem javaScript_serialize (supported : policy.Supported target)
    (version : policy.version = .v2) :
    policy.javaScript.serialize H = some (policy.header H).serialize := by
  have keyBuffers : policy.keysInfo.map Text.lowBytes = policy.keysInfo.map Text.utf8 :=
    map_congr_left fun key member => Text.lowBytes_of_ascii (supported.asciiKeys key member)
  have nameLength : policy.name.utf8.length ≤ 64 := by
    rw [Text.length_utf8_of_ascii supported.asciiName]
    exact supported.name
  have nameSize : varintWrite policy.name.utf8.length =
      [UInt8.ofNat policy.name.utf8.length] := by
    rw [varintWrite, varintSize, if_pos (show policy.name.utf8.length ≤ 0xFC by omega), if_pos rfl]
  have templateFits := length_template_lt supported
  have keysFit := supported.keys.2
  have root : (JavaScript.Merkle.new H ((policy.keysInfo.map Text.utf8).map
      (merkleComputeElementHash H))).getRoot =
      merkleTreeRoot H (policy.keysInfo.map Text.utf8) := JavaScript.getRoot_new _
  have safe : JavaScript.maxSafeInteger = 2 ^ 53 - 1 := rfl
  simp only [JavaScript.WalletPolicy.serialize, keyBuffers,
    Text.lowBytes_of_ascii supported.asciiName, Text.length_utf16_of_ascii supported.asciiTemplate,
    root, JavaScript.BufferWriter.writeUInt8, if_pos (show 2 < 256 by decide),
    Option.bind_eq_bind, Option.bind_some]
  rw [JavaScript.BufferWriter.writeVarSlice_eq _ (by omega), Option.bind_some,
    JavaScript.BufferWriter.writeVarInt_eq _ (by omega), Option.bind_some,
    JavaScript.BufferWriter.writeVarInt_eq _ (by omega), Option.bind_some, nameSize]
  simp [PolicyMapWalletHeader.serialize, header, version, walletPolicyVersionByte,
    PolicyMapWalletHeader.version, PolicyMapWalletHeader.descriptorTemplateLen,
    HeaderTemplate.version, HeaderTemplate.length, HeaderTemplate.bytes]

end PolicyText

/-- The id of a wallet commits to its header. The bytes that are hashed are the bytes that
were read, if these have minimal varints; different headers have different serializations;
and all clients hash, for each supported policy, what the device hashes. -/
theorem walletId_commits (target : Target) :
    (∀ buffer rest header, readWalletPolicyHeader target buffer = some (header, rest) →
      ∃ lengthEncoding keysEncoding,
        VarintEncodes lengthEncoding header.descriptorTemplateLen ∧
        VarintEncodes keysEncoding header.nKeys ∧
        buffer.remaining = header.layout lengthEncoding keysEncoding ++ rest.remaining ∧
        (MinimalVarint lengthEncoding → MinimalVarint keysEncoding →
          header.serialize = header.layout lengthEncoding keysEncoding)) ∧
    (∀ buffer rest first buffer' rest' second,
      readWalletPolicyHeader target buffer = some (first, rest) →
      readWalletPolicyHeader target buffer' = some (second, rest') →
      first.serialize = second.serialize → first = second) ∧
    ∀ policy : PolicyText, policy.Supported target →
      (∃ rest, readWalletPolicyHeader target (bufferCreate (policy.header H).serialize) =
        some (policy.header H, rest) ∧ rest.remaining = []) ∧
      (policy.python.serialize H = .ok (policy.header H).serialize ∧
        policy.python.id H = .ok (getPolicyWalletId H (policy.header H))) ∧
      (policy.version = .v2 →
        policy.javaScript.serialize H = some (policy.header H).serialize ∧
        policy.javaScript.getId H = some (getPolicyWalletId H (policy.header H))) ∧
      ∀ rust, policy.IsRust rust →
        rust.serialize H = some (policy.header H).serialize ∧
        rust.id H = some (getPolicyWalletId H (policy.header H)) := by
  refine ⟨fun buffer rest header read => ?_, ?_, fun policy supported => ⟨?_, ?_, ?_, ?_⟩⟩
  · obtain ⟨lengthEncoding, keysEncoding, lengthEncodes, keysEncodes, consumed⟩ :=
      remaining_of_readWalletPolicyHeader read
    exact ⟨lengthEncoding, keysEncoding, lengthEncodes, keysEncodes, consumed,
      PolicyMapWalletHeader.serialize_eq_layout lengthEncodes keysEncodes⟩
  · intro _ _ first _ _ second readFirst readSecond same
    exact PolicyMapWalletHeader.serialize_inj (valid_of_readWalletPolicyHeader readFirst)
      (valid_of_readWalletPolicyHeader readSecond) same
  · exact exists_readWalletPolicyHeader (PolicyText.valid_header supported) _ [] (by simp)
  · have serialized := PolicyText.python_serialize (H := H) supported
    rw [Python.WalletPolicy.id, serialized]
    exact ⟨rfl, rfl⟩
  · intro version
    have serialized := PolicyText.javaScript_serialize (H := H) supported version
    rw [JavaScript.WalletPolicy.getId, serialized]
    exact ⟨rfl, rfl⟩
  · intro rust isRust
    have serialized := PolicyText.rust_serialize (H := H) supported isRust
    rw [Rust.WalletPolicy.id, serialized]
    exact ⟨rfl, rfl⟩

/-- A policy with a name and three keys, of which the first one has an origin. -/
def samplePolicy : PolicyText where
  name := "Cold storage".toList
  descriptorTemplate := "wsh(sortedmulti(2,@0/**,@1/**,@2/**))".toList
  keysInfo := ["[76223a6e/48'/1'/0']tpubA".toList, "tpubB".toList, "tpubC".toList]
  version := .v2

/-- The policy for the Rust client. -/
def sampleRustPolicy : Rust.WalletPolicy where
  name := samplePolicy.name
  version := .v2
  descriptorTemplate := samplePolicy.descriptorTemplate
  keys := [⟨"tpubA".toList, some ("76223a6e".toList, "m/48'/1'/0'".toList), none⟩,
    ⟨"tpubB".toList, none, none⟩, ⟨"tpubC".toList, none, none⟩]

theorem walletId_commits_sample :
    let H : HashFunction := fun bytes => Digest.ofNat (leNat bytes)
    let header := samplePolicy.header H
    (samplePolicy.python.serialize H = .ok header.serialize ∧
      samplePolicy.python.id H = .ok (getPolicyWalletId H header)) ∧
    (samplePolicy.javaScript.serialize H = some header.serialize ∧
      samplePolicy.javaScript.getId H = some (getPolicyWalletId H header)) ∧
    sampleRustPolicy.serialize H = some header.serialize ∧
      sampleRustPolicy.id H = some (getPolicyWalletId H header) := by
  intro H header
  obtain ⟨-, python, javaScript, rust⟩ := (walletId_commits H .nanoS).2.2 samplePolicy
    ⟨by decide, by decide, by decide, by decide, by decide, by decide⟩
  exact ⟨python, javaScript rfl, rust sampleRustPolicy ⟨rfl, rfl, rfl, by decide⟩⟩

end LedgerSyscoin.Client
