import LedgerSyscoin.Common.Buffer
import LedgerSyscoin.Common.Wallet.Lexer
import LedgerSyscoin.Foundation.Hash
import Mathlib.Data.Option.Basic

/-!
# Headers of wallet policies

A wallet policy is serialized as a header: its name, the descriptor template or its
hash, and the number and the Merkle root of its keys. The id of a wallet is the hash of
the header. A serialized header is read back as it was, so that different headers have
different serializations.
-/

namespace LedgerSyscoin.Common

open Foundation List

variable {buffer rest : Buffer}

/-- The devices that the limits of the source depend on. -/
inductive Target where
  | nanoS
  | larger
  deriving DecidableEq, Repr

def maxWalletNameLength : Nat := 64

def maxDescriptorTemplateLengthV1 : Nat := 40

def maxDescriptorTemplateLengthV2 : Target → Nat
  | .nanoS => 192
  | .larger => 512

/-- The longest template of both versions. -/
def maxDescriptorTemplateLength (target : Target) : Nat :=
  max maxDescriptorTemplateLengthV1 (maxDescriptorTemplateLengthV2 target)

def maxWalletPolicyBytes : Target → Nat
  | .nanoS => 264
  | .larger => 768

/-- The size of the buffer for a serialized header. -/
def maxWalletPolicySerializedLength : Nat := 1 + 1 + maxWalletNameLength + 9 + 32 + 9 + 32

/-- The template in a header: its text in version 1, and its length and its hash in version 2. -/
inductive HeaderTemplate where
  | text (descriptorTemplate : Bytes)
  | hashed (descriptorTemplateLen : Nat) (descriptorTemplateSha256 : Digest)
  deriving DecidableEq

namespace HeaderTemplate

def version : HeaderTemplate → WalletPolicyVersion
  | text _ => .v1
  | hashed _ _ => .v2

def length : HeaderTemplate → Nat
  | text descriptorTemplate => descriptorTemplate.length
  | hashed descriptorTemplateLen _ => descriptorTemplateLen

/-- The bytes that stand for the template in the serialization. -/
def bytes : HeaderTemplate → Bytes
  | text descriptorTemplate => descriptorTemplate
  | hashed _ descriptorTemplateSha256 => descriptorTemplateSha256.val

/-- The template is not too long for its version. -/
def Fits (target : Target) : HeaderTemplate → Prop
  | text descriptorTemplate => descriptorTemplate.length ≤ maxDescriptorTemplateLengthV1
  | hashed descriptorTemplateLen _ => descriptorTemplateLen ≤ maxDescriptorTemplateLengthV2 target

instance (target : Target) (template : HeaderTemplate) : Decidable (template.Fits target) :=
  match template with
  | text _ => inferInstanceAs (Decidable (_ ≤ _))
  | hashed _ _ => inferInstanceAs (Decidable (_ ≤ _))

end HeaderTemplate

structure PolicyMapWalletHeader where
  name : Bytes
  template : HeaderTemplate
  nKeys : Nat
  keysInfoMerkleRoot : Digest
  deriving DecidableEq

namespace PolicyMapWalletHeader

def version (header : PolicyMapWalletHeader) : WalletPolicyVersion := header.template.version

def descriptorTemplateLen (header : PolicyMapWalletHeader) : Nat := header.template.length

end PolicyMapWalletHeader

/-! ## Reading -/

def walletPolicyVersion (byte : UInt8) : Option WalletPolicyVersion :=
  if byte = 1 then some .v1 else if byte = 2 then some .v2 else none

/-- Read the template of a header, given its version and its length. -/
def readHeaderTemplate (target : Target) (version : WalletPolicyVersion)
    (descriptorTemplateLen : Nat) (buffer : Buffer) : Option (HeaderTemplate × Buffer) :=
  match version with
  | .v1 => do
    guard (descriptorTemplateLen ≤ maxDescriptorTemplateLengthV1)
    let (descriptorTemplate, buffer) ← bufferReadBytes descriptorTemplateLen buffer
    return (.text descriptorTemplate, buffer)
  | .v2 => do
    guard (descriptorTemplateLen ≤ maxDescriptorTemplateLengthV2 target)
    let (descriptorTemplateSha256, buffer) ← bufferReadBytes 32 buffer
    return (.hashed descriptorTemplateLen (Digest.ofBytes descriptorTemplateSha256), buffer)

def readWalletPolicyHeader (target : Target) (buffer : Buffer) :
    Option (PolicyMapWalletHeader × Buffer) := do
  let (versionByte, buffer) ← bufferReadU8 buffer
  let version ← walletPolicyVersion versionByte
  let (nameLen, buffer) ← bufferReadU8 buffer
  guard (nameLen.toNat ≤ maxWalletNameLength)
  let (name, buffer) ← bufferReadBytes nameLen.toNat buffer
  let (descriptorTemplateLen, buffer) ← bufferReadVarint buffer
  let (template, buffer) ← readHeaderTemplate target version descriptorTemplateLen buffer
  let (nKeys, buffer) ← bufferReadVarint buffer
  guard (nKeys ≤ 252)
  let (keysInfoMerkleRoot, buffer) ← bufferReadBytes 32 buffer
  return (⟨name, template, nKeys, Digest.ofBytes keysInfoMerkleRoot⟩, buffer)

/-! ## Serialization -/

def walletPolicyVersionByte : WalletPolicyVersion → UInt8
  | .v1 => 1
  | .v2 => 2

namespace PolicyMapWalletHeader

/-- The bytes that are hashed for the id of a wallet. -/
def serialize (header : PolicyMapWalletHeader) : Bytes :=
  walletPolicyVersionByte header.version :: UInt8.ofNat header.name.length ::
    (header.name ++ (varintWrite header.descriptorTemplateLen ++ (header.template.bytes ++
      (varintWrite header.nKeys ++ header.keysInfoMerkleRoot.val))))

/-- The limits that a header has to keep. -/
structure Valid (target : Target) (header : PolicyMapWalletHeader) : Prop where
  name : header.name.length ≤ maxWalletNameLength
  template : header.template.Fits target
  nKeys : header.nKeys ≤ 252

end PolicyMapWalletHeader

/-- The id of the wallet with the given header. -/
def getPolicyWalletId (H : HashFunction) (header : PolicyMapWalletHeader) : Digest :=
  H header.serialize

/-! ## Round trip -/

theorem walletPolicyVersion_versionByte (version : WalletPolicyVersion) :
    walletPolicyVersion (walletPolicyVersionByte version) = some version := by
  cases version <;> rfl

variable {target : Target} {template : HeaderTemplate}

theorem exists_readHeaderTemplate {tail : Bytes} (fits : template.Fits target)
    (remaining : buffer.remaining = template.bytes ++ tail) :
    ∃ rest, readHeaderTemplate target template.version template.length buffer =
      some (template, rest) ∧ rest.remaining = tail := by
  cases template with
  | text descriptorTemplate =>
    obtain ⟨rest, read, restEq⟩ := exists_bufferReadBytes remaining rfl
    refine ⟨rest, ?_, restEq⟩
    simp only [HeaderTemplate.Fits] at fits
    simp only [HeaderTemplate.bytes] at read
    simp [HeaderTemplate.version, HeaderTemplate.length, readHeaderTemplate, fits, read]
  | hashed descriptorTemplateLen descriptorTemplateSha256 =>
    obtain ⟨rest, read, restEq⟩ :=
      exists_bufferReadBytes remaining descriptorTemplateSha256.property
    refine ⟨rest, ?_, restEq⟩
    simp only [HeaderTemplate.Fits] at fits
    simp only [HeaderTemplate.bytes] at read
    simp [HeaderTemplate.version, HeaderTemplate.length, readHeaderTemplate, fits, read,
      Digest.ofBytes_val]

theorem HeaderTemplate.Fits.length_lt (fits : template.Fits target) : template.length < 2 ^ 16 := by
  cases template with
  | text descriptorTemplate => exact lt_of_le_of_lt fits (by decide)
  | hashed descriptorTemplateLen _ =>
    refine lt_of_le_of_lt fits ?_
    cases target <;> decide

variable {header : PolicyMapWalletHeader}

/-- A serialized header is read back. -/
theorem exists_readWalletPolicyHeader (valid : header.Valid target) (buffer : Buffer) (tail : Bytes)
    (remaining : buffer.remaining = header.serialize ++ tail) :
    ∃ rest, readWalletPolicyHeader target buffer = some (header, rest) ∧
      rest.remaining = tail := by
  have nameLen : (UInt8.ofNat header.name.length).toNat = header.name.length := by
    rw [UInt8.toNat_ofNat']
    exact Nat.mod_eq_of_lt (lt_of_le_of_lt valid.name (by decide))
  have nameFits := valid.name
  have keysFit := valid.nKeys
  have lengthLt := valid.template.length_lt
  simp only [PolicyMapWalletHeader.serialize, cons_append, append_assoc] at remaining
  obtain ⟨_, readVersion, remaining⟩ := exists_bufferReadU8 remaining
  obtain ⟨_, readNameLen, remaining⟩ := exists_bufferReadU8 remaining
  obtain ⟨_, readName, remaining⟩ := exists_bufferReadBytes remaining rfl
  obtain ⟨afterLen, readLen, remaining⟩ := exists_bufferReadVarint remaining
    (lengthLt.trans (by decide))
  obtain ⟨afterTemplate, readTemplate, remaining⟩ :=
    exists_readHeaderTemplate valid.template remaining
  obtain ⟨_, readKeys, remaining⟩ := exists_bufferReadVarint remaining (by omega)
  obtain ⟨rest, readRoot, remaining⟩ :=
    exists_bufferReadBytes remaining header.keysInfoMerkleRoot.property
  have readTemplate' : readHeaderTemplate target header.version header.descriptorTemplateLen
      afterLen = some (header.template, afterTemplate) := readTemplate
  refine ⟨rest, ?_, remaining⟩
  simp [readWalletPolicyHeader, readVersion, walletPolicyVersion_versionByte, readNameLen, nameLen,
    nameFits, readName, readLen, readTemplate', readKeys, keysFit, readRoot, Digest.ofBytes_val]

/-- Headers with the same serialization are the same. -/
theorem PolicyMapWalletHeader.serialize_inj {first second : PolicyMapWalletHeader}
    (firstValid : first.Valid target) (secondValid : second.Valid target)
    (same : first.serialize = second.serialize) : first = second := by
  obtain ⟨_, readFirst, -⟩ := exists_readWalletPolicyHeader firstValid
    (bufferCreate first.serialize) [] (by simp)
  obtain ⟨_, readSecond, -⟩ := exists_readWalletPolicyHeader secondValid
    (bufferCreate second.serialize) [] (by simp)
  rw [same, readSecond] at readFirst
  exact (Prod.mk.inj (Option.some.inj readFirst)).1.symm

/-! ## Headers that were read -/

variable {version : WalletPolicyVersion}

theorem fits_of_readHeaderTemplate {descriptorTemplateLen : Nat}
    (read : readHeaderTemplate target version descriptorTemplateLen buffer =
      some (template, rest)) : template.Fits target := by
  cases version with
  | v1 =>
    simp only [readHeaderTemplate, Option.bind_eq_bind, Option.bind_eq_some_iff,
      Option.guard_eq_some',
      Prod.exists, Option.pure_def, Option.some.injEq, Prod.mk.injEq] at read
    obtain ⟨_, fits, _, _, readBytes, rfl, -⟩ := read
    obtain ⟨_, rfl, -⟩ := bufferReadWith_eq_some_iff.mp readBytes
    rw [HeaderTemplate.Fits, id, length_take]
    omega
  | v2 =>
    simp only [readHeaderTemplate, Option.bind_eq_bind, Option.bind_eq_some_iff,
      Option.guard_eq_some',
      Prod.exists, Option.pure_def, Option.some.injEq, Prod.mk.injEq] at read
    obtain ⟨_, fits, _, _, _, rfl, -⟩ := read
    exact fits

theorem valid_of_readWalletPolicyHeader
    (read : readWalletPolicyHeader target buffer = some (header, rest)) : header.Valid target := by
  simp only [readWalletPolicyHeader, Option.bind_eq_bind, Option.bind_eq_some_iff,
    Option.guard_eq_some',
    Prod.exists, Option.pure_def, Option.some.injEq, Prod.mk.injEq] at read
  obtain ⟨_, _, _, _, _, _, _, _, _, _, _, _, readName, _, _, _, _, _,
    readTemplate, _, _, _, _, keysFit, _, _, _, rfl, -⟩ := read
  obtain ⟨_, rfl, -⟩ := bufferReadWith_eq_some_iff.mp readName
  refine ⟨?_, fits_of_readHeaderTemplate readTemplate, keysFit⟩
  rw [id, length_take]
  omega

/-! ## The bytes that are consumed -/

/-- A header with the given encodings of its two varints: the length of the template and the
number of keys. -/
def PolicyMapWalletHeader.layout (header : PolicyMapWalletHeader)
    (lengthEncoding keysEncoding : Bytes) : Bytes :=
  walletPolicyVersionByte header.version :: UInt8.ofNat header.name.length ::
    (header.name ++ (lengthEncoding ++ (header.template.bytes ++
      (keysEncoding ++ header.keysInfoMerkleRoot.val))))

theorem remaining_of_bufferReadBytes {count : Nat} {data : Bytes}
    (read : bufferReadBytes count buffer = some (data, rest)) :
    buffer.remaining = data ++ rest.remaining ∧ data.length = count := by
  have remaining := remaining_bufferReadWith read
  obtain ⟨enough, rfl, -⟩ := bufferReadWith_eq_some_iff.mp read
  rw [remaining, id, take_append_drop, length_take, Buffer.length_remaining]
  exact ⟨rfl, Nat.min_eq_left enough⟩

theorem remaining_of_bufferReadVarint {value : Nat}
    (read : bufferReadVarint buffer = some (value, rest)) :
    ∃ encoding, VarintEncodes encoding value ∧
      buffer.remaining = encoding ++ rest.remaining := by
  obtain ⟨size, readSize, bytesEq, offsetEq⟩ := bufferReadVarint_eq_some_iff.mp read
  refine ⟨buffer.remaining.take size, varintEncodes_take readSize, ?_⟩
  rw [Buffer.remaining, Buffer.remaining, bytesEq, offsetEq, ← drop_drop, take_append_drop]

theorem walletPolicyVersionByte_of_eq_some {byte : UInt8}
    (known : walletPolicyVersion byte = some version) : byte = walletPolicyVersionByte version := by
  unfold walletPolicyVersion at known
  split_ifs at known with first second
  · rw [← Option.some.inj known, first]
    rfl
  · rw [← Option.some.inj known, second]
    rfl

theorem remaining_of_readHeaderTemplate {descriptorTemplateLen : Nat}
    (read : readHeaderTemplate target version descriptorTemplateLen buffer =
      some (template, rest)) :
    buffer.remaining = template.bytes ++ rest.remaining ∧ template.version = version ∧
      template.length = descriptorTemplateLen := by
  cases version with
  | v1 =>
    simp only [readHeaderTemplate, Option.bind_eq_bind, Option.bind_eq_some_iff,
      Option.guard_eq_some', Prod.exists, Option.pure_def, Option.some.injEq,
      Prod.mk.injEq] at read
    obtain ⟨_, -, bytes, _, readBytes, rfl, rfl⟩ := read
    obtain ⟨remaining, length⟩ := remaining_of_bufferReadBytes readBytes
    exact ⟨remaining, rfl, length⟩
  | v2 =>
    simp only [readHeaderTemplate, Option.bind_eq_bind, Option.bind_eq_some_iff,
      Option.guard_eq_some', Prod.exists, Option.pure_def, Option.some.injEq,
      Prod.mk.injEq] at read
    obtain ⟨_, -, bytes, _, readBytes, rfl, rfl⟩ := read
    obtain ⟨remaining, length⟩ := remaining_of_bufferReadBytes readBytes
    refine ⟨?_, rfl, rfl⟩
    rw [remaining, HeaderTemplate.bytes, Digest.val_ofBytes length]

/-- What the reader consumes is the header, with some encodings of its varints. -/
theorem remaining_of_readWalletPolicyHeader
    (read : readWalletPolicyHeader target buffer = some (header, rest)) :
    ∃ lengthEncoding keysEncoding,
      VarintEncodes lengthEncoding header.descriptorTemplateLen ∧
      VarintEncodes keysEncoding header.nKeys ∧
      buffer.remaining = header.layout lengthEncoding keysEncoding ++ rest.remaining := by
  simp only [readWalletPolicyHeader, Option.bind_eq_bind, Option.bind_eq_some_iff,
    Option.guard_eq_some', Prod.exists, Option.pure_def, Option.some.injEq, Prod.mk.injEq] at read
  obtain ⟨_, _, readVersion, _, known, _, _, readNameLen, _, -, _, _,
    readName, _, _, readLen, _, _, readTemplate, _, _, readKeys, _, -, _, _,
    readRoot, rfl, rfl⟩ := read
  obtain ⟨remainingVersion, -⟩ := bufferReadU8_eq_some_iff.mp readVersion
  obtain ⟨remainingNameLen, -⟩ := bufferReadU8_eq_some_iff.mp readNameLen
  obtain ⟨remainingName, nameLength⟩ := remaining_of_bufferReadBytes readName
  obtain ⟨lengthEncoding, lengthEncodes, remainingLen⟩ := remaining_of_bufferReadVarint readLen
  obtain ⟨remainingTemplate, versionEq, lengthEq⟩ := remaining_of_readHeaderTemplate readTemplate
  obtain ⟨keysEncoding, keysEncodes, remainingKeys⟩ := remaining_of_bufferReadVarint readKeys
  obtain ⟨remainingRoot, rootLength⟩ := remaining_of_bufferReadBytes readRoot
  refine ⟨lengthEncoding, keysEncoding, ?_, keysEncodes, ?_⟩
  · rw [PolicyMapWalletHeader.descriptorTemplateLen, lengthEq]
    exact lengthEncodes
  · rw [remainingVersion, remainingNameLen, remainingName, remainingLen, remainingTemplate,
      remainingKeys, remainingRoot, walletPolicyVersionByte_of_eq_some known]
    simp only [PolicyMapWalletHeader.layout, PolicyMapWalletHeader.version, versionEq, nameLength,
      UInt8.ofNat_toNat, Digest.val_ofBytes rootLength, cons_append, append_assoc]

/-- The bytes that are hashed for the id are the bytes consumed, if the varints are minimal. -/
theorem PolicyMapWalletHeader.serialize_eq_layout {lengthEncoding keysEncoding : Bytes}
    (lengthEncodes : VarintEncodes lengthEncoding header.descriptorTemplateLen)
    (keysEncodes : VarintEncodes keysEncoding header.nKeys)
    (minimalLength : MinimalVarint lengthEncoding) (minimalKeys : MinimalVarint keysEncoding) :
    header.serialize = header.layout lengthEncoding keysEncoding := by
  rw [eq_varintWrite_of_minimal lengthEncodes minimalLength,
    eq_varintWrite_of_minimal keysEncodes minimalKeys]
  rfl

end LedgerSyscoin.Common
