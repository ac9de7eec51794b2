import LedgerSyscoin.Client.JavaScript
import LedgerSyscoin.Client.Python
import LedgerSyscoin.Client.Rust
import LedgerSyscoin.Handler.SignPsbt.Sign

/-!
# Signatures that the clients return

The device yields each signature with the index of its input and the key, which is
followed by the hash of the leaf for a taproot leaf. The clients parse what was yielded
after the command. The Python and the JavaScript client return what was sent. The Rust
client looks for the signature behind a hash of a leaf even if there is none, and fails
for every taproot key path.
-/

namespace LedgerSyscoin.Client

open Foundation Common Handler List

/-! ## Keys and signatures -/

/-- A type of a library with its bytes. -/
structure Wire (α : Type) where
  toBytes : α → Bytes
  fromSlice : Bytes → Option α
  fromSlice_toBytes : ∀ value, fromSlice (toBytes value) = some value

/-- The keys, the signatures and the hashes of leaves of the library that the Rust client uses. -/
structure Library extends Rust.Consensus where
  PublicKey : Type
  XOnlyPublicKey : Type
  EcdsaSignature : Type
  TaprootSignature : Type
  publicKey : Wire PublicKey
  xOnlyPublicKey : Wire XOnlyPublicKey
  ecdsaSignature : Wire EcdsaSignature
  taprootSignature : Wire TaprootSignature
  length_xOnlyPublicKey : ∀ key, (xOnlyPublicKey.toBytes key).length = 32
  /-- Taproot signatures have 64 bytes, or 65 with a type of the signature hash. -/
  length_of_taprootSignature : ∀ {bytes signature},
    taprootSignature.fromSlice bytes = some signature → bytes.length = 64 ∨ bytes.length = 65
  tapLeafHashFromSlice : Bytes → Option Digest
  tapLeafHashFromSlice_val : ∀ hash : Digest, tapLeafHashFromSlice hash.val = some hash

variable {lib : Library}

/-- A signature with its key, as the Rust client represents it. -/
inductive PartialSignature (lib : Library) where
  | sig (key : lib.PublicKey) (sig : lib.EcdsaSignature)
  | tapScriptSig (key : lib.XOnlyPublicKey) (tapLeafHash : Option Digest)
      (sig : lib.TaprootSignature)

namespace PartialSignature

def pubkey : PartialSignature lib → Bytes
  | sig key _ => lib.publicKey.toBytes key
  | tapScriptSig key _ _ => lib.xOnlyPublicKey.toBytes key

def tapleafHash : PartialSignature lib → Option Digest
  | sig _ _ => none
  | tapScriptSig _ tapLeafHash _ => tapLeafHash

def signature : PartialSignature lib → Bytes
  | .sig _ signature => lib.ecdsaSignature.toBytes signature
  | .tapScriptSig _ _ signature => lib.taprootSignature.toBytes signature

/-- Keys for ECDSA signatures have 33 bytes. -/
def Compressed : PartialSignature lib → Prop
  | sig key _ => (lib.publicKey.toBytes key).length = 33
  | tapScriptSig _ _ _ => True

/-- A taproot signature that is not for a leaf. -/
def IsKeyPath : PartialSignature lib → Prop
  | tapScriptSig _ none _ => True
  | _ => False

end PartialSignature

instance (signed : PartialSignature lib) : Decidable signed.IsKeyPath :=
  match signed with
  | .tapScriptSig _ none _ => inferInstanceAs (Decidable True)
  | .tapScriptSig _ (some _) _ => inferInstanceAs (Decidable False)
  | .sig _ _ => inferInstanceAs (Decidable False)

/-- A signature that the device yields. -/
structure Yielded (lib : Library) where
  inputIndex : Nat
  partialSignature : PartialSignature lib
  inputIndex_lt : inputIndex < 2 ^ 32
  compressed : partialSignature.Compressed

namespace Yielded

/-- The hash of the leaf, or nothing. -/
def leafBytes (yielded : Yielded lib) : Bytes :=
  match yielded.partialSignature.tapleafHash with
  | none => []
  | some tapleafHash => tapleafHash.val

/-- What the device sends in version 1 of the protocol. -/
def message (yielded : Yielded lib) : Bytes :=
  yieldMessage 1 yielded.inputIndex yielded.partialSignature.pubkey yielded.leafBytes
    yielded.partialSignature.signature

/-- The key with the hash of the leaf. -/
def augmented (yielded : Yielded lib) : Bytes :=
  yielded.partialSignature.pubkey ++ yielded.leafBytes

/-- The message without the code of the command. -/
def data (yielded : Yielded lib) : Bytes :=
  varintWrite yielded.inputIndex ++ (UInt8.ofNat yielded.augmented.length ::
    (yielded.augmented ++ yielded.partialSignature.signature))

theorem message_eq (yielded : Yielded lib) : yielded.message = ccmdYield :: yielded.data := by
  simp [message, yieldMessage, data, augmented]

/-- The key alone, or the key and the hash. -/
theorem augmented_cases (yielded : Yielded lib) : (yielded.partialSignature.tapleafHash = none ∧
      yielded.augmented = yielded.partialSignature.pubkey ∧
      (yielded.augmented.length = 32 ∨ yielded.augmented.length = 33)) ∨
    ∃ tapleafHash, yielded.partialSignature.tapleafHash = some tapleafHash ∧
      yielded.partialSignature.pubkey.length = 32 ∧
      yielded.augmented = yielded.partialSignature.pubkey ++ tapleafHash.val ∧
      yielded.augmented.length = 64 := by
  obtain ⟨_, signed, _, compressed⟩ := yielded
  cases signed with
  | sig key signature =>
    have length : (lib.publicKey.toBytes key).length = 33 := compressed
    refine Or.inl ⟨rfl, append_nil _, Or.inr ?_⟩
    rw [augmented, length_append]
    exact length
  | tapScriptSig key tapLeafHash signature =>
    have length := lib.length_xOnlyPublicKey key
    cases tapLeafHash with
    | none =>
      refine Or.inl ⟨rfl, append_nil _, Or.inl ?_⟩
      rw [augmented, length_append]
      exact length
    | some tapLeafHash =>
      refine Or.inr ⟨tapLeafHash, rfl, length, rfl, ?_⟩
      rw [augmented, length_append]
      exact congrArg₂ (· + ·) length tapLeafHash.property

theorem length_augmented_lt (yielded : Yielded lib) : yielded.augmented.length < 256 := by
  rcases yielded.augmented_cases with ⟨-, -, length⟩ | ⟨_, -, -, -, length⟩
  · omega
  · omega

theorem toNat_length (yielded : Yielded lib) :
    (UInt8.ofNat yielded.augmented.length).toNat = yielded.augmented.length := by
  rw [UInt8.toNat_ofNat', Nat.mod_eq_of_lt yielded.length_augmented_lt]

theorem length_data (yielded : Yielded lib) : 1 < yielded.data.length := by
  have positive := varintSize_pos yielded.inputIndex
  rw [data, length_append, length_varintWrite, length_cons, length_append]
  rcases yielded.augmented_cases with ⟨-, -, length⟩ | ⟨_, -, -, -, length⟩
  · omega
  · omega

end Yielded

/-! ## What the interpreters collect -/

/-- An interpreter that keeps the data of each yield. -/
def Collects {σ : Type} (party : Responder σ Bytes Bytes) (yielded : σ → List Bytes) : Prop :=
  ∀ state data, ∃ next, party state (ccmdYield :: data) = some ([], next) ∧
    yielded next = yielded state ++ [data]

theorem Collects.exists_serve {σ : Type} {party : Responder σ Bytes Bytes}
    {yielded : σ → List Bytes} (collects : Collects party yielded) (state : σ)
    (all : List Bytes) :
    ∃ final, party.serve state (all.map (ccmdYield :: ·)) = some (all.map fun _ => [], final) ∧
      yielded final = yielded state ++ all := by
  induction all generalizing state with
  | nil => exact ⟨state, rfl, (append_nil _).symm⟩
  | cons data all ih =>
    obtain ⟨next, first, kept⟩ := collects state data
    obtain ⟨final, later, keptLater⟩ := ih next
    refine ⟨final, Responder.serve_cons first later, ?_⟩
    rw [keptLater, kept, append_assoc, singleton_append]

/-! ## Python -/

namespace Python

theorem collects : Collects respond ClientCommandInterpreter.yielded := fun _ _ => ⟨_, rfl, rfl⟩

/-- The exceptions of the parser of the results. -/
inductive ResultFailure where
  | cannotReadPrefix
  | cannotReadVarint
  | cannotReadUint
  | invalidPubkeyLength (length : Nat)
  | invalidResponse

/-- The class `PartialSignature`. -/
structure PartialSignature where
  pubkey : Bytes
  signature : Bytes
  tapleafHash : Option Bytes

/-- The function `read_varint` on a stream: the value and the rest. -/
def readVarintFrom (buf : Bytes) : Except ResultFailure (Nat × Bytes) :=
  match buf with
  | [] => .error .cannotReadPrefix
  | lead :: rest =>
    let n := if lead = 0xFD then 2 else if lead = 0xFE then 4 else if lead = 0xFF then 8 else 1
    let b := if n > 1 then rest.take n else [lead]
    if b.length ≠ n then .error .cannotReadVarint
    else .ok (leNat b, if n > 1 then rest.drop n else rest)

/-- The function `read_uint` on a stream. -/
def readUintFrom (bitLen : Nat) (buf : Bytes) : Except ResultFailure (Nat × Bytes) :=
  let size := bitLen / 8
  let b := buf.take size
  if b.length < size then .error .cannotReadUint else .ok (leNat b, buf.drop size)

def makePartialSignature (pubkeyAugm signature : Bytes) : Except ResultFailure PartialSignature :=
  if pubkeyAugm.length = 64 then
    .ok ⟨pubkeyAugm.take 32, signature, some (pubkeyAugm.drop 32)⟩
  else if pubkeyAugm.length ∉ [32, 33] then .error (.invalidPubkeyLength pubkeyAugm.length)
  else .ok ⟨pubkeyAugm, signature, none⟩

/-- One result of the signing command. -/
def parseResult (res : Bytes) : Except ResultFailure (Nat × PartialSignature) := do
  let (inputIndex, resBuffer) ← readVarintFrom res
  let (pubkeyAugmLen, resBuffer) ← readUintFrom 8 resBuffer
  let pubkeyAugm := resBuffer.take pubkeyAugmLen
  let signature := resBuffer.drop pubkeyAugmLen
  return (inputIndex, ← makePartialSignature pubkeyAugm signature)

def parseResults (results : List Bytes) : Except ResultFailure (List (Nat × PartialSignature)) :=
  if results.any fun x => x.length ≤ 1 then .error .invalidResponse
  else results.mapM parseResult

theorem readVarintFrom_varintWrite {value : Nat} (small : value < 2 ^ 64) (rest : Bytes) :
    readVarintFrom (varintWrite value ++ rest) = .ok (value, rest) := by
  rcases varintWrite_cases value with ⟨_, size, write⟩ | ⟨_, bound, size, write⟩ |
    ⟨_, bound, size, write⟩ | ⟨_, size, write⟩
  · have toNatEq : (UInt8.ofNat value).toNat = value := by
      rw [UInt8.toNat_ofNat', Nat.mod_eq_of_lt (by omega)]
    have ne (marker : UInt8) (high : 0xFC < marker.toNat) : UInt8.ofNat value ≠ marker := by
      intro eq
      rw [← eq, toNatEq] at high
      omega
    simp [write, readVarintFrom, ne 0xFD (by decide), ne 0xFE (by decide), ne 0xFF (by decide),
      toNatEq]
  · simp [write, readVarintFrom, leNat_leBytes_of_lt (show value < 256 ^ 2 by omega)]
  · simp [write, readVarintFrom, leNat_leBytes_of_lt (show value < 256 ^ 4 by omega)]
  · simp [write, readVarintFrom, leNat_leBytes_of_lt (show value < 256 ^ 8 by omega)]

/-- The signature as this client represents it. -/
def ofYielded (yielded : Yielded lib) : Nat × PartialSignature :=
  (yielded.inputIndex, ⟨yielded.partialSignature.pubkey, yielded.partialSignature.signature,
    yielded.partialSignature.tapleafHash.map Subtype.val⟩)

theorem makePartialSignature_augmented (yielded : Yielded lib) :
    makePartialSignature yielded.augmented yielded.partialSignature.signature =
      .ok (ofYielded yielded).2 := by
  rcases yielded.augmented_cases with ⟨noLeaf, augmented, length⟩ |
    ⟨_, leaf, keyLength, augmented, length⟩
  · have member : yielded.augmented.length ∈ [32, 33] := by simpa using length
    rw [makePartialSignature, if_neg (by omega), if_neg (not_not.mpr member), augmented,
      ofYielded, noLeaf]
    rfl
  · rw [makePartialSignature, if_pos length, augmented, take_left' keyLength,
      drop_left' keyLength, ofYielded, leaf]
    rfl

theorem parseResult_data (yielded : Yielded lib) :
    parseResult yielded.data = .ok (ofYielded yielded) := by
  have index : yielded.inputIndex < 2 ^ 64 := yielded.inputIndex_lt.trans (by decide)
  rw [parseResult, Yielded.data, readVarintFrom_varintWrite index]
  have length : readUintFrom 8 (UInt8.ofNat yielded.augmented.length ::
      (yielded.augmented ++ yielded.partialSignature.signature)) =
      .ok (yielded.augmented.length, yielded.augmented ++ yielded.partialSignature.signature) := by
    simp [readUintFrom, yielded.toNat_length, -UInt8.toNat_ofNat']
  simp only [ok_bind, length, take_left, drop_left, makePartialSignature_augmented]
  rfl

theorem parseResults_data (sent : List (Yielded lib)) :
    parseResults (sent.map Yielded.data) = .ok (sent.map ofYielded) := by
  have long : ((sent.map Yielded.data).any fun x => x.length ≤ 1) = false := by
    simp [Yielded.length_data]
  rw [parseResults, long, if_neg (by decide), mapM_map]
  exact (congrArg (sent.mapM ·) (funext parseResult_data)).trans mapM_pure

end Python

/-! ## JavaScript -/

namespace JavaScript

theorem collects : Collects respond ClientCommandInterpreter.yielded := fun _ _ => ⟨_, rfl, rfl⟩

/-- The class `PartialSignature`. -/
structure PartialSignature where
  pubkey : Bytes
  signature : Bytes
  tapleafHash : Option Bytes

def makePartialSignature (pubkeyAugm signature : Bytes) : Option PartialSignature :=
  if pubkeyAugm.length = 64 then
    some ⟨pubkeyAugm.take 32, signature, some ((pubkeyAugm.drop 32).take 32)⟩
  else if pubkeyAugm.length = 32 ∨ pubkeyAugm.length = 33 then
    some ⟨pubkeyAugm, signature, none⟩
  else none

/-- One result of the signing command. Without a byte for the length the key is taken to be
empty, which is refused. -/
def parseInputAndSig (inputAndSig : Bytes) : Option (Nat × PartialSignature) := do
  let (inputIndex, inputIndexLen) ← parseVarint inputAndSig 0
  let pubkeyAugmLen ← (inputAndSig[inputIndexLen]?).map UInt8.toNat
  let pubkeyAugm := (inputAndSig.drop (inputIndexLen + 1)).take pubkeyAugmLen
  let signature := inputAndSig.drop (inputIndexLen + 1 + pubkeyAugmLen)
  let partialSig ← makePartialSignature pubkeyAugm signature
  return (inputIndex, partialSig)

def parseYielded (yielded : List Bytes) : Option (List (Nat × PartialSignature)) :=
  yielded.mapM parseInputAndSig

/-- The signature as this client represents it. -/
def ofYielded (yielded : Yielded lib) : Nat × PartialSignature :=
  (yielded.inputIndex, ⟨yielded.partialSignature.pubkey, yielded.partialSignature.signature,
    yielded.partialSignature.tapleafHash.map Subtype.val⟩)

theorem makePartialSignature_augmented (yielded : Yielded lib) :
    makePartialSignature yielded.augmented yielded.partialSignature.signature =
      some (ofYielded yielded).2 := by
  rcases yielded.augmented_cases with ⟨noLeaf, augmented, length⟩ |
    ⟨tapleafHash, leaf, keyLength, augmented, length⟩
  · rw [makePartialSignature, if_neg (by omega), if_pos length, augmented, ofYielded, noLeaf]
    rfl
  · rw [makePartialSignature, if_pos length, augmented, take_left' keyLength,
      drop_left' keyLength, take_of_length_le tapleafHash.property.le, ofYielded, leaf]
    rfl

theorem parseInputAndSig_data (yielded : Yielded lib) :
    parseInputAndSig yielded.data = some (ofYielded yielded) := by
  have index : yielded.inputIndex < 2 ^ 64 := yielded.inputIndex_lt.trans (by decide)
  have read : parseVarint yielded.data 0 =
      some (yielded.inputIndex, (varintWrite yielded.inputIndex).length) := by
    rw [parseVarint_eq, drop_zero, Yielded.data, varintRead_varintWrite_append _ index,
      length_varintWrite]
  have length : yielded.data[(varintWrite yielded.inputIndex).length]? =
      some (UInt8.ofNat yielded.augmented.length) := by
    rw [Yielded.data, getElem?_append_right le_rfl, Nat.sub_self, getElem?_cons_zero]
  have rest : yielded.data.drop ((varintWrite yielded.inputIndex).length + 1) =
      yielded.augmented ++ yielded.partialSignature.signature := by
    rw [← drop_drop, Yielded.data, drop_left, drop_one, tail_cons]
  have signature : yielded.data.drop ((varintWrite yielded.inputIndex).length + 1 +
      yielded.augmented.length) = yielded.partialSignature.signature := by
    rw [← drop_drop, rest, drop_left]
  rw [parseInputAndSig, read]
  simp only [Option.bind_eq_bind, Option.bind_some, length, Option.map_some, yielded.toNat_length,
    rest, take_left, signature, makePartialSignature_augmented]
  rfl

theorem parseYielded_data (sent : List (Yielded lib)) :
    parseYielded (sent.map Yielded.data) = some (sent.map ofYielded) := by
  rw [parseYielded, mapM_map]
  exact (congrArg (sent.mapM ·) (funext parseInputAndSig_data)).trans mapM_pure

end JavaScript

/-! ## Rust -/

namespace Rust

theorem collects (lib : Consensus) : Collects (respond lib) ClientCommandInterpreter.yielded :=
  fun _ _ => ⟨_, rfl, rfl⟩

inductive PartialSignatureError where
  | badKeyAugmentLength
  | xOnlyPubKey
  | pubKey
  | tapLeaf
  | ecdsaSig
  | taprootSig

/-- The slice from a position on; there is a panic if it is behind the end. -/
def sliceFrom (slice : Bytes) (start : Nat) : Option Bytes :=
  if start ≤ slice.length then some (slice.drop start) else none

/-- The function `PartialSignature::from_slice`; a panic is the outcome `none`. -/
def fromSlice (lib : Library) (slice : Bytes) :
    Option (Except PartialSignatureError (PartialSignature lib)) :=
  match slice.head? with
  | none => some (.error .badKeyAugmentLength)
  | some keyAugmentByte =>
    let keyAugmentLen := keyAugmentByte.toNat
    if keyAugmentLen ≥ slice.length then some (.error .badKeyAugmentLength)
    else if keyAugmentLen = 64 then
      match lib.xOnlyPublicKey.fromSlice ((slice.drop 1).take 32) with
      | none => some (.error .xOnlyPubKey)
      | some key =>
        match lib.tapLeafHashFromSlice ((slice.drop 33).take 32) with
        | none => some (.error .tapLeaf)
        | some tapLeafHash =>
          (sliceFrom slice 65).map fun rest =>
            match lib.taprootSignature.fromSlice rest with
            | none => .error .taprootSig
            | some sig => .ok (.tapScriptSig key (some tapLeafHash) sig)
    else if keyAugmentLen = 32 then
      match lib.xOnlyPublicKey.fromSlice ((slice.drop 1).take 32) with
      | none => some (.error .xOnlyPubKey)
      | some key =>
        -- The source takes the signature from 65 on here as well.
        (sliceFrom slice 65).map fun rest =>
          match lib.taprootSignature.fromSlice rest with
          | none => .error .taprootSig
          | some sig => .ok (.tapScriptSig key none sig)
    else
      match lib.publicKey.fromSlice ((slice.drop 1).take keyAugmentLen) with
      | none => some (.error .pubKey)
      | some key =>
        (sliceFrom slice (keyAugmentLen + 1)).map fun rest =>
          match lib.ecdsaSignature.fromSlice rest with
          | none => .error .ecdsaSig
          | some sig => .ok (.sig key sig)

inductive BitcoinClientError where
  | unexpectedResult

/-- The loop over the results of the signing command. -/
def parseSignatures (lib : Library) :
    List Bytes → Option (Except BitcoinClientError (List (Nat × PartialSignature lib)))
  | [] => some (.ok [])
  | result :: results =>
    match lib.deserializePartial result with
    | none => some (.error .unexpectedResult)
    | some (inputIndex, i) =>
      match fromSlice lib (result.drop i) with
      | none => none
      | some (.error _) => some (.error .unexpectedResult)
      | some (.ok signature) =>
        (parseSignatures lib results).map fun parsed =>
          parsed.map ((inputIndex, signature) :: ·)

def parseYielded (lib : Library) (results : List Bytes) :
    Option (Except BitcoinClientError (List (Nat × PartialSignature lib))) :=
  if results.any fun res => res.length ≤ 1 then some (.error .unexpectedResult)
  else parseSignatures lib results

/-- The signature as this client represents it. -/
def ofYielded (yielded : Yielded lib) : Nat × PartialSignature lib :=
  (yielded.inputIndex, yielded.partialSignature)

theorem fromSlice_sig {key : lib.PublicKey} (signature : lib.EcdsaSignature)
    (compressed : (lib.publicKey.toBytes key).length = 33) :
    fromSlice lib (33 :: (lib.publicKey.toBytes key ++ lib.ecdsaSignature.toBytes signature)) =
      some (.ok (.sig key signature)) := by
  have byte : (33 : UInt8).toNat = 33 := rfl
  simp only [fromSlice, head?_cons, byte, length_cons, length_append, compressed,
    drop_zero, take_left' compressed, lib.publicKey.fromSlice_toBytes,
    sliceFrom, drop_succ_cons, drop_left' compressed]
  rw [if_neg (by omega), if_neg (by decide), if_neg (by decide), if_pos (by omega)]
  simp only [Option.map_some, lib.ecdsaSignature.fromSlice_toBytes]

theorem fromSlice_tapScriptSig (key : lib.XOnlyPublicKey) (tapLeafHash : Digest)
    (signature : lib.TaprootSignature) :
    fromSlice lib (64 :: ((lib.xOnlyPublicKey.toBytes key ++ tapLeafHash.val) ++
      lib.taprootSignature.toBytes signature)) =
      some (.ok (.tapScriptSig key (some tapLeafHash) signature)) := by
  have byte : (64 : UInt8).toNat = 64 := rfl
  have keyLength := lib.length_xOnlyPublicKey key
  have hashLength := tapLeafHash.property
  have afterHash : (lib.xOnlyPublicKey.toBytes key ++ (tapLeafHash.val ++
      lib.taprootSignature.toBytes signature)).drop 64 =
      lib.taprootSignature.toBytes signature := by
    rw [← append_assoc]
    exact drop_left' (by rw [length_append, keyLength, hashLength])
  simp only [fromSlice, head?_cons, byte, length_cons, length_append, keyLength,
    hashLength, append_assoc, drop_zero, take_left' keyLength,
    lib.xOnlyPublicKey.fromSlice_toBytes, drop_succ_cons, drop_left' keyLength,
    take_left' hashLength, lib.tapLeafHashFromSlice_val, sliceFrom, afterHash]
  rw [if_neg (by omega), if_pos trivial, if_pos (by omega)]
  simp only [Option.map_some, lib.taprootSignature.fromSlice_toBytes]

/-- A taproot signature without a leaf is not found: the bytes from 65 on are too few. -/
theorem fromSlice_keyPath (key : lib.XOnlyPublicKey) (signature : lib.TaprootSignature) :
    fromSlice lib (32 :: (lib.xOnlyPublicKey.toBytes key ++
      lib.taprootSignature.toBytes signature)) = some (.error .taprootSig) := by
  have byte : (32 : UInt8).toNat = 32 := rfl
  have keyLength := lib.length_xOnlyPublicKey key
  have signatureLength :=
    lib.length_of_taprootSignature (lib.taprootSignature.fromSlice_toBytes signature)
  have cut : lib.taprootSignature.fromSlice ((lib.xOnlyPublicKey.toBytes key ++
      lib.taprootSignature.toBytes signature).drop 64) = none := by
    rw [Option.eq_none_iff_forall_ne_some]
    intro parsed accepted
    have length := lib.length_of_taprootSignature accepted
    rw [length_drop, length_append, keyLength] at length
    omega
  simp only [fromSlice, head?_cons, byte, length_cons, length_append, keyLength,
    drop_zero, take_left' keyLength,
    lib.xOnlyPublicKey.fromSlice_toBytes, drop_succ_cons, sliceFrom]
  rw [if_neg (by omega), if_neg (by decide), if_pos trivial, if_pos (by omega)]
  simp only [Option.map_some, cut]

/-- What the parser makes of a yielded signature. -/
theorem fromSlice_yielded (yielded : Yielded lib) :
    fromSlice lib (UInt8.ofNat yielded.augmented.length ::
      (yielded.augmented ++ yielded.partialSignature.signature)) =
    some (if yielded.partialSignature.IsKeyPath then .error .taprootSig
      else .ok yielded.partialSignature) := by
  obtain ⟨inputIndex, signed, inputIndexLt, compressed⟩ := yielded
  cases signed with
  | sig key signature =>
    have length : (lib.publicKey.toBytes key).length = 33 := compressed
    rw [if_neg (fun keyPath => keyPath.elim)]
    have augmented : (⟨inputIndex, .sig key signature, inputIndexLt, compressed⟩ :
        Yielded lib).augmented = lib.publicKey.toBytes key := append_nil _
    rw [augmented, length]
    exact fromSlice_sig signature length
  | tapScriptSig key tapLeafHash signature =>
    have keyLength := lib.length_xOnlyPublicKey key
    cases tapLeafHash with
    | none =>
      rw [if_pos (show PartialSignature.IsKeyPath (.tapScriptSig key none signature) from
        trivial)]
      have augmented : (⟨inputIndex, .tapScriptSig key none signature, inputIndexLt,
          compressed⟩ : Yielded lib).augmented = lib.xOnlyPublicKey.toBytes key :=
        append_nil _
      rw [augmented, keyLength]
      exact fromSlice_keyPath key signature
    | some tapLeafHash =>
      rw [if_neg (fun keyPath => keyPath.elim)]
      have augmented : (⟨inputIndex, .tapScriptSig key (some tapLeafHash) signature,
          inputIndexLt, compressed⟩ : Yielded lib).augmented =
          lib.xOnlyPublicKey.toBytes key ++ tapLeafHash.val := rfl
      rw [augmented, length_append, keyLength, tapLeafHash.property]
      exact fromSlice_tapScriptSig key tapLeafHash signature

theorem deserializePartial_data (yielded : Yielded lib) :
    lib.deserializePartial yielded.data =
      some (yielded.inputIndex, (varintWrite yielded.inputIndex).length) := by
  have index : yielded.inputIndex < 2 ^ 64 := yielded.inputIndex_lt.trans (by decide)
  rw [Yielded.data, lib.deserializePartial_append index, length_varintWrite]

/-- The results are parsed unless one of them is a taproot signature without a leaf. -/
theorem parseSignatures_data (sent : List (Yielded lib)) :
    parseSignatures lib (sent.map Yielded.data) =
      some (if ∃ yielded ∈ sent, yielded.partialSignature.IsKeyPath then .error .unexpectedResult
        else .ok (sent.map ofYielded)) := by
  induction sent with
  | nil => simp [parseSignatures]
  | cons yielded sent ih =>
    have slice : yielded.data.drop (varintWrite yielded.inputIndex).length =
        UInt8.ofNat yielded.augmented.length ::
          (yielded.augmented ++ yielded.partialSignature.signature) := drop_left
    simp only [map_cons, parseSignatures, deserializePartial_data, slice,
      fromSlice_yielded, ih, exists_mem_cons_iff]
    by_cases keyPath : yielded.partialSignature.IsKeyPath
    · rw [if_pos keyPath, if_pos (Or.inl keyPath)]
    · rw [if_neg keyPath]
      by_cases later : ∃ yielded ∈ sent, yielded.partialSignature.IsKeyPath
      · rw [if_pos (Or.inr later), if_pos later]
        rfl
      · rw [if_neg (not_or.mpr ⟨keyPath, later⟩), if_neg later]
        rfl

theorem parseYielded_data (sent : List (Yielded lib)) :
    parseYielded lib (sent.map Yielded.data) =
      some (if ∃ yielded ∈ sent, yielded.partialSignature.IsKeyPath then .error .unexpectedResult
        else .ok (sent.map ofYielded)) := by
  have long : ((sent.map Yielded.data).any fun res => res.length ≤ 1) = false := by
    simp [Yielded.length_data]
  rw [parseYielded, long, if_neg (by decide), parseSignatures_data]

end Rust

/-! ## All clients -/

/-- The signatures that the Python client returns after the messages of the device. -/
def Python.signatures (client : Python.ClientCommandInterpreter) (messages : List Bytes) :
    Option (Except Python.ResultFailure (List (Nat × Python.PartialSignature))) :=
  (Responder.serve Python.respond client messages).map fun served =>
    Python.parseResults served.2.yielded

/-- The signatures that the JavaScript client returns after the messages of the device. -/
def JavaScript.signatures (client : JavaScript.ClientCommandInterpreter) (messages : List Bytes) :
    Option (List (Nat × JavaScript.PartialSignature)) :=
  (Responder.serve JavaScript.respond client messages).bind fun served =>
    JavaScript.parseYielded served.2.yielded

/-- The signatures that the Rust client returns after the messages of the device. -/
def Rust.signatures (lib : Library) (client : Rust.ClientCommandInterpreter)
    (messages : List Bytes) :
    Option (Except Rust.BitcoinClientError (List (Nat × PartialSignature lib))) :=
  (Responder.serve (Rust.respond lib.toConsensus) client messages).bind fun served =>
    Rust.parseYielded lib served.2.yielded

/-- The clients between a signing command and its first signature. -/
structure Listening where
  python : Python.ClientCommandInterpreter
  javaScript : JavaScript.ClientCommandInterpreter
  rust : Rust.ClientCommandInterpreter
  python_yielded : python.yielded = []
  javaScript_yielded : javaScript.yielded = []
  rust_yielded : rust.yielded = []

/-- Every client returns the signatures with their indices, keys and hashes of leaves. -/
structure Decoded (clients : Listening) (sent : List (Yielded lib)) : Prop where
  python : Python.signatures clients.python (sent.map Yielded.message) =
    some (.ok (sent.map Python.ofYielded))
  javaScript : JavaScript.signatures clients.javaScript (sent.map Yielded.message) =
    some (sent.map JavaScript.ofYielded)
  rust : Rust.signatures lib clients.rust (sent.map Yielded.message) =
    some (.ok (sent.map Rust.ofYielded))

theorem map_message (sent : List (Yielded lib)) :
    sent.map Yielded.message = (sent.map Yielded.data).map (ccmdYield :: ·) := by
  rw [map_map]
  exact map_congr_left fun yielded _ => yielded.message_eq

theorem rust_signatures (clients : Listening) (sent : List (Yielded lib)) :
    Rust.signatures lib clients.rust (sent.map Yielded.message) =
      some (if ∃ yielded ∈ sent, yielded.partialSignature.IsKeyPath then .error .unexpectedResult
        else .ok (sent.map Rust.ofYielded)) := by
  obtain ⟨_, served, collected⟩ :=
    (Rust.collects lib.toConsensus).exists_serve clients.rust (sent.map Yielded.data)
  rw [clients.rust_yielded, nil_append] at collected
  rw [Rust.signatures, map_message, served, Option.bind_some, collected, Rust.parseYielded_data]

/-- The signatures are decoded by all clients exactly if none of them is a taproot signature
without a leaf. -/
theorem decoded_iff (clients : Listening) (sent : List (Yielded lib)) :
    Decoded clients sent ↔ ∀ yielded ∈ sent, ¬ yielded.partialSignature.IsKeyPath := by
  constructor
  · intro decoded yielded member keyPath
    have rust := decoded.rust
    rw [rust_signatures, if_pos ⟨yielded, member, keyPath⟩] at rust
    cases rust
  · intro noKeyPath
    refine ⟨?_, ?_, ?_⟩
    · obtain ⟨final, served, collected⟩ :=
        Python.collects.exists_serve clients.python (sent.map Yielded.data)
      rw [clients.python_yielded, nil_append] at collected
      rw [Python.signatures, map_message, served, Option.map_some, collected,
        Python.parseResults_data]
    · obtain ⟨final, served, collected⟩ :=
        JavaScript.collects.exists_serve clients.javaScript (sent.map Yielded.data)
      rw [clients.javaScript_yielded, nil_append] at collected
      rw [JavaScript.signatures, map_message, served, Option.bind_some, collected,
        JavaScript.parseYielded_data]
    · rw [rust_signatures, if_neg (fun ⟨yielded, member, keyPath⟩ =>
        noKeyPath yielded member keyPath)]

/-- Byte strings of some lengths as a type of a library. -/
def Wire.sized (lengths : List Nat) : Wire { bytes : Bytes // bytes.length ∈ lengths } where
  toBytes := Subtype.val
  fromSlice bytes := if inside : bytes.length ∈ lengths then some ⟨bytes, inside⟩ else none
  fromSlice_toBytes value := dif_pos value.property

theorem Wire.length_of_sized {lengths : List Nat} {bytes : Bytes}
    {value : { bytes : Bytes // bytes.length ∈ lengths }}
    (accepted : (Wire.sized lengths).fromSlice bytes = some value) : bytes.length ∈ lengths := by
  by_contra outside
  have refused : (Wire.sized lengths).fromSlice bytes = none := dif_neg outside
  rw [refused] at accepted
  cases accepted

/-- A library that only checks lengths. -/
def sampleLibrary : Library where
  toConsensus := .shortest
  PublicKey := { bytes : Bytes // bytes.length ∈ [33, 65] }
  XOnlyPublicKey := { bytes : Bytes // bytes.length ∈ [32] }
  EcdsaSignature := { bytes : Bytes // bytes.length ∈ [71, 72] }
  TaprootSignature := { bytes : Bytes // bytes.length ∈ [64, 65] }
  publicKey := Wire.sized [33, 65]
  xOnlyPublicKey := Wire.sized [32]
  ecdsaSignature := Wire.sized [71, 72]
  taprootSignature := Wire.sized [64, 65]
  length_xOnlyPublicKey key := mem_singleton.mp key.property
  length_of_taprootSignature accepted := mem_pair.mp (Wire.length_of_sized accepted)
  tapLeafHashFromSlice bytes := if bytes.length = 32 then some (Digest.ofBytes bytes) else none
  tapLeafHashFromSlice_val hash := by rw [if_pos hash.property, Digest.ofBytes_val]

def sampleClients : Listening := ⟨.new, .new, .new, rfl, rfl, rfl⟩

/-- An ECDSA signature for the input 3. -/
def sampleEcdsa : Yielded sampleLibrary where
  inputIndex := 3
  partialSignature := .sig ⟨replicate 33 0x02, by decide⟩ ⟨replicate 71 0x30, by decide⟩
  inputIndex_lt := by decide
  compressed := length_replicate

/-- A taproot signature for the input 0 without a leaf. -/
def sampleKeyPath : Yielded sampleLibrary where
  inputIndex := 0
  partialSignature :=
    .tapScriptSig ⟨replicate 32 0x02, by decide⟩ none ⟨replicate 64 0x07, by decide⟩
  inputIndex_lt := by decide
  compressed := trivial

theorem decoded_iff_sample : Decoded sampleClients [sampleEcdsa] :=
  (decoded_iff sampleClients [sampleEcdsa]).mpr
    (forall_mem_singleton.mpr fun keyPath => keyPath.elim)

/-- The taproot signature without a leaf is not decoded by the Rust client. -/
theorem rust_misses_keyPath :
    Rust.signatures sampleLibrary sampleClients.rust [sampleKeyPath.message] =
      some (.error .unexpectedResult) ∧
    ¬ Decoded sampleClients [sampleKeyPath] := by
  have fails : Rust.signatures sampleLibrary sampleClients.rust [sampleKeyPath.message] =
      some (.error .unexpectedResult) := by
    rw [← map_singleton, rust_signatures, if_pos ⟨sampleKeyPath, mem_singleton_self _, trivial⟩]
  refine ⟨fails, fun decoded => ?_⟩
  have rust := decoded.rust
  rw [map_singleton, fails] at rust
  cases rust

end LedgerSyscoin.Client
