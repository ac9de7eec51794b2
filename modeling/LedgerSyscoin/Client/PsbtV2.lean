import LedgerSyscoin.Client.Buffertools
import LedgerSyscoin.Client.Mapping

/-!
# PSBTs of the JavaScript client

The maps of the class `PsbtV2`, which have hexadecimal strings as keys, with their
serialization and deserialization. A PSBT of version 0 is converted while it is read, by
a parser of transactions that is a parameter here. A PSBT of version 2 is read back as
it was written.
-/

namespace LedgerSyscoin.Client.JavaScript

open Foundation Common List

variable {reader : BufferReader} {left : Bytes} {mappings : List Mapping} {entry : Bytes × Bytes}
  {entries : List (Bytes × Bytes)}

/-! ## Maps with hexadecimal keys -/

def hexValue (char : Char) : Option Nat :=
  if '0' ≤ char ∧ char ≤ '9' then some (char.toNat - 48)
  else if 'a' ≤ char ∧ char ≤ 'f' then some (char.toNat - 87)
  else if 'A' ≤ char ∧ char ≤ 'F' then some (char.toNat - 55)
  else none

/-- The bytes of a hexadecimal string, up to the first pair that is not hexadecimal. -/
def fromHex : List Char → Bytes
  | high :: low :: rest =>
    match hexValue high, hexValue low with
    | some high, some low => UInt8.ofNat (16 * high + low) :: fromHex rest
    | _, _ => []
  | _ => []

theorem hexValue_hexDigit {digit : Nat} (small : digit < 16) :
    hexValue (hexDigit digit) = some digit := by
  have all : ∀ digit : Fin 16, hexValue (hexDigit digit.val) = some digit.val := by decide
  exact all ⟨digit, small⟩

@[simp]
theorem fromHex_toHex (bytes : Bytes) : fromHex (toHex bytes) = bytes := by
  induction bytes with
  | nil => rfl
  | cons byte bytes ih =>
    have byteLt := byte.toNat_lt
    rw [toHex, fromHex, hexValue_hexDigit (by omega), hexValue_hexDigit (by omega), ih]
    simp only [Nat.div_add_mod, UInt8.ofNat_toNat]

/-- A map from strings to buffers, in the order of insertion. -/
structure JsMap where
  entries : List (List Char × Bytes)
  nodup : (entries.map Prod.fst).Nodup

namespace JsMap

def empty : JsMap := ⟨[], nodup_nil⟩

def get (map : JsMap) (key : List Char) : Option Bytes := map.entries.lookup key

/-- A new entry comes last; a changed one stays at its place. -/
def setEntries (entries : List (List Char × Bytes)) (key : List Char) (value : Bytes) :
    List (List Char × Bytes) :=
  if key ∈ entries.map Prod.fst then
    entries.map fun entry => if entry.1 = key then (key, value) else entry
  else entries ++ [(key, value)]

theorem nodup_setEntries {entries : List (List Char × Bytes)} (key : List Char) (value : Bytes)
    (nodup : (entries.map Prod.fst).Nodup) :
    ((setEntries entries key value).map Prod.fst).Nodup := by
  unfold setEntries
  split_ifs with present
  · have kept : (entries.map fun entry => if entry.1 = key then (key, value) else entry).map
        Prod.fst = entries.map Prod.fst := by
      rw [map_map]
      refine map_congr_left fun entry _ => ?_
      by_cases same : entry.1 = key
      · rw [Function.comp_apply, if_pos same, same]
      · rw [Function.comp_apply, if_neg same]
    rw [kept]
    exact nodup
  · rw [map_append, map_singleton]
    refine nodup_append.mpr ⟨nodup, nodup_singleton _, fun other member last mem => ?_⟩
    rw [mem_singleton.mp mem]
    rintro rfl
    exact present member

def set (map : JsMap) (key : List Char) (value : Bytes) : JsMap :=
  ⟨setEntries map.entries key value, nodup_setEntries key value map.nodup⟩

def delete (map : JsMap) (key : List Char) : JsMap :=
  ⟨map.entries.filter fun entry => entry.1 ≠ key, map.nodup.sublist (filter_sublist.map Prod.fst)⟩

end JsMap

/-- The string of a key. -/
def keyString (keyType : UInt8) (keyData : Bytes) : List Char := toHex (keyType :: keyData)

/-! ## The class -/

structure PsbtV2 where
  globalMap : JsMap
  inputMaps : List JsMap
  outputMaps : List JsMap

def psbtMagicBytes : Bytes := [0x70, 0x73, 0x62, 0x74, 0xFF]

namespace PsbtGlobal

def unsignedTx : UInt8 := 0x00

def txVersion : UInt8 := 0x02

def fallbackLocktime : UInt8 := 0x03

def inputCount : UInt8 := 0x04

def outputCount : UInt8 := 0x05

def version : UInt8 := 0xFB

end PsbtGlobal

namespace PsbtIn

def previousTxid : UInt8 := 0x0E

def outputIndex : UInt8 := 0x0F

def sequence : UInt8 := 0x10

end PsbtIn

namespace PsbtOut

def amount : UInt8 := 0x03

def script : UInt8 := 0x04

end PsbtOut

def readUInt32LE (buffer : Bytes) : Option Nat :=
  if buffer.length < 4 then none else some (leNat (buffer.take 4))

/-- The first four bytes as a signed number. -/
def readInt32LE (buffer : Bytes) : Option Int :=
  (readUInt32LE buffer).map fun value => if value < 2 ^ 31 then value else value - 2 ^ 32

/-- Numbers that do not fit are refused. -/
def uint32LE (n : Int) : Option Bytes :=
  if 0 ≤ n ∧ n < 2 ^ 32 then some (leBytes 4 n.toNat) else none

def uint64LE (n : Nat) : Option Bytes := if n > maxSafeInteger then none else some (leBytes 8 n)

def fromVarint (buffer : Bytes) : Option Nat := do
  let (value, _) ← (⟨buffer, 0⟩ : BufferReader).readVarInt
  sanitizeBigintToNumber value

namespace PsbtV2

/-- The value of a key without data. -/
def getGlobal (globalMap : JsMap) (keyType : UInt8) : Option Bytes :=
  globalMap.get (keyString keyType [])

def setGlobal (globalMap : JsMap) (keyType : UInt8) (value : Bytes) : JsMap :=
  globalMap.set (keyString keyType []) value

def getGlobalPsbtVersion (globalMap : JsMap) : Option Nat :=
  (getGlobal globalMap PsbtGlobal.version).bind readUInt32LE

def getGlobalInputCount (globalMap : JsMap) : Option Nat :=
  (getGlobal globalMap PsbtGlobal.inputCount).bind fromVarint

def getGlobalOutputCount (globalMap : JsMap) : Option Nat :=
  (getGlobal globalMap PsbtGlobal.outputCount).bind fromVarint

end PsbtV2

/-! ## Serialization -/

/-- A key and a value, written with their lengths. -/
def writeKeyPair (buf : BufferWriter) (key value : Bytes) : Option BufferWriter :=
  match key with
  | [] => none
  | keyType :: keyData => do
    let buf ← buf.writeVarInt (1 + keyData.length)
    let buf ← buf.writeUInt8 keyType.toNat
    let buf := buf.writeSlice keyData
    buf.writeVarSlice value

/-- The comparison of keys by `localeCompare`, which orders lower-case hexadecimal strings by
their characters. -/
def hexLe (first second : List Char × Bytes) : Bool := ¬ second.1 < first.1

def serializeMap (buf : BufferWriter) (map : JsMap) : Option BufferWriter := do
  let buf ← (map.entries.mergeSort hexLe).foldlM
    (fun buf entry => writeKeyPair buf (fromHex entry.1) entry.2) buf
  buf.writeUInt8 0

def PsbtV2.serialize (self : PsbtV2) : Option Bytes := do
  let buf := BufferWriter.new.writeSlice psbtMagicBytes
  let buf ← serializeMap buf self.globalMap
  let buf ← self.inputMaps.foldlM serializeMap buf
  let buf ← self.outputMaps.foldlM serializeMap buf
  return buf.buffer

/-! ## Deserialization -/

/-- Read a key and a value; there is no new map after the end of the map. -/
def readKeyPair (map : JsMap) (buf : BufferReader) : Option (Option JsMap × BufferReader) := do
  let (length, buf) ← buf.readVarInt
  let keyLen ← sanitizeBigintToNumber length
  if keyLen = 0 then return (none, buf)
  let (keyType, buf) ← buf.readUInt8
  let (keyData, buf) ← buf.readSlice (keyLen - 1)
  let (value, buf) ← buf.readVarSlice
  return (some (map.set (keyString keyType keyData) value), buf)

/-- The loop that reads a map. Every round reads at least one byte. -/
def readMapLoop : Nat → JsMap → BufferReader → Option (JsMap × BufferReader)
  | 0, _, _ => none
  | fuel + 1, map, buf =>
    match readKeyPair map buf with
    | none => none
    | some (none, buf) => some (map, buf)
    | some (some map, buf) => readMapLoop fuel map buf

def readMap (buf : BufferReader) : Option (JsMap × BufferReader) :=
  readMapLoop (buf.buffer.length + 1) JsMap.empty buf

def readMaps : Nat → BufferReader → Option (List JsMap × BufferReader)
  | 0, buf => some ([], buf)
  | count + 1, buf => do
    let (map, buf) ← readMap buf
    let (maps, buf) ← readMaps count buf
    return (map :: maps, buf)

/-- A transaction as the library parses it. -/
structure BjsTransaction where
  version : Int
  locktime : Nat
  ins : List (Bytes × Nat × Nat)
  outs : List (Nat × Bytes)

/-- Set a value in the map with the given index, which is new if there is none yet. -/
def setInMap (maps : List JsMap) (index : Nat) (keyType : UInt8) (value : Bytes) : List JsMap :=
  if index < maps.length then maps.modify index fun map => map.set (keyString keyType []) value
  else maps ++ [JsMap.empty.set (keyString keyType []) value]

/-- The loop that fills in the inputs from an index on. -/
def normalizeInputs (maps : List JsMap) : Nat → List (Bytes × Nat × Nat) → Option (List JsMap)
  | _, [] => some maps
  | i, (hash, index, sequence) :: ins => do
    let maps := setInMap maps i PsbtIn.previousTxid hash
    let maps := setInMap maps i PsbtIn.outputIndex (← uint32LE index)
    let maps := setInMap maps i PsbtIn.sequence (← uint32LE sequence)
    normalizeInputs maps (i + 1) ins

/-- The loop that fills in the outputs from an index on. -/
def normalizeOutputs (maps : List JsMap) : Nat → List (Nat × Bytes) → Option (List JsMap)
  | _, [] => some maps
  | i, (value, script) :: outs => do
    let maps := setInMap maps i PsbtOut.amount (← uint64LE value)
    let maps := setInMap maps i PsbtOut.script script
    normalizeOutputs maps (i + 1) outs

namespace PsbtV2

variable (parseTransaction : Bytes → Option BjsTransaction)

/-- Convert a PSBT of version 0. -/
def convertFromV0 (self : PsbtV2) : Option PsbtV2 := do
  let txRaw ← getGlobal self.globalMap PsbtGlobal.unsignedTx
  let tx ← parseTransaction txRaw
  let globalMap := setGlobal self.globalMap PsbtGlobal.version (← uint32LE 2)
  let globalMap := setGlobal globalMap PsbtGlobal.txVersion (← uint32LE tx.version)
  let globalMap := setGlobal globalMap PsbtGlobal.fallbackLocktime (← uint32LE tx.locktime)
  let globalMap := setGlobal globalMap PsbtGlobal.inputCount (← createVarint tx.ins.length)
  let globalMap := setGlobal globalMap PsbtGlobal.outputCount (← createVarint tx.outs.length)
  let inputMaps ← normalizeInputs self.inputMaps 0 tx.ins
  let outputMaps ← normalizeOutputs self.outputMaps 0 tx.outs
  return ⟨globalMap.delete (keyString PsbtGlobal.unsignedTx []), inputMaps, outputMaps⟩

def normalizeToV2 (self : PsbtV2) : Option PsbtV2 :=
  match getGlobal self.globalMap PsbtGlobal.version with
  | some value =>
    match readInt32LE value with
    | some 2 => some self
    | _ => none
  | none => self.convertFromV0 parseTransaction

/-- The numbers of inputs and outputs that follow the global map. -/
def mapCounts (globalMap : JsMap) (psbtVersion : Nat) : Option (Nat × Nat) :=
  if psbtVersion = 0 then do
    let txRaw ← getGlobal globalMap PsbtGlobal.unsignedTx
    let tx ← parseTransaction txRaw
    return (tx.ins.length, tx.outs.length)
  else do
    let nInputs ← getGlobalInputCount globalMap
    let nOutputs ← getGlobalOutputCount globalMap
    return (nInputs, nOutputs)

/-- Deserialization into a new object. A version that cannot be read counts as 0. -/
def deserialize (psbt : Bytes) : Option PsbtV2 := do
  let (magic, buf) ← (⟨psbt, 0⟩ : BufferReader).readSlice 5
  if magic ≠ psbtMagicBytes then none
  let (globalMap, buf) ← readMap buf
  let psbtVersion := (getGlobalPsbtVersion globalMap).getD 0
  if psbtVersion ≠ 0 ∧ psbtVersion ≠ 2 then none
  let (nInputs, nOutputs) ← mapCounts parseTransaction globalMap psbtVersion
  let (inputMaps, buf) ← readMaps nInputs buf
  let (outputMaps, _) ← readMaps nOutputs buf
  normalizeToV2 parseTransaction ⟨globalMap, inputMaps, outputMaps⟩

end PsbtV2

/-! ## The bytes of a map -/

/-- A key and a value with their lengths in front. -/
def entryBytes (entry : Bytes × Bytes) : Bytes :=
  varintWrite entry.1.length ++ (entry.1 ++ (varintWrite entry.2.length ++ entry.2))

/-- Entries one after the other, and a zero. -/
def mapBytes (entries : List (Bytes × Bytes)) : Bytes := entries.flatMap entryBytes ++ [0]

/-- An entry with its key as a string. -/
def hexed (entry : Bytes × Bytes) : List Char × Bytes := (toHex entry.1, entry.2)

/-- An entry with its key as bytes. -/
def unhexed (entry : List Char × Bytes) : Bytes × Bytes := (fromHex entry.1, entry.2)

/-- Entries with keys that are not empty; buffers have lengths that are exact numbers. -/
def Writable (entry : Bytes × Bytes) : Prop :=
  entry.1 ≠ [] ∧ entry.1.length ≤ maxSafeInteger ∧ entry.2.length ≤ maxSafeInteger

theorem exists_writeKeyPair (buf : BufferWriter) (writable : Writable entry) :
    ∃ next, writeKeyPair buf entry.1 entry.2 = some next ∧
      next.buffer = buf.buffer ++ entryBytes entry := by
  obtain ⟨key, _⟩ := entry
  obtain ⟨nonempty, keySmall, valueSmall⟩ := writable
  cases key with
  | nil => exact absurd rfl nonempty
  | cons keyType keyData =>
    have keyLength : 1 + keyData.length ≤ maxSafeInteger := by
      rw [Nat.add_comm]
      exact keySmall
    rw [writeKeyPair, BufferWriter.writeVarInt_eq _ keyLength]
    simp only [Option.bind_eq_bind, Option.bind_some, BufferWriter.writeUInt8,
      if_pos keyType.toNat_lt, BufferWriter.writeVarSlice_eq _ valueSmall]
    refine ⟨_, rfl, ?_⟩
    simp [entryBytes, Nat.add_comm]

theorem exists_writeEntries (buf : BufferWriter) (writable : ∀ entry ∈ entries, Writable entry) :
    ∃ next, entries.foldlM (fun buf entry => writeKeyPair buf entry.1 entry.2) buf = some next ∧
      next.buffer = buf.buffer ++ entries.flatMap entryBytes := by
  induction entries generalizing buf with
  | nil => exact ⟨buf, rfl, (append_nil _).symm⟩
  | cons entry entries ih =>
    obtain ⟨head, tail⟩ := forall_mem_cons.mp writable
    obtain ⟨after, write, bytes⟩ := exists_writeKeyPair buf head
    obtain ⟨next, writeTail, bytesTail⟩ := ih after tail
    refine ⟨next, ?_, ?_⟩
    · rw [foldlM_cons, write]
      exact writeTail
    · rw [bytesTail, bytes, flatMap_cons, append_assoc]

/-! ## Regular maps -/

/-- The keys are strings of byte strings, and the entries can be written. -/
structure JsMap.Regular (map : JsMap) : Prop where
  hexadecimal : ∀ entry ∈ map.entries, hexed (unhexed entry) = entry
  writable : ∀ entry ∈ map.entries, Writable (unhexed entry)

namespace JsMap

variable {map : JsMap}

theorem Regular.map_hexed (regular : map.Regular) :
    (map.entries.map unhexed).map hexed = map.entries := by
  rw [map_map]
  exact (map_congr_left fun entry member => regular.hexadecimal entry member).trans (map_id _)

/-- The map with its keys as bytes. -/
def mapping (map : JsMap) (regular : map.Regular) : Mapping where
  entries := map.entries.map unhexed
  nodup := by
    have strings : ((map.entries.map unhexed).map Prod.fst).map toHex =
        map.entries.map Prod.fst := by
      rw [← congrArg (List.map Prod.fst) regular.map_hexed]
      simp only [map_map]
      rfl
    refine List.Nodup.of_map toHex ?_
    rw [strings]
    exact map.nodup

theorem hexLe_hexed (first second : Bytes × Bytes) :
    keyLe first second = hexLe (hexed first) (hexed second) :=
  decide_eq_decide.mpr (not_congr (toHex_lt_iff second.1 first.1).symm)

/-- Sorting the strings of the keys sorts the keys. -/
theorem mergeSort_entries (regular : map.Regular) :
    map.entries.mergeSort hexLe = (map.mapping regular).sorted.map hexed := by
  rw [Mapping.sorted, map_mergeSort fun first _ second _ => hexLe_hexed first second]
  exact congrArg (·.mergeSort hexLe) regular.map_hexed.symm

theorem perm_sorted (regular : map.Regular) :
    ((map.mapping regular).sorted.map hexed).Perm map.entries := by
  rw [← mergeSort_entries regular]
  exact mergeSort_perm _ _

theorem writable_sorted (regular : map.Regular) :
    ∀ entry ∈ (map.mapping regular).sorted, Writable entry := by
  intro entry member
  obtain ⟨entry, inside, rfl⟩ := mem_map.mp ((mergeSort_perm _ _).mem_iff.mp member)
  exact regular.writable entry inside

end JsMap

variable {map : JsMap}

theorem exists_serializeMap (buf : BufferWriter) (regular : map.Regular) :
    ∃ next, serializeMap buf map = some next ∧
      next.buffer = buf.buffer ++ mapBytes (map.mapping regular).sorted := by
  obtain ⟨after, write, bytes⟩ := exists_writeEntries buf (JsMap.writable_sorted regular)
  have decoded : (map.entries.mergeSort hexLe).foldlM
      (fun buf entry => writeKeyPair buf (fromHex entry.1) entry.2) buf = some after := by
    rw [JsMap.mergeSort_entries regular, foldlM_map]
    simpa only [hexed, fromHex_toHex] using write
  rw [serializeMap, decoded]
  refine ⟨after.writeSlice [0], rfl, ?_⟩
  rw [BufferWriter.buffer_writeSlice, bytes, mapBytes, append_assoc]

/-! ## Reading the bytes of a map -/

theorem exists_readKeyPair (writable : Writable entry)
    (position : reader.At (entryBytes entry ++ left)) :
    ∃ next, readKeyPair map reader = some (some (map.set (toHex entry.1) entry.2), next) ∧
      next.At left := by
  obtain ⟨key, _⟩ := entry
  obtain ⟨nonempty, keySmall, valueSmall⟩ := writable
  cases key with
  | nil => exact absurd rfl nonempty
  | cons keyType keyData =>
    simp only [entryBytes, append_assoc, cons_append] at position
    obtain ⟨_, readLength, position⟩ :=
      position.readVarInt (lt_of_le_of_lt keySmall (by decide))
    obtain ⟨readType, position⟩ := position.readUInt8
    obtain ⟨_, readKey, position⟩ := position.readSlice
    obtain ⟨next, readValue, position⟩ := position.readVarSlice valueSmall
    refine ⟨next, ?_, position⟩
    rw [readKeyPair, readLength]
    simp only [Option.bind_eq_bind, Option.bind_some, sanitizeBigintToNumber_eq keySmall]
    rw [if_neg (by simp), readType, Option.bind_some, length_cons, Nat.add_sub_cancel,
      readKey, Option.bind_some, readValue, Option.bind_some]
    rfl

theorem readKeyPair_end (position : reader.At (0 :: left)) :
    ∃ next, readKeyPair map reader = some (none, next) ∧ next.At left := by
  obtain ⟨next, read, position⟩ := BufferReader.At.readVarInt (by decide)
    (show reader.At (varintWrite 0 ++ left) from position)
  refine ⟨next, ?_, position⟩
  rw [readKeyPair, read]
  rfl

theorem entries_set_of_new {key : List Char} (value : Bytes)
    (new : key ∉ map.entries.map Prod.fst) :
    (map.set key value).entries = map.entries ++ [(key, value)] := if_neg new

/-- The loop adds the entries in their order. -/
theorem exists_readMapLoop {fuel : Nat} (enough : entries.length < fuel)
    (writable : ∀ entry ∈ entries, Writable entry)
    (new : ((map.entries ++ entries.map hexed).map Prod.fst).Nodup)
    (position : reader.At (mapBytes entries ++ left)) :
    ∃ read next, readMapLoop fuel map reader = some (read, next) ∧
      read.entries = map.entries ++ entries.map hexed ∧ next.At left := by
  induction entries generalizing map reader fuel with
  | nil =>
    obtain ⟨fuel, rfl⟩ := Nat.exists_eq_succ_of_ne_zero (Nat.ne_of_gt enough)
    obtain ⟨next, read, position⟩ := readKeyPair_end position
    refine ⟨map, next, ?_, (append_nil _).symm, position⟩
    rw [readMapLoop, read]
  | cons entry entries ih =>
    obtain ⟨fuel, rfl⟩ := Nat.exists_eq_succ_of_ne_zero (Nat.ne_zero_of_lt enough)
    obtain ⟨head, tail⟩ := forall_mem_cons.mp writable
    simp only [mapBytes, flatMap_cons, append_assoc] at position
    obtain ⟨_, readHead, position⟩ := exists_readKeyPair head position
    have fresh : toHex entry.1 ∉ map.entries.map Prod.fst := by
      intro present
      rw [map_cons, map_append, nodup_append] at new
      exact new.2.2 _ present (toHex entry.1) mem_cons_self rfl
    have grown := entries_set_of_new entry.2 fresh
    have newLater : (((map.set (toHex entry.1) entry.2).entries ++ entries.map hexed).map
        Prod.fst).Nodup := by
      rw [grown, append_assoc]
      exact new
    obtain ⟨read, next, readTail, readEntries, position⟩ :=
      ih (Nat.lt_of_succ_lt_succ enough) tail newLater
        (by rw [mapBytes, append_assoc]; exact position)
    refine ⟨read, next, ?_, ?_, position⟩
    · rw [readMapLoop, readHead]
      exact readTail
    · rw [readEntries, grown, append_assoc]
      rfl

theorem length_le_flatMap_entryBytes (entries : List (Bytes × Bytes)) :
    entries.length ≤ (entries.flatMap entryBytes).length := by
  induction entries with
  | nil => exact le_rfl
  | cons entry entries ih =>
    have positive := varintSize_pos entry.1.length
    rw [flatMap_cons, length_append, entryBytes, length_append, length_varintWrite, length_cons]
    omega

/-- A map is read back in the order in which it was written. -/
theorem exists_readMap {mapping : Mapping} (writable : ∀ entry ∈ mapping.sorted, Writable entry)
    (position : reader.At (mapBytes mapping.sorted ++ left)) :
    ∃ read next, readMap reader = some (read, next) ∧
      read.entries = mapping.sorted.map hexed ∧ next.At left := by
  have enough : mapping.sorted.length < reader.buffer.length + 1 := by
    have bytes := length_le_flatMap_entryBytes mapping.sorted
    have lengths := congrArg List.length position.rest_eq
    rw [BufferReader.rest, length_drop, mapBytes, length_append, length_append] at lengths
    omega
  have new : ((JsMap.empty.entries ++ mapping.sorted.map hexed).map Prod.fst).Nodup := by
    have injective : Function.Injective toHex := Function.LeftInverse.injective fromHex_toHex
    have strings : (JsMap.empty.entries ++ mapping.sorted.map hexed).map Prod.fst =
        (mapping.sorted.map Prod.fst).map toHex := by
      rw [JsMap.empty, nil_append, map_map, map_map]
      rfl
    rw [strings]
    exact (nodup_sorted mapping).map injective
  obtain ⟨read, next, loop, entries, position⟩ := exists_readMapLoop enough writable new position
  exact ⟨read, next, loop, entries, position⟩

/-- Several maps are read back. -/
theorem exists_readMaps (writable : ∀ mapping ∈ mappings, ∀ entry ∈ mapping.sorted, Writable entry)
    (position : reader.At ((mappings.map fun mapping => mapBytes mapping.sorted).flatten ++ left)) :
    ∃ read next, readMaps mappings.length reader = some (read, next) ∧
      read.map JsMap.entries = mappings.map (fun mapping => mapping.sorted.map hexed) ∧
      next.At left := by
  induction mappings generalizing reader with
  | nil => exact ⟨[], reader, rfl, rfl, position⟩
  | cons mapping mappings ih =>
    obtain ⟨head, tail⟩ := forall_mem_cons.mp writable
    rw [map_cons, flatten_cons, append_assoc] at position
    obtain ⟨map, _, readHead, entriesHead, position⟩ := exists_readMap head position
    obtain ⟨maps, next, readTail, entriesTail, position⟩ := ih tail position
    refine ⟨map :: maps, next, ?_, ?_, position⟩
    · rw [length_cons, readMaps, readHead]
      simp only [Option.bind_eq_bind, Option.bind_some, readTail]
      rfl
    · rw [map_cons, map_cons, entriesHead, entriesTail]

/-! ## Round trip -/

/-- The same entries, in any order. -/
def JsMap.Same (first second : JsMap) : Prop := first.entries.Perm second.entries

theorem JsMap.Same.get_eq {first second : JsMap} (same : first.Same second) (key : List Char) :
    first.get key = second.get key := by
  refine Option.ext fun value => ?_
  rw [get, get, lookup_eq_some_iff_mem first.nodup, lookup_eq_some_iff_mem second.nodup]
  exact same.mem_iff

/-- The entries of a map in the increasing order of their keys. -/
structure JsMap.Lists (map : JsMap) (entries : List (Bytes × Bytes)) : Prop where
  perm : (entries.map hexed).Perm map.entries
  increasing : (entries.map Prod.fst).Pairwise (· < ·)

namespace PsbtV2

structure Same (first second : PsbtV2) : Prop where
  globalMap : first.globalMap.Same second.globalMap
  inputMaps : List.Forall₂ JsMap.Same first.inputMaps second.inputMaps
  outputMaps : List.Forall₂ JsMap.Same first.outputMaps second.outputMaps

/-- All keys are strings of byte strings that are not empty. -/
structure Regular (psbt : PsbtV2) : Prop where
  globalMap : psbt.globalMap.Regular
  inputMaps : ∀ map ∈ psbt.inputMaps, map.Regular
  outputMaps : ∀ map ∈ psbt.outputMaps, map.Regular

end PsbtV2

variable {maps : List JsMap}

/-- Several maps are written one after the other. -/
theorem exists_serializeMaps (buf : BufferWriter) (regular : ∀ map ∈ maps, map.Regular) :
    ∃ next mappings, maps.foldlM serializeMap buf = some next ∧
      next.buffer = buf.buffer ++
        (mappings.map fun mapping : Mapping => mapBytes mapping.sorted).flatten ∧
      (∀ mapping ∈ mappings, ∀ entry ∈ mapping.sorted, Writable entry) ∧
      List.Forall₂ (fun map mapping => (mapping.sorted.map hexed).Perm map.entries) maps
        mappings := by
  induction maps generalizing buf with
  | nil => exact ⟨buf, [], rfl, (append_nil _).symm, by simp, .nil⟩
  | cons map maps ih =>
    obtain ⟨head, tail⟩ := forall_mem_cons.mp regular
    obtain ⟨after, write, bytes⟩ := exists_serializeMap buf head
    obtain ⟨next, mappings, writeTail, bytesTail, writable, permTail⟩ := ih after tail
    refine ⟨next, map.mapping head :: mappings, ?_, ?_, ?_, .cons (JsMap.perm_sorted head) permTail⟩
    · rw [foldlM_cons, write]
      exact writeTail
    · rw [bytesTail, bytes, map_cons, flatten_cons, append_assoc]
    · exact forall_mem_cons.mpr ⟨JsMap.writable_sorted head, writable⟩

/-- What is read back has the same entries. -/
theorem forall₂_same {read : List JsMap}
    (perm : List.Forall₂ (fun map mapping => (mapping.sorted.map hexed).Perm map.entries) maps
      mappings)
    (entries : read.map JsMap.entries = mappings.map fun mapping => mapping.sorted.map hexed) :
    List.Forall₂ JsMap.Same read maps := by
  induction perm generalizing read with
  | nil =>
    rw [map_eq_nil_iff.mp entries]
    exact .nil
  | cons head tail ih =>
    cases read with
    | nil => cases entries
    | cons map read =>
      obtain ⟨first, rest⟩ := List.cons.inj entries
      refine .cons ?_ (ih rest)
      rw [JsMap.Same, first]
      exact head

theorem forall₂_lists
    (perm : List.Forall₂ (fun map mapping => (mapping.sorted.map hexed).Perm map.entries) maps
      mappings) :
    List.Forall₂ JsMap.Lists maps (mappings.map Mapping.sorted) :=
  forall₂_map_right_iff.mpr
    (perm.imp fun _ mapping listed => ⟨listed, pairwise_lt_sorted mapping⟩)

/-- A PSBT of version 2 is kept as it is. -/
theorem normalizeToV2_of_version (parseTransaction : Bytes → Option BjsTransaction)
    {self : PsbtV2} (version : PsbtV2.getGlobalPsbtVersion self.globalMap = some 2) :
    PsbtV2.normalizeToV2 parseTransaction self = some self := by
  obtain ⟨_, present, two⟩ := Option.bind_eq_some_iff.mp version
  rw [PsbtV2.normalizeToV2, present]
  simp [readInt32LE, two]

/-- A PSBT of version 2 that was serialized is deserialized to the same maps, and each map is
serialized in the increasing order of its keys. -/
theorem deserialize_serialize (parseTransaction : Bytes → Option BjsTransaction) (psbt : PsbtV2)
    (regular : psbt.Regular) (version : PsbtV2.getGlobalPsbtVersion psbt.globalMap = some 2)
    (inputCount : PsbtV2.getGlobalInputCount psbt.globalMap = some psbt.inputMaps.length)
    (outputCount : PsbtV2.getGlobalOutputCount psbt.globalMap = some psbt.outputMaps.length) :
    ∃ bytes globalEntries inputEntries outputEntries read,
      psbt.serialize = some bytes ∧
      PsbtV2.deserialize parseTransaction bytes = some read ∧ read.Same psbt ∧
      bytes = psbtMagicBytes ++ (mapBytes globalEntries ++
        ((inputEntries.map mapBytes).flatten ++ (outputEntries.map mapBytes).flatten)) ∧
      psbt.globalMap.Lists globalEntries ∧
      List.Forall₂ JsMap.Lists psbt.inputMaps inputEntries ∧
      List.Forall₂ JsMap.Lists psbt.outputMaps outputEntries := by
  obtain ⟨afterGlobal, writeGlobal, globalBytes⟩ :=
    exists_serializeMap (BufferWriter.new.writeSlice psbtMagicBytes) regular.globalMap
  obtain ⟨afterInputs, inputs, writeInputs, inputBytes, inputsWritable, inputsPerm⟩ :=
    exists_serializeMaps afterGlobal regular.inputMaps
  obtain ⟨afterOutputs, outputs, writeOutputs, outputBytes, outputsWritable, outputsPerm⟩ :=
    exists_serializeMaps afterInputs regular.outputMaps
  have serialized : psbt.serialize = some afterOutputs.buffer := by
    rw [PsbtV2.serialize]
    simp only [writeGlobal, writeInputs, writeOutputs, Option.bind_eq_bind, Option.bind_some]
    rfl
  have bytes : afterOutputs.buffer = psbtMagicBytes ++
      (mapBytes (psbt.globalMap.mapping regular.globalMap).sorted ++
        ((inputs.map fun mapping => mapBytes mapping.sorted).flatten ++
          ((outputs.map fun mapping => mapBytes mapping.sorted).flatten ++ []))) := by
    rw [outputBytes, inputBytes, globalBytes, BufferWriter.buffer_writeSlice,
      BufferWriter.buffer_new]
    simp only [nil_append, append_assoc, append_nil]
  have start := BufferReader.at_new afterOutputs.buffer
  rw [bytes] at start
  obtain ⟨afterMagic, readMagic, position⟩ := start.readSlice
  obtain ⟨globalMap, atInputs, readGlobal, globalEntries, position⟩ :=
    exists_readMap (JsMap.writable_sorted regular.globalMap) position
  obtain ⟨inputMaps, atOutputs, readInputs, inputEntries, position⟩ :=
    exists_readMaps inputsWritable position
  obtain ⟨outputMaps, atEnd, readOutputs, outputEntries, -⟩ :=
    exists_readMaps outputsWritable position
  have sameGlobal : globalMap.Same psbt.globalMap := by
    rw [JsMap.Same, globalEntries]
    exact JsMap.perm_sorted regular.globalMap
  have getGlobal : ∀ keyType, PsbtV2.getGlobal globalMap keyType =
      PsbtV2.getGlobal psbt.globalMap keyType := fun keyType => sameGlobal.get_eq _
  rw [PsbtV2.getGlobalPsbtVersion, ← getGlobal, ← PsbtV2.getGlobalPsbtVersion] at version
  rw [PsbtV2.getGlobalInputCount, ← getGlobal, ← PsbtV2.getGlobalInputCount,
    inputsPerm.length_eq] at inputCount
  rw [PsbtV2.getGlobalOutputCount, ← getGlobal, ← PsbtV2.getGlobalOutputCount,
    outputsPerm.length_eq] at outputCount
  have deserialized : PsbtV2.deserialize parseTransaction afterOutputs.buffer =
      some ⟨globalMap, inputMaps, outputMaps⟩ := by
    have magicLength : psbtMagicBytes.length = 5 := rfl
    have counts : PsbtV2.mapCounts parseTransaction globalMap 2 =
        some (inputs.length, outputs.length) := by
      rw [PsbtV2.mapCounts, if_neg (by decide), inputCount, outputCount]
      rfl
    rw [magicLength, ← bytes] at readMagic
    rw [PsbtV2.deserialize, readMagic]
    simp only [Option.bind_eq_bind, Option.bind_some, ne_eq, not_true_eq_false, ite_false,
      readGlobal, version, Option.getD_some, and_false, counts, readInputs, readOutputs]
    exact normalizeToV2_of_version parseTransaction version
  refine ⟨_, (psbt.globalMap.mapping regular.globalMap).sorted, inputs.map Mapping.sorted,
    outputs.map Mapping.sorted, _, serialized, deserialized,
    ⟨sameGlobal, forall₂_same inputsPerm inputEntries, forall₂_same outputsPerm outputEntries⟩,
    ?_, ⟨JsMap.perm_sorted regular.globalMap, pairwise_lt_sorted _⟩, forall₂_lists inputsPerm,
    forall₂_lists outputsPerm⟩
  rw [bytes, append_nil, map_map, map_map]
  rfl

/-- A PSBT with one input and no outputs. -/
def samplePsbt : PsbtV2 where
  globalMap := ⟨[("fb".toList, [0x02, 0x00, 0x00, 0x00]), ("04".toList, [0x01]),
    ("05".toList, [0x00])], by decide⟩
  inputMaps := [⟨[("0f".toList, [0x07, 0x00, 0x00, 0x00]), ("0e".toList, replicate 32 0x11)],
    by decide⟩]
  outputMaps := []

theorem regular_samplePsbt : samplePsbt.Regular := by
  have global : samplePsbt.globalMap.Regular := ⟨by decide, by
    simp only [Writable]
    decide⟩
  have inputs : ∀ map ∈ samplePsbt.inputMaps, map.Regular :=
    forall_mem_singleton.mpr ⟨by decide, by
      simp only [Writable]
      decide⟩
  exact ⟨global, inputs, by simp [samplePsbt]⟩

theorem deserialize_serialize_sample : ∃ bytes read, samplePsbt.serialize = some bytes ∧
    PsbtV2.deserialize (fun _ => none) bytes = some read ∧ read.Same samplePsbt := by
  obtain ⟨bytes, _, _, _, read, serialized, deserialized, same, -⟩ :=
    deserialize_serialize (fun _ => none) samplePsbt regular_samplePsbt (by decide)
      (by decide) (by decide)
  exact ⟨bytes, read, serialized, deserialized, same⟩

end LedgerSyscoin.Client.JavaScript
