import LedgerSyscoin.Common.OutputScript

/-!
# Addresses of witness programs

An address of a witness program is its version and its bytes in groups of five bits,
between the name of the network and a checksum of six characters: Bech32 for the version
0 and Bech32m for the others. An address has at most 72 characters besides the name of
the network, so that it always fits its buffer.
-/

namespace LedgerSyscoin.Common

open Foundation List

/-! ## Encoding -/

/-- The two constants of the checksum. -/
inductive Bech32Encoding where
  | bech32
  | bech32m

/-- What the last state of the checksum is combined with. -/
def bech32FinalConstant : Bech32Encoding → UInt32
  | .bech32 => 1
  | .bech32m => 0x2bc830a3

/-- One step of the checksum: the state times the unknown, reduced by the generator. -/
def bech32PolymodStep (pre : UInt32) : UInt32 :=
  let b := pre >>> 25
  let term (i generator : UInt32) : UInt32 := if (b >>> i) &&& 1 = 1 then generator else 0
  ((pre &&& 0x1FFFFFF) <<< 5) ^^^ term 0 0x3b6a57b2 ^^^ term 1 0x26508e6d ^^^
    term 2 0x1ea119fa ^^^ term 3 0x3d4233dd ^^^ term 4 0x2a1462b3

/-- The characters of the groups of five bits. -/
def bech32Charset : Bytes := "qpzry9x8gf2tvdw0s3jn54khce6mua7l".toList.map ascii

/-- The character of a group. -/
def bech32Character (value : Nat) : UInt8 := bech32Charset.getD value 0

/-- The state of the checksum after some values. -/
def bech32Absorb (chk : UInt32) (values : Bytes) : UInt32 :=
  values.foldl (fun chk value => bech32PolymodStep chk ^^^ value.toUInt32) chk

/-- Whether a character may be part of the name of a network. -/
def isHrpCharacter (ch : UInt8) : Bool :=
  33 ≤ ch ∧ ch ≤ 126 ∧ ¬(ascii 'A' ≤ ch ∧ ch ≤ ascii 'Z')

/-- The text for the name of a network and groups of five bits. -/
def bech32Encode (hrp data : Bytes) (enc : Bech32Encoding) : Option Bytes :=
  if ¬hrp.all isHrpCharacter then none
  else if hrp.length + 7 + data.length > 90 then none
  else if data.any (fun value => value >>> 5 ≠ 0) then none
  else
    let high (ch : UInt8) : UInt8 := ch >>> 5
    let low (ch : UInt8) : UInt8 := ch &&& 0x1f
    let chk := bech32PolymodStep (bech32Absorb 1 (hrp.map high))
    let chk := bech32Absorb (bech32Absorb chk (hrp.map low)) data
    let chk := bech32Absorb chk (replicate 6 0) ^^^ bech32FinalConstant enc
    some (hrp ++ ascii '1' :: data.map (fun value => bech32Character value.toNat) ++
      (range 6).map fun i =>
        bech32Character ((chk >>> UInt32.ofNat ((5 - i) * 5)) &&& 0x1f).toNat)

/-- The groups of five bits that are complete, and the number of bits that are left. -/
def completeGroups (val : UInt32) : (bits : Nat) → Bytes × Nat
  | bits + 5 =>
    (((val >>> UInt32.ofNat bits) &&& 31).toUInt8 :: (completeGroups val bits).1,
      (completeGroups val bits).2)
  | bits => ([], bits)

/-- Bytes as groups of five bits, the last one padded with zeros. -/
def convertBits (val : UInt32) (bits : Nat) : Bytes → Bytes
  | [] => if bits = 0 then [] else [((val <<< UInt32.ofNat (5 - bits)) &&& 31).toUInt8]
  | byte :: rest =>
    let val := (val <<< 8) ||| byte.toUInt32
    (completeGroups val (bits + 8)).1 ++ convertBits val (completeGroups val (bits + 8)).2 rest

/-- The address of a witness program. -/
def segwitAddrEncode (hrp : Bytes) (witver : Nat) (witprog : Bytes) : Option Bytes :=
  if witver > 16 then none
  else if witver = 0 ∧ witprog.length ≠ 20 ∧ witprog.length ≠ 32 then none
  else if witprog.length < 2 ∨ witprog.length > 40 then none
  else bech32Encode hrp (UInt8.ofNat witver :: convertBits 0 0 witprog)
    (if witver > 0 then .bech32m else .bech32)

/-! ## Lengths -/

theorem completeGroups_counts (val : UInt32) (bits : Nat) :
    (completeGroups val bits).1.length = bits / 5 ∧ (completeGroups val bits).2 = bits % 5 := by
  fun_induction completeGroups val bits with
  | case1 bits ih =>
    rw [length_cons, ih.1, ih.2]
    omega
  | case2 bits few =>
    have less : bits < 5 := Nat.lt_of_not_le fun enough => few (bits - 5) (by omega)
    rw [length_nil]
    omega

/-- Every five bits are a group, and so are those that are left. -/
theorem length_convertBits (val : UInt32) {bits : Nat} (few : bits < 5) (data : Bytes) :
    (convertBits val bits data).length = (8 * data.length + bits + 4) / 5 := by
  induction data generalizing val bits with
  | nil =>
    rw [convertBits]
    split_ifs with none
    · simp [none]
    · rw [length_singleton, length_nil]
      omega
  | cons byte rest ih =>
    obtain ⟨length, left⟩ :=
      completeGroups_counts ((val <<< 8) ||| byte.toUInt32) (bits + 8)
    rw [convertBits, length_append, length, ih _ (by omega), left, length_cons]
    omega

theorem length_bech32Encode {hrp data address : Bytes} {enc : Bech32Encoding}
    (encoded : bech32Encode hrp data enc = some address) :
    address.length = hrp.length + 7 + data.length := by
  rw [bech32Encode] at encoded
  split_ifs at encoded
  cases encoded
  simp only [length_append, length_cons, length_map, length_range]
  omega

/-- The length of an address. -/
theorem length_segwitAddrEncode {hrp witprog address : Bytes} {witver : Nat}
    (encoded : segwitAddrEncode hrp witver witprog = some address) :
    address.length = hrp.length + 8 + (8 * witprog.length + 4) / 5 ∧ witprog.length ≤ 40 := by
  rw [segwitAddrEncode] at encoded
  split_ifs at encoded with _ _ sized
  all_goals
    rw [length_bech32Encode encoded, length_cons, length_convertBits 0 (by decide)]
    omega

/-- An address of a witness program fits into the buffer for it, with the zero that ends it. -/
theorem length_segwitAddress_lt {coding : AddressCoding} {script address : Bytes} {outLen : Nat}
    (isEncoder : coding.segwitAddrEncode = segwitAddrEncode)
    (encoded : segwitAddress coding script outLen = .ok address) : address.length < outLen := by
  rw [segwitAddress, isEncoder] at encoded
  obtain ⟨_, -, encoded⟩ := bind_eq_ok_iff.mp encoded
  obtain ⟨first, -, encoded⟩ := bind_eq_ok_iff.mp encoded
  split_ifs at encoded with small
  obtain ⟨program, -, encoded⟩ := bind_eq_ok_iff.mp encoded
  cases isAddress : segwitAddrEncode coding.nativeSegwitPrefix (witnessVersion first) program with
  | none => simp [isAddress, orRefused] at encoded
  | some found =>
    rw [isAddress] at encoded
    cases encoded
    have length := length_segwitAddrEncode isAddress
    omega

end LedgerSyscoin.Common
