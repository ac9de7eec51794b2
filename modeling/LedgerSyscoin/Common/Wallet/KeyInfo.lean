import LedgerSyscoin.Common.Base58
import LedgerSyscoin.Common.Bip32
import LedgerSyscoin.Common.Wallet.Lexer
import LedgerSyscoin.Foundation.Hash

/-!
# Key information

Key information is an extended public key in base58, after its origin in brackets if it
has one: the fingerprint of the master key and the derivation steps. In version 1 it
ends with a wildcard. A write outside of an array is an error of its own; the array for
the decoded key is on the stack and holds anything before.
-/

namespace LedgerSyscoin.Common

open Foundation List

def bip32FirstHardenedChild : UInt32 := 0x80000000

def maxSerializedPubkeyLength : Nat := 113

/-! ## The parser -/

/-- The output structure of the parser. -/
structure KeyInfoOut where
  masterKeyDerivation : List UInt32
  masterKeyFingerprint : Bytes
  masterKeyDerivationLen : Nat
  hasKeyOrigin : Bool
  hasWildcard : Bool
  extPubkey : Bytes
  deriving DecidableEq

/-- The structure after it was cleared. -/
def KeyInfoOut.zero : KeyInfoOut :=
  ⟨replicate maxBip32PathSteps 0, replicate 4 0, 0, false, false, replicate 78 0⟩

/-- Store a further derivation step. The fingerprint lies behind the array of the steps, and a step
behind the last one overwrites it. -/
def KeyInfoOut.addStep (out : KeyInfoOut) (step : UInt32) : KeyInfoOut :=
  if out.masterKeyDerivationLen < maxBip32PathSteps then
    { out with
      masterKeyDerivation := out.masterKeyDerivation.set out.masterKeyDerivationLen step
      masterKeyDerivationLen := out.masterKeyDerivationLen + 1 }
  else
    { out with
      masterKeyFingerprint := leBytes 4 step.toNat
      masterKeyDerivationLen := out.masterKeyDerivationLen + 1 }

/-- Read a derivation step, with an apostrophe if it is hardened. -/
def bufferReadDerivationStep (input : Bytes) : Option (UInt32 × Bytes) := do
  let (derStep, input) ← parseUnsignedDecimal input
  guard (derStep < bip32FirstHardenedChild)
  match consumeCharacter '\x27' input with
  | some input => return (derStep ||| bip32FirstHardenedChild, input)
  | none => return (derStep, input)

/-- The loop over the derivation steps, which ends in the round `maxBip32PathSteps + 2` at the
latest. -/
def readOriginSteps : (rounds : Nat) → KeyInfoOut → Bytes → Option (KeyInfoOut × Bytes)
  | 0, _, _ => none
  | rounds + 1, out, input =>
    match consumeCharacter '/' input with
    | none => some (out, input)
    | some input =>
      if out.masterKeyDerivationLen > maxBip32PathSteps then none
      else (bufferReadDerivationStep input).bind fun (step, input) =>
        readOriginSteps rounds (out.addStep step) input

/-- Read the origin of the key, if there is one. -/
def readKeyOrigin (input : Bytes) : Option (KeyInfoOut × Bytes) :=
  match consumeCharacter '[' input with
  | none => some (.zero, input)
  | some input => do
    guard (9 ≤ input.length)
    let (fingerprint, input) ← bufferReadHexHash 4 input
    let (out, input) ← readOriginSteps (maxBip32PathSteps + 2)
      { KeyInfoOut.zero with masterKeyFingerprint := fingerprint, hasKeyOrigin := true } input
    let input ← consumeCharacter ']' input
    return (out, input)

/-- The characters of the key, as many as its array can hold. -/
def readKeyText (input : Bytes) : Bytes :=
  (input.take maxSerializedPubkeyLength).takeWhile isAlphanumeric

/-- Whether a wildcard follows the key; the result is `none` when anything else does. -/
def readKeySuffix : WalletPolicyVersion → Bytes → Option Bool
  | .v1, input => if input = [ascii '/', ascii '*', ascii '*'] then some true else none
  | .v2, input => if input = [] then some false else none

def cryptoGetChecksum (H : HashFunction) (bytes : Bytes) : Bytes := (H (H bytes).val).val.take 4

/-- An extended key with its checksum. -/
abbrev ExtPubkeyCheck := { bytes : Bytes // bytes.length = 82 }

/-- The array of the decoded key: only as many bytes are written as were decoded. -/
def ExtPubkeyCheck.overwrite (stack : ExtPubkeyCheck) (decoded : Bytes) : Bytes :=
  decoded ++ stack.val.drop decoded.length

/-- Parse key information, with what is on the stack in place of the decoded key. -/
def parsePolicyMapKeyInfo (H : HashFunction) (version : WalletPolicyVersion)
    (stack : ExtPubkeyCheck) (text : Bytes) : Except ReadError KeyInfoOut :=
  match readKeyOrigin text with
  | none => .error .refused
  | some (out, input) =>
    let extPubkeyStr := readKeyText input
    -- a zero is written behind the characters of the key
    if extPubkeyStr.length ≥ maxSerializedPubkeyLength then .error .outside
    else if extPubkeyStr.length < 111 ∨ extPubkeyStr.length > 112 then .error .refused
    else
      match base58Decode extPubkeyStr 82 with
      | .error error => .error error
      | .ok decoded =>
        let check := stack.overwrite decoded
        if check.drop 78 ≠ cryptoGetChecksum H (check.take 78) then .error .refused
        else
          match readKeySuffix version (input.drop extPubkeyStr.length) with
          | none => .error .refused
          | some hasWildcard => .ok { out with extPubkey := check.take 78, hasWildcard }

/-- What a text says: an origin and a suffix, and a key that stands for certain bytes. -/
def SaysKey (version : WalletPolicyVersion) (text : Bytes) (out : KeyInfoOut) (decoded : Bytes) :
    Prop :=
  ∃ origin input hasWildcard, readKeyOrigin text = some (origin, input) ∧
    (111 ≤ (readKeyText input).length ∧ (readKeyText input).length ≤ 112) ∧
    base58Decode (readKeyText input) 82 = .ok decoded ∧
    readKeySuffix version (input.drop (readKeyText input).length) = some hasWildcard ∧
    out = { origin with hasWildcard }

/-! ## Memory -/

variable {H : HashFunction} {version : WalletPolicyVersion} {stack : ExtPubkeyCheck} {text : Bytes}

/-- All the steps that follow, without a limit on their number. -/
def writtenSteps : (rounds : Nat) → Bytes → List UInt32
  | 0, _ => []
  | rounds + 1, input =>
    match (consumeCharacter '/' input).bind bufferReadDerivationStep with
    | none => []
    | some (step, input) => step :: writtenSteps rounds input

/-- The steps of the origin, which are behind the bracket and the digits of the fingerprint. -/
def originSteps (text : Bytes) : List UInt32 := writtenSteps text.length (text.drop 9)

theorem length_of_bufferReadDerivationStep {input rest : Bytes} {step : UInt32}
    (read : bufferReadDerivationStep input = some (step, rest)) : rest.length ≤ input.length := by
  simp only [bufferReadDerivationStep, Option.bind_eq_bind, Option.bind_eq_some_iff,
    Prod.exists] at read
  obtain ⟨_, _, digits, -, -, hardened⟩ := read
  have shorter := (passes_of_parseUnsignedDecimal digits).length_le
  split at hardened
  · rename_i apostrophe
    cases hardened
    exact (length_of_consumeCharacter apostrophe).le.trans shorter
  · cases hardened
    exact shorter

/-- The steps are counted, and stored as long as there is room for them. -/
theorem readOriginSteps_returns {rounds bound : Nat} {out final : KeyInfoOut} {input rest : Bytes}
    (read : readOriginSteps rounds out input = some (final, rest)) (enough : input.length ≤ bound)
    (sized : out.masterKeyDerivation.length = maxBip32PathSteps) :
    final.masterKeyDerivationLen =
        out.masterKeyDerivationLen + (writtenSteps bound input).length ∧
      (final.masterKeyDerivationLen ≤ maxBip32PathSteps →
        final.masterKeyDerivation.take final.masterKeyDerivationLen =
          out.masterKeyDerivation.take out.masterKeyDerivationLen ++ writtenSteps bound input) := by
  induction rounds generalizing out input bound with
  | zero => cases read
  | succ rounds ih =>
    rw [readOriginSteps] at read
    cases slash : consumeCharacter '/' input with
    | none =>
      rw [slash] at read
      cases read
      cases bound <;> simp [writtenSteps, slash]
    | some afterSlash =>
      have shorter := length_of_consumeCharacter slash
      obtain ⟨bound, rfl⟩ := Nat.exists_eq_succ_of_ne_zero (show bound ≠ 0 by omega)
      simp only [slash] at read
      split_ifs at read with tooMany
      obtain ⟨⟨step, afterStep⟩, isStep, reads⟩ := Option.bind_eq_some_iff.mp read
      dsimp only at reads
      have shorterStep := length_of_bufferReadDerivationStep isStep
      have isCons : writtenSteps (bound + 1) input = step :: writtenSteps bound afterStep := by
        simp [writtenSteps, slash, isStep]
      have addSized : (out.addStep step).masterKeyDerivation.length = maxBip32PathSteps := by
        rw [KeyInfoOut.addStep]
        split_ifs <;> simp [sized]
      have addLen : (out.addStep step).masterKeyDerivationLen = out.masterKeyDerivationLen + 1 := by
        rw [KeyInfoOut.addStep]
        split_ifs <;> rfl
      obtain ⟨len, stored⟩ := ih reads (show afterStep.length ≤ bound by omega) addSized
      rw [addLen] at len stored
      rw [isCons, length_cons]
      refine ⟨by omega, fun fits => ?_⟩
      have inside : out.masterKeyDerivationLen < maxBip32PathSteps := by omega
      rw [stored fits, KeyInfoOut.addStep, if_pos inside, take_succ_eq_append_getElem
        (by simp [sized, inside])]
      simp [take_set_of_le]

/-- The characters of the key are letters and digits. -/
theorem slash_of_readKeyText {position : Nat} (inside : position < (readKeyText text).length) :
    consumeCharacter '/' (text.drop position) = none := by
  obtain ⟨_, isText⟩ : readKeyText text <+: text :=
    (List.takeWhile_prefix _).trans (List.take_prefix _ _)
  have isKey := all_eq_true.mp all_takeWhile _ (getElem_mem inside)
  rw [← isText, drop_append_of_le_length inside.le, drop_eq_getElem_cons inside,
    cons_append, consumeCharacter, if_neg]
  intro isSlash
  rw [isSlash] at isKey
  exact absurd isKey (by decide)

/-- The origin of a text has the steps that are written in it. -/
theorem readKeyOrigin_returns {out : KeyInfoOut} {rest : Bytes}
    (read : readKeyOrigin text = some (out, rest)) (long : 10 ≤ (readKeyText rest).length) :
    out.masterKeyDerivationLen = (originSteps text).length ∧
      (out.masterKeyDerivationLen ≤ maxBip32PathSteps →
        out.masterKeyDerivation.take out.masterKeyDerivationLen = originSteps text) := by
  rw [readKeyOrigin] at read
  split at read
  · -- without an origin the key begins at once, and its tenth character is no slash
    cases read
    have none : originSteps text = [] := by
      rw [originSteps]
      cases text.length <;> simp [writtenSteps, slash_of_readKeyText long]
    rw [none]
    exact ⟨rfl, fun _ => rfl⟩
  · rename_i afterBracket bracket
    simp only [Option.bind_eq_bind, Option.bind_eq_some_iff, Prod.exists, Option.pure_def,
      Option.some.injEq, Prod.mk.injEq] at read
    obtain ⟨-, -, _, afterFingerprint, readFingerprint, _, _, readSteps, _, -, rfl, -⟩ :=
      read
    have isText : text.drop 9 = afterFingerprint := by
      rw [eq_cons_of_consumeCharacter bracket, (rest_of_bufferReadHexHash readFingerprint).1]
      rfl
    have returned := readOriginSteps_returns readSteps
      (show afterFingerprint.length ≤ text.length by rw [← isText, length_drop]; omega) rfl
    simpa [originSteps, isText, KeyInfoOut.zero] using returned

/-- What is accepted says a key, and the bytes on the stack behind it are its checksum. -/
theorem parsePolicyMapKeyInfo_ok_iff {result : KeyInfoOut} :
    parsePolicyMapKeyInfo H version stack text = .ok result ↔
      ∃ out decoded, SaysKey version text out decoded ∧
        (stack.overwrite decoded).drop 78 =
          cryptoGetChecksum H ((stack.overwrite decoded).take 78) ∧
        result = { out with extPubkey := (stack.overwrite decoded).take 78 } := by
  rw [parsePolicyMapKeyInfo]
  constructor
  · intro parsed
    cases read : readKeyOrigin text with
    | none => simp [read] at parsed
    | some origin =>
      obtain ⟨origin, input⟩ := origin
      simp only [read] at parsed
      split_ifs at parsed with _ bounds
      split at parsed
      · cases parsed
      · rename_i decoded decodes
        split_ifs at parsed with checksum
        split at parsed
        · cases parsed
        · rename_i hasWildcard suffix
          cases parsed
          rw [not_or, not_lt, not_lt] at bounds
          exact ⟨_, decoded, ⟨origin, input, hasWildcard, read, bounds, decodes, suffix, rfl⟩,
            not_not.mp checksum, rfl⟩
  · rintro ⟨_, decoded, ⟨origin, input, hasWildcard, read, ⟨long, short⟩, decodes, suffix, rfl⟩,
      checksum, rfl⟩
    have inside : ¬ (readKeyText input).length ≥ maxSerializedPubkeyLength :=
      not_le.mpr (short.trans_lt (by decide))
    simp only [read, inside, long, short, decodes, checksum, suffix, not_lt.mpr, or_self,
      ↓reduceIte,
      ne_eq, not_true_eq_false]

/-- Behind a key that fills its array a zero is written outside of it. -/
theorem parsePolicyMapKeyInfo_outside_iff :
    parsePolicyMapKeyInfo H version stack text = .error .outside ↔
      ∃ out rest, readKeyOrigin text = some (out, rest) ∧
        maxSerializedPubkeyLength ≤ (rest.takeWhile isAlphanumeric).length := by
  rw [parsePolicyMapKeyInfo]
  cases read : readKeyOrigin text with
  | none => simp
  | some origin =>
    obtain ⟨origin, input⟩ := origin
    have sameLength : maxSerializedPubkeyLength ≤ (readKeyText input).length ↔
        maxSerializedPubkeyLength ≤ (input.takeWhile isAlphanumeric).length := by
      rw [readKeyText, ← take_takeWhile, length_take]
      omega
    by_cases long : (readKeyText input).length ≥ maxSerializedPubkeyLength
    · simp only [if_pos long, true_iff]
      exact ⟨origin, input, rfl, sameLength.mp long⟩
    · simp only [if_neg long]
      refine iff_of_false (fun isOutside => ?_) ?_
      · -- no other array is exceeded
        split_ifs at isOutside
        · cases isOutside
        split at isOutside
        · rename_i decodes
          exact base58Decode_ne_outside _ _
            (decodes.trans (congrArg _ (Except.error.inj isOutside)))
        split_ifs at isOutside
        · cases isOutside
        split at isOutside <;> cases isOutside
      · rintro ⟨_, _, ⟨⟩, tooLong⟩
        exact long (sameLength.mpr tooLong)

/-- The parser writes inside of its arrays exactly if the key behind the origin is shorter than its
array. The steps of an accepted origin are all stored exactly if there are not too many. -/
theorem parsePolicyMapKeyInfo_safe_iff (H : HashFunction) (version : WalletPolicyVersion)
    (stack : ExtPubkeyCheck) (text : Bytes) :
    (parsePolicyMapKeyInfo H version stack text ≠ .error .outside ↔
        ∀ out rest, readKeyOrigin text = some (out, rest) →
          (rest.takeWhile isAlphanumeric).length < maxSerializedPubkeyLength) ∧
      ∀ out, parsePolicyMapKeyInfo H version stack text = .ok out →
        ((out.masterKeyDerivationLen ≤ maxBip32PathSteps ∧
            out.masterKeyDerivation.take out.masterKeyDerivationLen = originSteps text) ↔
          (originSteps text).length ≤ maxBip32PathSteps) := by
  constructor
  · simp only [ne_eq, parsePolicyMapKeyInfo_outside_iff, not_exists, not_and, not_le]
  · intro out parsed
    obtain ⟨_, _, ⟨origin, input, _, read, ⟨long, -⟩, -, -, rfl⟩, -, rfl⟩ :=
      parsePolicyMapKeyInfo_ok_iff.mp parsed
    obtain ⟨len, stored⟩ := readKeyOrigin_returns read (le_trans (by decide) long)
    rw [← len]
    exact ⟨And.left, fun fits => ⟨fits, stored fits⟩⟩

def sampleKey : Bytes := 0x40 :: replicate 77 0

/-- The two hashes of the checksum of the sample key are those of SHA-256. -/
def sampleHash : HashFunction := fun bytes =>
  ⟨beBytes 32 (if bytes = sampleKey then
      0x23b8ed98fbcbdb82725b0630dc449ed6e5ee3a523cd61f34bbd8a3480413d623
    else 0x23b94f9f970ab73f0a64edd188adc2c8ae25e181f7567c1d04a0f95fefb3a835), by simp [beBytes]⟩

/-- A text for the sample key and its checksum. -/
def sampleText : Bytes :=
  ("Eb2E95fnossWf1L4iZPyBaG3kERTuy2uimH63ux48mtw5puRTua2Wr4uRiUsRTbAemz8Zqrbg3FRj3qp5V9DCYwN26Wc" ++
    "eP2w2ziNMdABTQhQMDMQ").toList.map ascii

/-- A zero is written behind an array that the key fills; the ninth step overwrites the
fingerprint. -/
theorem parsePolicyMapKeyInfo_exceeds_arrays :
    parsePolicyMapKeyInfo sampleHash .v2 ⟨replicate 82 0, rfl⟩
        (replicate 113 (ascii '1')) = .error .outside ∧
      (parsePolicyMapKeyInfo sampleHash .v2 ⟨replicate 82 0, rfl⟩
          ("[00000000/0/1/2/3/4/5/6/7/8]".toList.map ascii ++ sampleText)).map
        (fun out => (out.masterKeyDerivationLen, out.masterKeyFingerprint)) =
          .ok (9, [8, 0, 0, 0]) := by
  decide +kernel

/-! ## The stack -/

/-- The bytes as the beginning of a key, with zeros for those that are missing, and its checksum. -/
def sealedKey (H : HashFunction) (decoded : Bytes) : Bytes :=
  let key := (decoded ++ replicate 78 0).take 78
  key ++ cryptoGetChecksum H key

theorem length_sealedKey (decoded : Bytes) : (sealedKey H decoded).length = 82 := by
  simp [sealedKey, cryptoGetChecksum, (H _).property]

theorem overwrite_of_full {decoded : Bytes} (full : decoded.length = 82) :
    stack.overwrite decoded = decoded := by
  rw [ExtPubkeyCheck.overwrite, drop_of_length_le (by rw [full, stack.property]), append_nil]

theorem SaysKey.unique {out out' : KeyInfoOut} {decoded decoded' : Bytes}
    (key : SaysKey version text out decoded) (key' : SaysKey version text out' decoded') :
    decoded = decoded' := by
  obtain ⟨_, _, _, read, -, decodes, -⟩ := key
  obtain ⟨_, _, _, read', -, decodes', -⟩ := key'
  cases read.symm.trans read'
  exact Except.ok.inj (decodes.symm.trans decodes')

/-- Whatever the stack adds to the bytes of an accepted key, they begin a sealed one. -/
theorem isPrefix_sealedKey {decoded : Bytes} (checksum : (stack.overwrite decoded).drop 78 =
      cryptoGetChecksum H ((stack.overwrite decoded).take 78)) :
    decoded <+: sealedKey H decoded := by
  obtain short | long := Nat.le_total decoded.length 78
  · rw [sealedKey, take_append, take_of_length_le short, append_assoc]
    exact prefix_append _ _
  · have isKey : (stack.overwrite decoded).take 78 = (decoded ++ replicate 78 0).take 78 := by
      rw [ExtPubkeyCheck.overwrite, take_append_of_le_length long, take_append_of_le_length long]
    rw [sealedKey, ← isKey, ← checksum, take_append_drop]
    exact prefix_append _ _

/-- The parser accepts only whole keys, and without regard to the stack, exactly if the bytes that
the text stands for are not the beginning of a longer key with its checksum. -/
theorem parsePolicyMapKeyInfo_exact_iff (H : HashFunction) (version : WalletPolicyVersion)
    (text : Bytes) :
    ((∀ stack result, parsePolicyMapKeyInfo H version stack text = .ok result →
          ∃ out decoded, SaysKey version text out decoded ∧ decoded.length = 82 ∧
            decoded.drop 78 = cryptoGetChecksum H (decoded.take 78) ∧
            result = { out with extPubkey := decoded.take 78 }) ∧
        ∀ stack stack', parsePolicyMapKeyInfo H version stack text =
          parsePolicyMapKeyInfo H version stack' text) ↔
      ∀ out decoded, SaysKey version text out decoded →
        decoded.length = 82 ∨ ¬ decoded <+: sealedKey H decoded := by
  constructor
  · rintro ⟨whole, -⟩ out decoded key
    refine or_iff_not_imp_right.mpr fun begins => ?_
    -- a stack with the whole key completes the bytes
    let stack : ExtPubkeyCheck := ⟨sealedKey H decoded, length_sealedKey decoded⟩
    have isSealed : stack.overwrite decoded = sealedKey H decoded :=
      (prefix_iff_eq_append.mp (not_not.mp begins))
    obtain ⟨_, _, key', full, -⟩ := whole stack _
      (parsePolicyMapKeyInfo_ok_iff.mpr ⟨out, decoded, key, by simp [isSealed, sealedKey], rfl⟩)
    exact key.unique key' ▸ full
  · intro whole
    have accepted : ∀ stack result, parsePolicyMapKeyInfo H version stack text = .ok result →
        ∃ out decoded, SaysKey version text out decoded ∧ decoded.length = 82 ∧
          decoded.drop 78 = cryptoGetChecksum H (decoded.take 78) ∧
          result = { out with extPubkey := decoded.take 78 } := by
      intro stack result parsed
      obtain ⟨out, decoded, key, checksum, rfl⟩ := parsePolicyMapKeyInfo_ok_iff.mp parsed
      have full := (whole out decoded key).resolve_right (not_not.mpr (isPrefix_sealedKey checksum))
      rw [overwrite_of_full full] at checksum ⊢
      exact ⟨out, decoded, key, full, checksum, rfl⟩
    have same : ∀ stack stack' result, parsePolicyMapKeyInfo H version stack text = .ok result →
        parsePolicyMapKeyInfo H version stack' text = .ok result := by
      intro stack stack' result parsed
      obtain ⟨out, decoded, key, full, checksum, rfl⟩ := accepted stack result parsed
      exact parsePolicyMapKeyInfo_ok_iff.mpr ⟨out, decoded, key, by simpa [overwrite_of_full full]⟩
    refine ⟨accepted, fun stack stack' => ?_⟩
    cases parsed : parsePolicyMapKeyInfo H version stack text with
    | ok result => exact (same stack stack' result parsed).symm
    | error error =>
      cases parsed' : parsePolicyMapKeyInfo H version stack' text with
      | ok result => cases parsed.symm.trans (same stack' stack result parsed')
      | error error' =>
        have sameError : parsePolicyMapKeyInfo H version stack text = .error .outside ↔
            parsePolicyMapKeyInfo H version stack' text = .error .outside :=
          parsePolicyMapKeyInfo_outside_iff.trans parsePolicyMapKeyInfo_outside_iff.symm
        rw [parsed, parsed'] at sameError
        cases error <;> cases error' <;> simp_all

/-- A text for the sample key and only three bytes of its checksum. -/
def shortSampleText : Bytes :=
  ("45Y6F4n3DtQE4dKpWomB1apN1jTqh6SoqRz7ajoupXZcN2nrx2wcEZQzeKThsrXQ2mBE3TUYsXsPpbB9rW2rtZA9PTAt" ++
    "87MNkxDYaDixPJ9hdka").toList.map ascii

/-- The last byte of the checksum is taken from the stack. -/
theorem parsePolicyMapKeyInfo_reads_stack :
    base58Decode shortSampleText 82 = .ok (sampleKey ++ [0x23, 0xb9, 0x4f]) ∧
      (parsePolicyMapKeyInfo sampleHash .v2 ⟨replicate 82 0x9f, rfl⟩ shortSampleText).map
        KeyInfoOut.extPubkey = .ok sampleKey ∧
      parsePolicyMapKeyInfo sampleHash .v2 ⟨replicate 82 0, rfl⟩ shortSampleText =
        .error .refused := by
  decide +kernel

end LedgerSyscoin.Common
