import LedgerSyscoin.Common.Wallet

/-!
# Lexical elements of descriptor templates

The readers of words, decimal numbers, hexadecimal hash images and key
placeholders. Each takes the unread part of the template and returns the element
with what is left to read.
-/

namespace LedgerSyscoin.Common

open Foundation List

variable {input rest : Bytes}

/-- The two versions of wallet policies. -/
inductive WalletPolicyVersion where
  | v1 | v2
  deriving DecidableEq, Repr

/-! ## Characters -/

/-- The byte of an ASCII character. -/
def ascii (character : Char) : UInt8 := character.toNat.toUInt8

def isDigit (c : UInt8) : Bool := ascii '0' ≤ c && c ≤ ascii '9'

def isAlpha (c : UInt8) : Bool :=
  (ascii 'a' ≤ c && c ≤ ascii 'z') || (ascii 'A' ≤ c && c ≤ ascii 'Z')

def isAlphanumeric (c : UInt8) : Bool := isAlpha c || isDigit c

def isLowercaseHex (c : UInt8) : Bool := isDigit c || (ascii 'a' ≤ c && c ≤ ascii 'f')

def lowercaseHexToInt (c : UInt8) : UInt8 :=
  if isDigit c then c - ascii '0' else c - ascii 'a' + 10

/-- Skip one character, if it is the expected one. -/
def consumeCharacter (expected : Char) : Bytes → Option Bytes
  | [] => none
  | c :: rest => if c = ascii expected then some rest else none

/-- Skip a sequence of characters, if they are the expected ones. -/
def consumeCharacters : List Char → Bytes → Option Bytes
  | [], input => some input
  | expected :: more, input => (consumeCharacter expected input).bind (consumeCharacters more)

/-! ## Words -/

/-- Read at most `limit` letters, digits and underscores. -/
def readToken : Nat → Bytes → Bytes × Bytes
  | 0, input => ([], input)
  | _ + 1, [] => ([], [])
  | limit + 1, c :: rest =>
    if isAlphanumeric c || c = ascii '_' then
      (c :: (readToken limit rest).1, (readToken limit rest).2)
    else ([], c :: rest)

/-- The words of the language, without the wrappers. -/
def knownTokens : List (PolicyNodeType × List Char) :=
  [(.sh, ['s', 'h']),
   (.wsh, ['w', 's', 'h']),
   (.pkh, ['p', 'k', 'h']),
   (.wpkh, ['w', 'p', 'k', 'h']),
   (.multi, ['m', 'u', 'l', 't', 'i']),
   (.multiA, ['m', 'u', 'l', 't', 'i', '_', 'a']),
   (.sortedmulti, ['s', 'o', 'r', 't', 'e', 'd', 'm', 'u', 'l', 't', 'i']),
   (.sortedmultiA, ['s', 'o', 'r', 't', 'e', 'd', 'm', 'u', 'l', 't', 'i', '_', 'a']),
   (.tr, ['t', 'r']),
   (.zero, ['0']),
   (.one, ['1']),
   (.pk, ['p', 'k']),
   (.pkK, ['p', 'k', '_', 'k']),
   (.pkH, ['p', 'k', '_', 'h']),
   (.older, ['o', 'l', 'd', 'e', 'r']),
   (.after, ['a', 'f', 't', 'e', 'r']),
   (.sha256, ['s', 'h', 'a', '2', '5', '6']),
   (.hash256, ['h', 'a', 's', 'h', '2', '5', '6']),
   (.ripemd160, ['r', 'i', 'p', 'e', 'm', 'd', '1', '6', '0']),
   (.hash160, ['h', 'a', 's', 'h', '1', '6', '0']),
   (.andor, ['a', 'n', 'd', 'o', 'r']),
   (.andV, ['a', 'n', 'd', '_', 'v']),
   (.andB, ['a', 'n', 'd', '_', 'b']),
   (.andN, ['a', 'n', 'd', '_', 'n']),
   (.orB, ['o', 'r', '_', 'b']),
   (.orC, ['o', 'r', '_', 'c']),
   (.orD, ['o', 'r', '_', 'd']),
   (.orI, ['o', 'r', '_', 'i']),
   (.thresh, ['t', 'h', 'r', 'e', 's', 'h'])]

/-- The length of the longest word, `sortedmulti_a`. -/
def maxTokenLength : Nat := 13

/-- Read the next word. The result is `none` when the language does not have it. -/
def parseToken (input : Bytes) : Option PolicyNodeType × Bytes :=
  let (word, rest) := readToken maxTokenLength input
  ((knownTokens.find? (fun token => token.2.map ascii = word)).map (·.1), rest)

/-! ## Numbers and hash images -/

/-- The loop over the digits of a decimal number. The accumulator is a 32-bit word and
wraps; the test against the previous value does not see every overflow. -/
def readDigits (digitsRead : Nat) (result : UInt32) : Bytes → Option (Nat × UInt32 × Bytes)
  | [] => some (digitsRead, result, [])
  | c :: rest =>
    if isDigit c then
      let nextDigit := (c - ascii '0').toUInt32
      -- a leading zero must be the only digit
      if digitsRead + 1 = 2 ∧ result = 0 then none
      else if 10 * result + nextDigit < result then none
      else readDigits (digitsRead + 1) (10 * result + nextDigit) rest
    else some (digitsRead, result, c :: rest)

/-- Read an unsigned decimal number of at least one digit. -/
def parseUnsignedDecimal (input : Bytes) : Option (UInt32 × Bytes) := do
  let (digitsRead, result, rest) ← readDigits 0 0 input
  if digitsRead = 0 then none else some (result, rest)

/-- Read `n` bytes written as lowercase hexadecimal digits. -/
def bufferReadHexHash : (n : Nat) → Bytes → Option ({ hash : Bytes // hash.length = n } × Bytes)
  | 0, input => some (⟨[], rfl⟩, input)
  | n + 1, c1 :: c2 :: rest =>
    if isLowercaseHex c1 && isLowercaseHex c2 then
      (bufferReadHexHash n rest).map fun (hash, rest) =>
        (⟨(16 * lowercaseHexToInt c1 + lowercaseHexToInt c2) :: hash.val,
          congrArg (· + 1) hash.property⟩, rest)
    else none
  | _ + 1, _ => none

/-! ## Key placeholders -/

/-- The largest value of a signed 16-bit integer. -/
def int16Max : UInt32 := 32767

/-- Read `M;N>/*`, the part of a version 2 placeholder after `/<`. -/
def parseDerivationSteps (keyIndex : Nat) (input : Bytes) : Option (KeyPlaceholder × Bytes) := do
  let (numFirst, input) ← parseUnsignedDecimal input
  guard (numFirst ≤ 0x80000000)
  let input ← consumeCharacter ';' input
  let (numSecond, input) ← parseUnsignedDecimal input
  guard (numSecond ≤ 0x80000000)
  guard (numFirst ≠ numSecond)
  let input ← consumeCharacters ['>', '/', '*'] input
  return (⟨numFirst, numSecond, keyIndex⟩, input)

/-- Read a key placeholder: `@i` in version 1, `@i/**` or `@i/<M;N>/*` in version 2. -/
def parsePlaceholder (version : WalletPolicyVersion) (input : Bytes) :
    Option (KeyPlaceholder × Bytes) := do
  let input ← consumeCharacter '@' input
  let (k, input) ← parseUnsignedDecimal input
  guard (k ≤ int16Max)
  match version with
  | .v1 => return (⟨0, 1, k.toNat⟩, input)
  | .v2 =>
    let input ← consumeCharacter '/' input
    match input.head? with
    | some c =>
      if c = ascii '*' then
        let input ← consumeCharacters ['*', '*'] input
        return (⟨0, 1, k.toNat⟩, input)
      else if c = ascii '<' then parseDerivationSteps k.toNat (input.drop 1)
      else none
    | none => none

/-! ## What is left unread -/

/-- The rest is left after characters that begin no placeholder. -/
def Passes (input rest : Bytes) : Prop := ∃ text, input = text ++ rest ∧ ascii '@' ∉ text

theorem Passes.refl (input : Bytes) : Passes input input := ⟨[], rfl, not_mem_nil⟩

theorem Passes.cons {c : UInt8} (other : c ≠ ascii '@') (passes : Passes input rest) :
    Passes (c :: input) rest := by
  obtain ⟨text, rfl, absent⟩ := passes
  exact ⟨c :: text, rfl, by simp [other.symm, absent]⟩

theorem Passes.trans {middle : Bytes} (passes : Passes input middle) (more : Passes middle rest) :
    Passes input rest := by
  obtain ⟨text, rfl, absent⟩ := passes
  obtain ⟨later, rfl, absentLater⟩ := more
  exact ⟨text ++ later, (append_assoc _ _ _).symm, by simp [absent, absentLater]⟩

theorem Passes.length_le (passes : Passes input rest) : rest.length ≤ input.length := by
  obtain ⟨_, rfl, -⟩ := passes
  simp

variable {expected : Char}

theorem eq_cons_of_consumeCharacter
    (consumed : consumeCharacter expected input = some rest) : input = ascii expected :: rest := by
  cases input with
  | nil => cases consumed
  | cons c tail =>
    simp only [consumeCharacter, Option.ite_none_right_eq_some, Option.some.injEq] at consumed
    rw [consumed.1, consumed.2]

theorem length_of_consumeCharacter
    (consumed : consumeCharacter expected input = some rest) : rest.length < input.length := by
  rw [eq_cons_of_consumeCharacter consumed]
  exact Nat.lt_succ_self _

theorem passes_of_consumeCharacter (other : ascii expected ≠ ascii '@')
    (consumed : consumeCharacter expected input = some rest) : Passes input rest := by
  rw [eq_cons_of_consumeCharacter consumed]
  exact .cons other (.refl rest)

theorem passes_of_consumeCharacters {expected : List Char} (others : ascii '@' ∉ expected.map ascii)
    (consumed : consumeCharacters expected input = some rest) : Passes input rest := by
  induction expected generalizing input with
  | nil =>
    cases consumed
    exact .refl _
  | cons c more ih =>
    rw [map_cons, mem_cons, not_or] at others
    obtain ⟨_, first, later⟩ := Option.bind_eq_some_iff.mp consumed
    exact (passes_of_consumeCharacter (Ne.symm others.1) first).trans (ih others.2 later)

theorem passes_of_readDigits {digitsRead count : Nat} {result value : UInt32}
    (read : readDigits digitsRead result input = some (count, value, rest)) :
    Passes input rest := by
  induction input generalizing digitsRead result with
  | nil =>
    cases read
    exact .refl []
  | cons c tail ih =>
    simp only [readDigits] at read
    split_ifs at read with digit
    · exact .cons (fun isAt => absurd (isAt ▸ digit) (by decide)) (ih read)
    · cases read
      exact .refl _

theorem passes_of_parseUnsignedDecimal {value : UInt32}
    (read : parseUnsignedDecimal input = some (value, rest)) : Passes input rest := by
  simp only [parseUnsignedDecimal, Option.bind_eq_bind, Option.bind_eq_some_iff] at read
  obtain ⟨⟨_, _, _⟩, digits, checked⟩ := read
  split_ifs at checked
  cases checked
  exact passes_of_readDigits digits

theorem rest_of_bufferReadHexHash {n : Nat} {hash : { hash : Bytes // hash.length = n }}
    (read : bufferReadHexHash n input = some (hash, rest)) :
    rest = input.drop (2 * n) ∧ Passes input rest := by
  induction n generalizing input with
  | zero =>
    cases read
    exact ⟨rfl, .refl _⟩
  | succ n ih =>
    match input with
    | [] => cases read
    | [_] => cases read
    | c1 :: c2 :: tail =>
      simp only [bufferReadHexHash, Option.ite_none_right_eq_some, Option.map_eq_some_iff,
        Prod.mk.injEq, Prod.exists, Bool.and_eq_true] at read
      obtain ⟨⟨digit1, digit2⟩, _, _, innerRead, -, rfl⟩ := read
      obtain ⟨isRest, passes⟩ := ih innerRead
      have digit : ∀ c, isLowercaseHex c = true → c ≠ ascii '@' := by
        rintro c isDigit rfl
        exact absurd isDigit (by decide)
      exact ⟨isRest, .cons (digit c1 digit1) (.cons (digit c2 digit2) passes)⟩

variable {keyPlaceholder : KeyPlaceholder}

theorem passes_of_parseDerivationSteps {keyIndex : Nat}
    (read : parseDerivationSteps keyIndex input = some (keyPlaceholder, rest)) :
    Passes input rest := by
  simp only [parseDerivationSteps, Option.bind_eq_bind, Option.bind_eq_some_iff, Option.pure_def,
    Option.some.injEq, Prod.mk.injEq, Prod.exists] at read
  obtain ⟨_, _, readFirst, -, -, _, semicolon, _, _,
    readSecond, -, -, -, -, _, suffix, -, rfl⟩ := read
  exact (passes_of_parseUnsignedDecimal readFirst).trans
    ((passes_of_consumeCharacter (by decide) semicolon).trans
      ((passes_of_parseUnsignedDecimal readSecond).trans
        (passes_of_consumeCharacters (by decide) suffix)))

variable {version : WalletPolicyVersion}

/-- A placeholder has one mark, at its beginning. -/
theorem passes_of_parsePlaceholder
    (read : parsePlaceholder version input = some (keyPlaceholder, rest)) :
    ∃ afterMark, input = ascii '@' :: afterMark ∧ Passes afterMark rest := by
  simp only [parsePlaceholder, Option.bind_eq_bind, Option.bind_eq_some_iff, Prod.exists] at read
  obtain ⟨afterMark, mark, _, _, index, -, -, steps⟩ := read
  refine ⟨afterMark, eq_cons_of_consumeCharacter mark,
    (passes_of_parseUnsignedDecimal index).trans ?_⟩
  cases version with
  | v1 =>
    cases steps
    exact .refl _
  | v2 =>
    simp only [Option.bind_eq_some_iff] at steps
    obtain ⟨_, slash, steps⟩ := steps
    refine (passes_of_consumeCharacter (by decide) slash).trans ?_
    split at steps
    · rename_i c isHead
      split_ifs at steps with star bracket
      · simp only [Option.bind_eq_some_iff, Option.pure_def, Option.some.injEq,
          Prod.mk.injEq] at steps
        obtain ⟨_, stars, -, rfl⟩ := steps
        exact passes_of_consumeCharacters (by decide) stars
      · obtain ⟨_, rfl⟩ := head?_eq_some_iff.mp isHead
        exact .cons (bracket ▸ by decide) (passes_of_parseDerivationSteps steps)
    · cases steps

theorem readToken_append (limit : Nat) (input : Bytes) :
    input = (readToken limit input).1 ++ (readToken limit input).2 ∧
      ascii '@' ∉ (readToken limit input).1 := by
  induction limit generalizing input with
  | zero => exact ⟨rfl, not_mem_nil⟩
  | succ limit ih =>
    cases input with
    | nil => exact ⟨rfl, not_mem_nil⟩
    | cons c tail =>
      simp only [readToken]
      split_ifs with inWord
      · refine ⟨congrArg (c :: ·) (ih tail).1, fun isMember => ?_⟩
        obtain rfl | later := mem_cons.mp isMember
        · exact absurd inWord (by decide)
        · exact (ih tail).2 later
      · exact ⟨rfl, not_mem_nil⟩

theorem knownTokens_ne_nil : ∀ token ∈ knownTokens, token.2 ≠ [] := by
  decide

/-! ## The placeholders of a text -/

/-- The placeholders that are read in a text, at all its positions. -/
def keysIn : (text : Bytes) → (version : WalletPolicyVersion) → List KeyPlaceholder
  | [], _ => []
  | c :: text, version =>
    match parsePlaceholder version (c :: text) with
    | some (key, _) => key :: keysIn text version
    | none => keysIn text version

/-- What `parsePlaceholder` guarantees holds of all of them. -/
theorem forall_mem_keysIn {property : KeyPlaceholder → Prop}
    (reads : ∀ input key rest, parsePlaceholder version input = some (key, rest) → property key)
    (text : Bytes) : ∀ key ∈ keysIn text version, property key := by
  induction text with
  | nil => exact forall_mem_nil _
  | cons c text ih =>
    rw [keysIn]
    split
    · rename_i key rest read
      exact forall_mem_cons.mpr ⟨reads _ key rest read, ih⟩
    · exact ih

theorem Passes.keysIn_eq (passes : Passes input rest) : keysIn input = keysIn rest := by
  obtain ⟨text, rfl, absent⟩ := passes
  induction text with
  | nil => rfl
  | cons c text ih =>
    rw [mem_cons, not_or] at absent
    funext version
    have unmarked : parsePlaceholder version (c :: (text ++ rest)) = none := by
      simp [parsePlaceholder, consumeCharacter, Ne.symm absent.1]
    rw [← ih absent.2, cons_append, keysIn, unmarked]

theorem keysIn_of_parsePlaceholder {key : KeyPlaceholder}
    (read : parsePlaceholder version input = some (key, rest)) :
    keysIn input version = key :: keysIn rest version := by
  obtain ⟨_, rfl, passes⟩ := passes_of_parsePlaceholder read
  rw [← passes.keysIn_eq, keysIn, read]

end LedgerSyscoin.Common
