import LedgerSyscoin.Common.Base58
import LedgerSyscoin.Common.Script
import LedgerSyscoin.Common.Wallet.Lexer
import LedgerSyscoin.Foundation.Attempt

/-!
# Output scripts

What is shown for an output is the address of its script, or a text for a script that starts
with `OP_RETURN`. A script is an array of bytes, and reading behind its end is an outcome of its
own. This happens for one script only. The text for a push of data does not tell how the data is
pushed.
-/

namespace LedgerSyscoin.Common

open Foundation List

abbrev opPushdata1 : UInt8 := 0x4c
abbrev opPushdata2 : UInt8 := 0x4d
abbrev opPushdata4 : UInt8 := 0x4e
abbrev op1negate : UInt8 := 0x4f
abbrev opReserved : UInt8 := 0x50
abbrev opReturn : UInt8 := 0x6a

/-! ## Reads -/

def readAt (script : Bytes) (index : Nat) : Except ReadError UInt8 :=
  match script[index]? with
  | some byte => .ok byte
  | none => .error .outside

def readSlice (script : Bytes) (start count : Nat) : Except ReadError Bytes :=
  if start + count ≤ script.length then .ok ((script.drop start).take count)
  else .error .outside

/-- Compare bytes of a script with others, up to the first difference. -/
def bytesAre (script : Bytes) : List (Nat × UInt8) → Except ReadError Bool
  | [] => .ok true
  | (index, byte) :: bytes => do
    if (← readAt script index) = byte then bytesAre script bytes else return false

/-- The script has the length and then, at the given positions, the given bytes. -/
def hasShape (script : Bytes) (length : Nat) (bytes : List (Nat × UInt8)) : Except ReadError Bool :=
  if script.length = length then bytesAre script bytes else .ok false

/-! ## Addresses -/

inductive ScriptType where
  | p2pkh | p2sh | p2wpkh | p2wsh | p2tr | unknownSegwit
  deriving DecidableEq

/-- A potentially valid future segwit script. -/
def isUnknownSegwit (script : Bytes) : Except ReadError Bool :=
  if 4 ≤ script.length ∧ script.length ≤ 42 then do
    let first ← readAt script 0
    if first = 0 ∨ op1 ≤ first ∧ first ≤ op16 then
      let pushLen ← readAt script 1
      return script.length = 2 + pushLen.toNat
    else return false
  else .ok false

def getScriptType (script : Bytes) : Except ReadError ScriptType := do
  if ← hasShape script 25
      [(0, opDup), (1, opHash160), (2, 0x14), (23, opEqualverify), (24, opChecksig)] then
    return .p2pkh
  else if ← hasShape script 23 [(0, opHash160), (1, 0x14), (22, opEqual)] then return .p2sh
  else if ← hasShape script 22 [(0, 0x00), (1, 0x14)] then return .p2wpkh
  else if ← hasShape script 34 [(0, op0), (1, 0x20)] then return .p2wsh
  else if ← hasShape script 34 [(0, op1), (1, 0x20)] then return .p2tr
  else if ← isUnknownSegwit script then return .unknownSegwit
  else .error .refused

/-- The coin parameters, and the encoders of addresses, which get the size of the output. -/
structure AddressCoding where
  p2pkhVersion : Nat
  p2shVersion : Nat
  nativeSegwitPrefix : Bytes
  base58EncodeAddress : (hash : Bytes) → (version outLen : Nat) → Option Bytes
  segwitAddrEncode : (hrp : Bytes) → (version : Nat) → (program : Bytes) → Option Bytes

def orRefused {α : Type} : Option α → Except ReadError α
  | some value => .ok value
  | none => .error .refused

def witnessVersion (first : UInt8) : Nat := if first = 0 then 0 else first.toNat - 80

/-- The address of a version and a program. -/
def segwitAddress (coding : AddressCoding) (script : Bytes) (outLen : Nat) :
    Except ReadError Bytes := do
  let progLen ← readAt script 1
  let first ← readAt script 0
  if outLen < 73 + coding.nativeSegwitPrefix.length then .error .refused
  else
    let program ← readSlice script 2 progLen.toNat
    orRefused (coding.segwitAddrEncode coding.nativeSegwitPrefix (witnessVersion first) program)

def getScriptAddress (coding : AddressCoding) (script : Bytes) (outLen : Nat) :
    Except ReadError Bytes := do
  match ← getScriptType script with
  | .p2pkh =>
    let hash ← readSlice script 3 20
    orRefused (coding.base58EncodeAddress hash coding.p2pkhVersion (outLen - 1))
  | .p2sh =>
    let hash ← readSlice script 2 20
    orRefused (coding.base58EncodeAddress hash coding.p2shVersion (outLen - 1))
  | .p2wpkh | .p2wsh | .p2tr | .unknownSegwit => segwitAddress coding script outLen

/-! ## Texts for scripts without an address -/

def hexDigit (value : Nat) : UInt8 := ("0123456789abcdef".toList.map ascii).getD value 0

def hexPair (byte : UInt8) : Bytes := [hexDigit (byte.toNat / 16), hexDigit (byte.toNat % 16)]

/-- The bytes in hexadecimal, if there are any. -/
def hexText (data : Bytes) : Bytes :=
  if data.length > 0 then
    ascii '0' :: ascii 'x' :: data.flatMap hexPair
  else []

def decimalText (num : Nat) : Bytes :=
  (if num ≥ 10 then [ascii '0' + UInt8.ofNat (num / 10)] else []) ++
    [ascii '0' + UInt8.ofNat (num % 10)]

/-- A push that consists of its opcode. -/
def opcodeText (script text : Bytes) : Except ReadError Bytes :=
  if script.length ≠ 2 then .error .refused else .ok text

/-- A push of the data at an offset. -/
def dataText (script : Bytes) (hexOffset hexLength : Nat) : Except ReadError Bytes :=
  if script.length ≠ hexOffset + hexLength then .error .refused
  else do return hexText (← readSlice script hexOffset hexLength)

/-- The text for the push at the end of a script. -/
def pushText (script : Bytes) (opcode : UInt8) : Except ReadError Bytes :=
  if opcode = op0 then opcodeText script [ascii '0']
  else if 1 ≤ opcode ∧ opcode ≤ 75 then dataText script 2 opcode.toNat
  else if opcode = opPushdata1 then do
    let hexLength ← readAt script 2
    if hexLength > 80 then .error .refused else dataText script 3 hexLength.toNat
  else if opcode = op1negate then opcodeText script [ascii '-', ascii '1']
  else if op1 ≤ opcode ∧ opcode ≤ op16 then opcodeText script (decimalText (opcode.toNat - 0x50))
  else .error .refused

/-- The opcodes that are no pushes, and those of pushes with a length of several bytes. -/
def isUnsupported (opcode : UInt8) : Bool :=
  opcode > op16 ∨ opcode = opReserved ∨ opcode = opPushdata2 ∨ opcode = opPushdata4

def maxOpreturnOutputDescSize : Nat := 12 + 80 * 2 + 1

def opReturnText : Bytes := "OP_RETURN".toList.map ascii

/-- The text for a script, with the character that ends it. -/
def formatOpscriptScript (script : Bytes) : Except ReadError Bytes :=
  if script.length = 0 then .error .refused
  else do
    let first ← readAt script 0
    if first ≠ opReturn then .error .refused
    else if script.length = 1 then return opReturnText ++ [0]
    else
      let opcode ← readAt script 1
      if isUnsupported opcode then .error .refused
      else return opReturnText ++ ascii ' ' :: (← pushText script opcode) ++ [0]

/-! ## Reads of addresses -/

variable {script text : Bytes} {length : Nat} {bytes : List (Nat × UInt8)}

theorem readAt_of_lt {index : Nat} (inside : index < script.length) :
    readAt script index = .ok script[index] := by
  rw [readAt, getElem?_eq_getElem inside]

theorem bytesAre_eq_ok (inside : ∀ entry ∈ bytes, entry.1 < script.length) :
    bytesAre script bytes = .ok (decide (∀ entry ∈ bytes, script[entry.1]? = some entry.2)) := by
  induction bytes with
  | nil => simp [bytesAre]
  | cons entry bytes ih =>
    rw [forall_mem_cons] at inside
    rw [bytesAre, readAt_of_lt inside.1, ok_bind, ih inside.2]
    simp only [forall_mem_cons, getElem?_eq_getElem inside.1, Option.some.injEq]
    split_ifs with same
    · simp [same]
    · simp [same, pure, Except.pure]

/-- A version and a program of the length that is announced. -/
def WitnessProgram (script : Bytes) : Prop :=
  ∃ first pushLen program, script = first :: pushLen :: program ∧
    program.length = pushLen.toNat ∧ (first = 0 ∨ op1 ≤ first ∧ first ≤ op16)

/-- What is known about a script of a type. -/
def ScriptType.Shape (script : Bytes) : ScriptType → Prop
  | .p2pkh => script.length = 25 ∧ ∀ entry ∈
      [(0, opDup), (1, opHash160), (2, 0x14), (23, opEqualverify), (24, opChecksig)],
        script[entry.1]? = some entry.2
  | .p2sh => script.length = 23 ∧ ∀ entry ∈ [(0, opHash160), (1, 0x14), (22, opEqual)],
      script[entry.1]? = some entry.2
  | .p2wpkh | .p2wsh | .p2tr | .unknownSegwit => WitnessProgram script

/-- The type is right, or there is none. -/
def Typed (script : Bytes) : Except ReadError ScriptType → Prop
  | .ok type => type.Shape script
  | .error error => error = .refused

theorem typed_hasShape {yes no : Except ReadError ScriptType}
    (inside : ∀ entry ∈ bytes, entry.1 < length)
    (typedYes : script.length = length → (∀ entry ∈ bytes, script[entry.1]? = some entry.2) →
      Typed script yes) (typedNo : Typed script no) :
    Typed script (hasShape script length bytes >>= fun matched => if matched then yes else no) := by
  unfold hasShape
  split_ifs with isLength
  · rw [bytesAre_eq_ok (by simpa only [isLength] using inside), ok_bind]
    split_ifs with areBytes
    · exact typedYes isLength (of_decide_eq_true areBytes)
    · exact typedNo
  · exact typedNo

theorem witnessProgram_of_bytes {first pushLen : UInt8}
    (isLength : script.length = 2 + pushLen.toNat)
    (isVersion : first = 0 ∨ op1 ≤ first ∧ first ≤ op16)
    (areBytes : ∀ entry ∈ [(0, first), (1, pushLen)], script[entry.1]? = some entry.2) :
    WitnessProgram script := by
  rcases script with _ | ⟨head, _ | ⟨second, program⟩⟩
  · simp at isLength
    omega
  · simp at areBytes
  · simp at areBytes isLength
    obtain ⟨rfl, rfl⟩ := areBytes
    exact ⟨head, second, program, rfl, by omega, isVersion⟩

theorem isUnknownSegwit_cases (script : Bytes) : ∃ matched, isUnknownSegwit script = .ok matched ∧
    (matched = true → WitnessProgram script) := by
  unfold isUnknownSegwit
  split_ifs with bounds
  · rw [readAt_of_lt (by omega), ok_bind]
    split_ifs with isVersion
    · rw [readAt_of_lt (by omega), ok_bind]
      refine ⟨_, rfl, fun isLength => ?_⟩
      refine witnessProgram_of_bytes (of_decide_eq_true isLength) isVersion ?_
      simp
    · exact ⟨false, rfl, by simp⟩
  · exact ⟨false, rfl, by simp⟩

/-- The type of a script is read from the script alone. -/
theorem typed_getScriptType (script : Bytes) : Typed script (getScriptType script) := by
  refine typed_hasShape (by decide) (fun isLength areBytes => ⟨isLength, areBytes⟩) ?_
  refine typed_hasShape (by decide) (fun isLength areBytes => ⟨isLength, areBytes⟩) ?_
  refine typed_hasShape (by decide) (fun isLength areBytes => ?_) ?_
  · exact witnessProgram_of_bytes (by simpa using isLength) (by decide) areBytes
  refine typed_hasShape (by decide) (fun isLength areBytes => ?_) ?_
  · exact witnessProgram_of_bytes (by simpa using isLength) (by decide) areBytes
  refine typed_hasShape (by decide) (fun isLength areBytes => ?_) ?_
  · exact witnessProgram_of_bytes (by simpa using isLength) (by decide) areBytes
  obtain ⟨_, isMatched, program⟩ := isUnknownSegwit_cases script
  rw [isMatched, ok_bind]
  split_ifs with holds
  · exact program holds
  · exact rfl

theorem orRefused_ne_outside {α : Type} (result : Option α) :
    orRefused result ≠ .error .outside := by
  cases result <;> simp [orRefused]

theorem segwitAddress_ne_outside (coding : AddressCoding) (program : WitnessProgram script)
    (outLen : Nat) : segwitAddress coding script outLen ≠ .error .outside := by
  obtain ⟨_, _, program, rfl, _, -⟩ := program
  rw [segwitAddress, readAt_of_lt (by simp), ok_bind, readAt_of_lt (by simp), ok_bind]
  split_ifs
  · simp
  · rw [readSlice, if_pos (by simp; omega)]
    exact orRefused_ne_outside _

theorem getScriptAddress_ne_outside (coding : AddressCoding) (script : Bytes) (outLen : Nat) :
    getScriptAddress coding script outLen ≠ .error .outside := by
  have typed := typed_getScriptType script
  rw [getScriptAddress]
  cases result : getScriptType script with
  | error error =>
    rw [result] at typed
    cases typed
    simp
  | ok type =>
    rw [result] at typed
    rw [ok_bind]
    cases type with
    | p2pkh | p2sh =>
      dsimp only
      rw [readSlice, if_pos (by rw [typed.1]; decide)]
      exact orRefused_ne_outside _
    | p2wpkh | p2wsh | p2tr | unknownSegwit => exact segwitAddress_ne_outside coding typed outLen

/-! ## Texts and the scripts that they are for -/

/-- The opcodes that push a small number, with the texts for them. -/
def opcodeTexts : List (UInt8 × Bytes) :=
  (op0, [ascii '0']) :: (op1negate, [ascii '-', ascii '1']) ::
    (range 16).map fun num => (UInt8.ofNat (0x51 + num), decimalText (num + 1))

/-- The scripts that have a text, with what follows `OP_RETURN` in it. -/
inductive Shown : (script text : Bytes) → Prop
  | alone : Shown [opReturn] []
  | opcode {code : UInt8} {text : Bytes} (listed : (code, text) ∈ opcodeTexts) :
      Shown [opReturn, code] (ascii ' ' :: text)
  | direct {data : Bytes} (nonempty : 1 ≤ data.length) (short : data.length ≤ 75) :
      Shown (opReturn :: UInt8.ofNat data.length :: data) (ascii ' ' :: hexText data)
  | pushdata1 {data : Bytes} (short : data.length ≤ 80) :
      Shown (opReturn :: opPushdata1 :: UInt8.ofNat data.length :: data)
        (ascii ' ' :: hexText data)

/-- How the text of a push comes out. -/
def Shows (script : Bytes) : Except ReadError Bytes → Prop
  | .ok text => Shown script (ascii ' ' :: text)
  | .error error => error = .outside → script = [opReturn, opPushdata1]

theorem shows_refused : Shows script (.error .refused) := by
  simp [Shows]

theorem shows_opcodeText {opcode : UInt8} {rest : Bytes} (listed : (opcode, text) ∈ opcodeTexts) :
    Shows (opReturn :: opcode :: rest) (opcodeText (opReturn :: opcode :: rest) text) := by
  unfold opcodeText
  split_ifs with longer
  · exact shows_refused
  · obtain rfl : rest = [] := by simpa using longer
    exact .opcode listed

theorem dataText_append (head data : Bytes) :
    dataText (head ++ data) head.length data.length = .ok (hexText data) := by
  rw [dataText, if_neg (by simp), readSlice, if_pos (by simp), drop_left, take_length]
  rfl

theorem shows_dataText (head data : Bytes) {hexLength : Nat}
    (shown : data.length = hexLength → Shown (head ++ data) (ascii ' ' :: hexText data)) :
    Shows (head ++ data) (dataText (head ++ data) head.length hexLength) := by
  by_cases isLength : data.length = hexLength
  · subst isLength
    rw [dataText_append]
    exact shown rfl
  · rw [dataText, if_pos (by simpa using isLength)]
    exact shows_refused

theorem shows_pushText (opcode : UInt8) (rest : Bytes) :
    Shows (opReturn :: opcode :: rest) (pushText (opReturn :: opcode :: rest) opcode) := by
  unfold pushText
  split_ifs with zero direct pushdata negative number
  · subst zero
    exact shows_opcodeText (by decide)
  · rw [UInt8.le_iff_toNat_le, UInt8.le_iff_toNat_le] at direct
    refine shows_dataText [opReturn, opcode] rest fun isLength => ?_
    have shown : Shown (opReturn :: UInt8.ofNat rest.length :: rest) _ :=
      .direct (isLength ▸ direct.1) (isLength ▸ direct.2)
    rwa [isLength, UInt8.ofNat_toNat] at shown
  · subst pushdata
    rcases rest with _ | ⟨hexLength, data⟩
    · exact fun _ => rfl
    · change Shows _ (if hexLength > 80 then _ else _)
      split_ifs with long
      · exact shows_refused
      · have short := UInt8.le_iff_toNat_le.mp (UInt8.not_lt.mp long)
        refine shows_dataText [opReturn, opPushdata1, hexLength] data fun isLength => ?_
        have shown : Shown (opReturn :: opPushdata1 :: UInt8.ofNat data.length :: data) _ :=
          .pushdata1 (isLength ▸ short)
        rwa [isLength, UInt8.ofNat_toNat] at shown
  · subst negative
    exact shows_opcodeText (by decide)
  · rw [UInt8.le_iff_toNat_le, UInt8.le_iff_toNat_le] at number
    have lower : 81 ≤ opcode.toNat := number.1
    have upper : opcode.toNat ≤ 96 := number.2
    have isNumber : 0x51 + (opcode.toNat - 0x51) = opcode.toNat := by omega
    refine shows_opcodeText (mem_cons_of_mem _ (mem_cons_of_mem _ (mem_map.mpr
      ⟨opcode.toNat - 0x51, mem_range.mpr (by omega), ?_⟩)))
    rw [isNumber, UInt8.ofNat_toNat, show opcode.toNat - 0x51 + 1 = opcode.toNat - 0x50 by omega]
  · exact shows_refused

theorem formatOpscriptScript_push (opcode : UInt8) (rest : Bytes) :
    formatOpscriptScript (opReturn :: opcode :: rest) =
      if isUnsupported opcode then .error .refused
      else pushText (opReturn :: opcode :: rest) opcode >>= fun text =>
        .ok (opReturnText ++ (ascii ' ' :: text) ++ [0]) := by
  have first : readAt (opReturn :: opcode :: rest) 0 = .ok opReturn := rfl
  have second : readAt (opReturn :: opcode :: rest) 1 = .ok opcode := rfl
  rw [formatOpscriptScript, if_neg (by simp), first, ok_bind, if_neg (by simp), if_neg (by simp),
    second, ok_bind]
  rfl

/-- A script with a text is one of those that are shown, and only one script is read behind its
end. -/
theorem formatOpscriptScript_cases (script : Bytes) :
    match formatOpscriptScript script with
    | .ok out => ∃ text, Shown script text ∧ out = opReturnText ++ text ++ [0]
    | .error error => error = .outside → script = [opReturn, opPushdata1] := by
  rcases script with _ | ⟨first, rest⟩
  · simp [formatOpscriptScript]
  by_cases isReturn : first = opReturn
  · subst isReturn
    rcases rest with _ | ⟨opcode, rest⟩
    · exact ⟨[], .alone, rfl⟩
    · rw [formatOpscriptScript_push]
      split_ifs
      · simp
      · have shows := shows_pushText opcode rest
        cases result : pushText (opReturn :: opcode :: rest) opcode with
        | ok text =>
          rw [result] at shows
          exact ⟨_, shows, rfl⟩
        | error error =>
          rw [result] at shows
          exact shows
  · have read : readAt (first :: rest) 0 = .ok first := rfl
    rw [formatOpscriptScript, if_neg (by simp), read, ok_bind, if_pos isReturn]
    simp

theorem Shown.formats (shown : Shown script text) :
    formatOpscriptScript script = .ok (opReturnText ++ text ++ [0]) := by
  cases shown with
  | alone => rfl
  | opcode listed =>
    have all : ∀ entry ∈ opcodeTexts, formatOpscriptScript [opReturn, entry.1] =
      .ok (opReturnText ++ (ascii ' ' :: entry.2) ++ [0]) := by decide
    exact all _ listed
  | @direct data nonempty short =>
    have isLength : (UInt8.ofNat data.length).toNat = data.length :=
      UInt8.toNat_ofNat_of_lt (by change _ < 256; omega)
    have supported : ∀ count ≤ 75, isUnsupported (UInt8.ofNat count) = false ∧
        (1 ≤ count → UInt8.ofNat count ≠ op0 ∧ 1 ≤ UInt8.ofNat count ∧ UInt8.ofNat count ≤ 75) := by
      decide
    obtain ⟨isSupported, ranges⟩ := supported _ short
    have text := dataText_append [opReturn, UInt8.ofNat data.length] data
    rw [formatOpscriptScript_push, isSupported, if_neg Bool.false_ne_true, pushText,
      if_neg (ranges nonempty).1, if_pos (ranges nonempty).2, isLength]
    exact congrArg (· >>= _) text
  | @pushdata1 data short =>
    have isLength : (UInt8.ofNat data.length).toNat = data.length :=
      UInt8.toNat_ofNat_of_lt (by change _ < 256; omega)
    have text := dataText_append [opReturn, opPushdata1, UInt8.ofNat data.length] data
    have small : ¬ UInt8.ofNat data.length > 80 := by
      rw [gt_iff_lt, UInt8.lt_iff_toNat_lt, isLength]
      exact not_lt.mpr short
    rw [formatOpscriptScript_push]
    change (if UInt8.ofNat data.length > 80 then .error .refused else
      dataText _ 3 (UInt8.ofNat data.length).toNat) >>= _ = _
    rw [if_neg small, isLength]
    exact congrArg (· >>= _) text

/-- Only one script is read behind its end. -/
theorem readsInside_iff (coding : AddressCoding) (script : Bytes) (outLen : Nat) :
    (getScriptType script ≠ .error .outside ∧
      getScriptAddress coding script outLen ≠ .error .outside ∧
      formatOpscriptScript script ≠ .error .outside) ↔ script ≠ [opReturn, opPushdata1] := by
  constructor
  · rintro ⟨-, -, inside⟩ rfl
    exact inside rfl
  · intro other
    refine ⟨fun outside => ?_, getScriptAddress_ne_outside coding script outLen, fun outside => ?_⟩
    · have typed := typed_getScriptType script
      rw [outside] at typed
      cases typed
    · have formats := formatOpscriptScript_cases script
      rw [outside] at formats
      exact other (formats rfl)

theorem formatOpscriptScript_reads_outside :
    formatOpscriptScript [opReturn, opPushdata1] = .error .outside := rfl

/-! ## Faithfulness of the texts -/

theorem hexDigit_inj : ∀ value < 16, ∀ other < 16, hexDigit value = hexDigit other →
    value = other := by
  decide

theorem hexPair_inj {byte other : UInt8} (same : hexPair byte = hexPair other) : byte = other := by
  have byteLt := byte.toNat_lt
  have otherLt := other.toNat_lt
  simp only [hexPair, List.cons.injEq, and_true] at same
  have high := hexDigit_inj _ (by omega) _ (by omega) same.1
  have low := hexDigit_inj _ (Nat.mod_lt _ (by decide)) _ (Nat.mod_lt _ (by decide)) same.2
  exact UInt8.toNat_inj.mp (by omega)

theorem flatMap_hexPair_inj {data other : Bytes}
    (same : data.flatMap hexPair = other.flatMap hexPair) : data = other := by
  induction data generalizing other with
  | nil =>
    cases other with
    | nil => rfl
    | cons byte rest => cases same
  | cons byte data ih =>
    cases other with
    | nil => cases same
    | cons first rest =>
      rw [flatMap_cons, flatMap_cons] at same
      obtain ⟨samePair, sameRest⟩ := append_inj same rfl
      rw [hexPair_inj samePair, ih sameRest]

theorem hexText_inj {data other : Bytes} (same : hexText data = hexText other) : data = other := by
  unfold hexText at same
  split_ifs at same with first second second
  · exact flatMap_hexPair_inj (List.cons.inj (List.cons.inj same).2).2
  · rw [length_eq_zero_iff.mp (Nat.eq_zero_of_not_pos first),
      length_eq_zero_iff.mp (Nat.eq_zero_of_not_pos second)]

/-- The text for data differs from that for an opcode in its second character. -/
theorem opcodeText_ne_hexText {code : UInt8} (listed : (code, text) ∈ opcodeTexts) (data : Bytes) :
    text ≠ hexText data := by
  have all : ∀ entry ∈ opcodeTexts, entry.2 ≠ [] ∧ entry.2[1]? ≠ some (ascii 'x') := by decide
  obtain ⟨nonempty, second⟩ := all _ listed
  unfold hexText
  rintro rfl
  split_ifs at nonempty second
  · exact second rfl
  · exact nonempty rfl

/-- The script pushes 1 to 75 bytes of data, in one of two ways. -/
def PushesShortData (script : Bytes) : Prop :=
  ∃ data : Bytes, 1 ≤ data.length ∧ data.length ≤ 75 ∧
    (script = opReturn :: UInt8.ofNat data.length :: data ∨
      script = opReturn :: opPushdata1 :: UInt8.ofNat data.length :: data)

/-- What is pushed after `OP_RETURN`. -/
inductive Pushed where
  | nothing
  | number (opcode : UInt8)
  | data (bytes : Bytes)

/-- `OP_RETURN` alone or with a single push that ends the script. Data of up to 75 bytes can be
pushed in two ways. -/
inductive Pushes : (script : Bytes) → Pushed → Prop
  | nothing : Pushes [opReturn] .nothing
  | number {opcode : UInt8} (listed : opcode ∈ opcodeTexts.map (·.1)) :
      Pushes [opReturn, opcode] (.number opcode)
  | direct {data : Bytes} (nonempty : 1 ≤ data.length) (short : data.length ≤ 75) :
      Pushes (opReturn :: UInt8.ofNat data.length :: data) (.data data)
  | pushdata1 {data : Bytes} (short : data.length ≤ 80) :
      Pushes (opReturn :: opPushdata1 :: UInt8.ofNat data.length :: data) (.data data)

theorem Shown.pushes (shown : Shown script text) : ∃ pushed, Pushes script pushed := by
  cases shown with
  | alone => exact ⟨_, .nothing⟩
  | opcode listed => exact ⟨_, .number (mem_map_of_mem listed)⟩
  | direct nonempty short => exact ⟨_, .direct nonempty short⟩
  | pushdata1 short => exact ⟨_, .pushdata1 short⟩

theorem Pushes.shown {pushed : Pushed} (pushes : Pushes script pushed) :
    ∃ text, Shown script text := by
  cases pushes with
  | nothing => exact ⟨_, .alone⟩
  | number listed =>
    obtain ⟨⟨_, text⟩, entry, rfl⟩ := mem_map.mp listed
    exact ⟨_, .opcode entry⟩
  | direct nonempty short => exact ⟨_, .direct nonempty short⟩
  | pushdata1 short => exact ⟨_, .pushdata1 short⟩

/-- Scripts with the same text push the same. -/
theorem Shown.same_push {other same : Bytes} (shown : Shown script text) (again : Shown other same)
    (sameText : text = same) : ∃ pushed, Pushes script pushed ∧ Pushes other pushed := by
  cases shown with
  | alone =>
    cases again with
    | alone => exact ⟨_, .nothing, .nothing⟩
    | opcode | direct | pushdata1 => cases sameText
  | opcode listed =>
    cases again with
    | alone => cases sameText
    | opcode listed' =>
      have all : ∀ entry ∈ opcodeTexts, ∀ entry' ∈ opcodeTexts, entry.2 = entry'.2 →
          entry.1 = entry'.1 := by decide
      obtain rfl := all _ listed _ listed' (List.cons.inj sameText).2
      exact ⟨_, .number (mem_map_of_mem listed), .number (mem_map_of_mem listed)⟩
    | direct | pushdata1 =>
      exact absurd (List.cons.inj sameText).2 (opcodeText_ne_hexText listed _)
  | direct nonempty short =>
    cases again with
    | alone => cases sameText
    | opcode listed =>
      exact absurd (List.cons.inj sameText).2.symm (opcodeText_ne_hexText listed _)
    | direct =>
      obtain rfl := hexText_inj (List.cons.inj sameText).2
      exact ⟨_, .direct nonempty short, .direct nonempty short⟩
    | pushdata1 short' =>
      obtain rfl := hexText_inj (List.cons.inj sameText).2
      exact ⟨_, .direct nonempty short, .pushdata1 short'⟩
  | pushdata1 short =>
    cases again with
    | alone => cases sameText
    | opcode listed =>
      exact absurd (List.cons.inj sameText).2.symm (opcodeText_ne_hexText listed _)
    | direct nonempty short' =>
      obtain rfl := hexText_inj (List.cons.inj sameText).2
      exact ⟨_, .pushdata1 short, .direct nonempty short'⟩
    | pushdata1 =>
      obtain rfl := hexText_inj (List.cons.inj sameText).2
      exact ⟨_, .pushdata1 short, .pushdata1 short⟩

/-- Only data of 1 to 75 bytes is pushed by more than one script. -/
theorem Pushes.unique {other : Bytes} {pushed : Pushed} (pushes : Pushes script pushed)
    (again : Pushes other pushed) (long : ¬ PushesShortData script) : other = script := by
  cases pushes with
  | nothing | number => cases again; rfl
  | @direct data nonempty short => exact absurd ⟨data, nonempty, short, .inl rfl⟩ long
  | @pushdata1 data short =>
    cases again with
    | direct nonempty short => exact absurd ⟨data, nonempty, short, .inr rfl⟩ long
    | pushdata1 => rfl

theorem hexText_fits (data : Bytes) :
    (hexText data).length ≤ 2 * data.length + 2 ∧ 0 ∉ hexText data := by
  have digits : ∀ value < 16, hexDigit value ≠ 0 := by decide
  have pair (byte : UInt8) : 0 ∉ hexPair byte := by
    have byteLt := byte.toNat_lt
    simp only [hexPair, mem_cons, not_mem_nil, or_false, not_or]
    exact ⟨(digits _ (by omega)).symm, (digits _ (Nat.mod_lt _ (by decide))).symm⟩
  have length : (data.flatMap hexPair).length = 2 * data.length := by
    simp [length_flatMap, hexPair, Nat.mul_comm]
  unfold hexText
  split_ifs
  · refine ⟨by simp [length], ?_⟩
    simp only [mem_cons, mem_flatMap, not_or, not_exists, not_and]
    exact ⟨by decide, by decide, fun byte _ => pair byte⟩
  · simp

/-- The text fits its buffer, and no character of it ends it. -/
theorem Shown.fits (shown : Shown script text) :
    (opReturnText ++ text).length < maxOpreturnOutputDescSize ∧ 0 ∉ opReturnText ++ text := by
  have start : opReturnText.length = 9 ∧ 0 ∉ opReturnText ∧ 0 ≠ ascii ' ' := by decide
  have short : text.length ≤ 163 ∧ 0 ∉ text := by
    cases shown with
    | alone => simp
    | opcode listed =>
      have all : ∀ entry ∈ opcodeTexts, entry.2.length ≤ 2 ∧ 0 ∉ entry.2 := by decide
      obtain ⟨length, noZero⟩ := all _ listed
      exact ⟨Nat.succ_le_succ (length.trans (by decide)),
        not_mem_cons_of_ne_of_not_mem start.2.2 noZero⟩
    | @direct data _ short | @pushdata1 data short =>
      obtain ⟨length, noZero⟩ := hexText_fits data
      exact ⟨by rw [length_cons]; omega, not_mem_cons_of_ne_of_not_mem start.2.2 noZero⟩
  rw [length_append, mem_append, not_or, maxOpreturnOutputDescSize]
  exact ⟨by omega, start.2.1, short.2⟩

/-- A script has a text exactly if it is `OP_RETURN` with at most one push, the text fits its
buffer, and only scripts that push the same data or number have the same text. -/
structure FaithfullyShown (script : Bytes) : Prop where
  accepted : (∃ out, formatOpscriptScript script = .ok out) ↔ ∃ pushed, Pushes script pushed
  fits : ∀ out, formatOpscriptScript script = .ok out → ∃ shown, out = shown ++ [0] ∧ 0 ∉ shown ∧
    out.length ≤ maxOpreturnOutputDescSize
  same : ∀ other out, formatOpscriptScript script = .ok out →
    formatOpscriptScript other = .ok out → ∃ pushed, Pushes script pushed ∧ Pushes other pushed

/-- The text tells what is pushed, and it tells the script exactly if this is not 1 to 75 bytes of
data. -/
theorem faithfullyShown_iff (script : Bytes) :
    FaithfullyShown script ∧
      ((∀ other out, formatOpscriptScript script = .ok out →
          formatOpscriptScript other = .ok out → other = script) ↔ ¬ PushesShortData script) := by
  have shown {script out : Bytes} (formats : formatOpscriptScript script = .ok out) :
      ∃ text, Shown script text ∧ out = opReturnText ++ text ++ [0] := by
    have cases := formatOpscriptScript_cases script
    rwa [formats] at cases
  have same {other out : Bytes} (formats : formatOpscriptScript script = .ok out)
      (again : formatOpscriptScript other = .ok out) :
      ∃ pushed, Pushes script pushed ∧ Pushes other pushed := by
    obtain ⟨text, shows, isOut⟩ := shown formats
    obtain ⟨text', shows', isOut'⟩ := shown again
    exact shows.same_push shows'
      (append_cancel_left (append_cancel_right (isOut.symm.trans isOut')))
  refine ⟨⟨⟨fun ⟨out, formats⟩ => ?_, fun ⟨pushed, pushes⟩ => ?_⟩, fun out formats => ?_,
    fun other out => same⟩, ?_, fun long other out formats again => ?_⟩
  · obtain ⟨text, shows, -⟩ := shown formats
    exact shows.pushes
  · obtain ⟨text, shows⟩ := pushes.shown
    exact ⟨_, shows.formats⟩
  · obtain ⟨text, shows, rfl⟩ := shown formats
    obtain ⟨small, noZero⟩ := shows.fits
    exact ⟨_, rfl, noZero, by rw [length_append]; exact small⟩
  · rintro unique ⟨data, nonempty, short, isScript⟩
    have direct := (Shown.direct nonempty short).formats
    have pushdata1 := (Shown.pushdata1 (short.trans (by decide))).formats
    rcases isScript with rfl | rfl
    · have same := congrArg List.length (unique _ _ direct pushdata1)
      simp at same
    · have same := congrArg List.length (unique _ _ pushdata1 direct)
      simp at same
  · obtain ⟨pushed, pushes, pushesOther⟩ := same formats again
    exact pushes.unique pushesOther long

/-- A byte that is pushed with its length, or with an opcode before the length. -/
theorem formatOpscriptScript_same_text :
    ∃ out, formatOpscriptScript [opReturn, 0x01, 0xff] = .ok out ∧
      formatOpscriptScript [opReturn, opPushdata1, 0x01, 0xff] = .ok out :=
  ⟨"OP_RETURN 0xff".toList.map ascii ++ [0], by decide, by decide⟩

end LedgerSyscoin.Common
