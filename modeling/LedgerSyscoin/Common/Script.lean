import LedgerSyscoin.Foundation.Bytes

/-!
# Bitcoin Script

The opcodes the script compiler emits, the size of an integer push, and Script
itself: a script is a list of opcodes and data pushes, with the byte string it
is serialized to. The `v:` wrapper of miniscript acts on the last item of a
script.
-/

namespace LedgerSyscoin.Common

open Foundation

/-! ## Opcodes -/

abbrev op0 : UInt8 := 0x00
abbrev op1 : UInt8 := 0x51
abbrev op16 : UInt8 := 0x60
abbrev opIf : UInt8 := 0x63
abbrev opNotif : UInt8 := 0x64
abbrev opElse : UInt8 := 0x67
abbrev opEndif : UInt8 := 0x68
abbrev opVerify : UInt8 := 0x69
abbrev opToaltstack : UInt8 := 0x6b
abbrev opFromaltstack : UInt8 := 0x6c
abbrev opIfdup : UInt8 := 0x73
abbrev opDup : UInt8 := 0x76
abbrev opSwap : UInt8 := 0x7c
abbrev opSize : UInt8 := 0x82
abbrev opEqual : UInt8 := 0x87
abbrev opEqualverify : UInt8 := 0x88
abbrev op0notequal : UInt8 := 0x92
abbrev opAdd : UInt8 := 0x93
abbrev opBooland : UInt8 := 0x9a
abbrev opBoolor : UInt8 := 0x9b
abbrev opNumequal : UInt8 := 0x9c
abbrev opRipemd160 : UInt8 := 0xa6
abbrev opSha256 : UInt8 := 0xa8
abbrev opHash160 : UInt8 := 0xa9
abbrev opHash256 : UInt8 := 0xaa
abbrev opChecksig : UInt8 := 0xac
abbrev opCheckmultisig : UInt8 := 0xae
abbrev opCltv : UInt8 := 0xb1
abbrev opCsv : UInt8 := 0xb2
abbrev opChecksigadd : UInt8 := 0xba

/-- The size in bytes of the minimal push of `n`. -/
def getPushScriptSize (n : UInt32) : Nat :=
  if n ≤ 16 then 1
  else if n < 0x80 then 2
  else if n < 0x8000 then 3
  else if n < 0x800000 then 4
  else if n < 0x80000000 then 5
  else 6

/-! ## Scripts -/

/-- An item of a script: an opcode, or a push of at most 75 bytes of data. -/
inductive ScriptItem where
  | op (code : UInt8)
  | push (data : Bytes)
  deriving DecidableEq, Repr

/-- A script as the list of its items. -/
abbrev Script := List ScriptItem

/-- The bytes of one item. -/
def ScriptItem.bytes : ScriptItem → Bytes
  | .op code => [code]
  | .push data => UInt8.ofNat data.length :: data

/-- The bytes of a script. -/
def Script.bytes (script : Script) : Bytes := script.flatMap ScriptItem.bytes

@[simp]
theorem Script.bytes_nil : Script.bytes [] = [] := rfl

@[simp]
theorem Script.bytes_cons (item : ScriptItem) (script : Script) :
    Script.bytes (item :: script) = item.bytes ++ Script.bytes script := rfl

@[simp]
theorem Script.bytes_append (left right : Script) :
    Script.bytes (left ++ right) = Script.bytes left ++ Script.bytes right :=
  List.flatMap_append

/-- The minimal push of an unsigned 32-bit integer. Script numbers are signed and
little-endian, so the data ends in a byte below `0x80`. -/
def pushInteger (n : UInt32) : ScriptItem :=
  if n = 0 then .op op0
  else if n ≤ 16 then .op (0x50 + n.toUInt8)
  else .push (leBytes (getPushScriptSize n - 1) n.toNat)

@[simp]
theorem ScriptItem.length_bytes_op (code : UInt8) : (ScriptItem.op code).bytes.length = 1 := rfl

@[simp]
theorem ScriptItem.length_bytes_push (data : Bytes) :
    (ScriptItem.push data).bytes.length = data.length + 1 := rfl

@[simp]
theorem length_bytes_pushInteger (n : UInt32) :
    (pushInteger n).bytes.length = getPushScriptSize n := by
  unfold pushInteger getPushScriptSize
  split_ifs with zero small <;> simp_all [ScriptItem.bytes]

/-! ## The verifying form of a script -/

/-- The opcodes with a verifying form, which is the next opcode. -/
def HasVerifyForm (code : UInt8) : Prop :=
  code = opChecksig ∨ code = opCheckmultisig ∨ code = opNumequal ∨ code = opEqual

instance (code : UInt8) : Decidable (HasVerifyForm code) :=
  inferInstanceAs (Decidable (code = _ ∨ _))

/-- The verifying form of one item: the verifying opcode if there is one, and the
item followed by `VERIFY` otherwise. -/
def ScriptItem.verify : ScriptItem → Script
  | .op code => if HasVerifyForm code then [.op (code + 1)] else [.op code, .op opVerify]
  | .push data => [.push data, .op opVerify]

/-- The script of `v:X` from the script of `X`: the last item takes its verifying form. -/
def Script.verify : Script → Script
  | [] => [.op opVerify]
  | [item] => item.verify
  | item :: next :: script => item :: Script.verify (next :: script)

theorem Script.verify_append (left : Script) {right : Script} (nonempty : right ≠ []) :
    Script.verify (left ++ right) = left ++ Script.verify right := by
  induction left with
  | nil => rfl
  | cons item left ih =>
    obtain ⟨next, script, split⟩ : ∃ next script, left ++ right = next :: script := by
      cases left with
      | nil => exact List.exists_cons_of_ne_nil nonempty
      | cons next left => exact ⟨next, left ++ right, rfl⟩
    rw [List.cons_append, List.cons_append, ← ih, split]
    rfl

theorem Script.verify_append_op (left : Script) (code : UInt8) :
    Script.verify (left ++ [.op code]) = left ++ (ScriptItem.op code).verify :=
  Script.verify_append left (List.cons_ne_nil _ _)

end LedgerSyscoin.Common
