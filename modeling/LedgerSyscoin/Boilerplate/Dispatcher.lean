import LedgerSyscoin.Common.Buffer
import LedgerSyscoin.Foundation.Memory

/-!
# Interruptions

To ask the client a question, the device places a request at the start of the shared
APDU buffer; the answer overwrites the start of the same buffer, and the read buffer is
pointed at its data. Bytes beyond the answer keep their earlier contents. The client is
any finite sequence of raw APDUs. A flow that asks for more never returns, which is the
outcome `none`.
-/

namespace LedgerSyscoin.Boilerplate

open Foundation Common

/-- A raw APDU as delivered by the transport. -/
abbrev Apdu := Bytes

def claFramework : UInt8 := 0xF8
def insContinue : UInt8 := 0x01
def offsetCdata : Nat := 5

def swWrongDataLength : Nat := 0x6A87
def swIncorrectData : Nat := 0x6A80
def swInterruptedExecution : Nat := 0xE000

/-- A structured APDU. -/
structure Command where
  cla : UInt8
  ins : UInt8
  p1 : UInt8
  p2 : UInt8
  lc : UInt8
  data : Bytes

/-- Split a raw APDU into its header and its data, checking the length field. -/
def apduParser : Apdu → Option Command
  | cla :: ins :: p1 :: p2 :: lc :: data =>
    if data.length = lc.toNat then some ⟨cla, ins, p1, p2, lc, data⟩ else none
  | _ => none

/-- The part of the dispatcher state that a flow reads and writes. -/
structure DispatcherContext where
  apduBuffer : Memory
  readBuffer : Buffer
  sent : List (Bytes × Nat)

/-- A cleared APDU buffer with nothing received or sent yet. -/
def DispatcherContext.initial : DispatcherContext := ⟨fun _ => 0, bufferCreate [], []⟩

/-- Prepare a response with its status word at the start of the APDU buffer and
record it as sent. -/
def setResponse (dc : DispatcherContext) (rdata : Bytes) (sw : Nat) : DispatcherContext :=
  { dc with
    apduBuffer := dc.apduBuffer.write 0 (rdata ++ beBytes 2 sw)
    sent := dc.sent ++ [(rdata, sw)] }

/-- Send the status word alone. -/
def sendSw (dc : DispatcherContext) (sw : Nat) : DispatcherContext := setResponse dc [] sw

/-- Receive the next APDU. Only a well-formed `INS_CONTINUE` resumes the flow. -/
def processInterruption (dc : DispatcherContext) (apdu : Apdu) : Bool × DispatcherContext :=
  let received := { dc with apduBuffer := dc.apduBuffer.write 0 apdu }
  match apduParser apdu with
  | none => (false, sendSw received swWrongDataLength)
  | some cmd =>
    if cmd.cla ≠ claFramework ∨ cmd.ins ≠ insContinue then
      (false, sendSw received swIncorrectData)
    else
      (true, { received with readBuffer := bufferCreate cmd.data })

/-- What a flow that returns leaves behind: its result, the dispatcher state and
the answers not yet consumed. -/
structure Outcome (α : Type) where
  result : α
  dc : DispatcherContext
  pending : List Apdu

/-! ## Results of an interruption -/

/-- An `INS_CONTINUE` APDU with its data field. -/
def continueApdu (p1 p2 : UInt8) (data : Bytes) : Apdu :=
  claFramework :: insContinue :: p1 :: p2 :: UInt8.ofNat data.length :: data

theorem apduParser_eq_some_iff {apdu : Apdu} {cmd : Command} :
    apduParser apdu = some cmd ↔
      apdu = cmd.cla :: cmd.ins :: cmd.p1 :: cmd.p2 :: cmd.lc :: cmd.data ∧
        cmd.data.length = cmd.lc.toNat := by
  constructor
  · intro parsed
    unfold apduParser at parsed
    split at parsed
    · split_ifs at parsed with lengthEq
      cases parsed
      exact ⟨rfl, lengthEq⟩
    · cases parsed
  · rintro ⟨rfl, lengthEq⟩
    simp [apduParser, lengthEq]

/-- A resumed flow received an `INS_CONTINUE` APDU, which now stands at the
start of the APDU buffer and whose data the read buffer shows. -/
theorem processInterruption_eq_true_iff {dc resumed : DispatcherContext} {apdu : Apdu} :
    processInterruption dc apdu = (true, resumed) ↔
      ∃ p1 p2 data, data.length < 256 ∧ apdu = continueApdu p1 p2 data ∧
        resumed = { dc with
          apduBuffer := dc.apduBuffer.write 0 apdu
          readBuffer := bufferCreate data } := by
  unfold processInterruption
  constructor
  · intro resumption
    cases parsed : apduParser apdu with
    | none => simp [parsed] at resumption
    | some cmd =>
      obtain ⟨apduEq, lengthEq⟩ := apduParser_eq_some_iff.mp parsed
      simp only [parsed] at resumption
      split_ifs at resumption with wrongHeader
      · simp at resumption
      · rw [not_or, not_not, not_not] at wrongHeader
        have lcEq : UInt8.ofNat cmd.data.length = cmd.lc := by
          rw [lengthEq, UInt8.ofNat_toNat]
        refine ⟨cmd.p1, cmd.p2, cmd.data, lengthEq ▸ cmd.lc.toNat_lt, ?_, ?_⟩
        · rw [apduEq, continueApdu, lcEq, wrongHeader.1, wrongHeader.2]
        · simpa using resumption.symm
  · rintro ⟨p1, p2, data, lengthLt, rfl, rfl⟩
    have parsed : apduParser (continueApdu p1 p2 data) =
        some ⟨claFramework, insContinue, p1, p2, UInt8.ofNat data.length, data⟩ := by
      rw [apduParser_eq_some_iff]
      refine ⟨rfl, ?_⟩
      rw [UInt8.toNat_ofNat', Nat.mod_eq_of_lt lengthLt]
    simp [parsed]

/-- After a resumption the data field of the APDU buffer holds the answer's data. -/
theorem read_cdata_continueApdu (memory : Memory) (p1 p2 : UInt8) (data : Bytes)
    (offset count : Nat) (inside : offset + count ≤ data.length) :
    (memory.write 0 (continueApdu p1 p2 data)).read (offsetCdata + offset) count =
      (data.drop offset).take count := by
  have window := Memory.read_write_inside memory 0 (offsetCdata + offset) count
    (continueApdu p1 p2 data) (by simp [continueApdu, offsetCdata]; omega)
  rw [Nat.zero_add] at window
  rw [window, ← List.drop_drop]
  rfl

end LedgerSyscoin.Boilerplate
