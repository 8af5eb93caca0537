import Nmos6502.Clock
import Nmos6502.Instruction.Text
import Nmos6502.Listing
import Nmos6502.Microcode
import Nmos6502.Registers

/-!
# Traces

A processor that is asked to be verbose reports each step: the instruction it is about to execute,
each use of the bus, and the registers afterwards. The disassembler reports each item it decodes. An
event holds what is reported; its wording is derived, and so are its level and its source.

## Main definitions

* `traceLine` — the registers and the clock in one line
* `Event`, with `Event.text` and `Event.record`
* `Journal.events` — the bus accesses of a journal in order
* `Cursor.event?`, `decodingEvents` — what the disassembler reports
-/

namespace Nmos6502

open Text

/-- The registers and the clock in one line. -/
def traceLine (registers : Registers) (clock : Clock) : String :=
  "A:" ++ hexByte .lower registers.a ++ " X:" ++ hexByte .lower registers.x ++
    " Y:" ++ hexByte .lower registers.y ++ " PC:" ++ hexWord .lower registers.pc ++
    " SP:" ++ hexByte .lower registers.sp ++
    " SV-BDIZC:" ++ binaryByte registers.status.bits ++ " Clk:" ++ decimal clock.cycles

/-- Something a trace reports. -/
inductive Event where
  /-- An instruction, or the lack of one, is about to be executed. -/
  | executing (next : Except Fault Instruction)
  /-- The bus was used. -/
  | access (access : Access)
  /-- An instruction has ended. -/
  | executed (registers : Registers) (clock : Clock)
  /-- The disassembler decoded an item that claims `size` bytes. -/
  | decoded (opcode : UInt8) (address : UInt16) (size : Nat)

namespace Event

/-- How closely one has to look to see the event. -/
def level : Event → String
  | .executing _ | .executed _ _ => "DEBUG"
  | .access _ | .decoded _ _ _ => "TRACE"

/-- The part of the machine that reports the event. -/
def source : Event → String
  | .executing _ | .executed _ _ => "mos6502::cpu"
  | .access _ => "mos6502::bus"
  | .decoded _ _ _ => "mos6502::disassembler"

/-- The wording of the event. -/
def text : Event → String
  | .executing (.ok instruction) => "Execute: " ++ instruction.text
  | .executing (.error fault) => "Execute: " ++ fault.message
  | .access (.read address value) =>
    "$" ++ hexByte .lower value ++ " <- $" ++ hexWord .lower address
  | .access (.write address value) =>
    "$" ++ hexByte .lower value ++ " -> $" ++ hexWord .lower address
  | .executed registers clock => traceLine registers clock
  | .decoded opcode address size =>
    "decoded $" ++ hexByte .upper opcode ++ " at $" ++ hexWord .upper address ++
      " (" ++ decimal size ++ " bytes)"

/-- The event as a line of a log. -/
def record (event : Event) : String :=
  event.level ++ " " ++ event.source ++ " " ++ event.text

end Event

/-- The bus accesses of a journal in the order they were made. -/
def Journal.events (journal : Journal) : List Event :=
  journal.accesses.reverse.map .access

/-- What is reported when the cursor moves on; nothing at the end. -/
def Cursor.event? (cursor : Cursor) : Option Event :=
  cursor.rest.head?.map fun opcode =>
    .decoded opcode cursor.address (decodedSize cursor.item)

/-- What is reported when `bytes` are disassembled from `start` on. -/
def decodingEvents (bytes : List UInt8) (start : UInt16) : List Event :=
  (Cursor.start bytes start).places.filterMap Cursor.event?

end Nmos6502
