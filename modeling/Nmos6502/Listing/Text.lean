import Nmos6502.Instruction.Text
import Nmos6502.Listing

/-!
# Listings as text

A line of a listing is assembly text; with a hex dump the address and the bytes stand before it in
columns of their own, under a header. An illegal byte is written as data. A cut-off instruction is
written with question marks for what is missing.

## Main definitions

* `Line.text`, `Line.dumpText`, `Line.format` — a line without and with its columns
* `listingHeader` — the titles of the columns
* `render` — a whole listing
* `Columns` — a line taken apart for a table, with the mnemonic and the operand by themselves
-/

namespace Nmos6502

open Text

/-- The three columns of a hex dump. -/
def inColumns (address bytes text : String) : String :=
  padRight 8 address ++ " " ++ padRight 10 bytes ++ " " ++ text

namespace Line

/-- The assembly text of a line. -/
def text : Line → String
  | .decoded instruction => instruction.text
  | .illegal _ opcode => ".byte $" ++ hexByte .upper opcode
  | .truncated _ [] => ""
  | .truncated address (opcode :: operand) =>
    match operation? opcode with
    | some operation =>
      withOperand operation.mnemonic.name (operandText operation.mode operand address)
    | none => ".byte"

/-- A line with its address and its bytes. -/
def dumpText (line : Line) : String :=
  inColumns ("$" ++ hexWord .upper line.address) (hexBytes .upper line.bytes) line.text

/-- A line with or without its address and its bytes. -/
def format (line : Line) (hexDump : Bool) : String :=
  if hexDump then line.dumpText else line.text

end Line

/-- The titles of the columns of a hex dump. -/
def listingTitle : String := inColumns "Address" "Hexdump" "Disassembly"

/-- The header of a hex dump: the titles, underlined. -/
def listingHeader : String :=
  listingTitle ++ "\n" ++ String.ofList (List.replicate listingTitle.length '-')

/-- The listing of `bytes`, which begin at `start`; each line ends in a line break. -/
def render (bytes : List UInt8) (start : UInt16) (hexDump : Bool) : String :=
  (if hexDump then listingHeader ++ "\n" else "") ++
    String.join ((disassemble bytes start).map fun line => line.format hexDump ++ "\n")

/-- A line of a listing taken apart. -/
structure Columns where
  /-- Where the line begins. -/
  address : UInt16
  /-- The bytes it covers. -/
  bytes : List UInt8
  /-- The mnemonic, or what stands in its place. -/
  mnemonic : String
  /-- The operand, empty if there is none. -/
  operand : String
  /-- The line as it stands in a hex dump. -/
  text : String

/-- A text up to its first space, and what follows the space. -/
def splitAtSpace (text : String) : String × String :=
  let (before, after) := text.toList.span (· != ' ')
  (String.ofList before, String.ofList after.tail)

namespace Line

/-- The line taken apart. -/
def columns (line : Line) : Columns :=
  let (mnemonic, operand) : String × String :=
    match line with
    | .decoded instruction => (instruction.mnemonic.name, instruction.operandText)
    | _ => splitAtSpace line.text
  { address := line.address, bytes := line.bytes, mnemonic, operand, text := line.dumpText }

end Line

end Nmos6502
