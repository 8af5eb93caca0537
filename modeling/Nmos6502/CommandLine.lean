import Nmos6502.Cpu.Run
import Nmos6502.HexText
import Nmos6502.Listing.Text
import Nmos6502.Ram.Dump

/-!
# The command line

Three commands: a listing of a program, a run of a program, and the table of opcodes. Flags may
stand anywhere among the arguments. A request for help is honoured as soon as it is read; anything
else that makes no command shows the usage as well.

A bad argument ends the process with an error on the second stream, in which the cause is shown by
its constructor and fields. A fault in a program is not an error of the process: the listing goes
on, and the run shows how far it came.

## Main definitions

* `Command`, `parseArguments` — what the arguments ask for
* `ArgumentFault` — what can be wrong with them
* `listing` — the lines of a listing, and what is reported about them
* `Outcome`, `runCommand`, `runCommandLine` — what the process writes, and its exit code
-/

namespace Nmos6502

open Text

/-- What the process is to do. -/
inductive Command where
  /-- Lists a program. -/
  | disassemble (start : UInt16) (bytes : List UInt8) (verbose : Bool)
  /-- Runs a program. -/
  | run (start : UInt16) (bytes : List UInt8) (verbose : Bool) (maxInstructions : Option Nat)
  /-- Lists the opcodes. -/
  | opcodes
  /-- Shows the usage. -/
  | usage
  deriving DecidableEq

/-- What is wrong with the text of a count. -/
inductive CountFault where
  /-- There is no text. -/
  | empty
  /-- A character is no digit. -/
  | invalidDigit
  /-- The count does not fit into 64 bits. -/
  | tooLarge
  deriving DecidableEq

/-- The wording of a fault in a count. -/
def CountFault.message : CountFault → String
  | .empty => "cannot parse integer from empty string"
  | .invalidDigit => "invalid digit found in string"
  | .tooLarge => "number too large to fit in target type"

/-- What is wrong with the arguments. -/
inductive ArgumentFault where
  /-- The flag for a limit is the last argument. -/
  | missingCount
  /-- The limit is no count. -/
  | invalidCount (text : String) (cause : CountFault)
  /-- The address or the program is no hexadecimal text. -/
  | hex (cause : HexFault)
  deriving DecidableEq

/-- The largest count of 64 bits. -/
def maxCount : Nat := 0xFFFFFFFFFFFFFFFF

/-- Reads on in a count whose digits so far make `value`. -/
def parseCountDigits (value : Nat) : List Char → Except CountFault Nat
  | [] => .ok value
  | c :: text =>
    if c.isDigit then
      let value := 10 * value + (c.toNat - '0'.toNat)
      if maxCount < value then .error .tooLarge else parseCountDigits value text
    else .error .invalidDigit

/-- The count that a text spells: decimal digits, perhaps after a plus sign. -/
def parseCount : List Char → Except CountFault Nat
  | [] => .error .empty
  | ['+'] => .error .invalidDigit
  | '+' :: digits => parseCountDigits 0 digits
  | digits => parseCountDigits 0 digits

/-- The flags and the other arguments read so far. -/
structure Arguments where
  /-- Whether the process is to be verbose. -/
  verbose : Bool
  /-- The last limit given. -/
  maxInstructions : Option Nat
  /-- The arguments that are no flags, the last first. -/
  positional : List String

/-- Reads flags from the arguments; `none` if help is asked for. -/
def parseFlags (read : Arguments) : List String → Except ArgumentFault (Option Arguments)
  | [] => .ok (some read)
  | argument :: arguments =>
    if argument = "-v" ∨ argument = "--verbose" then
      parseFlags { read with verbose := true } arguments
    else if argument = "--max-instructions" then
      match arguments with
      | [] => .error .missingCount
      | text :: arguments =>
        match parseCount text.toList with
        | .error cause => .error (.invalidCount text cause)
        | .ok count => parseFlags { read with maxInstructions := some count } arguments
    else if argument = "--help" ∨ argument = "-h" then .ok none
    else parseFlags { read with positional := argument :: read.positional } arguments

/-- The address and the program of a command; the address is read first. -/
def parseProgram (start bytes : String) : Except ArgumentFault (UInt16 × List UInt8) :=
  match parseAddress start with
  | .error cause => .error (.hex cause)
  | .ok address =>
    match parseBytes bytes with
    | .error cause => .error (.hex cause)
    | .ok bytes => .ok (address, bytes)

/-- The command that the arguments without flags make. -/
def commandOf (verbose : Bool) (maxInstructions : Option Nat) :
    List String → Except ArgumentFault Command
  | [name, start, bytes] =>
    if name = "disasm" then
      (parseProgram start bytes).map fun (start, bytes) => .disassemble start bytes verbose
    else if name = "run" then
      (parseProgram start bytes).map fun (start, bytes) => .run start bytes verbose maxInstructions
    else .ok .usage
  | [name] => if name = "opcodes" then .ok .opcodes else .ok .usage
  | _ => .ok .usage

/-- What the arguments ask for. -/
def parseArguments (arguments : List String) : Except ArgumentFault Command :=
  match parseFlags ⟨false, none, []⟩ arguments with
  | .error fault => .error fault
  | .ok none => .ok .usage
  | .ok (some read) => commandOf read.verbose read.maxInstructions read.positional.reverse

/-- What a process leaves behind. -/
structure Outcome where
  /-- The exit code. -/
  code : Nat
  /-- What it wrote to the first stream. -/
  stdout : String
  /-- What it wrote to the second stream. -/
  stderr : String

/-- Each text on a line of its own. -/
def unlines (lines : List String) : String :=
  String.join (lines.map (· ++ "\n"))

/-- A cause with fields, as it is shown in an error. -/
def showFields (name fields : String) : String := name ++ " \x7b " ++ fields ++ " \x7d"

/-- A fault in a hexadecimal text as it is shown in an error. -/
def HexFault.display : HexFault → String
  | .oddLength digits => "OddLength(" ++ decimal digits ++ ")"
  | .invalidDigit position found =>
    showFields "InvalidDigit" ("position: " ++ decimal position ++ ", found: " ++ quoteChar found)
  | .addressOverflow text => "AddressOverflow(" ++ quote text ++ ")"

/-- A refused access as it is shown in an error. -/
def OutOfBounds.display (cause : OutOfBounds) : String :=
  showFields "OutOfBounds"
    ("address: " ++ decimal cause.address ++ ", size: " ++ decimal cause.size)

/-- A bad argument as it is shown in an error; a text about a flag is quoted. -/
def ArgumentFault.display : ArgumentFault → String
  | .missingCount => quote "--max-instructions requires a number"
  | .invalidCount text cause =>
    quote ("invalid --max-instructions " ++ quote text ++ ": " ++ cause.message)
  | .hex cause => cause.display

/-- A process that ends with an error. -/
def Outcome.failed (displayed : String) : Outcome := ⟨1, "", "Error: " ++ displayed ++ "\n"⟩

/-- What a listing reports about a line. -/
def Line.complaint? : Line → Option String
  | .decoded _ => none
  | .illegal address opcode =>
    some ("illegal opcode 0x" ++ hexByte .upper opcode ++ " at $" ++ hexWord .upper address)
  | .truncated address _ => some ("truncated instruction at $" ++ hexWord .upper address)

/-- The header of a hex dump, line by line. -/
def titleLines : List String := (listingHeader.toList.splitOn '\n').map String.ofList

/-- The lines of a listing, and what it reports about them. A fault does not stop it. -/
def listing (start : UInt16) (bytes : List UInt8) (verbose : Bool) : List String × List String :=
  let lines := disassemble bytes start
  let title := if verbose then titleLines else []
  (title ++ lines.map fun line => line.format verbose, lines.filterMap Line.complaint?)

/-- Lists a program. -/
def runDisassemble (start : UInt16) (bytes : List UInt8) (verbose : Bool) : Outcome :=
  let (lines, complaints) := listing start bytes verbose
  { code := 0, stdout := unlines lines, stderr := unlines complaints }

/-- How a run tells why it stopped. -/
def StopReason.describe : StopReason → String
  | .breakInstruction => "BRK"
  | .limitReached => "instruction limit"

/-- What a run did, in one line. -/
def RunSummary.describe (summary : RunSummary) : String :=
  "Stopped on " ++ summary.stop.describe ++ " after " ++ decimal summary.instructions ++
    " instructions, " ++ decimal summary.cycles ++ " cycles"

/-- The program's own bytes are dumped after a run; at least one, and none beyond the address
space. -/
def dumpLength (start : UInt16) (bytes : List UInt8) : Nat :=
  min (max bytes.length 1) (addressSpace - start.toNat)

/-- What a finished run writes. -/
def reportRun (start : UInt16) (bytes : List UInt8) (report : RunReport Ram) : Outcome :=
  let (told, complaint) :=
    match report.result with
    | .ok summary => ([summary.describe], "")
    | .error fault => ([], fault.message ++ "\n")
  match report.cpu.memory.dump start (dumpLength start bytes) with
  | .error cause => .failed cause.display
  | .ok dump =>
    { code := 0
      stdout := unlines (report.events.map Event.text ++ told ++ [report.cpu.traceLine, dump])
      stderr := complaint }

/-- Runs a program in a full address space; `none` if it does not end. -/
def runProgram (start : UInt16) (bytes : List UInt8) (verbose : Bool)
    (maxInstructions : Option Nat) : Option Outcome :=
  match Bus.load Ram.full start bytes with
  | (.error cause, _) => some (.failed cause.display)
  | (.ok (), ram) =>
    let limit := maxInstructions.elim .unbounded .instructions
    let cpu := Cpu.ofConfig ram { Config.powerOn with pc := start, verbose }
    (cpu.run limit).map (reportRun start bytes)

/-- The line of an opcode in the table. -/
def opcodeLine (opcode : UInt8) (operation : Operation) : String :=
  hexByte .upper opcode ++ "  " ++ operation.mnemonic.name ++ "  " ++
    padRight 12 operation.mode.name ++ " " ++ decimal operation.size ++ " bytes  " ++
    decimal operation.cycles ++ " cycles  " ++ operation.mnemonic.description

/-- Lists the opcodes. -/
def opcodeTable : String :=
  unlines (legalOpcodes.filterMap fun opcode => (operation? opcode).map (opcodeLine opcode))

/-- How the process is used. -/
def usage : String :=
  unlines ["Usage:",
    "  mos6502 disasm [-v] <start-hex-addr> \"<hex bytes>\"",
    "  mos6502 run [-v] [--max-instructions N] <start-hex-addr> \"<hex bytes>\"",
    "  mos6502 opcodes",
    "",
    "Example:",
    "  mos6502 disasm 0x600 \"20 09 06 20 0c 06 20 12 06 a2 00 60 e8 e0 05 d0 fb 60 00\""]

/-- Does what a command says; `none` if that does not end. -/
def runCommand : Command → Option Outcome
  | .disassemble start bytes verbose => some (runDisassemble start bytes verbose)
  | .run start bytes verbose maxInstructions => runProgram start bytes verbose maxInstructions
  | .opcodes => some ⟨0, opcodeTable, ""⟩
  | .usage => some ⟨0, usage, ""⟩

/-- Does what the arguments say; `none` if that does not end. -/
def runCommandLine (arguments : List String) : Option Outcome :=
  match parseArguments arguments with
  | .error fault => some (.failed fault.display)
  | .ok command => runCommand command

end Nmos6502
