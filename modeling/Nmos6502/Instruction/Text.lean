import Nmos6502.Address
import Nmos6502.Instruction
import Nmos6502.Text.Numeral

/-!
# Instructions as assembly text

An instruction is written as its mnemonic and, if it has one, its operand after a space. The form of
the operand shows the mode. A branch shows the address it goes to instead of the distance. Where
operand bytes are missing, question marks take the places of their digits, so that the text of a
cut-off instruction has the width and the form of the whole one.

## Main definitions

* `operandText` — the operand of a mode, from the operand bytes that are there
* `withOperand` — a mnemonic and an operand
* `Instruction.operandText`, `Instruction.text` — of a decoded instruction
-/

namespace Nmos6502

open Text

/-- The digits of a one-byte operand. -/
def byteDigits : List UInt8 → String
  | [] => "??"
  | byte :: _ => hexByte .upper byte

/-- The digits of a two-byte operand, whose low byte comes first. -/
def wordDigits : List UInt8 → String
  | [] => "????"
  | [low] => "??" ++ hexByte .upper low
  | low :: high :: _ => hexWord .upper (word low high)

/-- The digits of the target of a branch at `address`. -/
def targetDigits (address : UInt16) : List UInt8 → String
  | [] => "????"
  | offset :: _ => hexWord .upper (relativeTarget (address + 2) offset)

/-- The operand of an instruction at `address`, from those of its operand bytes that are there. -/
def operandText (mode : Mode) (operand : List UInt8) (address : UInt16) : String :=
  match mode with
  | .implied => ""
  | .accumulator => "A"
  | .immediate => "#$" ++ byteDigits operand
  | .zeroPage => "$" ++ byteDigits operand
  | .zeroPageX => "$" ++ byteDigits operand ++ ",X"
  | .zeroPageY => "$" ++ byteDigits operand ++ ",Y"
  | .relative => "$" ++ targetDigits address operand
  | .absolute => "$" ++ wordDigits operand
  | .absoluteX => "$" ++ wordDigits operand ++ ",X"
  | .absoluteY => "$" ++ wordDigits operand ++ ",Y"
  | .indirect => "($" ++ wordDigits operand ++ ")"
  | .indexedIndirect => "($" ++ byteDigits operand ++ ",X)"
  | .indirectIndexed => "($" ++ byteDigits operand ++ "),Y"

/-- A mnemonic with its operand, if that is not empty. -/
def withOperand (mnemonic operand : String) : String :=
  if operand.isEmpty then mnemonic else mnemonic ++ " " ++ operand

namespace Instruction

/-- The operand as text. -/
def operandText (instruction : Instruction) : String :=
  Nmos6502.operandText instruction.mode instruction.operandBytes instruction.address

/-- The instruction as text. -/
def text (instruction : Instruction) : String :=
  withOperand instruction.mnemonic.name instruction.operandText

end Instruction

end Nmos6502
