/-!
# Addressing modes

A mode says how an instruction finds its operand, and with that how many operand bytes follow the
opcode. Modes carry no addresses themselves; the arithmetic is in `Nmos6502.Address` and the
memory accesses are in `Nmos6502.Operand`.

## Main definitions

* `Mode` — the thirteen modes
* `Mode.operandLength`, `Mode.size` — bytes after the opcode, and with it
* `Mode.name` — the name in the opcode table
-/

namespace Nmos6502

/-- The ways an instruction finds its operand. -/
inductive Mode where
  /-- There is no operand. -/
  | implied
  /-- The operand is the accumulator. -/
  | accumulator
  /-- The operand is the byte after the opcode. -/
  | immediate
  /-- The operand is at an address below `$0100`. -/
  | zeroPage
  /-- A zero-page address to which X is added, staying in the zero page. -/
  | zeroPageX
  /-- A zero-page address to which Y is added, staying in the zero page. -/
  | zeroPageY
  /-- A signed distance from the following instruction. -/
  | relative
  /-- The operand is at a full address. -/
  | absolute
  /-- A full address to which X is added. -/
  | absoluteX
  /-- A full address to which Y is added. -/
  | absoluteY
  /-- The operand's address is stored at a full address. -/
  | indirect
  /-- X is added to a zero-page address, and the operand's address is stored there. -/
  | indexedIndirect
  /-- An address is stored in the zero page, and Y is added to it. -/
  | indirectIndexed
  deriving DecidableEq

namespace Mode

/-- How many operand bytes follow the opcode. -/
def operandLength : Mode → Nat
  | .implied | .accumulator => 0
  | .immediate | .zeroPage | .zeroPageX | .zeroPageY | .relative
  | .indexedIndirect | .indirectIndexed => 1
  | .absolute | .absoluteX | .absoluteY | .indirect => 2

/-- The length of an instruction of this mode, its opcode included. -/
def size (mode : Mode) : Nat := 1 + mode.operandLength

theorem size_pos (mode : Mode) : 0 < mode.size := by
  simp only [size]; omega

theorem size_le_three (mode : Mode) : mode.size ≤ 3 := by
  cases mode <;> decide

/-- The name of the mode in the opcode table. -/
def name : Mode → String
  | .implied => "Implied"
  | .accumulator => "Accumulator"
  | .immediate => "Immediate"
  | .zeroPage => "Zero Page"
  | .zeroPageX => "Zero Page,X"
  | .zeroPageY => "Zero Page,Y"
  | .relative => "Relative"
  | .absolute => "Absolute"
  | .absoluteX => "Absolute,X"
  | .absoluteY => "Absolute,Y"
  | .indirect => "(Indirect)"
  | .indexedIndirect => "(Indirect,X)"
  | .indirectIndexed => "(Indirect),Y"

end Mode

end Nmos6502
