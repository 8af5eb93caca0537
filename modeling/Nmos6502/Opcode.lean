import Nmos6502.Mode
import Nmos6502.Mnemonic

/-!
# The opcode matrix

Of the 256 values of a first byte, 151 begin a documented instruction. The matrix gives, for each
of these, the operation, the addressing mode and the cycles the instruction takes before any
penalty. The length of the instruction follows from the mode. The other 105 bytes begin nothing
and are faults when met.

## Main definitions

* `Operation` — what one opcode stands for
* `opcodeMatrix` — sixteen rows of sixteen
* `operation?` — the operation of a byte, `none` for an illegal one
* `opcodeMode` — the mode, also of an illegal byte
* `legalOpcodes` — the documented bytes in order
-/

namespace Nmos6502

/-- What an opcode stands for. -/
structure Operation where
  /-- The operation. -/
  mnemonic : Mnemonic
  /-- How its operand is found. -/
  mode : Mode
  /-- Cycles before any penalty. -/
  cycles : Nat
  deriving DecidableEq

/-- Length of the instruction in bytes, its opcode included. -/
def Operation.size (operation : Operation) : Nat := operation.mode.size

/-- An entry of the matrix. -/
def entry (mnemonic : Mnemonic) (mode : Mode) (cycles : Nat) : Option Operation :=
  some ⟨mnemonic, mode, cycles⟩

/-- The operations of the opcodes: the high digit of the opcode selects the row, the low digit the
column. -/
def opcodeMatrix : Array (Array (Option Operation)) := #[
  -- 0x00
  #[entry .brk .implied 7, entry .ora .indexedIndirect 6, none, none, none, entry .ora .zeroPage 3,
    entry .asl .zeroPage 5, none, entry .php .implied 3, entry .ora .immediate 2,
    entry .asl .accumulator 2, none, none, entry .ora .absolute 4, entry .asl .absolute 6, none],
  -- 0x10
  #[entry .bpl .relative 2, entry .ora .indirectIndexed 5, none, none, none,
    entry .ora .zeroPageX 4, entry .asl .zeroPageX 6, none, entry .clc .implied 2,
    entry .ora .absoluteY 4, none, none, none, entry .ora .absoluteX 4, entry .asl .absoluteX 7,
    none],
  -- 0x20
  #[entry .jsr .absolute 6, entry .and .indexedIndirect 6, none, none, entry .bit .zeroPage 3,
    entry .and .zeroPage 3, entry .rol .zeroPage 5, none, entry .plp .implied 4,
    entry .and .immediate 2, entry .rol .accumulator 2, none, entry .bit .absolute 4,
    entry .and .absolute 4, entry .rol .absolute 6, none],
  -- 0x30
  #[entry .bmi .relative 2, entry .and .indirectIndexed 5, none, none, none,
    entry .and .zeroPageX 4, entry .rol .zeroPageX 6, none, entry .sec .implied 2,
    entry .and .absoluteY 4, none, none, none, entry .and .absoluteX 4, entry .rol .absoluteX 7,
    none],
  -- 0x40
  #[entry .rti .implied 6, entry .eor .indexedIndirect 6, none, none, none, entry .eor .zeroPage 3,
    entry .lsr .zeroPage 5, none, entry .pha .implied 3, entry .eor .immediate 2,
    entry .lsr .accumulator 2, none, entry .jmp .absolute 3, entry .eor .absolute 4,
    entry .lsr .absolute 6, none],
  -- 0x50
  #[entry .bvc .relative 2, entry .eor .indirectIndexed 5, none, none, none,
    entry .eor .zeroPageX 4, entry .lsr .zeroPageX 6, none, entry .cli .implied 2,
    entry .eor .absoluteY 4, none, none, none, entry .eor .absoluteX 4, entry .lsr .absoluteX 7,
    none],
  -- 0x60
  #[entry .rts .implied 6, entry .adc .indexedIndirect 6, none, none, none, entry .adc .zeroPage 3,
    entry .ror .zeroPage 5, none, entry .pla .implied 4, entry .adc .immediate 2,
    entry .ror .accumulator 2, none, entry .jmp .indirect 5, entry .adc .absolute 4,
    entry .ror .absolute 6, none],
  -- 0x70
  #[entry .bvs .relative 2, entry .adc .indirectIndexed 5, none, none, none,
    entry .adc .zeroPageX 4, entry .ror .zeroPageX 6, none, entry .sei .implied 2,
    entry .adc .absoluteY 4, none, none, none, entry .adc .absoluteX 4, entry .ror .absoluteX 7,
    none],
  -- 0x80
  #[none, entry .sta .indexedIndirect 6, none, none, entry .sty .zeroPage 3,
    entry .sta .zeroPage 3, entry .stx .zeroPage 3, none, entry .dey .implied 2, none,
    entry .txa .implied 2, none, entry .sty .absolute 4, entry .sta .absolute 4,
    entry .stx .absolute 4, none],
  -- 0x90
  #[entry .bcc .relative 2, entry .sta .indirectIndexed 6, none, none, entry .sty .zeroPageX 4,
    entry .sta .zeroPageX 4, entry .stx .zeroPageY 4, none, entry .tya .implied 2,
    entry .sta .absoluteY 5, entry .txs .implied 2, none, none, entry .sta .absoluteX 5, none,
    none],
  -- 0xA0
  #[entry .ldy .immediate 2, entry .lda .indexedIndirect 6, entry .ldx .immediate 2, none,
    entry .ldy .zeroPage 3, entry .lda .zeroPage 3, entry .ldx .zeroPage 3, none,
    entry .tay .implied 2, entry .lda .immediate 2, entry .tax .implied 2, none,
    entry .ldy .absolute 4, entry .lda .absolute 4, entry .ldx .absolute 4, none],
  -- 0xB0
  #[entry .bcs .relative 2, entry .lda .indirectIndexed 5, none, none, entry .ldy .zeroPageX 4,
    entry .lda .zeroPageX 4, entry .ldx .zeroPageY 4, none, entry .clv .implied 2,
    entry .lda .absoluteY 4, entry .tsx .implied 2, none, entry .ldy .absoluteX 4,
    entry .lda .absoluteX 4, entry .ldx .absoluteY 4, none],
  -- 0xC0
  #[entry .cpy .immediate 2, entry .cmp .indexedIndirect 6, none, none, entry .cpy .zeroPage 3,
    entry .cmp .zeroPage 3, entry .dec .zeroPage 5, none, entry .iny .implied 2,
    entry .cmp .immediate 2, entry .dex .implied 2, none, entry .cpy .absolute 4,
    entry .cmp .absolute 4, entry .dec .absolute 6, none],
  -- 0xD0
  #[entry .bne .relative 2, entry .cmp .indirectIndexed 5, none, none, none,
    entry .cmp .zeroPageX 4, entry .dec .zeroPageX 6, none, entry .cld .implied 2,
    entry .cmp .absoluteY 4, none, none, none, entry .cmp .absoluteX 4, entry .dec .absoluteX 7,
    none],
  -- 0xE0
  #[entry .cpx .immediate 2, entry .sbc .indexedIndirect 6, none, none, entry .cpx .zeroPage 3,
    entry .sbc .zeroPage 3, entry .inc .zeroPage 5, none, entry .inx .implied 2,
    entry .sbc .immediate 2, entry .nop .implied 2, none, entry .cpx .absolute 4,
    entry .sbc .absolute 4, entry .inc .absolute 6, none],
  -- 0xF0
  #[entry .beq .relative 2, entry .sbc .indirectIndexed 5, none, none, none,
    entry .sbc .zeroPageX 4, entry .inc .zeroPageX 6, none, entry .sed .implied 2,
    entry .sbc .absoluteY 4, none, none, none, entry .sbc .absoluteX 4, entry .inc .absoluteX 7,
    none]]

/-- The operation that begins with `opcode`, if it is documented. -/
def operation? (opcode : UInt8) : Option Operation :=
  (opcodeMatrix[opcode.toNat / 16]?).bind fun row => (row[opcode.toNat % 16]?).join

/-- The mode of an opcode; an illegal one counts as a byte without an operand. -/
def opcodeMode (opcode : UInt8) : Mode := (operation? opcode).elim .implied Operation.mode

/-- The documented opcodes in increasing order. -/
def legalOpcodes : List UInt8 :=
  ((List.range 256).map UInt8.ofNat).filter fun opcode => (operation? opcode).isSome

end Nmos6502
