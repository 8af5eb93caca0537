/-!
# Mnemonics

The fifty-six documented operations, by the three letters an assembler knows them by. What an
operation does with the byte its operand stands for is a property of the mnemonic alone: the
processor fetches that byte before the operation only for `OperandUse.read` and
`OperandUse.readModifyWrite`, so a store never looks at its target.

## Main definitions

* `Mnemonic`, with `Mnemonic.name` and `Mnemonic.description`
* `OperandUse`, `Mnemonic.operandUse` — what becomes of the operand's byte
-/

namespace Nmos6502

/-- The documented operations. -/
inductive Mnemonic where
  | adc | and | asl | bcc | bcs | beq | bit | bmi | bne | bpl | brk | bvc | bvs | clc | cld | cli
  | clv | cmp | cpx | cpy | dec | dex | dey | eor | inc | inx | iny | jmp | jsr | lda | ldx | ldy
  | lsr | nop | ora | pha | php | pla | plp | rol | ror | rti | rts | sbc | sec | sed | sei | sta
  | stx | sty | tax | tay | tsx | txa | txs | tya
  deriving DecidableEq

/-- What an operation does with the byte its operand stands for. -/
inductive OperandUse where
  /-- Nothing: implied operations, branches, jumps, stack operations and transfers. -/
  | unused
  /-- The byte is read, memory stays as it is. -/
  | read
  /-- The byte is replaced without being read. -/
  | write
  /-- The byte is read, and the result goes back to the same place. -/
  | readModifyWrite
  deriving DecidableEq

namespace Mnemonic

/-- The three letters of the operation. -/
def name : Mnemonic → String
  | .adc => "ADC"
  | .and => "AND"
  | .asl => "ASL"
  | .bcc => "BCC"
  | .bcs => "BCS"
  | .beq => "BEQ"
  | .bit => "BIT"
  | .bmi => "BMI"
  | .bne => "BNE"
  | .bpl => "BPL"
  | .brk => "BRK"
  | .bvc => "BVC"
  | .bvs => "BVS"
  | .clc => "CLC"
  | .cld => "CLD"
  | .cli => "CLI"
  | .clv => "CLV"
  | .cmp => "CMP"
  | .cpx => "CPX"
  | .cpy => "CPY"
  | .dec => "DEC"
  | .dex => "DEX"
  | .dey => "DEY"
  | .eor => "EOR"
  | .inc => "INC"
  | .inx => "INX"
  | .iny => "INY"
  | .jmp => "JMP"
  | .jsr => "JSR"
  | .lda => "LDA"
  | .ldx => "LDX"
  | .ldy => "LDY"
  | .lsr => "LSR"
  | .nop => "NOP"
  | .ora => "ORA"
  | .pha => "PHA"
  | .php => "PHP"
  | .pla => "PLA"
  | .plp => "PLP"
  | .rol => "ROL"
  | .ror => "ROR"
  | .rti => "RTI"
  | .rts => "RTS"
  | .sbc => "SBC"
  | .sec => "SEC"
  | .sed => "SED"
  | .sei => "SEI"
  | .sta => "STA"
  | .stx => "STX"
  | .sty => "STY"
  | .tax => "TAX"
  | .tay => "TAY"
  | .tsx => "TSX"
  | .txa => "TXA"
  | .txs => "TXS"
  | .tya => "TYA"

/-- The operation in one line, as a programming manual has it. -/
def description : Mnemonic → String
  | .adc => "Add Memory to Accumulator with Carry"
  | .and => "AND Memory with Accumulator"
  | .asl => "Shift Left One Bit (Memory or Accumulator)"
  | .bcc => "Branch on Carry Clear"
  | .bcs => "Branch on Carry Set"
  | .beq => "Branch on Result Zero"
  | .bit => "Test Bits in Memory with Accumulator"
  | .bmi => "Branch on Result Minus"
  | .bne => "Branch on Result not Zero"
  | .bpl => "Branch on Result Plus"
  | .brk => "Force Break"
  | .bvc => "Branch on Overflow Clear"
  | .bvs => "Branch on Overflow Set"
  | .clc => "Clear Carry Flag"
  | .cld => "Clear Decimal Mode"
  | .cli => "Clear Interrupt Disable Bit"
  | .clv => "Clear Overflow Flag"
  | .cmp => "Compare Memory and Accumulator"
  | .cpx => "Compare Memory and Index X"
  | .cpy => "Compare Memory and Index Y"
  | .dec => "Decrement Memory by One"
  | .dex => "Decrement Index X by One"
  | .dey => "Decrement Index Y by One"
  | .eor => "Exclusive-OR Memory with Accumulator"
  | .inc => "Increment Memory by One"
  | .inx => "Increment Index X by One"
  | .iny => "Increment Index Y by One"
  | .jmp => "Jump to New Location"
  | .jsr => "Jump to New Location Saving Return Address"
  | .lda => "Load Accumulator with Memory"
  | .ldx => "Load Index X with Memory"
  | .ldy => "Load Index Y with Memory"
  | .lsr => "Shift Right One Bit (Memory or Accumulator)"
  | .nop => "No Operation"
  | .ora => "OR Memory with Accumulator"
  | .pha => "Push Accumulator on Stack"
  | .php => "Push Processor Status on Stack"
  | .pla => "Pull Accumulator from Stack"
  | .plp => "Pull Processor Status from Stack"
  | .rol => "Rotate One Bit Left (Memory or Accumulator)"
  | .ror => "Rotate One Bit Right (Memory or Accumulator)"
  | .rti => "Return from Interrupt"
  | .rts => "Return from Subroutine"
  | .sbc => "Subtract Memory from Accumulator with Borrow"
  | .sec => "Set Carry Flag"
  | .sed => "Set Decimal Mode"
  | .sei => "Set Interrupt Disable Status"
  | .sta => "Store Accumulator in Memory"
  | .stx => "Store Index X in Memory"
  | .sty => "Store Index Y in Memory"
  | .tax => "Transfer Accumulator to Index X"
  | .tay => "Transfer Accumulator to Index Y"
  | .tsx => "Transfer Stack Pointer to Index X"
  | .txa => "Transfer Index X to Accumulator"
  | .txs => "Transfer Index X to Stack Pointer"
  | .tya => "Transfer Index Y to Accumulator"

/-- What the operation does with the byte its operand stands for. -/
def operandUse : Mnemonic → OperandUse
  | .adc | .and | .bit | .cmp | .cpx | .cpy | .eor | .lda | .ldx | .ldy | .ora | .sbc => .read
  | .sta | .stx | .sty => .write
  | .asl | .lsr | .rol | .ror | .inc | .dec => .readModifyWrite
  | _ => .unused

end Mnemonic

end Nmos6502
