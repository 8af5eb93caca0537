import Nmos6502.Execute

/-!
# Families of operations

The fifty-six operations differ at the bus in eleven ways only. A family names one of these ways and
holds what sets its members apart as plain functions of registers and bytes, so a statement about
all operations is a case for each family and not one for each mnemonic.

A family can only work on some addressing modes: a load needs a byte, a store needs a place in
memory, a jump needs a target. The opcode matrix pairs no operation with a mode that lacks what the
operation works on. That is a finite fact about the matrix, checked once, in
`admits_of_operation?`.

## Main definitions

* `Family`, `Mnemonic.family` — what an operation does at the bus
* `Family.microcode` — the operations of a family, all alike
* `Family.admits` — the modes a family can work on
* `operations` — the entries of the opcode matrix in order

## Main results

* `execute_eq_microcode` — an operation is what its family says
* `forall_byte`, `forall_operation` — a fact checked for every byte, or every entry of the matrix
-/

namespace Nmos6502

/-- The ways in which an operation uses the bus. -/
inductive Family where
  /-- The operand's byte acts on the registers. -/
  | load (action : Registers → UInt8 → Registers)
  /-- A byte goes to the operand's place. -/
  | store (source : Registers → UInt8)
  /-- The operand's byte is replaced by a result, and the registers take part. -/
  | modify (action : Registers → UInt8 → UInt8 × Registers)
  /-- Only the registers are concerned. -/
  | internal (action : Registers → Registers)
  /-- Control goes to the operand's place if the flags say so. -/
  | branch (condition : Status → Bool)
  /-- Control goes to the operand's place. -/
  | jump
  /-- A byte goes to the stack. -/
  | push (source : Registers → UInt8)
  /-- A byte from the stack acts on the registers. -/
  | pull (action : Registers → UInt8 → Registers)
  /-- Control goes to the operand's place, and the way back to the stack. -/
  | call
  /-- Control goes back to where a call came from. -/
  | comeBack
  /-- The flags and the program counter come from the stack. -/
  | resume

/-- A shift gives its result and notes the bit that fell out. -/
def shifted (action : Bool → UInt8 → UInt8 × Bool) (registers : Registers) (value : UInt8) :
    UInt8 × Registers :=
  let (result, carry) := action registers.status.carry value
  let status := { registers.status with carry }
  (result, { registers with status := status.describe result })

/-- A count gives its result and describes it. -/
def counted (action : UInt8 → UInt8) (registers : Registers) (value : UInt8) :
    UInt8 × Registers :=
  (action value, registers.describe (action value))

/-- A flag is set or cleared. -/
def Registers.assign (flag : Flag) (on : Bool) (registers : Registers) : Registers :=
  { registers with status := registers.status.setFlag flag on }

/-- The family of an operation. -/
def Mnemonic.family : Mnemonic → Family
  | .adc => .load .addWithCarry
  | .sbc => .load .subtractWithBorrow
  | .and => .load fun r value => r.setA (r.a &&& value)
  | .ora => .load fun r value => r.setA (r.a ||| value)
  | .eor => .load fun r value => r.setA (r.a ^^^ value)
  | .bit => .load .testBits
  | .cmp => .load fun r value => r.compare r.a value
  | .cpx => .load fun r value => r.compare r.x value
  | .cpy => .load fun r value => r.compare r.y value
  | .lda => .load .setA
  | .ldx => .load .setX
  | .ldy => .load .setY
  | .sta => .store (·.a)
  | .stx => .store (·.x)
  | .sty => .store (·.y)
  | .asl => .modify (shifted shiftLeft)
  | .lsr => .modify (shifted shiftRight)
  | .rol => .modify (shifted rotateLeft)
  | .ror => .modify (shifted rotateRight)
  | .inc => .modify (counted (· + 1))
  | .dec => .modify (counted (· - 1))
  | .inx => .internal fun r => r.setX (r.x + 1)
  | .iny => .internal fun r => r.setY (r.y + 1)
  | .dex => .internal fun r => r.setX (r.x - 1)
  | .dey => .internal fun r => r.setY (r.y - 1)
  | .tax => .internal fun r => r.setX r.a
  | .tay => .internal fun r => r.setY r.a
  | .txa => .internal fun r => r.setA r.x
  | .tya => .internal fun r => r.setA r.y
  | .tsx => .internal fun r => r.setX r.sp
  | .txs => .internal fun r => { r with sp := r.x }
  | .pha => .push (·.a)
  | .php => .push (·.status.pushed)
  | .pla => .pull .setA
  | .plp => .pull fun r value => { r with status := .ofPulled value }
  | .clc => .internal (.assign .carry false)
  | .sec => .internal (.assign .carry true)
  | .cli => .internal (.assign .interruptDisable false)
  | .sei => .internal (.assign .interruptDisable true)
  | .cld => .internal (.assign .decimal false)
  | .sed => .internal (.assign .decimal true)
  | .clv => .internal (.assign .overflow false)
  | .bcc => .branch (!·.carry)
  | .bcs => .branch (·.carry)
  | .bne => .branch (!·.zero)
  | .beq => .branch (·.zero)
  | .bpl => .branch (!·.negative)
  | .bmi => .branch (·.negative)
  | .bvc => .branch (!·.overflow)
  | .bvs => .branch (·.overflow)
  | .jmp => .jump
  | .jsr => .call
  | .rts => .comeBack
  | .rti => .resume
  | .brk | .nop => .internal id

namespace Family

/-- What the operations of a family do at the bus. -/
def microcode (family : Family) (operand : Operand) (registers : Registers) :
    Microcode Registers :=
  match family with
  | .load action => operand.apply registers action
  | .store source => operand.store (source registers) registers
  | .modify action => do
    let value ← operand.load registers
    let (result, registers) := action registers value
    operand.store result registers
  | .internal action => return action registers
  | .branch condition => operand.branch registers (condition registers.status)
  | .jump => return operand.jump registers
  | .push source => registers.push (source registers)
  | .pull action => do
    let (value, registers) ← registers.pull
    return action registers value
  | .call => do
    let registers ← registers.pushWord (registers.pc - 1)
    return operand.jump registers
  | .comeBack => do
    let (address, registers) ← registers.pullWord
    return { registers with pc := address + 1 }
  | .resume => do
    let (value, registers) ← registers.pull
    let (address, registers) ← { registers with status := .ofPulled value : Registers }.pullWord
    return { registers with pc := address }

/-- What becomes of the operand's byte. -/
def operandUse : Family → OperandUse
  | .load _ => .read
  | .store _ => .write
  | .modify _ => .readModifyWrite
  | _ => .unused

end Family

/-- **An operation is what its family says.** -/
theorem execute_eq_microcode (mnemonic : Mnemonic) (operand : Operand) (registers : Registers) :
    mnemonic.execute operand registers = mnemonic.family.microcode operand registers := by
  cases mnemonic <;> rfl

theorem operandUse_eq_family (mnemonic : Mnemonic) :
    mnemonic.operandUse = mnemonic.family.operandUse := by
  cases mnemonic <;> rfl

/-! ## Modes that a family can work on -/

/-- Whether a mode finds its operand at an address of memory. -/
def Mode.isInMemory : Mode → Bool
  | .implied | .accumulator | .immediate | .relative => false
  | _ => true

/-- The modes in which an operation of the family finds what it works on. -/
def Family.admits : Family → Mode → Bool
  | .load _, mode => mode = .immediate || mode.isInMemory
  | .store _, mode => mode.isInMemory
  | .modify _, mode => mode = .accumulator || mode.isInMemory
  | .branch _, mode => mode = .relative
  | .jump, mode | .call, mode => mode = .absolute || mode = .indirect
  | _, mode => mode = .implied

/-! ## The entries of the matrix -/

/-- A fact about all bytes can be checked number by number. -/
theorem forall_byte {p : UInt8 → Prop} (h : ∀ n < 256, p (UInt8.ofNat n)) (byte : UInt8) :
    p byte := by
  have := h byte.toNat byte.toNat_lt
  rwa [UInt8.ofNat_toNat] at this

/-- The entries of the opcode matrix. -/
def operations : List Operation :=
  opcodeMatrix.toList.flatMap fun row => row.toList.filterMap id

theorem mem_operations {opcode : UInt8} {operation : Operation}
    (h : operation? opcode = some operation) : operation ∈ operations := by
  simp only [operation?, Option.bind_eq_some_iff] at h
  obtain ⟨row, hrow, hcell⟩ := h
  obtain ⟨cell, hc, rfl⟩ : ∃ cell, row[opcode.toNat % 16]? = some cell ∧ cell = some operation := by
    simpa [Option.join_eq_some_iff] using hcell
  refine List.mem_flatMap.mpr ⟨row, Array.mem_toList_iff.mpr (Array.mem_of_getElem? hrow), ?_⟩
  exact List.mem_filterMap.mpr ⟨_, Array.mem_toList_iff.mpr (Array.mem_of_getElem? hc), rfl⟩

/-- What is checked for every entry holds for every documented opcode. -/
theorem forall_operation {p : Operation → Prop} (h : ∀ operation ∈ operations, p operation)
    {opcode : UInt8} {operation : Operation} (ho : operation? opcode = some operation) :
    p operation :=
  h operation (mem_operations ho)

/-- No entry pairs an operation with a mode that lacks what the operation works on. -/
theorem admits_of_operation? {opcode : UInt8} {operation : Operation}
    (h : operation? opcode = some operation) :
    operation.mnemonic.family.admits operation.mode = true :=
  forall_operation (p := fun operation => operation.mnemonic.family.admits operation.mode)
    (by decide +kernel) h

end Nmos6502
