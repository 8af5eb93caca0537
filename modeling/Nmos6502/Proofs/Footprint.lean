import Mathlib.Tactic.Common
import Nmos6502.Ram
import Nmos6502.Proofs.Step

/-!
# The footprint of an instruction

Which parts of the machine an operation may change, as a table, and that a step changes nothing
else. The table is read off a programming manual: it says nothing of how an operation works, only
where its results may go. A register or a flag is a cell; memory is given by addresses.

## Main definitions

* `Cell`, `Cell.Kept` — a register or a flag, and that it is as before
* `Registers.SameBut` — all cells but the given ones are as before
* `Operation.mayChange` — the cells that an operation may change
* `Operation.mayWrite` — the addresses that an operation may write

## Main results

* `Operation.kept_effect` — the effect changes no other cell
* `Operation.fst_mem_mayWrite` — the effect writes no other address
* `Cpu.step_footprint` — a step keeps to the table
-/

namespace Nmos6502

/-! ## The table -/

/-- A register or a flag. The program counter is not among them: every instruction moves it. -/
inductive Cell where
  | a | x | y | sp
  | carry | zero | interruptDisable | decimal | breakCommand | unused | overflow | negative
  deriving DecidableEq

/-- The cell holds what it held before. -/
def Cell.Kept (cell : Cell) (before after : Registers) : Prop :=
  match cell with
  | .a => after.a = before.a
  | .x => after.x = before.x
  | .y => after.y = before.y
  | .sp => after.sp = before.sp
  | .carry => after.status.carry = before.status.carry
  | .zero => after.status.zero = before.status.zero
  | .interruptDisable => after.status.interruptDisable = before.status.interruptDisable
  | .decimal => after.status.decimal = before.status.decimal
  | .breakCommand => after.status.breakCommand = before.status.breakCommand
  | .unused => after.status.unused = before.status.unused
  | .overflow => after.status.overflow = before.status.overflow
  | .negative => after.status.negative = before.status.negative

/-- The cell of a flag. -/
def Flag.cell : Flag → Cell
  | .carry => .carry
  | .zero => .zero
  | .interruptDisable => .interruptDisable
  | .decimal => .decimal
  | .breakCommand => .breakCommand
  | .overflow => .overflow
  | .negative => .negative

namespace Operation

/-- The cells that an operation may change. -/
def mayChange (operation : Operation) : Cell → Bool
  | .a =>
    operation.mnemonic ∈ [.adc, .and, .eor, .ora, .sbc, .lda, .pla, .txa, .tya] ||
      operation.mnemonic ∈ [.asl, .lsr, .rol, .ror] && operation.mode = .accumulator
  | .x => operation.mnemonic ∈ [.ldx, .inx, .dex, .tax, .tsx]
  | .y => operation.mnemonic ∈ [.ldy, .iny, .dey, .tay]
  | .sp => operation.mnemonic ∈ [.pha, .php, .pla, .plp, .jsr, .rts, .rti, .txs]
  | .carry =>
    operation.mnemonic ∈
      [.adc, .sbc, .cmp, .cpx, .cpy, .asl, .lsr, .rol, .ror, .clc, .sec, .plp, .rti]
  | .overflow => operation.mnemonic ∈ [.adc, .sbc, .bit, .clv, .plp, .rti]
  | .decimal => operation.mnemonic ∈ [.cld, .sed, .plp, .rti]
  | .interruptDisable => operation.mnemonic ∈ [.cli, .sei, .plp, .rti]
  | .breakCommand | .unused => operation.mnemonic ∈ [.plp, .rti]
  | .zero | .negative =>
    operation.mnemonic ∉
      [.sta, .stx, .sty, .txs, .pha, .php, .bcc, .bcs, .beq, .bmi, .bne, .bpl, .bvc, .bvs,
        .jmp, .jsr, .rts, .nop, .brk, .clc, .sec, .cli, .sei, .cld, .sed, .clv]

/-- The addresses that an operation may write, from the registers and the memory before it. In
accumulator mode there is no effective address. -/
def mayWrite (operation : Operation) (registers : Registers) (image : Image) : List UInt16 :=
  match operation.mnemonic with
  | .sta | .stx | .sty | .inc | .dec | .asl | .lsr | .rol | .ror =>
    (operation.mode.effectiveAddress? registers image).toList
  | .pha | .php => [stackSlot registers.sp]
  | .jsr => [stackSlot registers.sp, stackSlot (registers.sp - 1)]
  | _ => []

end Operation

/-! ## Cells -/

namespace Registers

/-- Only the given cells, and the program counter, may differ. -/
def SameBut (cells : List Cell) (before after : Registers) : Prop :=
  ∀ cell, cell ∉ cells → cell.Kept before after

/-- The program counter is no cell. -/
theorem SameBut.of_pc {cells : List Cell} {before after : Registers} {pc : UInt16}
    (h : SameBut cells { before with pc } after) : SameBut cells before after := by
  intro cell hc
  have := h cell hc
  cases cell <;> exact this

/-- A cell outside the given ones is kept. -/
theorem SameBut.kept {cells : List Cell} {before after : Registers} (h : SameBut cells before after)
    {changed : Cell → Bool} (hcells : cells.all changed = true) {cell : Cell}
    (hc : changed cell = false) : cell.Kept before after := by
  refine h cell fun hmem => ?_
  rw [List.all_eq_true.mp hcells cell hmem] at hc
  cases hc

theorem SameBut.trans {first second : List Cell} {before between after : Registers}
    (h : SameBut first before between) (h' : SameBut second between after) :
    SameBut (first ++ second) before after := by
  intro cell hc
  rw [List.mem_append, not_or] at hc
  have hfirst := h cell hc.1
  have hsecond := h' cell hc.2
  cases cell <;> exact hsecond.trans hfirst

variable (registers : Registers)

theorem sameBut_pc (pc : UInt16) : SameBut [] registers { registers with pc } := by
  intro cell _
  cases cell <;> rfl

theorem sameBut_sp (sp : UInt8) (pc : UInt16) :
    SameBut [.sp] registers { registers with sp, pc } := by
  intro cell h
  cases cell <;> simp_all [Cell.Kept]

theorem sameBut_setA (result : UInt8) :
    SameBut [.a, .zero, .negative] registers (registers.setA result) := by
  intro cell h
  cases cell <;> simp_all [Cell.Kept, setA, Status.describe]

theorem sameBut_setX (result : UInt8) :
    SameBut [.x, .zero, .negative] registers (registers.setX result) := by
  intro cell h
  cases cell <;> simp_all [Cell.Kept, setX, Status.describe]

theorem sameBut_setY (result : UInt8) :
    SameBut [.y, .zero, .negative] registers (registers.setY result) := by
  intro cell h
  cases cell <;> simp_all [Cell.Kept, setY, Status.describe]

theorem sameBut_addWithCarry (value : UInt8) :
    SameBut [.a, .carry, .overflow, .zero, .negative] registers
      (registers.addWithCarry value) := by
  intro cell h
  cases cell <;> simp_all [Cell.Kept, addWithCarry, Status.describe]

theorem sameBut_compare (contents value : UInt8) :
    SameBut [.carry, .zero, .negative] registers (registers.compare contents value) := by
  intro cell h
  cases cell <;> simp_all [Cell.Kept, compare, Status.describe]

theorem sameBut_testBits (value : UInt8) :
    SameBut [.overflow, .zero, .negative] registers (registers.testBits value) := by
  intro cell h
  cases cell <;> simp_all [Cell.Kept, testBits]

theorem sameBut_shifted (action : Bool → UInt8 → UInt8 × Bool) (value : UInt8) :
    SameBut [.carry, .zero, .negative] registers (shifted action registers value).2 := by
  intro cell h
  cases cell <;> simp_all [Cell.Kept, shifted, Status.describe]

theorem sameBut_counted (action : UInt8 → UInt8) (value : UInt8) :
    SameBut [.zero, .negative] registers (counted action registers value).2 := by
  intro cell h
  cases cell <;> simp_all [Cell.Kept, counted, describe, Status.describe]

theorem sameBut_assign (flag : Flag) (on : Bool) :
    SameBut [flag.cell] registers (registers.assign flag on) := by
  intro cell h
  cases flag <;> cases cell <;> simp_all [Cell.Kept, assign, Status.setFlag, Flag.cell]

theorem sameBut_modify {action : Registers → UInt8 → UInt8 × Registers} {cells : List Cell}
    (h : ∀ registers value, SameBut cells registers (action registers value).2)
    (operand : Operand) (image : Image) :
    SameBut (.a :: cells) registers
      (Family.effect (.modify action) operand registers image).registers := by
  intro cell hc
  rw [List.mem_cons, not_or] at hc
  have := h registers (operand.value?.getD 0) cell hc.2
  simp only [Family.effect]
  split
  · cases cell <;> first | exact this | exact absurd rfl hc.1
  · exact this

/-- In memory the accumulator is no place for a result. -/
theorem sameBut_modify_inMemory {action : Registers → UInt8 → UInt8 × Registers}
    {cells : List Cell} (h : ∀ registers value, SameBut cells registers (action registers value).2)
    {operand : Operand} (hm : operand.mode ≠ .accumulator) (image : Image) :
    SameBut cells registers
      (Family.effect (.modify action) operand registers image).registers := by
  simp only [Family.effect, if_neg hm]
  exact h registers _

theorem sameBut_branch (condition : Status → Bool) (operand : Operand) (image : Image) :
    SameBut [] registers (Family.effect (.branch condition) operand registers image).registers := by
  simp only [Family.effect]
  split <;> exact sameBut_pc registers _

/-- A new status leaves the registers. -/
theorem sameBut_status (sp : UInt8) (pc : UInt16) (status : Status) :
    SameBut [.sp, .carry, .zero, .interruptDisable, .decimal, .breakCommand, .unused, .overflow,
      .negative] registers { registers with sp, pc, status } := by
  intro cell h
  cases cell <;> simp_all [Cell.Kept]

end Registers

/-! ## The effect keeps to the table -/

namespace Operation

variable {operation : Operation} {opcode : UInt8}

/-- Memory is counted up and down, the accumulator is not. -/
theorem mode_ne_accumulator (ho : operation? opcode = some operation)
    (hm : operation.mnemonic ∈ [.inc, .dec]) : operation.mode ≠ .accumulator :=
  forall_operation
    (p := fun operation => operation.mnemonic ∈ [.inc, .dec] → operation.mode ≠ .accumulator)
    (by decide +kernel) ho hm

open Registers in
/-- **Cells.** An operation changes no cell but those of the table. -/
theorem kept_effect (ho : operation? opcode = some operation) (registers : Registers)
    (image : Image) {cell : Cell} (hc : operation.mayChange cell = false) :
    cell.Kept registers (operation.effect registers image).registers := by
  have hcount := operation.mode_ne_accumulator ho
  obtain ⟨mnemonic, mode, cycles⟩ := operation
  cases mnemonic with
  | adc | sbc => exact (sameBut_addWithCarry _ _).of_pc.kept rfl hc
  | and | ora | eor | lda | txa | tya => exact (sameBut_setA _ _).of_pc.kept rfl hc
  | ldx | inx | dex | tax | tsx => exact (sameBut_setX _ _).of_pc.kept rfl hc
  | ldy | iny | dey | tay => exact (sameBut_setY _ _).of_pc.kept rfl hc
  | cmp | cpx | cpy => exact (sameBut_compare _ _ _).of_pc.kept rfl hc
  | bit => exact (sameBut_testBits _ _).of_pc.kept rfl hc
  | sta | stx | sty | jmp | brk | nop => exact (sameBut_pc _ _).kept rfl hc
  | asl | lsr | rol | ror =>
    by_cases hm : mode = .accumulator
    · subst hm
      exact (sameBut_modify _ (sameBut_shifted · _) _ _).of_pc.kept rfl hc
    · exact (sameBut_modify_inMemory _ (sameBut_shifted · _) hm _).of_pc.kept rfl hc
  | inc | dec =>
    have hm := hcount (by simp)
    exact (sameBut_modify_inMemory _ (sameBut_counted · _) hm _).of_pc.kept rfl hc
  | bcc | bcs | beq | bmi | bne | bpl | bvc | bvs =>
    exact (sameBut_branch _ _ _ _).of_pc.kept rfl hc
  | pha | php | jsr | rts | txs => exact (sameBut_sp _ _ _).kept rfl hc
  | pla => exact ((sameBut_sp _ _ _).trans (sameBut_setA _ _)).of_pc.kept rfl hc
  | plp | rti => exact (sameBut_status _ _ _ _).kept rfl hc
  | clc | sec | cli | sei | cld | sed | clv => exact (sameBut_assign _ _ _).of_pc.kept rfl hc

end Operation

/-- The addresses that the operations of a family may write. -/
def Family.mayWrite (family : Family) (address? : Option UInt16) (sp : UInt8) : List UInt16 :=
  match family with
  | .store _ | .modify _ => address?.toList
  | .push _ => [stackSlot sp]
  | .call => [stackSlot sp, stackSlot (sp - 1)]
  | _ => []

theorem Family.fst_mem_mayWrite {family : Family} {operand : Operand} (hs : family.Suits operand)
    (registers : Registers) (image : Image) :
    ∀ write ∈ (family.effect operand registers image).writes,
      write.1 ∈ family.mayWrite operand.address? registers.sp := by
  intro write hw
  cases family with
  | store source =>
    obtain ⟨address, ha⟩ := Option.isSome_iff_exists.mp hs.2
    simp_all [effect, mayWrite]
  | modify action =>
    simp only [effect] at hw
    split at hw
    · cases hw
    next hm =>
      obtain ⟨address, ha⟩ := Option.isSome_iff_exists.mp (hs.2.resolve_left hm)
      simp_all [mayWrite]
  | branch condition =>
    simp only [effect] at hw
    split at hw <;> cases hw
  | push source | call => exact List.mem_map_of_mem (f := Prod.fst) hw
  | load | internal | jump | pull | comeBack | resume => cases hw

namespace Operation

/-- **Memory.** An operation writes no address but those of the table. -/
theorem fst_mem_mayWrite {operation : Operation} {opcode : UInt8}
    (ho : operation? opcode = some operation) (registers : Registers) (image : Image) :
    ∀ write ∈ (operation.effect registers image).writes,
      write.1 ∈ operation.mayWrite registers image := by
  have htable : operation.mayWrite registers image = operation.mnemonic.family.mayWrite
      (operation.mode.effectiveAddress? registers image) registers.sp := by
    unfold mayWrite
    cases operation.mnemonic <;> rfl
  rw [htable]
  exact Family.fst_mem_mayWrite (suits_operand (admits_of_operation? ho) registers image) _ image

end Operation

/-! ## Steps -/

namespace Ram

theorem size_writeAll {ram after : Ram} {writes : List (UInt16 × UInt8)}
    (h : Bus.writeAll ram writes = (.ok (), after)) : after.size = ram.size := by
  induction writes generalizing ram with
  | nil => cases h; rfl
  | cons write writes ih =>
    rw [ih (Bus.writeAll_cons_ok.mp h).2]
    exact ram.size_put write.1 write.2

/-- A byte that is not written is as before. -/
theorem read_writeAll_of_not_mem {ram after : Ram} {writes : List (UInt16 × UInt8)}
    (h : Bus.writeAll ram writes = (.ok (), after)) {address : UInt16}
    (ha : ∀ write ∈ writes, write.1 ≠ address) : after.read address = ram.read address := by
  induction writes generalizing ram with
  | nil => cases h; rfl
  | cons write writes ih =>
    have hne : address ≠ write.1 := fun e => ha write (List.mem_cons_self ..) e.symm
    rw [ih (Bus.writeAll_cons_ok.mp h).2 fun write hw => ha write (List.mem_cons_of_mem _ hw)]
    exact (ram.read_put write.1 address write.2).trans (if_neg hne)

end Ram

namespace Cpu

/-- **A step keeps to the table.** Memory is as before but for the addresses that the operation may
write, and so are the registers and flags but for the cells that it may change. -/
theorem step_footprint {cpu : Cpu Ram} {mnemonic : Mnemonic}
    (h : cpu.step.result = .ok mnemonic) :
    ∃ operation, cpu.next? = some operation ∧ operation.mnemonic = mnemonic ∧
      cpu.step.cpu.memory.size = cpu.memory.size ∧
      (∀ address, address ∉ operation.mayWrite cpu.registers cpu.image →
        cpu.step.cpu.memory.read address = cpu.memory.read address) ∧
      ∀ cell, operation.mayChange cell = false →
        cell.Kept cpu.registers cpu.step.cpu.registers := by
  obtain ⟨operation, hm, hx⟩ := exists_executes h
  obtain ⟨opcode, -, ho⟩ := exists_opcode_of_next? hx.next
  refine ⟨operation, hx.next, hm, Ram.size_writeAll hx.writeAll, fun address ha => ?_,
    fun cell hc => ?_⟩
  · refine Ram.read_writeAll_of_not_mem hx.writeAll fun write hw => ?_
    rintro rfl
    exact ha (Operation.fst_mem_mayWrite ho cpu.registers cpu.image write hw)
  · rw [hx.registers]
    exact Operation.kept_effect ho cpu.registers cpu.image hc

/-- Counting up the byte at `$F0` and X, which stays in the zero page. -/
def countingUp : Cpu Ram where
  registers := ⟨0x55, 0x20, 0, 0xFF, 0, .powerOn⟩
  clock := .zero
  verbose := false
  memory := ((Ram.zeros 0x0100 (by decide) (by decide)).put 0 0xF6).put 1 0xF0

theorem step_footprint_countingUp :
    countingUp.step.result = .ok .inc ∧
    countingUp.step.cpu.registers.a = countingUp.registers.a ∧
    ∀ address, address ≠ 0x0010 →
      countingUp.step.cpu.memory.read address = countingUp.memory.read address := by
  have hresult : countingUp.step.result = .ok .inc := by decide +kernel
  obtain ⟨operation, hnext, -, -, hmemory, hcells⟩ := step_footprint hresult
  have hinc : countingUp.next? = some ⟨.inc, .zeroPageX, 6⟩ := by decide +kernel
  rw [hinc] at hnext
  cases hnext
  refine ⟨hresult, hcells .a rfl, fun address ha => hmemory address ?_⟩
  have hplace : Operation.mayWrite ⟨.inc, .zeroPageX, 6⟩ countingUp.registers countingUp.image =
      [0x0010] := by decide +kernel
  rwa [hplace, List.mem_singleton]

end Cpu

end Nmos6502
