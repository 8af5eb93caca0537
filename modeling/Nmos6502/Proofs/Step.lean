import Nmos6502.Cpu
import Nmos6502.Proofs.Effect

/-!
# Steps

What a step can do, said once. A step that ends well executes an operation of the opcode matrix,
and its registers, its writes and its cycles are those of `Operation.effect`. A step that fails
either failed before it wrote anything, and then nothing has changed, or was refused one of its
writes by a memory whose check had accepted it, and then the writes before that one have been
made.

Everything else about steps follows from these two cases, `exists_executes` and
`step_error_cases`, so no other proof unfolds `Cpu.step`.

## Main definitions

* `Cpu.next?` — the operation at the program counter
* `Cpu.Executes` — everything that a step executing an operation does

## Main results

* `Bus.writeAll_error` — where a series of writes is cut off
* `Cpu.exists_executes` — a step that ends well
* `Cpu.step_error_cases` — a step that fails
-/

namespace Nmos6502

/-! ## Series of writes -/

namespace Bus

variable {M : Type} [Bus M]

theorem writeAll_cons_ok {memory after : M} {address : UInt16} {value : UInt8}
    {writes : List (UInt16 × UInt8)} :
    writeAll memory ((address, value) :: writes) = (.ok (), after) ↔
      refusal? memory address value = none ∧
        writeAll (put memory address value) writes = (.ok (), after) := by
  rw [writeAll]
  cases refusal? memory address value <;> simp

/-- A series of writes that is cut off was made up to the write that is refused. -/
theorem writeAll_error {memory after : M} {writes : List (UInt16 × UInt8)} {cause : OutOfBounds}
    (h : writeAll memory writes = (.error cause, after)) :
    ∃ made address value left, writes = made ++ (address, value) :: left ∧
      writeAll memory made = (.ok (), after) ∧ refusal? after address value = some cause := by
  induction writes generalizing memory with
  | nil => cases h
  | cons write writes ih =>
    obtain ⟨address, value⟩ := write
    rw [writeAll] at h
    cases hr : refusal? memory address value with
    | some refusal =>
      rw [hr] at h
      cases h
      exact ⟨[], address, value, writes, rfl, rfl, hr⟩
    | none =>
      rw [hr] at h
      obtain ⟨made, target, byte, left, rfl, hmade, hrefused⟩ := ih h
      refine ⟨(address, value) :: made, target, byte, left, rfl, ?_, hrefused⟩
      rw [writeAll, hr]
      exact hmade

theorem write_of_refusal {memory : M} {address : UInt16} {value : UInt8} {cause : OutOfBounds}
    (h : refusal? memory address value = some cause) :
    write memory address value = .error cause := by
  rw [write, h]

end Bus

/-! ## The journal of an instruction -/

namespace Operation

variable (operation : Operation) (registers : Registers) (image : Image)

@[simp] theorem writes_journal :
    (operation.journal registers image).writes = (operation.effect registers image).writes := by
  simp [journal, Journal.noteEffect]

/-- No operation writes more than two bytes. -/
theorem length_writes_le_two : (operation.effect registers image).writes.length ≤ 2 := by
  unfold effect Family.effect
  cases operation.mnemonic.family with
  | modify action => dsimp only; split <;> simp
  | branch condition => dsimp only; split <;> simp
  | load | store | internal | jump | push | pull | call | comeBack | resume => simp

end Operation

namespace Cpu

variable {M : Type} [Bus M] {cpu : Cpu M}

/-- What memory looks like. -/
def image (cpu : Cpu M) : Image := Bus.image cpu.memory

/-- The operation at the program counter, if there is a byte and it begins one. -/
def next? (cpu : Cpu M) : Option Operation :=
  match Bus.read cpu.memory cpu.registers.pc with
  | .ok opcode => operation? opcode
  | .error _ => none

/-- What an operation would do to the processor. -/
def effect (cpu : Cpu M) (operation : Operation) : Effect :=
  operation.effect cpu.registers cpu.image

/-- All that a step does when it executes an operation. -/
structure Executes (cpu : Cpu M) (operation : Operation) : Prop where
  /-- The operation is the one at the program counter. -/
  next : cpu.next? = some operation
  /-- It is the operation that was executed. -/
  result : cpu.step.result = .ok operation.mnemonic
  /-- Its accesses to memory. -/
  journal : cpu.rehearse.2 = operation.journal cpu.registers cpu.image
  /-- Its writes are made. -/
  writeAll : Bus.writeAll cpu.memory (cpu.effect operation).writes =
    (.ok (), cpu.step.cpu.memory)
  /-- The registers are those of the effect. -/
  registers : cpu.step.cpu.registers = (cpu.effect operation).registers
  /-- The clock goes on by the cycles of the accesses, but not by less than those of the matrix. -/
  clock : cpu.step.cpu.clock =
    cpu.clock.tick (max (operation.journal cpu.registers cpu.image).ticks operation.cycles)

theorem rehearse_of_read_error {cause : OutOfBounds}
    (h : Bus.read cpu.memory cpu.registers.pc = .error cause) :
    cpu.rehearse.1 = .error (.refused cause) := by
  have hread : Journal.empty.read cpu.memory cpu.registers.pc = .error cause := h
  simp only [rehearse, Registers.instruction, Registers.fetch, readByte, Microcode.read_bind,
    Microcode.perform, hread]

theorem fetch_of_read {opcode : UInt8} (h : Bus.read cpu.memory cpu.registers.pc = .ok opcode) :
    cpu.registers.fetch.perform cpu.memory .empty =
      (.ok (opcode, { cpu.registers with pc := cpu.registers.pc + 1 }),
        Journal.empty.note (.read cpu.registers.pc opcode)) := by
  have hread : Journal.empty.read cpu.memory cpu.registers.pc = .ok opcode := h
  simp only [Registers.fetch, readByte, Microcode.read_bind, Microcode.perform, hread]
  rfl

/-- The first access of an instruction is to its opcode. -/
theorem exists_opcode_of_rehearse {executed : Executed} {journal : Journal}
    (h : cpu.rehearse = (.ok executed, journal)) :
    ∃ opcode, Bus.read cpu.memory cpu.registers.pc = .ok opcode := by
  cases hr : Bus.read cpu.memory cpu.registers.pc with
  | ok opcode => exact ⟨opcode, rfl⟩
  | error cause =>
    have hfail := rehearse_of_read_error hr
    rw [h] at hfail
    cases hfail

theorem next?_of_read {opcode : UInt8}
    (h : Bus.read cpu.memory cpu.registers.pc = .ok opcode) :
    cpu.next? = operation? (cpu.image.byte cpu.registers.pc) := by
  rw [next?, h, image, Bus.byte_image_of_read h]

theorem exists_opcode_of_next? {operation : Operation} (h : cpu.next? = some operation) :
    ∃ opcode, Bus.read cpu.memory cpu.registers.pc = .ok opcode ∧
      operation? opcode = some operation := by
  unfold next? at h
  split at h
  · exact ⟨_, by assumption, h⟩
  · cases h

/-- An instruction that ends well against memory does what its operation does. -/
theorem rehearse_ok {executed : Executed} {journal : Journal}
    (h : cpu.rehearse = (.ok executed, journal)) :
    ∃ operation, cpu.next? = some operation ∧
      executed = ⟨operation, (cpu.effect operation).registers⟩ ∧
      journal = operation.journal cpu.registers cpu.image := by
  have himage := Microcode.perform_image h
  obtain ⟨opcode, hread⟩ := exists_opcode_of_rehearse h
  obtain ⟨operation, ho, hs⟩ := operation?_of_instruction_ok himage
  refine ⟨operation, (next?_of_read hread).trans ho, ?_⟩
  rw [instruction_image ho hs] at himage
  cases himage
  exact ⟨rfl, rfl⟩

/-! ### The three ways of a step -/

section Ways

variable {executed : Executed} {journal : Journal} {memory : M}

theorem step_of_rehearse_error {fault : Fault} (hr : cpu.rehearse = (.error fault, journal)) :
    cpu.step = ⟨.error fault, cpu, cpu.openingEvents journal⟩ := by
  rw [step, hr]

theorem step_of_writeAll_error {cause : OutOfBounds} (hr : cpu.rehearse = (.ok executed, journal))
    (hw : Bus.writeAll cpu.memory journal.writes = (.error cause, memory)) :
    cpu.step = ⟨.error (.refused cause), { cpu with memory }, cpu.openingEvents journal⟩ := by
  simp only [step, hr, commit, hw]

theorem step_of_writeAll_ok (hr : cpu.rehearse = (.ok executed, journal))
    (hw : Bus.writeAll cpu.memory journal.writes = (.ok (), memory)) :
    cpu.step =
      let after :=
        ⟨executed.registers, cpu.clock.tick (executed.ticks journal), cpu.verbose, memory⟩
      ⟨.ok executed.operation.mnemonic, after, cpu.openingEvents journal ++ after.closingEvents⟩ :=
    by
  simp only [step, hr, commit, hw]

end Ways

/-- **A step that ends well** executes an operation of the matrix. -/
theorem exists_executes {mnemonic : Mnemonic} (h : cpu.step.result = .ok mnemonic) :
    ∃ operation, operation.mnemonic = mnemonic ∧ cpu.Executes operation := by
  rcases hr : cpu.rehearse with ⟨fault | executed, journal⟩
  · rw [step_of_rehearse_error hr] at h
    cases h
  rcases hw : Bus.writeAll cpu.memory journal.writes with ⟨cause | done, memory⟩
  · rw [step_of_writeAll_error hr hw] at h
    cases h
  have hstep := step_of_writeAll_ok hr hw
  obtain ⟨operation, hnext, rfl, rfl⟩ := rehearse_ok hr
  rw [Operation.writes_journal] at hw
  rw [hstep] at h
  refine ⟨operation, Except.ok.inj h, hnext, ?_, ?_, ?_, ?_, ?_⟩
  · rw [hstep]
  · rw [hr]
  · rw [hstep]; exact hw
  · rw [hstep]
  · rw [hstep]; rfl

/-- **A step that fails** failed before it wrote anything, or was refused a write. -/
theorem step_error_cases {fault : Fault} (h : cpu.step.result = .error fault) :
    (cpu.rehearse.1 = .error fault ∧ cpu.step.cpu = cpu) ∨
      ∃ executed cause memory, cpu.rehearse.1 = .ok executed ∧ fault = .refused cause ∧
        Bus.writeAll cpu.memory cpu.rehearse.2.writes = (.error cause, memory) ∧
        cpu.step.cpu = { cpu with memory } := by
  rcases hr : cpu.rehearse with ⟨found | executed, journal⟩
  · rw [step_of_rehearse_error hr] at h ⊢
    exact .inl ⟨congrArg _ (Except.error.inj h), rfl⟩
  rcases hw : Bus.writeAll cpu.memory journal.writes with ⟨cause | done, memory⟩
  · rw [step_of_writeAll_error hr hw] at h ⊢
    exact .inr ⟨executed, cause, memory, rfl, (Except.error.inj h).symm, rfl, rfl⟩
  · rw [step_of_writeAll_ok hr hw] at h
    cases h

end Cpu

end Nmos6502
