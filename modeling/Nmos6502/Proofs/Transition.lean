import Nmos6502.Proofs.ReadSet
import Nmos6502.Proofs.Tracing

/-!
# What a step leaves

`Cpu.Executes` says piece by piece what a step does that ends well. Here the pieces are put together
into equations for the processor after the step. They hold on every bus, since a memory that let an
instruction end well has granted it all that it read: the bytes that the effect is computed from are
bytes that memory gives.

## Main definitions

* `Cpu.loadedByte?` — the byte that an operation loads, as memory gives it

## Main results

* `Cpu.Executes.cpu_eq` — a step that ends well, as an equation
* `Cpu.Executes.read` — memory gives every byte that the step has read
* `Cpu.step_of_load` — a step that lets a byte act on the registers
-/

namespace Nmos6502

/-! ## Among the bytes that are read -/

namespace Operation

variable (operation : Operation) (registers : Registers) (image : Image)

theorem operandAddresses_subset :
    operation.mode.operandAddresses registers ⊆ operation.allReads registers image := by
  rw [allReads_eq]
  exact List.subset_append_of_subset_left _ (List.subset_cons_self _ _)

theorem pointerAddresses_subset :
    operation.mode.pointerAddresses registers image ⊆ operation.allReads registers image := by
  rw [allReads_eq]
  exact List.subset_append_of_subset_right _ (List.subset_append_left _ _)

theorem targetAddresses_subset :
    operation.mode.targetAddresses operation.mnemonic.family.operandUse registers image ⊆
      operation.allReads registers image := by
  rw [allReads_eq]
  exact List.subset_append_of_subset_right _
    (List.subset_append_of_subset_right _ (List.subset_append_left _ _))

theorem pulledSlots_subset :
    operation.mnemonic.pulledSlots registers.sp ⊆ operation.allReads registers image := by
  rw [← operation.pulls_effect registers image]
  exact List.subset_append_right _ _

end Operation

namespace Cpu

variable {M : Type} [Bus M] {cpu : Cpu M} {operation : Operation} {mnemonic : Mnemonic}

/-! ## What a step does -/

namespace Executes

/-- **A step that ends well, as an equation.** Only the memory is left to say. -/
theorem cpu_eq (hx : cpu.Executes operation) :
    cpu.step.cpu =
      { registers := (cpu.effect operation).registers
        clock := cpu.clock.tick (operation.cost cpu.registers.status)
        verbose := cpu.verbose
        memory := cpu.step.cpu.memory } := by
  have hcost : cpu.cost = operation.cost cpu.registers.status := by
    rw [cost, hx.next]
  have hclock := step_clock_of_ok hx.result
  rw [hcost] at hclock
  rw [← hx.registers, ← hclock, ← cpu.step_quiet.1]

/-- What writes nothing leaves memory as it is. -/
theorem memory_eq (hx : cpu.Executes operation) (hwrites : (cpu.effect operation).writes = []) :
    cpu.step.cpu.memory = cpu.memory := by
  have hmade := hx.writeAll
  rw [hwrites] at hmade
  exact (congrArg Prod.snd hmade).symm

/-- Memory gives every byte that the step has read. -/
theorem read (hx : cpu.Executes operation) {address : UInt16}
    (h : address ∈ operation.allReads cpu.registers cpu.image) :
    Bus.read cpu.memory address = .ok (cpu.image.byte address) := by
  have hmade : .read address (cpu.image.byte address) ∈ cpu.accessesMade := by
    rw [accessesMade_of_journal hx.journal, Operation.accesses]
    exact List.mem_append_left _ (List.mem_map.mpr ⟨address, h, rfl⟩)
  exact grants_of_mem hmade

end Executes

/-! ## Loads -/

/-- The byte that the instruction at the program counter loads, if it loads one and memory gives it:
the one after the opcode, or the one at the effective address. -/
def loadedByte? (cpu : Cpu M) : Option UInt8 := do
  let operation ← cpu.next?
  let address ←
    if operation.mode = .immediate then some (cpu.registers.pc + 1)
    else operation.mode.effectiveAddress? cpu.registers cpu.image
  (Bus.read cpu.memory address).toOption

/-- What is loaded is the value that the mode finds. -/
theorem Executes.exists_loadedByte? {action : Registers → UInt8 → Registers}
    (hx : cpu.Executes operation) (hfamily : operation.mnemonic.family = .load action) :
    ∃ byte, cpu.loadedByte? = some byte ∧
      operation.mode.value? operation.mnemonic.family.operandUse cpu.registers cpu.image =
        some byte := by
  obtain ⟨opcode, -, ho⟩ := exists_opcode_of_next? hx.next
  have hadmits := admits_of_operation? ho
  have huse : operation.mnemonic.family.operandUse = .read := by
    rw [hfamily]
    rfl
  rw [hfamily] at hadmits
  rw [loadedByte?, hx.next, huse]
  rcases (Bool.or_eq_true _ _).mp hadmits with himmediate | hmode
  · have himmediate : operation.mode = .immediate := of_decide_eq_true himmediate
    have hread : Bus.read cpu.memory (cpu.registers.pc + 1) = _ := hx.read
      (operation.operandAddresses_subset _ _ (by rw [himmediate]; exact List.mem_singleton_self _))
    refine ⟨cpu.image.byte (cpu.registers.pc + 1), ?_, by rw [himmediate]; rfl⟩
    simp [himmediate, hread, Except.toOption]
  · obtain ⟨address, ha⟩ := operation.mode.exists_effectiveAddress cpu.registers cpu.image hmode
    have hread : Bus.read cpu.memory address = _ := hx.read
      (operation.targetAddresses_subset _ _ (by
        rw [Mode.targetAddresses, huse, hmode, ha]
        exact List.mem_singleton_self _))
    have hne : operation.mode ≠ .immediate := by
      intro himmediate
      rw [himmediate] at hmode
      cases hmode
    refine ⟨cpu.image.byte address, ?_, ?_⟩
    · simp [hne, ha, hread, Except.toOption]
    · rw [Mode.value?_of_isInMemory _ _ _ hmode, ha]
      rfl

/-- **A load, as an equation.** The byte acts on the registers, and that is all that a step of an
operation that loads does. -/
theorem step_of_load {action : Registers → UInt8 → Registers}
    (hfamily : mnemonic.family = .load action) (h : cpu.step.result = .ok mnemonic) :
    ∃ operation byte, cpu.next? = some operation ∧ operation.mnemonic = mnemonic ∧
      cpu.loadedByte? = some byte ∧
      cpu.step.cpu =
        { cpu with
          registers := action
            { cpu.registers with pc := cpu.registers.pc + UInt16.ofNat operation.size } byte
          clock := cpu.clock.tick operation.cycles } := by
  obtain ⟨operation, rfl, hx⟩ := exists_executes h
  obtain ⟨byte, hbyte, hvalue⟩ := hx.exists_loadedByte? hfamily
  obtain ⟨opcode, -, ho⟩ := exists_opcode_of_next? hx.next
  have hmode : operation.mode ≠ .relative := by
    intro hrelative
    have hadmits := admits_of_operation? ho
    rw [hfamily, hrelative] at hadmits
    cases hadmits
  have heffect : cpu.effect operation = _ :=
    operation.effect_of_load cpu.registers cpu.image hfamily hvalue
  refine ⟨operation, byte, hx.next, rfl, hbyte, ?_⟩
  rw [hx.cpu_eq, hx.memory_eq (congrArg Effect.writes heffect), heffect,
    Operation.cost_of_mode ho hmode]

end Cpu

end Nmos6502
