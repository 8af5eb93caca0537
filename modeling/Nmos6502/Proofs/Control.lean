import Nmos6502.Proofs.Transition

/-!
# Where control goes

The program counter goes on byte by byte while an instruction is fetched, and some operations set it
at the end. So where control goes is a matter of the mode, which says how many bytes are fetched,
and of the family, which says whether that is the last word. `Cpu.destination?` is the answer as a
number, from the registers and from the bytes that memory gives: it wraps at both ends of the
address space.

For most operations control goes to what follows the instruction. That is one lemma about effects,
`Operation.pc_effect`. The others are taken one by one: branches, jumps and calls, the two returns.

## Main definitions

* `Bus.word?` — a word of memory
* `Mnemonic.isTransfer` — the operations that send control elsewhere
* `Cpu.Branches` — what a branch does to the processor
* `Cpu.destination?` — where control goes

## Main results

* `Cpu.branches_of_ok` — a step that branches, as an equation
* `Cpu.step_destination` — where control goes, and that branches do nothing else
-/

namespace Nmos6502

/-- The word whose bytes memory gives at two addresses. -/
def Bus.word? {M : Type} [Bus M] (memory : M) (lowAddress highAddress : UInt16) :
    Option UInt16 := do
  let low ← (read memory lowAddress).toOption
  let high ← (read memory highAddress).toOption
  return word low high

/-- Whether an operation sends control elsewhere than to what follows it. -/
def Mnemonic.isTransfer (mnemonic : Mnemonic) : Bool :=
  mnemonic.isBranch || mnemonic matches .jmp | .jsr | .rts | .rti

/-- A branch takes two cycles before it goes anywhere. -/
theorem Operation.cycles_of_isBranch {opcode : UInt8} {operation : Operation}
    (ho : operation? opcode = some operation) (h : operation.mnemonic.isBranch = true) :
    operation.cycles = 2 :=
  forall_operation
    (p := fun operation => operation.mnemonic.isBranch = true → operation.cycles = 2)
    (by decide +kernel) ho h

/-- A result goes to the accumulator or to memory. -/
theorem Family.pc_effect_modify {action : Registers → UInt8 → UInt8 × Registers}
    (h : ∀ registers value, (action registers value).2.pc = registers.pc) (operand : Operand)
    (registers : Registers) (image : Image) :
    ((Family.modify action).effect operand registers image).registers.pc = registers.pc := by
  simp only [effect]
  split <;> exact h registers _

/-- **Control goes on to what follows**, unless the operation sends it elsewhere. -/
theorem Operation.pc_effect {operation : Operation} (h : operation.mnemonic.isTransfer = false)
    (registers : Registers) (image : Image) :
    (operation.effect registers image).registers.pc =
      registers.pc + UInt16.ofNat operation.size := by
  obtain ⟨mnemonic, mode, cycles⟩ := operation
  cases mnemonic with
  | bcc | bcs | bne | beq | bpl | bmi | bvc | bvs | jmp | jsr | rts | rti => cases h
  | asl | lsr | rol | ror | inc | dec => exact Family.pc_effect_modify (fun _ _ => rfl) _ _ image
  | _ => rfl

/-! ## Program counters as numbers -/

theorem toNat_add_ofNat (pc : UInt16) (count : Nat) :
    ((pc + UInt16.ofNat count).toNat : Int) = (pc.toNat + count) % addressSpace := by
  have hspace : (addressSpace : Int) = 0x10000 := rfl
  rw [UInt16.toNat_add, UInt16.toNat_ofNat', hspace]
  omega

theorem toNat_branchTarget (pc : UInt16) (offset : UInt8) (taken : Bool) :
    ((if taken then relativeTarget (pc + 2) offset else pc + 2).toNat : Int) =
      (pc.toNat + 2 + if taken then signed offset else 0) % addressSpace := by
  have hnext : ((pc + 2).toNat : Int) = (pc.toNat + 2) % addressSpace := toNat_add_ofNat pc 2
  cases taken with
  | false => exact hnext.trans (by simp)
  | true => rw [if_pos rfl, if_pos rfl, toNat_relativeTarget, hnext, Int.emod_add_emod]

namespace Cpu

variable {M : Type} [Bus M] {cpu : Cpu M} {operation : Operation} {mnemonic : Mnemonic}

/-- A word whose bytes the step has read. -/
theorem Executes.word? (hx : cpu.Executes operation) {lowAddress highAddress : UInt16}
    (h : [lowAddress, highAddress] ⊆ operation.allReads cpu.registers cpu.image) :
    Bus.word? cpu.memory lowAddress highAddress = some (cpu.image.word lowAddress highAddress) := by
  have hlow := hx.read (h (List.mem_cons_self ..))
  have hhigh := hx.read (h (List.mem_cons_of_mem _ (List.mem_singleton_self _)))
  rw [Bus.word?, hlow, hhigh]
  rfl

/-! ## Branches -/

/-- What a branch does: if it is taken, control goes as far from what follows it as the byte after
the opcode says, and a cycle more is spent. Nothing else happens. -/
def Branches (cpu : Cpu M) (taken : Bool) : Prop :=
  ∃ offset, Bus.read cpu.memory (cpu.registers.pc + 1) = .ok offset ∧
    cpu.step.cpu =
      { cpu with
        registers :=
          { cpu.registers with
            pc := if taken then relativeTarget (cpu.registers.pc + 2) offset
              else cpu.registers.pc + 2 }
        clock := cpu.clock.tick (if taken then 3 else 2) }

/-- **A branch, as an equation.** -/
theorem branches_of_ok (hbranch : mnemonic.isBranch = true) (h : cpu.step.result = .ok mnemonic) :
    cpu.Branches (mnemonic.isTaken cpu.registers.status) := by
  obtain ⟨operation, rfl, hx⟩ := exists_executes h
  obtain ⟨opcode, -, ho⟩ := exists_opcode_of_next? hx.next
  have hmode := Operation.mode_of_isBranch ho hbranch
  have hread : Bus.read cpu.memory (cpu.registers.pc + 1) = _ := hx.read
    (operation.operandAddresses_subset _ _ (by rw [hmode]; exact List.mem_singleton_self _))
  have heffect : (cpu.effect operation).registers =
        { cpu.registers with
          pc := if operation.mnemonic.isTaken cpu.registers.status then
              relativeTarget (cpu.registers.pc + 2) (cpu.image.byte (cpu.registers.pc + 1))
            else cpu.registers.pc + 2 } ∧
      (cpu.effect operation).writes = [] := by
    rw [effect, Operation.effect, Operation.size, hmode,
      Mnemonic.family_of_isBranch hbranch, Family.effect]
    cases operation.mnemonic.isTaken cpu.registers.status <;> exact ⟨rfl, rfl⟩
  refine ⟨cpu.image.byte (cpu.registers.pc + 1), hread, ?_⟩
  rw [hx.cpu_eq, hx.memory_eq heffect.2, heffect.1, Operation.cost,
    Operation.cycles_of_isBranch ho hbranch]
  cases operation.mnemonic.isTaken cpu.registers.status <;> rfl

/-! ## All operations -/

/-- The address that a jump or a call resolves: the word after the opcode, or the word that this
points to. -/
def resolved? (cpu : Cpu M) (mode : Mode) : Option UInt16 := do
  let base ← Bus.word? cpu.memory (cpu.registers.pc + 1) (cpu.registers.pc + 2)
  if mode = .indirect then Bus.word? cpu.memory base (pointerHighAddress base) else some base

/-- Where control goes from an operation, if memory gives the bytes that say so. -/
def destination? (cpu : Cpu M) (operation : Operation) : Option Int :=
  let pc := cpu.registers.pc
  let sp := cpu.registers.sp
  let status := cpu.registers.status
  match operation.mnemonic with
  | .jmp | .jsr => (cpu.resolved? operation.mode).map fun target => target.toNat
  | .rts => (Bus.word? cpu.memory (stackSlot (sp + 1)) (stackSlot (sp + 2))).map
      fun pulled => (pulled.toNat + 1) % addressSpace
  | .rti => (Bus.word? cpu.memory (stackSlot (sp + 2)) (stackSlot (sp + 3))).map
      fun pulled => pulled.toNat
  | mnemonic =>
    if mnemonic.isBranch then
      (Bus.read cpu.memory (pc + 1)).toOption.map fun offset =>
        (pc.toNat + 2 + if mnemonic.isTaken status then signed offset else 0) % addressSpace
    else some ((pc.toNat + operation.size) % addressSpace)

/-- What a jump or a call resolves is its effective address. -/
theorem Executes.exists_resolved (hx : cpu.Executes operation)
    (hfamily : operation.mnemonic.family = .jump ∨ operation.mnemonic.family = .call) :
    ∃ target, cpu.resolved? operation.mode = some target ∧
      operation.mode.effectiveAddress? cpu.registers cpu.image = some target := by
  obtain ⟨opcode, -, ho⟩ := exists_opcode_of_next? hx.next
  have hadmits := admits_of_operation? ho
  have hmode : operation.mode = .absolute ∨ operation.mode = .indirect := by
    rcases hfamily with hfamily | hfamily <;> rw [hfamily] at hadmits <;>
      simpa [Family.admits] using hadmits
  have hoperand := operation.operandAddresses_subset cpu.registers cpu.image
  have hpointer := operation.pointerAddresses_subset cpu.registers cpu.image
  rcases hmode with hmode | hmode <;> rw [hmode] at hoperand hpointer ⊢
  · rw [resolved?, hx.word? hoperand]
    exact ⟨_, rfl, rfl⟩
  · rw [resolved?, hx.word? hoperand]
    exact ⟨_, hx.word? hpointer, rfl⟩

/-- A branch that is taken, a jump and a call go to the effective address. -/
theorem Executes.pc_of_goes (hx : cpu.Executes operation)
    (hgoes : operation.mnemonic.isTaken cpu.registers.status = true ∨
      operation.mnemonic.family = .jump ∨ operation.mnemonic.family = .call)
    {target : UInt16}
    (htarget : operation.mode.effectiveAddress? cpu.registers cpu.image = some target) :
    cpu.step.cpu.registers.pc = target := by
  rw [hx.registers, effect, Operation.effect]
  rcases hgoes with htaken | hfamily | hfamily
  · rw [Mnemonic.family_of_isBranch (Mnemonic.isBranch_of_isTaken htaken), Family.effect,
      if_pos htaken, Mode.operand, htarget]
    rfl
  · rw [hfamily, Family.effect, Mode.operand, htarget]
    rfl
  · rw [hfamily, Family.effect, Mode.operand, htarget]
    rfl

/-- **Where control goes.** The cases are those of the destination. -/
theorem Executes.destination?_eq (hx : cpu.Executes operation) :
    cpu.destination? operation = some (cpu.step.cpu.registers.pc.toNat : Int) := by
  have hpulled := operation.pulledSlots_subset cpu.registers cpu.image
  obtain ⟨mnemonic, mode, cycles⟩ := operation
  cases mnemonic with
  | bcc | bcs | bne | beq | bpl | bmi | bvc | bvs =>
    obtain ⟨offset, hread, hcpu⟩ := branches_of_ok rfl hx.result
    rw [hcpu, toNat_branchTarget]
    simp only [destination?, hread]
    rfl
  | jmp =>
    obtain ⟨target, hresolved, htarget⟩ := hx.exists_resolved (.inl rfl)
    simp only [hx.pc_of_goes (.inr (.inl rfl)) htarget, destination?, hresolved, Option.map_some]
  | jsr =>
    obtain ⟨target, hresolved, htarget⟩ := hx.exists_resolved (.inr rfl)
    simp only [hx.pc_of_goes (.inr (.inr rfl)) htarget, destination?, hresolved, Option.map_some]
  | rts =>
    have hpc : (cpu.effect ⟨.rts, mode, cycles⟩).registers.pc = cpu.image.word
        (stackSlot (cpu.registers.sp + 1)) (stackSlot (cpu.registers.sp + 2)) + 1 := by
      rw [← sp_add_two]
      rfl
    simp only [hx.registers, hpc, destination?, hx.word? hpulled, Option.map_some]
    exact congrArg some (toNat_add_ofNat _ 1).symm
  | rti =>
    have hpc : (cpu.effect ⟨.rti, mode, cycles⟩).registers.pc = cpu.image.word
        (stackSlot (cpu.registers.sp + 2)) (stackSlot (cpu.registers.sp + 3)) := by
      rw [← sp_add_three, ← sp_add_two]
      rfl
    -- the first of the three bytes is the status
    have hword := hx.word? (List.Subset.trans (List.subset_cons_self _ _) hpulled)
    simp only [hx.registers, hpc, destination?, hword, Option.map_some]
  | _ =>
    rw [hx.registers, effect, Operation.pc_effect rfl, toNat_add_ofNat]
    rfl

/-- **Where control goes, on every bus.** A step that ends well goes where its operation sends it:
to what follows, to the target of a branch that is taken, to what a jump or a call resolves, or back
to what was pulled. A branch changes the program counter and the clock, and nothing else. -/
theorem step_destination (h : cpu.step.result = .ok mnemonic) :
    ∃ operation, cpu.next? = some operation ∧ operation.mnemonic = mnemonic ∧
      cpu.destination? operation = some (cpu.step.cpu.registers.pc.toNat : Int) ∧
      (mnemonic.isBranch = true →
        cpu.step.cpu =
          { cpu with
            registers := { cpu.registers with pc := cpu.step.cpu.registers.pc }
            clock := cpu.step.cpu.clock }) := by
  obtain ⟨operation, rfl, hx⟩ := exists_executes h
  refine ⟨operation, hx.next, rfl, hx.destination?_eq, fun hbranch => ?_⟩
  obtain ⟨offset, -, hcpu⟩ := branches_of_ok hbranch h
  rw [hcpu]

/-- An instruction somewhere, while the flags are clear. All other bytes are the same. -/
def atEdge (code other : UInt8) (pc : UInt16) : Cpu Image where
  registers := ⟨0, 0, 0, 0xFF, pc, .powerOn⟩
  clock := .zero
  verbose := false
  memory := ⟨fun address => if address = pc then code else other⟩

/-- A branch goes below the first address, and an instruction of one byte goes beyond the last. -/
theorem step_destination_atEdge :
    (atEdge 0x90 0x80 0x0000).step.result = .ok .bcc ∧
    (atEdge 0x90 0x80 0x0000).step.cpu.registers.pc.toNat = 0xFF82 ∧
    (atEdge 0x90 0x80 0x0000).step.cpu.registers.status = .powerOn ∧
    (atEdge 0x00 0x80 0xFFFF).step.result = .ok .brk ∧
    (atEdge 0x00 0x80 0xFFFF).step.cpu.registers.pc.toNat = 0 := by
  have hbranch : (atEdge 0x90 0x80 0x0000).step.result = .ok .bcc := by decide +kernel
  have hbreak : (atEdge 0x00 0x80 0xFFFF).step.result = .ok .brk := by decide +kernel
  have hback : (atEdge 0x90 0x80 0x0000).destination? ⟨.bcc, .relative, 2⟩ = some 0xFF82 := by
    decide +kernel
  have hbeyond : (atEdge 0x00 0x80 0xFFFF).destination? ⟨.brk, .implied, 7⟩ = some 0 := by
    decide +kernel
  have hnext : (atEdge 0x90 0x80 0x0000).next? = some ⟨.bcc, .relative, 2⟩ := by decide +kernel
  have hnext' : (atEdge 0x00 0x80 0xFFFF).next? = some ⟨.brk, .implied, 7⟩ := by decide +kernel
  obtain ⟨operation, hfound, -, hpc, hcpu⟩ := step_destination hbranch
  obtain ⟨operation', hfound', -, hpc', -⟩ := step_destination hbreak
  cases hnext.symm.trans hfound
  cases hnext'.symm.trans hfound'
  refine ⟨hbranch, Int.ofNat_inj.mp (Option.some.inj (hpc.symm.trans hback)), ?_, hbreak,
    Int.ofNat_inj.mp (Option.some.inj (hpc'.symm.trans hbeyond))⟩
  rw [hcpu rfl]
  rfl

end Cpu

end Nmos6502
