import Nmos6502.Proofs.Arithmetic
import Nmos6502.Proofs.Footprint

/-!
# Where bytes are

A result goes to a register or to an address of memory, and for most of what is said about it that
makes no difference. So registers and addresses are locations alike: there is a byte at a location,
it can be replaced, and what is replaced is what is found afterwards.

An operation that works on its operand takes it from a location, the accumulator or the effective
address, and the result goes back there. With locations that is one equation for both.

## Main definitions

* `Location`, `Location.Within` — a register or an address, and that it exists
* `Cpu.byteAt?`, `Cpu.replace` — what is at a location, and another byte in its place
* `Cpu.target?` — the location of the operand
* `Cpu.Shows` — a byte is at a location, and the flags describe it

## Main results

* `Cpu.byteAt?_replace`, `Cpu.byteAt?_replace_of_ne` — what is found after a byte is replaced
* `Cpu.Executes.internal_eq`, `Cpu.Executes.pull_eq`, `Cpu.Executes.store_eq`,
  `Cpu.Executes.modify_eq` — steps of operations of some families, as equations
-/

namespace Nmos6502

/-- Where a byte can be. -/
inductive Location where
  | a | x | y | sp
  /-- A place of memory. -/
  | memory (address : UInt16)
  deriving DecidableEq

/-- A location exists beside a memory of some size. -/
def Location.Within (location : Location) (size : Nat) : Prop :=
  match location with
  | .a | .x | .y | .sp => True
  | .memory address => address.toNat < size

instance (location : Location) (size : Nat) : Decidable (location.Within size) :=
  match location with
  | .a | .x | .y | .sp => .isTrue trivial
  | .memory address => inferInstanceAs (Decidable (address.toNat < size))

namespace Cpu

variable {M : Type} [Bus M]

/-- The byte at a location, if memory gives it. -/
def byteAt? (cpu : Cpu M) (location : Location) : Option UInt8 :=
  match location with
  | .a => some cpu.registers.a
  | .x => some cpu.registers.x
  | .y => some cpu.registers.y
  | .sp => some cpu.registers.sp
  | .memory address => (Bus.read cpu.memory address).toOption

/-- The processor with another byte at a location. -/
def replace (cpu : Cpu M) (location : Location) (byte : UInt8) : Cpu M :=
  match location with
  | .a => cpu.mapRegisters fun registers => { registers with a := byte }
  | .x => cpu.mapRegisters fun registers => { registers with x := byte }
  | .y => cpu.mapRegisters fun registers => { registers with y := byte }
  | .sp => cpu.mapRegisters fun registers => { registers with sp := byte }
  | .memory address => { cpu with memory := Bus.put cpu.memory address byte }

/-- Where the operand of the instruction at the program counter is: the accumulator in its own mode,
and else the effective address. -/
def target? (cpu : Cpu M) : Option Location := do
  let operation ← cpu.next?
  if operation.mode = .accumulator then some .a
  else (operation.mode.effectiveAddress? cpu.registers cpu.image).map .memory

/-- The operation at the program counter is found from the byte there. -/
theorem next?_eq_bind (cpu : Cpu M) :
    cpu.next? = (cpu.byteAt? (.memory cpu.registers.pc)).bind operation? := by
  rw [next?, byteAt?]
  cases Bus.read cpu.memory cpu.registers.pc <;> rfl

theorem target?_of_next? {cpu : Cpu M} {operation : Operation}
    (hnext : cpu.next? = some operation) :
    cpu.target? =
      if operation.mode = .accumulator then some .a
      else (operation.mode.effectiveAddress? cpu.registers cpu.image).map .memory := by
  rw [target?, hnext]
  rfl

/-- An operand is in the accumulator or in memory. -/
theorem target?_cases {cpu : Cpu M} {location : Location} (h : cpu.target? = some location) :
    location = .a ∨ ∃ address, location = .memory address := by
  cases hnext : cpu.next? with
  | none =>
    rw [target?, hnext] at h
    cases h
  | some operation =>
    rw [target?_of_next? hnext] at h
    split at h
    · exact .inl (Option.some.inj h).symm
    · obtain ⟨address, -, rfl⟩ := Option.map_eq_some_iff.mp h
      exact .inr ⟨address, rfl⟩

/-- A number is at a location as a byte, and two flags describe it. -/
def Shows (cpu : Cpu M) (location : Location) (value : Nat) : Prop :=
  ∃ byte, cpu.byteAt? location = some byte ∧ byte.toNat = value ∧
    (cpu.registers.status.zero = true ↔ value = 0) ∧
    cpu.registers.status.negative = value.testBit 7

/-- What `Status.describe` does is to describe. -/
theorem shows_of_describe {cpu : Cpu M} {location : Location} {byte : UInt8} {before : Status}
    (hbyte : cpu.byteAt? location = some byte)
    (hstatus : cpu.registers.status = before.describe byte) : cpu.Shows location byte.toNat := by
  refine ⟨byte, hbyte, rfl, ?_, ?_⟩
  · rw [hstatus]
    exact beq_iff_eq.trans UInt8.toNat_inj.symm
  · rw [hstatus]
    exact isNegative_eq_testBit byte

/-! ## Replacing -/

section Replacing

variable {cpu : Cpu Ram} {location other : Location}

/-- There is a byte exactly at the locations that exist. -/
theorem isSome_byteAt?_iff :
    (cpu.byteAt? location).isSome = true ↔ location.Within cpu.memory.size := by
  cases location with
  | a | x | y | sp => exact iff_of_true rfl trivial
  | memory address =>
    rw [byteAt?, Ram.read_eq, Location.Within]
    by_cases h : address.toNat < cpu.memory.size
    · rw [if_neg (Nat.not_le.mpr h)]
      exact iff_of_true rfl h
    · rw [if_pos (Nat.not_lt.mp h)]
      exact iff_of_false Bool.false_ne_true h

theorem within_of_byteAt? {byte : UInt8} (h : cpu.byteAt? location = some byte) :
    location.Within cpu.memory.size :=
  isSome_byteAt?_iff.mp (Option.isSome_of_eq_some h)

theorem byteAt?_replace (h : location.Within cpu.memory.size) (byte : UInt8) :
    (cpu.replace location byte).byteAt? location = some byte := by
  cases location with
  | a | x | y | sp => rfl
  | memory address =>
    have haccepted : Bus.refusal? cpu.memory address byte = none := Ram.refusal?_eq_none_iff.mpr h
    have hread : Bus.read (cpu.memory.put address byte) address = _ :=
      Ram.read_put_of_accepted haccepted address
    rw [if_pos rfl] at hread
    show (Bus.read (cpu.memory.put address byte) address).toOption = some byte
    rw [hread]
    rfl

/-- A byte that the flags describe is shown where it is put. -/
theorem shows_replace (h : location.Within cpu.memory.size) {byte : UInt8} {before : Status}
    (hstatus : cpu.registers.status = before.describe byte) :
    (cpu.replace location byte).Shows location byte.toNat := by
  refine shows_of_describe (byteAt?_replace h byte) (Eq.trans ?_ hstatus)
  cases location <;> rfl

theorem read_replace_of_ne {address : UInt16} (h : location ≠ .memory address) (byte : UInt8) :
    Bus.read (cpu.replace location byte).memory address = Bus.read cpu.memory address := by
  cases location with
  | a | x | y | sp => rfl
  | memory place =>
    have hne : address ≠ place := fun he => h (he ▸ rfl)
    exact (cpu.memory.read_put place address byte).trans (if_neg hne)

theorem byteAt?_replace_of_ne (h : location ≠ other) (byte : UInt8) :
    (cpu.replace location byte).byteAt? other = cpu.byteAt? other := by
  cases other with
  | memory address => exact congrArg Except.toOption (read_replace_of_ne h byte)
  | a | x | y | sp => cases location <;> first | rfl | exact absurd rfl h

theorem size_replace (cpu : Cpu Ram) (location : Location) (byte : UInt8) :
    (cpu.replace location byte).memory.size = cpu.memory.size := by
  cases location with
  | a | x | y | sp => rfl
  | memory address => exact cpu.memory.size_put address byte

end Replacing

/-! ## Steps -/

/-- The effect of an operation is that of its family. -/
theorem effect_of_family (cpu : Cpu M) {operation : Operation} {family : Family}
    (hfamily : operation.mnemonic.family = family) :
    cpu.effect operation =
      family.effect (operation.mode.operand family.operandUse cpu.registers cpu.image)
        { cpu.registers with pc := cpu.registers.pc + UInt16.ofNat operation.size } cpu.image := by
  rw [effect, Operation.effect, hfamily]

namespace Executes

variable {cpu : Cpu M} {operation : Operation}

/-- A step that concerns only the registers. -/
theorem internal_eq {action : Registers → Registers} (hx : cpu.Executes operation)
    (hfamily : operation.mnemonic.family = .internal action) :
    cpu.step.cpu =
      { cpu with
        registers := action
          { cpu.registers with pc := cpu.registers.pc + UInt16.ofNat operation.size }
        clock := cpu.clock.tick (operation.cost cpu.registers.status) } := by
  have heffect := cpu.effect_of_family hfamily
  rw [hx.cpu_eq, hx.memory_eq (congrArg Effect.writes heffect), heffect]
  rfl

/-- A step that takes a byte from the stack. -/
theorem pull_eq {action : Registers → UInt8 → Registers} (hx : cpu.Executes operation)
    (hfamily : operation.mnemonic.family = .pull action) :
    ∃ byte, cpu.byteAt? (.memory (stackSlot (cpu.registers.sp + 1))) = some byte ∧
      cpu.step.cpu =
        { cpu with
          registers := action
            { cpu.registers with
              sp := cpu.registers.sp + 1
              pc := cpu.registers.pc + UInt16.ofNat operation.size } byte
          clock := cpu.clock.tick (operation.cost cpu.registers.status) } := by
  have heffect := cpu.effect_of_family hfamily
  have hpulls : (operation.effect cpu.registers cpu.image).pulls =
      [stackSlot (cpu.registers.sp + 1)] := congrArg Effect.pulls heffect
  have hslot : stackSlot (cpu.registers.sp + 1) ∈
      operation.allReads cpu.registers cpu.image := by
    refine List.mem_append_right _ ?_
    rw [hpulls]
    exact List.mem_singleton_self _
  refine ⟨cpu.image.byte (stackSlot (cpu.registers.sp + 1)), ?_, ?_⟩
  · rw [byteAt?, hx.read hslot]
    rfl
  · rw [hx.cpu_eq, hx.memory_eq (congrArg Effect.writes heffect), heffect]
    rfl

/-- A step with one write leaves a memory in which it is made. -/
theorem memory_eq_put (hx : cpu.Executes operation) {address : UInt16} {value : UInt8}
    (hwrites : (cpu.effect operation).writes = [(address, value)]) :
    Bus.refusal? cpu.memory address value = none ∧
      cpu.step.cpu.memory = Bus.put cpu.memory address value := by
  have hmade := hx.writeAll
  rw [hwrites] at hmade
  obtain ⟨haccepted, hput⟩ := Bus.writeAll_cons_ok.mp hmade
  exact ⟨haccepted, (congrArg Prod.snd hput).symm⟩

/-- The location of an operand in memory is the effective address. -/
theorem target?_of_isInMemory (hx : cpu.Executes operation)
    (hmode : operation.mode.isInMemory = true) {address : UInt16}
    (ha : operation.mode.effectiveAddress? cpu.registers cpu.image = some address) :
    operation.mode ≠ .accumulator ∧ cpu.target? = some (.memory address) := by
  have hne : operation.mode ≠ .accumulator := by
    intro haccumulator
    rw [haccumulator] at hmode
    cases hmode
  exact ⟨hne, by rw [target?_of_next? hx.next, if_neg hne, ha, Option.map_some]⟩

/-- A step that puts a register at the effective address. -/
theorem store_eq {source : Registers → UInt8} (hx : cpu.Executes operation)
    (hfamily : operation.mnemonic.family = .store source) :
    ∃ address, cpu.target? = some (.memory address) ∧
      let registers :=
        { cpu.registers with pc := cpu.registers.pc + UInt16.ofNat operation.size }
      Bus.refusal? cpu.memory address (source registers) = none ∧
      cpu.step.cpu =
        Cpu.replace ⟨registers, cpu.clock.tick (operation.cost cpu.registers.status), cpu.verbose,
          cpu.memory⟩ (.memory address) (source registers) := by
  obtain ⟨opcode, -, ho⟩ := exists_opcode_of_next? hx.next
  have hmode : operation.mode.isInMemory = true := by
    have hadmits := admits_of_operation? ho
    rwa [hfamily] at hadmits
  obtain ⟨address, ha⟩ := operation.mode.exists_effectiveAddress cpu.registers cpu.image hmode
  have heffect := cpu.effect_of_family hfamily
  rw [Mode.operand_of_isInMemory hmode ha] at heffect
  obtain ⟨haccepted, hmemory⟩ := hx.memory_eq_put (congrArg Effect.writes heffect)
  refine ⟨address, (hx.target?_of_isInMemory hmode ha).2, haccepted, ?_⟩
  rw [hx.cpu_eq, hmemory, heffect]
  rfl

/-- **A step that works on its operand**, wherever that is. -/
theorem modify_eq {action : Registers → UInt8 → UInt8 × Registers} (hx : cpu.Executes operation)
    (hfamily : operation.mnemonic.family = .modify action) :
    ∃ location byte, cpu.target? = some location ∧ cpu.byteAt? location = some byte ∧
      let result := action
        { cpu.registers with pc := cpu.registers.pc + UInt16.ofNat operation.size } byte
      cpu.step.cpu =
        Cpu.replace ⟨result.2, cpu.clock.tick (operation.cost cpu.registers.status), cpu.verbose,
          cpu.memory⟩ location result.1 := by
  obtain ⟨opcode, -, ho⟩ := exists_opcode_of_next? hx.next
  have hadmits := admits_of_operation? ho
  rw [hfamily] at hadmits
  have heffect := cpu.effect_of_family hfamily
  rcases (Bool.or_eq_true _ _).mp hadmits with haccumulator | hmode
  · have haccumulator : operation.mode = .accumulator := of_decide_eq_true haccumulator
    rw [haccumulator] at heffect
    have htarget : cpu.target? = some .a :=
      (target?_of_next? hx.next).trans (if_pos haccumulator)
    refine ⟨.a, cpu.registers.a, htarget, rfl, ?_⟩
    rw [hx.cpu_eq, hx.memory_eq (congrArg Effect.writes heffect), heffect]
    rfl
  · obtain ⟨address, ha⟩ := operation.mode.exists_effectiveAddress cpu.registers cpu.image hmode
    obtain ⟨hne, htarget⟩ := hx.target?_of_isInMemory hmode ha
    rw [Mode.operand_of_isInMemory hmode ha] at heffect
    simp only [Family.effect, if_neg hne] at heffect
    obtain ⟨-, hmemory⟩ := hx.memory_eq_put (congrArg Effect.writes heffect)
    have hread : Bus.read cpu.memory address = _ := hx.read
      (operation.targetAddresses_subset _ _ (by
        rw [Mode.targetAddresses, hfamily, hmode, ha]
        exact List.mem_singleton_self _))
    refine ⟨.memory address, cpu.image.byte address, htarget, ?_, ?_⟩
    · rw [byteAt?, hread]
      rfl
    · rw [hx.cpu_eq, hmemory, heffect]
      rfl

end Executes

end Cpu

end Nmos6502
