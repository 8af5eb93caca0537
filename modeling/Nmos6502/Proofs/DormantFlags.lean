import Nmos6502.Proofs.Iteration
import Nmos6502.Proofs.Outcome

/-!
# Flags that decide nothing

Three flags are kept and never consulted: interrupt disable, decimal and break. There are no
interrupts, arithmetic is binary, and the break flag has no meaning in the register. They lie
dormant. Only `PHP` makes something of them, the byte that it pushes, and from then on they are in
memory.

To forget the dormant flags is to clear them. Forgetting commutes with every operation but that one:
it does not matter whether the flags are forgotten before the operation or after it. `PLP` and `RTI`
bring the flags back, but from memory, and memory is the same in either case, since the accesses do
not depend on the flags. So two processors that look the same without their dormant flags go on to
look the same as long as neither executes a `PHP`.

## Main definitions

* `Status.awake`, `Registers.awake`, `Cpu.awake` — with the dormant flags cleared
* `Family.Unaware` — the operations of a family do not look at the dormant flags
* `Cpu.operandByte?` — the byte that an instruction works on

## Main results

* `Mnemonic.unaware` — no operation looks at them but `PHP`
* `Operation.awake_effect`, `Cpu.awake_step` — forgetting commutes with operations and steps
* `Registers.addWithCarry_sum`, `Registers.subtractWithBorrow_sum` — arithmetic is binary
* `Cpu.dormant_flags` — runs
-/

namespace Nmos6502

/-! ## Forgetting the dormant flags -/

/-- The status with its dormant flags cleared. -/
def Status.awake (status : Status) : Status :=
  { status with interruptDisable := false, decimal := false, breakCommand := false }

/-- The registers with the dormant flags cleared. -/
def Registers.awake (registers : Registers) : Registers :=
  { registers with status := registers.status.awake }

/-- An effect that leaves the dormant flags cleared. -/
def Effect.awake (effect : Effect) : Effect :=
  { effect with registers := effect.registers.awake }

/-- The operations of a family do not look at the dormant flags: their results are the same without,
up to these flags. -/
def Family.Unaware : Family → Prop
  | .load action | .pull action => ∀ registers value,
    (action registers.awake value).awake = (action registers value).awake
  | .store source | .push source => ∀ registers, source registers.awake = source registers
  | .modify action => ∀ registers value,
    (action registers.awake value).1 = (action registers value).1 ∧
      (action registers.awake value).2.awake = (action registers value).2.awake
  | .internal action => ∀ registers, (action registers.awake).awake = (action registers).awake
  | .branch condition => ∀ status, condition status.awake = condition status
  | .jump | .call | .comeBack | .resume => True

/-- **No operation looks at the dormant flags**, but for the one that pushes them. -/
theorem Mnemonic.unaware {mnemonic : Mnemonic} (h : mnemonic ≠ .php) :
    mnemonic.family.Unaware := by
  cases mnemonic with
  | php => exact absurd rfl h
  | adc | sbc | and | ora | eor | bit | cmp | cpx | cpy | lda | ldx | ldy | pla | plp =>
    exact fun _ _ => rfl
  | asl | lsr | rol | ror | inc | dec => exact fun _ _ => ⟨rfl, rfl⟩
  | sta | stx | sty | pha => exact fun _ => rfl
  | inx | iny | dex | dey | tax | tay | txa | tya | tsx | txs | clc | sec | cli | sei | cld | sed
  | clv | brk | nop => exact fun _ => rfl
  | bcc | bcs | bne | beq | bpl | bmi | bvc | bvs => exact fun _ => rfl
  | jmp | jsr | rts | rti => trivial

/-- Forgetting commutes with what the operations of a family do. -/
theorem Family.awake_effect {family : Family} (h : family.Unaware) (operand : Operand)
    (registers : Registers) (image : Image) :
    (family.effect operand registers.awake image).awake =
      (family.effect operand registers image).awake := by
  cases family with
  | load action =>
    exact congrArg (fun registers => (⟨registers, [], [], 0⟩ : Effect)) (h registers _)
  | pull action =>
    have hpulled := h { registers with sp := registers.sp + 1 }
      (image.byte (stackSlot (registers.sp + 1)))
    exact congrArg (fun after => (⟨after, [stackSlot (registers.sp + 1)], [], 0⟩ : Effect)) hpulled
  | store source =>
    simp only [effect, h registers]
    rfl
  | push source =>
    simp only [effect, h registers]
    rfl
  | modify action =>
    obtain ⟨hresult, hafter⟩ := h registers (operand.value?.getD 0)
    simp only [effect, hresult]
    split
    -- in accumulator mode the result goes to the registers, which agree but for the flags
    · have hstored := congrArg (fun after : Registers =>
        { after with a := (action registers (operand.value?.getD 0)).1 }) hafter
      exact congrArg (fun registers => (⟨registers, [], [], 0⟩ : Effect)) hstored
    · exact congrArg (fun registers => (⟨registers, [], [_], 0⟩ : Effect)) hafter
  | internal action =>
    exact congrArg (fun registers => (⟨registers, [], [], 0⟩ : Effect)) (h registers)
  | branch condition =>
    have hcondition : condition registers.awake.status = condition registers.status :=
      h registers.status
    simp only [effect, hcondition]
    split <;> rfl
  | jump | call | comeBack | resume => rfl

theorem Operation.awake_effect {operation : Operation} (h : operation.mnemonic ≠ .php)
    (registers : Registers) (image : Image) :
    (operation.effect registers.awake image).awake = (operation.effect registers image).awake :=
  Family.awake_effect (Mnemonic.unaware h) _ { registers with pc := _ } image

/-- Whether a branch is taken is not up to the dormant flags. -/
theorem Mnemonic.isTaken_awake (mnemonic : Mnemonic) (status : Status) :
    mnemonic.isTaken status.awake = mnemonic.isTaken status := by
  cases mnemonic <;> rfl

/-! ## Arithmetic -/

namespace Registers

/-- An addition is binary: the accumulator and the carry hold the sum. -/
theorem addWithCarry_sum (registers : Registers) (value : UInt8) :
    (registers.addWithCarry value).a.toNat +
        0x100 * (registers.addWithCarry value).status.carry.toNat =
      registers.a.toNat + value.toNat + registers.status.carry.toNat := by
  have ha := registers.a.toNat_lt
  have hvalue := value.toNat_lt
  have hcarry := Bool.toNat_le registers.status.carry
  simp only [addWithCarry, Status.describe, UInt8.toNat_ofNat']
  by_cases hsum : 0xFF < registers.a.toNat + value.toNat + registers.status.carry.toNat
  · rw [decide_eq_true hsum, Bool.toNat_true]
    omega
  · rw [decide_eq_false hsum, Bool.toNat_false]
    omega

/-- A subtraction is binary: the accumulator and the borrow hold the difference. -/
theorem subtractWithBorrow_sum (registers : Registers) (value : UInt8) :
    (registers.subtractWithBorrow value).a.toNat + value.toNat + 1 +
        0x100 * (registers.subtractWithBorrow value).status.carry.toNat =
      registers.a.toNat + registers.status.carry.toNat + 0x100 := by
  have hvalue := value.toNat_lt
  have hcomplement : (~~~value).toNat = 0xFF - value.toNat := by
    simp [UInt8.toNat_not]
  have hsum := registers.addWithCarry_sum (~~~value)
  rw [subtractWithBorrow]
  omega

end Registers

/-! ## Steps and runs -/

namespace Cpu

/-- The processor with its dormant flags cleared, and with nothing reported. -/
def awake (cpu : Cpu Ram) : Cpu Ram := ⟨cpu.registers.awake, cpu.clock, false, cpu.memory⟩

variable {cpu other : Cpu Ram}

theorem awake_eq_iff : cpu.awake = other.awake ↔
    cpu.registers.awake = other.registers.awake ∧ cpu.clock = other.clock ∧
      cpu.memory = other.memory := by
  simp only [awake, Cpu.mk.injEq, true_and]

/-- What a step comes to is not up to the dormant flags. -/
theorem result_step_awake (cpu : Cpu Ram) : cpu.awake.step.result = cpu.step.result := by
  rw [step_result_eq_outcome, step_result_eq_outcome]
  rfl

/-- Nor is what it costs. -/
theorem cost_awake (cpu : Cpu Ram) : cpu.awake.cost = cpu.cost := by
  have hnext : cpu.awake.next? = cpu.next? := rfl
  rw [cost, cost, hnext]
  cases cpu.next? with
  | none => rfl
  | some operation =>
    exact congrArg (fun taken => operation.cycles + if taken then 1 else 0)
      (operation.mnemonic.isTaken_awake cpu.registers.status)

/-- **Forgetting commutes with a step.** -/
theorem awake_step (h : cpu.step.result ≠ .ok .php) :
    cpu.awake.step.cpu.awake = cpu.step.cpu.awake := by
  cases hs : cpu.step.result with
  | error fault =>
    rw [step_cpu_of_error (Ram.truthful _) hs,
      step_cpu_of_error (Ram.truthful _) (cpu.result_step_awake.trans hs)]
    rfl
  | ok mnemonic =>
    obtain ⟨operation, rfl, hx⟩ := exists_executes hs
    obtain ⟨found, -, hx'⟩ := exists_executes (cpu.result_step_awake.trans hs)
    obtain rfl : operation = found := Option.some.inj (hx.next.symm.trans hx'.next)
    have heffect := Operation.awake_effect (fun hm => h (hs.trans (congrArg _ hm)))
      cpu.registers cpu.image
    have hregisters : cpu.awake.step.cpu.registers.awake = cpu.step.cpu.registers.awake := by
      rw [hx.registers, hx'.registers]
      exact congrArg Effect.registers heffect
    have hclock : cpu.awake.step.cpu.clock = cpu.step.cpu.clock := by
      rw [step_clock_of_ok hs, step_clock_of_ok (cpu.result_step_awake.trans hs), cost_awake]
      rfl
    have hmemory : cpu.awake.step.cpu.memory = cpu.step.cpu.memory := by
      have hwrites := congrArg Effect.writes heffect
      have hmade : Bus.writeAll cpu.memory (operation.effect cpu.registers cpu.image).awake.writes =
          (.ok (), cpu.awake.step.cpu.memory) := hwrites ▸ hx'.writeAll
      exact congrArg Prod.snd (hmade.symm.trans hx.writeAll)
    exact awake_eq_iff.mpr ⟨hregisters, hclock, hmemory⟩

/-- Processors that look the same come to look the same by a step, unless it pushes the flags. -/
theorem awake_step_congr (h : cpu.awake = other.awake) (hresult : cpu.step.result ≠ .ok .php) :
    cpu.step.cpu.awake = other.step.cpu.awake := by
  have hother : other.step.result = cpu.step.result := by
    rw [← other.result_step_awake, ← h, result_step_awake]
  rw [← awake_step hresult, h, awake_step (hother ▸ hresult)]

theorem awake_afterSteps_congr (h : cpu.awake = other.awake) {count : Nat}
    (hresults : ∀ j < count, cpu.resultAt j ≠ .ok .php) :
    (cpu.afterSteps count).awake = (other.afterSteps count).awake := by
  induction count with
  | zero => exact h
  | succ count ih =>
    rw [afterSteps_succ, afterSteps_succ]
    exact awake_step_congr (ih fun j hj => hresults j (Nat.lt_succ_of_lt hj))
      (hresults count (Nat.lt_succ_self count))

/-- The byte that the instruction at the program counter works on, if it works on one. -/
def operandByte? (cpu : Cpu Ram) : Option UInt8 :=
  cpu.next?.bind fun operation =>
    operation.mode.value? operation.mnemonic.operandUse cpu.registers cpu.image

/-- A step of an operation that loads its operand's byte lets the byte act on the registers. -/
theorem registers_step_of_load {mnemonic : Mnemonic} {action : Registers → UInt8 → Registers}
    (hfamily : mnemonic.family = .load action) (hs : cpu.step.result = .ok mnemonic) :
    ∃ byte pc, cpu.operandByte? = some byte ∧
      cpu.step.cpu.registers = action { cpu.registers with pc } byte := by
  obtain ⟨operation, rfl, hx⟩ := exists_executes hs
  obtain ⟨opcode, -, ho⟩ := exists_opcode_of_next? hx.next
  have hsuits := suits_operand (admits_of_operation? ho) cpu.registers cpu.image
  have hsome : (operation.mode.value? operation.mnemonic.family.operandUse cpu.registers
      cpu.image).isSome := by
    rw [hfamily] at hsuits ⊢
    exact hsuits
  obtain ⟨byte, hbyte⟩ := Option.isSome_iff_exists.mp hsome
  refine ⟨byte, cpu.registers.pc + UInt16.ofNat operation.size, ?_, ?_⟩
  · rw [operandByte?, hx.next, Option.bind_some, operandUse_eq_family]
    exact hbyte
  · rw [hx.registers, effect, operation.effect_of_load cpu.registers cpu.image hfamily hbyte]

/-- **The dormant flags decide nothing.** Two processors that differ at most in these flags give the
same results, faults included, and go on to differ at most in them, up to the first step that
executes `PHP`: all registers, the other flags, the clock and memory stay the same. An addition or a
subtraction is binary in any case. -/
theorem dormant_flags (h : cpu.awake = other.awake) {count : Nat}
    (hresults : ∀ j < count, cpu.resultAt j ≠ .ok .php) :
    (∀ j ≤ count, cpu.resultAt j = other.resultAt j ∧
      (cpu.afterSteps j).awake = (other.afterSteps j).awake) ∧
    ∀ j, let before := (cpu.afterSteps j).registers
      let after := (cpu.afterSteps (j + 1)).registers
      (cpu.resultAt j = .ok .adc → ∃ byte, (cpu.afterSteps j).operandByte? = some byte ∧
        after.a.toNat + 0x100 * after.status.carry.toNat =
          before.a.toNat + byte.toNat + before.status.carry.toNat) ∧
      (cpu.resultAt j = .ok .sbc → ∃ byte, (cpu.afterSteps j).operandByte? = some byte ∧
        after.a.toNat + byte.toNat + 1 + 0x100 * after.status.carry.toNat =
          before.a.toNat + before.status.carry.toNat + 0x100) := by
  refine ⟨fun j hj => ?_, fun j => ⟨fun hadc => ?_, fun hsbc => ?_⟩⟩
  · have hawake := awake_afterSteps_congr h fun i hi => hresults i (Nat.lt_of_lt_of_le hi hj)
    refine ⟨?_, hawake⟩
    rw [resultAt, ← result_step_awake, hawake, result_step_awake]
    rfl
  · obtain ⟨byte, pc, hbyte, hregisters⟩ := registers_step_of_load rfl hadc
    refine ⟨byte, hbyte, ?_⟩
    rw [afterSteps_succ, hregisters]
    exact Registers.addWithCarry_sum _ byte
  · obtain ⟨byte, pc, hbyte, hregisters⟩ := registers_step_of_load rfl hsbc
    refine ⟨byte, hbyte, ?_⟩
    rw [afterSteps_succ, hregisters]
    exact Registers.subtractWithBorrow_sum _ byte

/-- An addition of two bytes that could be read as decimal, and a store of the sum. -/
def adding (decimal : Bool) : Cpu Ram where
  registers := ⟨0x19, 0, 0, 0xFF, 0, { Status.powerOn with decimal, interruptDisable := decimal }⟩
  clock := .zero
  verbose := decimal
  memory := ((((Ram.zeros 0x0020 (by decide) (by decide)).put 0 0x69).put 1 0x28).put 2 0x85).put 3
    0x10

/-- With the flag set or not, the sum is binary, and it is what is stored. -/
theorem dormant_flags_adding :
    (adding false).awake = (adding true).awake ∧
    (∀ j < 2, (adding false).resultAt j ≠ .ok .php) ∧
    (adding true).resultAt 1 = .ok .sta ∧
    ((adding true).afterSteps 2).memory.read 0x0010 = .ok 0x41 ∧
    ((adding false).afterSteps 1).registers.a.toNat +
      0x100 * ((adding false).afterSteps 1).registers.status.carry.toNat = 0x19 + 0x28 := by
  have hawake : (adding false).awake = (adding true).awake := rfl
  have hresults : ∀ j < 2, (adding false).resultAt j ≠ .ok .php := by decide +kernel
  have hadd : (adding false).resultAt 0 = .ok .adc := by decide +kernel
  have hstore : (adding false).resultAt 1 = .ok .sta := by decide +kernel
  have hstored : ((adding false).afterSteps 2).memory.read 0x0010 = .ok 0x41 := by decide +kernel
  have hoperand : (adding false).operandByte? = some 0x28 := by decide +kernel
  obtain ⟨hsame, hsums⟩ := dormant_flags hawake hresults
  obtain ⟨-, -, hmemory⟩ := awake_eq_iff.mp (hsame 2 (by decide)).2
  obtain ⟨byte, hbyte, hsum⟩ := (hsums 0).1 hadd
  cases hoperand.symm.trans hbyte
  exact ⟨hawake, hresults, (hsame 1 (by decide)).1.symm.trans hstore, hmemory ▸ hstored, hsum⟩

end Cpu

end Nmos6502
