import Mathlib.Algebra.Ring.Nat
import Mathlib.Tactic.Common
import Nmos6502.Ram
import Nmos6502.Session.Processor
import Nmos6502.Proofs.Run
import Nmos6502.Proofs.Step

/-!
# Cycles

The opcode matrix gives every operation its cycles, and a branch that is taken adds one. The clock
does not know of this: it counts the accesses of an instruction and its idle cycles, and makes up
what is missing to the matrix. The two agree because no operation makes more accesses than it has
cycles, and a branch makes exactly as many. How many accesses an operation makes is a number that
depends on nothing but its family and its mode, so this is checked entry by entry.

From there on only costs are added. Every use of a processor has a list of costs, one for each
step in it that ends well, and the clock goes on by their sum, or to its end.

## Main definitions

* `Mnemonic.isTaken`, `Mnemonic.isBranch` — branches, and whether they are taken
* `Operation.cost` — what an operation should cost
* `Operation.accessCount` — how many accesses it makes
* `Use`, `Use.costs` — the uses of a processor, and what they cost

## Main results

* `Operation.length_accesses_journal` — the accesses of an instruction are counted right
* `Cpu.step_clock` — the clock after a step
* `Cpu.clock_useAll` — the clock after any uses
* `Cpu.cycles_accounted` — everything about the clock
-/

namespace Nmos6502

/-! ## What an operation should cost -/

/-- Whether a branch is taken. What is no branch is never taken. -/
def Mnemonic.isTaken (mnemonic : Mnemonic) (status : Status) : Bool :=
  match mnemonic with
  | .bcc => !status.carry
  | .bcs => status.carry
  | .bne => !status.zero
  | .beq => status.zero
  | .bpl => !status.negative
  | .bmi => status.negative
  | .bvc => !status.overflow
  | .bvs => status.overflow
  | _ => false

namespace Mnemonic

variable {mnemonic : Mnemonic}

/-- Whether an operation is a branch. -/
def isBranch : Mnemonic → Bool
  | .bcc | .bcs | .bne | .beq | .bpl | .bmi | .bvc | .bvs => true
  | _ => false

theorem family_of_isBranch (h : mnemonic.isBranch = true) :
    mnemonic.family = .branch mnemonic.isTaken := by
  cases mnemonic with
  | bcc | bcs | bne | beq | bpl | bmi | bvc | bvs => rfl
  | _ => cases h

theorem isBranch_of_isTaken {status : Status} (h : mnemonic.isTaken status = true) :
    mnemonic.isBranch = true := by
  cases mnemonic with
  | bcc | bcs | bne | beq | bpl | bmi | bvc | bvs => rfl
  | _ => cases h

end Mnemonic

/-- The cycles that an operation should take. -/
def Operation.cost (operation : Operation) (status : Status) : Nat :=
  operation.cycles + if operation.mnemonic.isTaken status then 1 else 0

/-! ## Accesses -/

/-- How many bytes a mode reads to find its address. -/
def Mode.pointerLength : Mode → Nat
  | .indirect | .indexedIndirect | .indirectIndexed => 2
  | _ => 0

/-- How many accesses the operations of a family make once the operand is found. -/
def Family.accessCount (family : Family) (mode : Mode) : Nat :=
  match family with
  | .load _ | .internal _ | .branch _ | .jump => 0
  | .store _ | .push _ | .pull _ => 1
  | .modify _ => if mode = .accumulator then 0 else 1
  | .call | .comeBack => 2
  | .resume => 3

/-- How many accesses an instruction makes: to the opcode, to the operand, to a pointer, to the
byte to work on, and what its operation needs. -/
def Operation.accessCount (operation : Operation) : Nat :=
  let ⟨mnemonic, mode, _⟩ := operation
  let target := if mode.isInMemory && mnemonic.family.operandUse.reads then 1 else 0
  1 + mode.operandLength + mode.pointerLength + target + mnemonic.family.accessCount mode

theorem Mode.length_reads (mode : Mode) (use : OperandUse) (registers : Registers)
    (image : Image) :
    (mode.reads use registers image).length =
      mode.operandLength + mode.pointerLength +
        if mode.isInMemory && use.reads then 1 else 0 := by
  have htarget : (mode.targetAddresses use registers image).length =
      if mode.isInMemory && use.reads then 1 else 0 := by
    unfold targetAddresses
    split
    next h =>
      obtain ⟨address, ha⟩ :=
        mode.exists_effectiveAddress registers image ((Bool.and_eq_true _ _).mp h).1
      rw [ha]
      rfl
    · rfl
  rw [reads, List.length_append, List.length_append, htarget]
  cases mode <;> rfl

theorem Family.length_effect (family : Family) (operand : Operand) (registers : Registers)
    (image : Image) :
    (family.effect operand registers image).pulls.length +
        (family.effect operand registers image).writes.length =
      family.accessCount operand.mode := by
  cases family with
  | modify action =>
    simp only [effect, accessCount]
    split <;> rfl
  | branch condition =>
    simp only [effect]
    split <;> rfl
  | load | store | internal | jump | push | pull | call | comeBack | resume => rfl

theorem Family.idles_branch (condition : Status → Bool) (operand : Operand)
    (registers : Registers) (image : Image) :
    (Family.effect (.branch condition) operand registers image).idles =
      if condition registers.status then 1 else 0 := by
  rw [effect]
  cases condition registers.status <;> rfl

theorem Family.idles_effect (mnemonic : Mnemonic) (operand : Operand) (registers : Registers)
    (image : Image) :
    (mnemonic.family.effect operand registers image).idles =
      if mnemonic.isTaken registers.status then 1 else 0 := by
  cases mnemonic with
  | bcc | bcs | bne | beq | bpl | bmi | bvc | bvs => exact idles_branch _ operand registers image
  | asl | lsr | rol | ror | inc | dec =>
    simp only [effect, Mnemonic.family]
    split <;> rfl
  | _ => rfl

namespace Operation

variable (operation : Operation) (registers : Registers) (image : Image)

/-- **Accesses.** How many there are depends on the operation alone. -/
theorem length_accesses_journal :
    (operation.journal registers image).accesses.length = operation.accessCount := by
  have hreads := operation.mode.length_reads operation.mnemonic.family.operandUse registers image
  have heffect : (operation.effect registers image).pulls.length +
      (operation.effect registers image).writes.length =
        operation.mnemonic.family.accessCount operation.mode :=
    Family.length_effect ..
  rw [journal, Journal.noteEffect, Journal.accesses_noteIdles, Journal.length_accesses_noteWrites,
    Journal.length_accesses_noteReads, Journal.length_accesses_noteReads, reads, List.length_cons,
    hreads, accessCount, ← heffect, Journal.empty, List.length_nil]
  omega

theorem idles_journal : (operation.journal registers image).idles =
    if operation.mnemonic.isTaken registers.status then 1 else 0 := by
  have heffect : (operation.effect registers image).idles =
      if operation.mnemonic.isTaken registers.status then 1 else 0 :=
    Family.idles_effect ..
  rw [journal, Journal.noteEffect, Journal.idles_noteIdles, Journal.idles_noteWrites,
    Journal.idles_noteReads, Journal.idles_noteReads, heffect, Journal.empty, Nat.zero_add]

variable {operation} {opcode : UInt8}

/-- No operation makes more accesses than it has cycles, and a branch makes just as many. -/
theorem accessCount_le (ho : operation? opcode = some operation) :
    operation.accessCount ≤ operation.cycles ∧
      (operation.mode = .relative → operation.accessCount = operation.cycles) :=
  forall_operation (p := fun operation => operation.accessCount ≤ operation.cycles ∧
    (operation.mode = .relative → operation.accessCount = operation.cycles))
    (by decide +kernel) ho

/-- Branches are relative. -/
theorem mode_of_isBranch (ho : operation? opcode = some operation)
    (h : operation.mnemonic.isBranch = true) : operation.mode = .relative := by
  have hadmits := admits_of_operation? ho
  rw [Mnemonic.family_of_isBranch h] at hadmits
  exact of_decide_eq_true hadmits

/-- Only what is relative is taken. -/
theorem mode_of_isTaken (ho : operation? opcode = some operation) {status : Status}
    (ht : operation.mnemonic.isTaken status = true) : operation.mode = .relative :=
  mode_of_isBranch ho (Mnemonic.isBranch_of_isTaken ht)

/-- So what is not relative costs the cycles of the matrix. -/
theorem cost_of_mode (ho : operation? opcode = some operation) (hmode : operation.mode ≠ .relative)
    (status : Status) : operation.cost status = operation.cycles := by
  have huntaken : ¬ operation.mnemonic.isTaken status = true :=
    fun htaken => hmode (mode_of_isTaken ho htaken)
  rw [cost, if_neg huntaken, Nat.add_zero]

/-- **Cycles.** What the accesses and the idle cycles lack is made up, and nothing is swallowed. -/
theorem max_ticks_journal (ho : operation? opcode = some operation) :
    max (operation.journal registers image).ticks operation.cycles =
      operation.cost registers.status := by
  obtain ⟨hle, heq⟩ := accessCount_le ho
  rw [Journal.ticks, length_accesses_journal, idles_journal, cost]
  split
  next ht => rw [heq (mode_of_isTaken ho ht), Nat.max_eq_left (Nat.le_succ _)]
  · exact Nat.max_eq_right hle

end Operation

/-! ## The clock -/

namespace Clock

@[ext] theorem ext {clock other : Clock} (h : clock.cycles = other.cycles) : clock = other := by
  cases clock
  cases other
  cases h
  rfl

@[simp] theorem tick_zero (clock : Clock) : clock.tick 0 = clock :=
  ext (Nat.min_eq_right clock.cycles_le)

/-- The clock does not care how its ticks are bundled. -/
theorem tick_tick (clock : Clock) (first second : Nat) :
    (clock.tick first).tick second = clock.tick (first + second) := by
  apply ext
  simp only [cycles_tick]
  omega

end Clock

namespace Cpu

variable {M : Type} [Bus M] {cpu : Cpu M}

/-- What the operation at the program counter should cost. -/
def cost (cpu : Cpu M) : Nat :=
  match cpu.next? with
  | some operation => operation.cost cpu.registers.status
  | none => 0

theorem step_clock_of_ok {mnemonic : Mnemonic} (h : cpu.step.result = .ok mnemonic) :
    cpu.step.cpu.clock = cpu.clock.tick cpu.cost := by
  obtain ⟨operation, -, hx⟩ := exists_executes h
  obtain ⟨opcode, -, ho⟩ := exists_opcode_of_next? hx.next
  rw [hx.clock, Operation.max_ticks_journal _ _ ho, cost, hx.next]

theorem step_clock_of_error {fault : Fault} (h : cpu.step.result = .error fault) :
    cpu.step.cpu.clock = cpu.clock := by
  rcases step_error_cases h with ⟨-, hcpu⟩ | ⟨executed, cause, memory, -, -, -, hcpu⟩
  · rw [hcpu]
  · rw [hcpu]

/-- The cost of a step, if it ends well. -/
def stepCosts (cpu : Cpu M) : List Nat :=
  match cpu.step.result with
  | .ok _ => [cpu.cost]
  | .error _ => []

/-- **The clock after a step.** -/
theorem step_clock (cpu : Cpu M) : cpu.step.cpu.clock = cpu.clock.tick cpu.stepCosts.sum := by
  unfold stepCosts
  cases h : cpu.step.result with
  | ok mnemonic => exact step_clock_of_ok h
  | error fault => rw [step_clock_of_error h, List.sum_nil, Clock.tick_zero]

/-- The costs of the steps of a run, if it has an end. -/
def runCosts (cpu : Cpu M) (limit : RunLimit) : List Nat :=
  match cpu.run limit with
  | some _ => (runStates limit cpu.clock.cycles ample 0 cpu).map cost
  | none => []

/-- **The clock after a run.** Each turn adds the cost of its step. -/
theorem runFrom_clock {limit : RunLimit} {start fuel executed : Nat} {reported : List Event}
    {report : RunReport M} (h : runFrom limit start fuel executed reported cpu = some report) :
    report.cpu.clock =
      cpu.clock.tick ((runStates limit start fuel executed cpu).map cost).sum := by
  induction fuel generalizing executed reported cpu with
  | zero =>
    rcases runFrom_cases h with ⟨-, -, hcpu⟩ | ⟨left, hfuel, -⟩
    · rw [hcpu, runStates, List.map_nil, List.sum_nil, Clock.tick_zero]
    · cases hfuel
  | succ fuel ih =>
    rcases runFrom_cases h with ⟨hlimit, -, hcpu⟩ | ⟨left, hfuel, hlimit, hturn⟩
    · rw [hcpu, runStates, if_pos hlimit, List.map_nil, List.sum_nil, Clock.tick_zero]
    cases hfuel
    rw [runStates, hlimit, if_neg Bool.false_ne_true]
    rcases hturn with ⟨fault, hs, -, hcpu⟩ | ⟨hs, hcpu, -⟩ | ⟨mnemonic, later, hs, hne, hrest⟩
    · rw [hcpu, step_clock_of_error hs, hs, List.map_nil, List.sum_nil, Clock.tick_zero]
    · rw [hcpu, step_clock_of_ok hs, hs]
      simp
    · rw [ih hrest, step_clock_of_ok hs, hs, Clock.tick_tick]
      simp [hne]

theorem runReply_clock (limit : RunLimit) (answer : RunSummary → Answer) :
    (cpu.runReply limit answer).state.clock = cpu.clock.tick (cpu.runCosts limit).sum := by
  unfold runReply runCosts
  cases h : cpu.run limit with
  | none => rw [List.sum_nil, Clock.tick_zero]
  | some report =>
    have hclock := runFrom_clock h
    obtain ⟨result, after, events⟩ := report
    cases result <;> exact hclock

end Cpu

/-! ## Uses -/

/-- A use of a processor. -/
inductive Use (M : Type) where
  /-- Something is asked of the processor. -/
  | ask (request : CpuRequest)
  /-- Something is done to its memory, whatever it be. -/
  | access (change : M → M)

namespace Use

variable {M : Type} [Bus M]

/-- The processor after a use. -/
def after (use : Use M) (cpu : Cpu M) : Cpu M :=
  match use with
  | .ask request => (request.perform cpu).state
  | .access change => { cpu with memory := change cpu.memory }

/-- The costs of the steps of a use that end well. -/
def costs (use : Use M) (cpu : Cpu M) : List Nat :=
  match use with
  | .ask .step => cpu.stepCosts
  | .ask (.run limit) => cpu.runCosts limit
  | .ask (.runForCycles budget) => cpu.runCosts (.cycles budget)
  | _ => []

/-- A use that executes nothing keeps the clock. -/
theorem clock_after (use : Use M) (cpu : Cpu M) :
    (use.after cpu).clock = cpu.clock.tick (use.costs cpu).sum := by
  cases use with
  | access change => exact (Clock.tick_zero _).symm
  | ask request =>
    cases request with
    | step =>
      have hclock := cpu.step_clock
      simp only [after, costs, CpuRequest.perform]
      rcases hs : cpu.step with ⟨fault | mnemonic, later, events⟩ <;> rw [hs] at hclock <;>
        exact hclock
    | run limit | runForCycles budget => exact Cpu.runReply_clock ..
    | reset =>
      have hclock : cpu.reset.2.clock = cpu.clock := by
        unfold Cpu.reset
        split <;> rfl
      simp only [after, costs, CpuRequest.perform]
      rcases hr : cpu.reset with ⟨fault | done, later⟩ <;> rw [hr] at hclock <;>
        exact hclock.trans (Clock.tick_zero _).symm
    | peek =>
      simp only [after, costs, CpuRequest.perform]
      split <;> exact (Clock.tick_zero _).symm
    | _ => exact (Clock.tick_zero _).symm

end Use

namespace Cpu

variable {M : Type} [Bus M]

/-- The processor after some uses, one after the other. -/
def useAll (cpu : Cpu M) : List (Use M) → Cpu M
  | [] => cpu
  | use :: uses => (use.after cpu).useAll uses

/-- The costs of all steps of some uses that end well. -/
def useCosts (cpu : Cpu M) : List (Use M) → List Nat
  | [] => []
  | use :: uses => use.costs cpu ++ (use.after cpu).useCosts uses

theorem useAll_append (cpu : Cpu M) (uses more : List (Use M)) :
    cpu.useAll (uses ++ more) = (cpu.useAll uses).useAll more := by
  induction uses generalizing cpu with
  | nil => rfl
  | cons use uses ih => exact ih _

/-- **The clock after any uses.** -/
theorem clock_useAll (cpu : Cpu M) (uses : List (Use M)) :
    (cpu.useAll uses).clock = cpu.clock.tick (cpu.useCosts uses).sum := by
  induction uses generalizing cpu with
  | nil => exact (Clock.tick_zero _).symm
  | cons use uses ih =>
    rw [useAll, ih, use.clock_after, Clock.tick_tick, useCosts, List.sum_append]

/-- **Cycles are accounted for.** A step that ends well takes the cycles of the matrix, and one more
if it takes a branch, as long as the clock can count them; it makes no more accesses than the
matrix has cycles. Along any uses the clock never goes back, and it goes on by the sum of the costs
of all steps that end well. -/
theorem cycles_accounted :
    (∀ (cpu : Cpu M) (mnemonic : Mnemonic), cpu.step.result = .ok mnemonic →
      ∃ opcode operation, Bus.read cpu.memory cpu.registers.pc = .ok opcode ∧
        operation? opcode = some operation ∧ operation.mnemonic = mnemonic ∧
        cpu.step.cpu.clock.cycles =
          min maxCycles (cpu.clock.cycles +
            (operation.cycles + if mnemonic.isTaken cpu.registers.status then 1 else 0)) ∧
        cpu.rehearse.2.accesses.length ≤ operation.cycles) ∧
    ∀ (cpu : Cpu M) (uses more : List (Use M)),
      (cpu.useAll uses).clock.cycles =
        min maxCycles (cpu.clock.cycles + (cpu.useCosts uses).sum) ∧
      (cpu.useAll uses).clock.cycles ≤ (cpu.useAll (uses ++ more)).clock.cycles := by
  refine ⟨fun cpu mnemonic h => ?_, fun cpu uses more => ⟨?_, ?_⟩⟩
  · obtain ⟨operation, rfl, hx⟩ := exists_executes h
    obtain ⟨opcode, hread, ho⟩ := exists_opcode_of_next? hx.next
    refine ⟨opcode, operation, hread, ho, rfl, ?_, ?_⟩
    · rw [hx.clock, Operation.max_ticks_journal _ _ ho]
      rfl
    · rw [hx.journal, Operation.length_accesses_journal]
      exact (Operation.accessCount_le ho).1
  · rw [clock_useAll, Clock.cycles_tick]
  · rw [useAll_append, clock_useAll _ more]
    exact Clock.le_cycles_tick _ _

/-- A branch that is taken to the instruction after it, where memory ends. -/
def branching : Cpu Ram where
  registers := ⟨0, 0, 0, 0xFF, 0, .powerOn⟩
  clock := .zero
  verbose := false
  memory := (Ram.zeros 2 (by decide) (by decide)).put 0 0xD0

/-- The branch takes three cycles, and the step after it fails and takes none. -/
theorem cycles_accounted_branching :
    branching.step.cpu.clock.cycles = 3 ∧
    branching.rehearse.2.accesses.length ≤ 2 ∧
    (branching.useAll [.ask .step, .ask .step]).clock.cycles = 3 := by
  obtain ⟨hstep, huses⟩ := cycles_accounted (M := Ram)
  obtain ⟨opcode, operation, hread, ho, -, hclock, haccesses⟩ :=
    hstep branching .bne (by decide +kernel)
  have hopcode : Bus.read branching.memory branching.registers.pc = .ok 0xD0 := by decide +kernel
  cases Except.ok.inj (hread.symm.trans hopcode)
  have hbne : operation? 0xD0 = some ⟨.bne, .relative, 2⟩ := by decide +kernel
  cases Option.some.inj (ho.symm.trans hbne)
  obtain ⟨hsession, -⟩ := huses branching [.ask .step, .ask .step] []
  have hcosts : (branching.useCosts [.ask .step, .ask .step]).sum = 3 := by decide +kernel
  rw [hcosts] at hsession
  exact ⟨hclock, haccesses, hsession⟩

end Cpu

end Nmos6502
