import Mathlib.Tactic.Common
import Nmos6502.Proofs.Cycles

/-!
# A run is the step iterated

The steps of a run are numbered from zero. After so many steps the processor is `Cpu.afterSteps`,
and `Cpu.spends` says whether the limit is used up there. A run is then described without a loop:
it goes on as long as the limit is not used up and the step ends well and is no break, and the
first number where one of these fails says how the run ends.

The limit is looked at before the step, so the limit counts before a break or a fault. A break
counts as executed, and so the summary of a run that it ends has one instruction more than there
were turns that went on.

Runs have fuel. Statements hold for any amount of it, and where the fuel is not enough, that is
described as well, so nothing that a run can do is left out. `Cpu.run` is the run with ample fuel.

## Main definitions

* `Cpu.afterSteps`, `Cpu.resultAt`, `Cpu.spends` — the processor, the result and the limit along
  the iterated step
* `Cpu.GoesOn`, `Cpu.EndsWith` — what one turn of a run does
* `Cpu.Completed`, `Cpu.Aborted` — what a run did, in terms of the iterated step

## Main results

* `Cpu.exists_turns` — a run goes on up to the first turn that ends it
* `Cpu.runFrom_eq_none_iff` — when the fuel is not enough
* `Cpu.run_iterates_step` — everything about a run
-/

namespace Nmos6502.Cpu

variable {M : Type} [Bus M]

/-! ## The iterated step -/

/-- The processor after so many steps, whatever came of them. -/
def afterSteps (cpu : Cpu M) : (count : Nat) → Cpu M
  | 0 => cpu
  | count + 1 => cpu.step.cpu.afterSteps count

/-- What came of the step that follows so many steps. -/
def resultAt (cpu : Cpu M) (count : Nat) : Except Fault Mnemonic :=
  (cpu.afterSteps count).step.result

/-- Whether the limit of a run is used up after so many steps. -/
def spends (cpu : Cpu M) (limit : RunLimit) (count : Nat) : Bool :=
  limit.isUsedUp count ((cpu.afterSteps count).clock.cycles - cpu.clock.cycles)

theorem afterSteps_succ (cpu : Cpu M) (count : Nat) :
    cpu.afterSteps (count + 1) = (cpu.afterSteps count).step.cpu := by
  induction count generalizing cpu with
  | zero => rfl
  | succ count ih => exact ih cpu.step.cpu

/-- Steps never turn the clock back. -/
theorem cycles_le_afterSteps (cpu : Cpu M) (count : Nat) :
    cpu.clock.cycles ≤ (cpu.afterSteps count).clock.cycles := by
  induction count with
  | zero => exact Nat.le_refl _
  | succ count ih =>
    rw [afterSteps_succ, step_clock]
    exact Nat.le_trans ih (Clock.le_cycles_tick _ _)

/-! ## One turn -/

section Turns

variable (limit : RunLimit) (start executed : Nat)

/-- A turn of a run after which the run goes on. The parameters are those of `runFrom`. -/
def GoesOn (cpu : Cpu M) : Prop :=
  limit.isUsedUp executed (cpu.clock.cycles - start) = false ∧
    ∃ mnemonic, mnemonic ≠ .brk ∧ cpu.step.result = .ok mnemonic

/-- A turn with which a run ends: the result of the run and the processor after it. -/
inductive EndsWith (cpu : Cpu M) : Except Fault RunSummary → Cpu M → Prop
  /-- The limit is used up. -/
  | limit (spent : limit.isUsedUp executed (cpu.clock.cycles - start) = true) :
    EndsWith cpu (.ok ⟨executed, cpu.clock.cycles - start, .limitReached⟩) cpu
  /-- A break is executed. -/
  | break (unspent : limit.isUsedUp executed (cpu.clock.cycles - start) = false)
    (step : cpu.step.result = .ok .brk) :
    EndsWith cpu (.ok ⟨executed + 1, cpu.step.cpu.clock.cycles - start, .breakInstruction⟩)
      cpu.step.cpu
  /-- The step fails. -/
  | fault (unspent : limit.isUsedUp executed (cpu.clock.cycles - start) = false) {fault : Fault}
    (step : cpu.step.result = .error fault) : EndsWith cpu (.error fault) cpu.step.cpu

end Turns

variable {limit : RunLimit} {start fuel executed : Nat} {reported : List Event} {cpu : Cpu M}
  {report : RunReport M}

theorem runFrom_succ_of_goesOn (h : GoesOn limit start executed cpu) :
    runFrom limit start (fuel + 1) executed reported cpu =
      runFrom limit start fuel (executed + 1) (cpu.step.events.reverse ++ reported)
        cpu.step.cpu := by
  obtain ⟨hlimit, mnemonic, hne, hs⟩ := h
  rw [runFrom.eq_def]
  rcases hstep : cpu.step with ⟨result, after, events⟩
  rw [hstep] at hs
  cases hs
  simp only [hlimit, hstep, if_neg hne]
  rfl

theorem runFrom_zero (h : limit.isUsedUp executed (cpu.clock.cycles - start) = false) :
    runFrom limit start 0 executed reported cpu = none := by
  rw [runFrom.eq_def]
  simp only [h]
  rfl

theorem runFrom_of_spent (h : limit.isUsedUp executed (cpu.clock.cycles - start) = true) :
    runFrom limit start fuel executed reported cpu =
      some ⟨.ok ⟨executed, cpu.clock.cycles - start, .limitReached⟩, cpu, reported.reverse⟩ := by
  rw [runFrom.eq_def]
  simp only [h, if_true]

/-- With any fuel left, a turn that ends a run is the end of it. -/
theorem exists_report_of_endsWith {result : Except Fault RunSummary} {after : Cpu M}
    (h : EndsWith limit start executed cpu result after) :
    ∃ events, runFrom limit start (fuel + 1) executed reported cpu =
      some ⟨result, after, events⟩ := by
  cases h with
  | limit spent => exact ⟨_, runFrom_of_spent spent⟩
  | «break» unspent step =>
    rw [runFrom.eq_def]
    rcases hs : cpu.step with ⟨result, after, events⟩
    rw [hs] at step
    cases step
    simp only [unspent, hs]
    exact ⟨_, rfl⟩
  | fault unspent step =>
    rw [runFrom.eq_def]
    rcases hs : cpu.step with ⟨result, after, events⟩
    rw [hs] at step
    cases step
    simp only [unspent, hs]
    exact ⟨_, rfl⟩

/-- A turn goes on, or the run ends with it. -/
theorem goesOn_or_endsWith (limit : RunLimit) (start executed : Nat) (cpu : Cpu M) :
    GoesOn limit start executed cpu ∨
      ∃ result after, EndsWith limit start executed cpu result after := by
  cases hlimit : limit.isUsedUp executed (cpu.clock.cycles - start) with
  | true => exact .inr ⟨_, _, .limit hlimit⟩
  | false =>
    cases hs : cpu.step.result with
    | error fault => exact .inr ⟨_, _, .fault hlimit hs⟩
    | ok mnemonic =>
      by_cases hbrk : mnemonic = .brk
      · exact .inr ⟨_, _, .break hlimit (hbrk ▸ hs)⟩
      · exact .inl ⟨hlimit, mnemonic, hbrk, hs⟩

theorem GoesOn.not_endsWith {result : Except Fault RunSummary} {after : Cpu M}
    (h : GoesOn limit start executed cpu) : ¬ EndsWith limit start executed cpu result after := by
  obtain ⟨hlimit, mnemonic, hne, hs⟩ := h
  intro hend
  cases hend with
  | limit spent =>
    rw [hlimit] at spent
    cases spent
  | «break» unspent step =>
    rw [hs] at step
    exact hne (Except.ok.inj step)
  | fault unspent step =>
    rw [hs] at step
    cases step

/-- **A run** goes on up to the first turn that ends it. Only a limit can end it when the fuel is
used up. -/
theorem exists_turns (h : runFrom limit start fuel executed reported cpu = some report) :
    ∃ turns ≤ fuel, (∀ j < turns, GoesOn limit start (executed + j) (cpu.afterSteps j)) ∧
      EndsWith limit start (executed + turns) (cpu.afterSteps turns) report.result report.cpu ∧
      (turns = fuel →
        limit.isUsedUp (executed + turns)
          ((cpu.afterSteps turns).clock.cycles - start) = true) := by
  induction fuel generalizing executed reported cpu with
  | zero =>
    rcases runFrom_cases h with ⟨hlimit, hresult, hcpu⟩ | ⟨left, hfuel, -⟩
    · refine ⟨0, Nat.le_refl _, fun j hj => absurd hj (Nat.not_lt_zero j), ?_, fun _ => hlimit⟩
      rw [hresult, hcpu]
      exact .limit hlimit
    · cases hfuel
  | succ fuel ih =>
    rcases runFrom_cases h with ⟨hlimit, hresult, hcpu⟩ | ⟨left, hfuel, hlimit, hturn⟩
    · refine ⟨0, Nat.zero_le _, fun j hj => absurd hj (Nat.not_lt_zero j), ?_, fun _ => hlimit⟩
      rw [hresult, hcpu]
      exact .limit hlimit
    cases hfuel
    rcases hturn with ⟨fault, hs, hresult, hcpu⟩ | ⟨hs, hcpu, hresult⟩ |
      ⟨mnemonic, later, hs, hne, hrest⟩
    · refine ⟨0, Nat.zero_le _, fun j hj => absurd hj (Nat.not_lt_zero j), ?_,
        fun hfuel => by cases hfuel⟩
      rw [hresult, hcpu]
      exact .fault hlimit hs
    · refine ⟨0, Nat.zero_le _, fun j hj => absurd hj (Nat.not_lt_zero j), ?_,
        fun hfuel => by cases hfuel⟩
      rw [hresult, hcpu]
      exact .break hlimit hs
    · obtain ⟨turns, hle, hgo, hend, hspent⟩ := ih hrest
      rw [Nat.add_right_comm] at hend hspent
      refine ⟨turns + 1, Nat.succ_le_succ hle, fun j hj => ?_, hend,
        fun he => hspent (Nat.succ_injective he)⟩
      cases j with
      | zero => exact ⟨hlimit, mnemonic, hne, hs⟩
      | succ j =>
        have hlater := hgo j (Nat.lt_of_succ_lt_succ hj)
        rw [Nat.add_right_comm] at hlater
        exact hlater

/-- **The fuel is not enough** when all turns that it pays for go on, and the limit is not used up
after them. -/
theorem runFrom_eq_none_iff :
    runFrom limit start fuel executed reported cpu = none ↔
      (∀ j < fuel, GoesOn limit start (executed + j) (cpu.afterSteps j)) ∧
        limit.isUsedUp (executed + fuel) ((cpu.afterSteps fuel).clock.cycles - start) = false := by
  induction fuel generalizing executed reported cpu with
  | zero =>
    refine ⟨fun h => ⟨fun j hj => absurd hj (Nat.not_lt_zero j), ?_⟩, fun h => runFrom_zero h.2⟩
    by_contra hspent
    rw [runFrom_of_spent (Bool.not_eq_false _ ▸ hspent)] at h
    cases h
  | succ fuel ih =>
    rcases goesOn_or_endsWith limit start executed cpu with hgo | ⟨result, after, hend⟩
    · rw [runFrom_succ_of_goesOn hgo, ih, Nat.add_right_comm]
      refine and_congr_left fun _ => ⟨fun h j hj => ?_, fun h j hj => ?_⟩
      · cases j with
        | zero => exact hgo
        | succ j =>
          have hlater := h j (Nat.lt_of_succ_lt_succ hj)
          rwa [Nat.add_right_comm] at hlater
      · rw [Nat.add_right_comm]
        exact h (j + 1) (Nat.succ_lt_succ hj)
    · obtain ⟨events, hreport⟩ := exists_report_of_endsWith hend
      refine ⟨fun h => ?_, fun h => ?_⟩
      · rw [hreport] at h
        cases h
      · have hgo : GoesOn limit start executed cpu := h.1 0 (Nat.zero_lt_succ fuel)
        exact absurd hend hgo.not_endsWith

/-! ## The whole run -/

/-- A run ended well. This is all that its summary says of the iterated step. -/
structure Completed (limit : RunLimit) (cpu after : Cpu M) (summary : RunSummary) : Prop where
  /-- All steps of the run end well. -/
  steps : ∀ j < summary.instructions, ∃ mnemonic, cpu.resultAt j = .ok mnemonic
  /-- The run leaves the processor that these steps leave. -/
  after_eq : after = cpu.afterSteps summary.instructions
  /-- The clock goes on by the cycles of the summary. -/
  cycles : after.clock.cycles = cpu.clock.cycles + summary.cycles
  /-- A run ends with a break if the last step executes one and no earlier step does, and the limit
  was not used up before any of these steps. -/
  break_iff : summary.stop = .breakInstruction ↔
    (∃ last, summary.instructions = last + 1 ∧ cpu.resultAt last = .ok .brk ∧
      ∀ j < last, cpu.resultAt j ≠ .ok .brk) ∧
    ∀ j < summary.instructions, cpu.spends limit j = false
  /-- A run ends with its limit if no step executes a break, and the limit is used up after them
  and was not before. -/
  limit_iff : summary.stop = .limitReached ↔
    (∀ j < summary.instructions, cpu.resultAt j ≠ .ok .brk) ∧
    cpu.spends limit summary.instructions = true ∧
    ∀ j < summary.instructions, cpu.spends limit j = false

/-- A run ended with a fault. -/
structure Aborted (limit : RunLimit) (cpu after : Cpu M) (fault : Fault) (count : Nat) : Prop where
  /-- The steps before the last end well and execute no break. -/
  steps : ∀ j < count, ∃ mnemonic, mnemonic ≠ .brk ∧ cpu.resultAt j = .ok mnemonic
  /-- The limit was not used up before any step, the last included. -/
  unspent : ∀ j ≤ count, cpu.spends limit j = false
  /-- The last step fails. -/
  fault : cpu.resultAt count = .error fault
  /-- Registers are as the steps before it left them. -/
  registers : after.registers = (cpu.afterSteps count).registers
  /-- So is the clock. -/
  clock : after.clock = (cpu.afterSteps count).clock

/-- Turns that go on are steps that end well within the limit. -/
theorem goesOn_iff {count : Nat} :
    (∀ j < count, GoesOn limit cpu.clock.cycles (0 + j) (cpu.afterSteps j)) ↔
      (∀ j < count, ∃ mnemonic, mnemonic ≠ .brk ∧ cpu.resultAt j = .ok mnemonic) ∧
        ∀ j < count, cpu.spends limit j = false := by
  simp only [GoesOn, Nat.zero_add]
  exact ⟨fun h => ⟨fun j hj => (h j hj).2, fun j hj => (h j hj).1⟩,
    fun h j hj => ⟨h.2 j hj, h.1 j hj⟩⟩

/-- Steps after which a run goes on execute no break. -/
theorem resultAt_ne_brk {count : Nat}
    (hsteps : ∀ j < count, ∃ mnemonic, mnemonic ≠ .brk ∧ cpu.resultAt j = .ok mnemonic) :
    ∀ j < count, cpu.resultAt j ≠ .ok .brk := by
  intro j hj h
  obtain ⟨mnemonic, hne, hs⟩ := hsteps j hj
  rw [hs] at h
  exact hne (Except.ok.inj h)

theorem completed_of_limit {count : Nat}
    (hsteps : ∀ j < count, ∃ mnemonic, mnemonic ≠ .brk ∧ cpu.resultAt j = .ok mnemonic)
    (hunspent : ∀ j < count, cpu.spends limit j = false)
    (hspent : cpu.spends limit count = true) :
    Completed limit cpu (cpu.afterSteps count)
      ⟨count, (cpu.afterSteps count).clock.cycles - cpu.clock.cycles, .limitReached⟩ where
  steps j hj := by
    obtain ⟨mnemonic, -, hs⟩ := hsteps j hj
    exact ⟨mnemonic, hs⟩
  after_eq := rfl
  cycles := (Nat.add_sub_cancel' (cpu.cycles_le_afterSteps count)).symm
  break_iff := by
    refine ⟨nofun, ?_⟩
    rintro ⟨⟨last, hlast, hbreak, -⟩, -⟩
    have hlt : last < count := Nat.lt_of_lt_of_eq (Nat.lt_succ_self last) hlast.symm
    exact absurd hbreak (resultAt_ne_brk hsteps last hlt)
  limit_iff := ⟨fun _ => ⟨resultAt_ne_brk hsteps, hspent, hunspent⟩, fun _ => rfl⟩

theorem completed_of_break {count : Nat}
    (hsteps : ∀ j < count, ∃ mnemonic, mnemonic ≠ .brk ∧ cpu.resultAt j = .ok mnemonic)
    (hunspent : ∀ j ≤ count, cpu.spends limit j = false) (hbreak : cpu.resultAt count = .ok .brk) :
    Completed limit cpu (cpu.afterSteps count).step.cpu
      ⟨count + 1, (cpu.afterSteps count).step.cpu.clock.cycles - cpu.clock.cycles,
        .breakInstruction⟩ where
  steps j hj := by
    rcases Nat.lt_succ_iff_lt_or_eq.mp hj with hlt | rfl
    · obtain ⟨mnemonic, -, hs⟩ := hsteps j hlt
      exact ⟨mnemonic, hs⟩
    · exact ⟨.brk, hbreak⟩
  after_eq := (cpu.afterSteps_succ count).symm
  cycles := by
    rw [← afterSteps_succ]
    exact (Nat.add_sub_cancel' (cpu.cycles_le_afterSteps (count + 1))).symm
  break_iff := by
    refine ⟨fun _ => ⟨⟨count, rfl, hbreak, resultAt_ne_brk hsteps⟩, fun j hj => ?_⟩, fun _ => rfl⟩
    exact hunspent j (Nat.le_of_lt_succ hj)
  limit_iff := by
    refine ⟨nofun, ?_⟩
    rintro ⟨hno, -, -⟩
    exact absurd hbreak (hno count (Nat.lt_succ_self count))

theorem aborted_of_fault {count : Nat} {fault : Fault}
    (hsteps : ∀ j < count, ∃ mnemonic, mnemonic ≠ .brk ∧ cpu.resultAt j = .ok mnemonic)
    (hunspent : ∀ j ≤ count, cpu.spends limit j = false)
    (hfault : cpu.resultAt count = .error fault) :
    Aborted limit cpu (cpu.afterSteps count).step.cpu fault count where
  steps := hsteps
  unspent := hunspent
  fault := hfault
  registers := by
    rcases step_error_cases hfault with ⟨-, hcpu⟩ | ⟨executed, cause, memory, -, -, -, hcpu⟩ <;>
      rw [hcpu]
  clock := step_clock_of_error hfault

/-- A run that ends does what its summary or its fault says. -/
theorem runWithin_cases (h : cpu.runWithin fuel limit = some report) :
    (∃ summary, report.result = .ok summary ∧ summary.instructions ≤ fuel ∧
      Completed limit cpu report.cpu summary) ∨
    ∃ fault, report.result = .error fault ∧
      ∃ count < fuel, Aborted limit cpu report.cpu fault count := by
  obtain ⟨turns, hle, hgo, hend, hspent⟩ := exists_turns h
  obtain ⟨hsteps, hunspent⟩ := goesOn_iff.mp hgo
  rw [Nat.zero_add] at hend hspent
  -- a turn that looked at the limit and took its step had fuel for it
  have hlt : cpu.spends limit turns = false → turns < fuel := by
    intro hu
    refine Nat.lt_of_le_of_ne hle fun he => ?_
    rw [spends, hspent he] at hu
    cases hu
  have hupTo : cpu.spends limit turns = false → ∀ j ≤ turns, cpu.spends limit j = false := by
    intro hu j hj
    rcases Nat.lt_or_eq_of_le hj with hj | rfl
    · exact hunspent j hj
    · exact hu
  obtain ⟨result, after, events⟩ := report
  cases hend with
  | limit spent => exact .inl ⟨_, rfl, hle, completed_of_limit hsteps hunspent spent⟩
  | «break» unspent step =>
    exact .inl ⟨_, rfl, hlt unspent, completed_of_break hsteps (hupTo unspent) step⟩
  | fault unspent step =>
    exact .inr ⟨_, rfl, turns, hlt unspent, aborted_of_fault hsteps (hupTo unspent) step⟩

theorem runWithin_eq_none_iff :
    cpu.runWithin fuel limit = none ↔
      (∀ j < fuel, ∃ mnemonic, mnemonic ≠ .brk ∧ cpu.resultAt j = .ok mnemonic) ∧
        ∀ j ≤ fuel, cpu.spends limit j = false := by
  rw [runWithin, runFrom_eq_none_iff, goesOn_iff, Nat.zero_add, and_assoc]
  refine and_congr_right fun _ => ⟨fun h j hj => ?_, fun h => ⟨fun j hj => ?_, ?_⟩⟩
  · rcases Nat.lt_or_eq_of_le hj with hj | rfl
    · exact h.1 j hj
    · exact h.2
  · exact h j (Nat.le_of_lt hj)
  · exact h fuel (Nat.le_refl fuel)

/-- A limit that is used up at once. -/
theorem runWithin_of_spent (h : limit.isUsedUp 0 0 = true) :
    cpu.runWithin fuel limit = some ⟨.ok ⟨0, 0, .limitReached⟩, cpu, []⟩ := by
  have hspent : limit.isUsedUp 0 (cpu.clock.cycles - cpu.clock.cycles) = true := by
    rw [Nat.sub_self]
    exact h
  rw [runWithin, runFrom_of_spent hspent, Nat.sub_self]
  rfl

/-- Without a limit only a break ends a run well. -/
theorem Completed.stop_of_unbounded {after : Cpu M} {summary : RunSummary}
    (h : Completed .unbounded cpu after summary) : summary.stop = .breakInstruction := by
  cases hstop : summary.stop with
  | breakInstruction => rfl
  | limitReached =>
    obtain ⟨-, hspent, -⟩ := h.limit_iff.mp hstop
    cases hspent

/-- **A run is the step iterated.** The clock never runs backwards, so the cycles of a run are a
difference that exists. A run that ends does what `Completed` or `Aborted` says, and the fuel was
not enough exactly if it goes on that long. A limit of nothing executes nothing, and without a
limit only a break ends a run well. -/
theorem run_iterates_step (cpu : Cpu M) (limit : RunLimit) (fuel : Nat) :
    (∀ count, cpu.clock.cycles ≤ (cpu.afterSteps count).clock.cycles) ∧
    (∀ report, cpu.runWithin fuel limit = some report →
      (∀ summary, report.result = .ok summary →
        summary.instructions ≤ fuel ∧ Completed limit cpu report.cpu summary ∧
          (limit = .unbounded → summary.stop = .breakInstruction)) ∧
      ∀ fault, report.result = .error fault →
        ∃ count < fuel, Aborted limit cpu report.cpu fault count) ∧
    (cpu.runWithin fuel limit = none ↔
      (∀ j < fuel, ∃ mnemonic, mnemonic ≠ .brk ∧ cpu.resultAt j = .ok mnemonic) ∧
        ∀ j ≤ fuel, cpu.spends limit j = false) ∧
    (limit = .instructions 0 ∨ limit = .cycles 0 →
      cpu.runWithin fuel limit = some ⟨.ok ⟨0, 0, .limitReached⟩, cpu, []⟩) := by
  refine ⟨cpu.cycles_le_afterSteps, fun report h => ⟨fun summary hs => ?_, fun fault hf => ?_⟩,
    runWithin_eq_none_iff, ?_⟩
  · rcases runWithin_cases h with ⟨found, hresult, hle, hcompleted⟩ | ⟨fault, hresult, -⟩
    · rw [hs] at hresult
      cases hresult
      exact ⟨hle, hcompleted, fun hlimit => (hlimit ▸ hcompleted).stop_of_unbounded⟩
    · rw [hs] at hresult
      cases hresult
  · rcases runWithin_cases h with ⟨found, hresult, -⟩ | ⟨found, hresult, haborted⟩
    · rw [hf] at hresult
      cases hresult
    · rw [hf] at hresult
      cases hresult
      exact haborted
  · rintro (rfl | rfl) <;> exact runWithin_of_spent rfl

/-- An idle instruction, a break, and a byte that begins nothing. -/
def idleThenBreak : Cpu Ram where
  registers := ⟨0, 0, 0, 0xFF, 0, .powerOn⟩
  clock := .zero
  verbose := false
  memory := ((Ram.zeros 0x0030 (by decide) (by decide)).put 0 0xEA).put 2 0x02

/-- The break counts before the limit that is used up with it, and the run that follows it fails
before its first step has done anything. -/
theorem run_iterates_step_breaking :
    (∃ report, idleThenBreak.run (.instructions 2) = some report ∧
      report.result = .ok ⟨2, 9, .breakInstruction⟩ ∧
      report.cpu = idleThenBreak.afterSteps 2 ∧ idleThenBreak.resultAt 1 = .ok .brk ∧
      idleThenBreak.spends (.instructions 2) 1 = false) ∧
    ∃ report, (idleThenBreak.afterSteps 2).run .unbounded = some report ∧
      report.result = .error (.illegalOpcode 0x02 2) ∧
      report.cpu.clock = (idleThenBreak.afterSteps 2).clock := by
  constructor
  · obtain ⟨-, hends, -, -⟩ := run_iterates_step idleThenBreak (.instructions 2) ample
    have hresult : (idleThenBreak.run (.instructions 2)).map RunReport.result =
        some (.ok ⟨2, 9, .breakInstruction⟩) := by decide +kernel
    obtain ⟨report, hreport, hok⟩ := Option.map_eq_some_iff.mp hresult
    obtain ⟨-, hcompleted, -⟩ := (hends report hreport).1 _ hok
    obtain ⟨⟨last, hlast, hbreak, -⟩, hunspent⟩ := hcompleted.break_iff.mp rfl
    cases hlast
    exact ⟨report, hreport, hok, hcompleted.after_eq, hbreak, hunspent 1 (by decide)⟩
  · obtain ⟨-, hends, -, -⟩ := run_iterates_step (idleThenBreak.afterSteps 2) .unbounded ample
    have hresult : ((idleThenBreak.afterSteps 2).run .unbounded).map RunReport.result =
        some (.error (.illegalOpcode 0x02 2)) := by decide +kernel
    obtain ⟨report, hreport, hfault⟩ := Option.map_eq_some_iff.mp hresult
    obtain ⟨count, -, haborted⟩ := (hends report hreport).2 _ hfault
    refine ⟨report, hreport, hfault, ?_⟩
    cases count with
    | zero => exact haborted.clock
    | succ count =>
      obtain ⟨mnemonic, -, hs⟩ := haborted.steps 0 (Nat.zero_lt_succ count)
      have hillegal : (idleThenBreak.afterSteps 2).resultAt 0 =
          .error (.illegalOpcode 0x02 2) := by decide +kernel
      rw [hillegal] at hs
      cases hs

end Nmos6502.Cpu
