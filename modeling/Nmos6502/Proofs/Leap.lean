import Mathlib.Tactic.Common
import Nmos6502.Cpu.Leap
import Nmos6502.Proofs.Iteration

/-!
# Leaps

A run that leaps does what the plain run does. The reason is that a step does not look at the clock:
a processor that has waited takes the same steps, with the same results. So if some steps have led
to a state that differs from the one before them by a wait, the same number of steps leads to it
again with another such wait, and so on for any number of rounds.

A run takes these rounds one turn at a time, and it takes all of them if the limit is not used up
after the last. A limit that is not used up later is not used up earlier, so nothing has to be known
about the turns within a round.

## Main definitions

* `Cpu.Leads` — some steps lead from one state to another

## Main results

* `Cpu.exists_ticks_step`, `Cpu.step_wait` — a step does not look at the clock
* `Cpu.Leads.rounds` — rounds that have been taken once can be taken again
* `Cpu.Leads.runFrom_eq` — a run takes the steps that lead somewhere
* `Cpu.runLeaping_eq_run` — leaps make no difference
-/

namespace Nmos6502

/-! ## Waiting -/

namespace Cpu

variable {M : Type} (cpu : Cpu M)

@[simp] theorem wait_zero : cpu.wait 0 = cpu := by rw [wait, Clock.tick_zero]

theorem wait_wait (first second : Nat) :
    (cpu.wait first).wait second = cpu.wait (first + second) := by
  simp only [wait, Clock.tick_tick]

variable [Bus M]

/-- **What a step does not look at.** The clock and the verbose setting are not consulted: with
others in their place the step is the same, and as many cycles go by. -/
theorem exists_ticks_step :
    ∃ ticks, ∀ other : Cpu M, other.registers = cpu.registers → other.memory = cpu.memory →
      other.step.result = cpu.step.result ∧
      other.step.cpu =
        ⟨cpu.step.cpu.registers, other.clock.tick ticks, other.verbose, cpu.step.cpu.memory⟩ := by
  have hrehearse : ∀ other : Cpu M, other.registers = cpu.registers → other.memory = cpu.memory →
      other.rehearse = cpu.rehearse := by
    intro other hregisters hmemory
    rw [rehearse, hregisters, hmemory, rehearse]
  rcases hr : cpu.rehearse with ⟨fault | executed, journal⟩
  · refine ⟨0, fun other hregisters hmemory => ?_⟩
    have hother := (hrehearse other hregisters hmemory).trans hr
    rw [step_of_rehearse_error hr, step_of_rehearse_error hother, Clock.tick_zero, ← hregisters,
      ← hmemory]
    exact ⟨rfl, rfl⟩
  rcases hw : Bus.writeAll cpu.memory journal.writes with ⟨cause | done, memory⟩
  · refine ⟨0, fun other hregisters hmemory => ?_⟩
    have hother := (hrehearse other hregisters hmemory).trans hr
    rw [step_of_writeAll_error hr hw, step_of_writeAll_error hother (hmemory ▸ hw),
      Clock.tick_zero, ← hregisters]
    exact ⟨rfl, rfl⟩
  · refine ⟨executed.ticks journal, fun other hregisters hmemory => ?_⟩
    have hother := (hrehearse other hregisters hmemory).trans hr
    rw [step_of_writeAll_ok hr hw, step_of_writeAll_ok hother (hmemory ▸ hw)]
    exact ⟨rfl, rfl⟩

/-- A step is the same after a wait. -/
theorem step_wait (ticks : Nat) :
    (cpu.wait ticks).step.result = cpu.step.result ∧
      (cpu.wait ticks).step.cpu = cpu.step.cpu.wait ticks := by
  obtain ⟨cost, h⟩ := cpu.exists_ticks_step
  obtain ⟨hresult, hwaited⟩ := h (cpu.wait ticks) rfl rfl
  obtain ⟨-, hself⟩ := h cpu rfl rfl
  refine ⟨hresult, hwaited.trans ?_⟩
  rw [hself]
  simp only [wait, Clock.tick_tick, Nat.add_comm]

/-- A step keeps the verbose setting, and if that is off it reports nothing. -/
theorem step_quiet :
    cpu.step.cpu.verbose = cpu.verbose ∧ (cpu.verbose = false → cpu.step.events = []) := by
  rcases hr : cpu.rehearse with ⟨fault | executed, journal⟩
  · rw [step_of_rehearse_error hr]
    exact ⟨rfl, fun h => by simp [openingEvents, h]⟩
  rcases hw : Bus.writeAll cpu.memory journal.writes with ⟨cause | done, memory⟩
  · rw [step_of_writeAll_error hr hw]
    exact ⟨rfl, fun h => by simp [openingEvents, h]⟩
  · rw [step_of_writeAll_ok hr hw]
    exact ⟨rfl, fun h => by simp [openingEvents, closingEvents, h]⟩

/-! ## Iterated steps -/

theorem afterSteps_add (first second : Nat) :
    cpu.afterSteps (first + second) = (cpu.afterSteps first).afterSteps second := by
  induction second with
  | zero => rfl
  | succ second ih => rw [← Nat.add_assoc, afterSteps_succ, afterSteps_succ, ih]

theorem afterSteps_wait (ticks count : Nat) :
    (cpu.wait ticks).afterSteps count = (cpu.afterSteps count).wait ticks := by
  induction count with
  | zero => rfl
  | succ count ih => rw [afterSteps_succ, afterSteps_succ, ih, (step_wait _ ticks).2]

theorem resultAt_wait (ticks count : Nat) :
    (cpu.wait ticks).resultAt count = cpu.resultAt count := by
  rw [resultAt, afterSteps_wait, (step_wait _ ticks).1]
  rfl

theorem verbose_afterSteps (count : Nat) : (cpu.afterSteps count).verbose = cpu.verbose := by
  induction count with
  | zero => rfl
  | succ count ih => rw [afterSteps_succ, (step_quiet _).1, ih]

end Cpu

/-! ## States that lead to others -/

namespace Cpu

variable {M : Type} [Bus M]

/-- So many steps lead from a state to another, and none of them ends a run. -/
structure Leads (seen : Cpu M) (turns : Nat) (cpu : Cpu M) : Prop where
  /-- The steps end well and execute no break. -/
  goesOn : ∀ j < turns, ∃ mnemonic, mnemonic ≠ .brk ∧ seen.resultAt j = .ok mnemonic
  /-- The steps lead there. -/
  afterSteps_eq : seen.afterSteps turns = cpu

namespace Leads

variable {seen between cpu : Cpu M} {turns more : Nat}

theorem refl (cpu : Cpu M) : Leads cpu 0 cpu := ⟨nofun, rfl⟩

theorem trans (h : Leads seen turns between) (h' : Leads between more cpu) :
    Leads seen (turns + more) cpu where
  goesOn j hj := by
    rcases Nat.lt_or_ge j turns with hfirst | hlater
    · exact h.goesOn j hfirst
    · obtain ⟨k, rfl⟩ := Nat.exists_eq_add_of_le hlater
      have hresult := h'.goesOn k (by omega)
      rw [← h.afterSteps_eq] at hresult
      rwa [resultAt, afterSteps_add]
  afterSteps_eq := by rw [afterSteps_add, h.afterSteps_eq, h'.afterSteps_eq]

theorem of_step {mnemonic : Mnemonic} (hs : cpu.step.result = .ok mnemonic)
    (hne : mnemonic ≠ .brk) : Leads cpu 1 cpu.step.cpu where
  goesOn j hj := by
    obtain rfl : j = 0 := Nat.lt_one_iff.mp hj
    exact ⟨mnemonic, hne, hs⟩
  afterSteps_eq := rfl

theorem wait (h : Leads seen turns cpu) (ticks : Nat) :
    Leads (seen.wait ticks) turns (cpu.wait ticks) where
  goesOn j hj := by
    rw [resultAt_wait]
    exact h.goesOn j hj
  afterSteps_eq := by rw [afterSteps_wait, h.afterSteps_eq]

/-- **Rounds.** Steps that lead back to the state before them, only later, do so again and again. -/
theorem rounds {cost : Nat} (h : Leads cpu turns (cpu.wait cost)) (count : Nat) :
    Leads cpu (count * turns) (cpu.wait (count * cost)) := by
  induction count with
  | zero => simpa using refl cpu
  | succ count ih =>
    have hnext := h.wait (count * cost)
    rw [wait_wait, Nat.add_comm] at hnext
    rw [Nat.succ_mul, Nat.succ_mul]
    exact ih.trans hnext

theorem verbose_eq (h : Leads seen turns cpu) : cpu.verbose = seen.verbose := by
  rw [← h.afterSteps_eq, verbose_afterSteps]

/-- What the registers and the memory do not tell of a state that has come back is how much later it
is. -/
theorem eq_wait (h : Leads seen turns cpu) (hregisters : cpu.registers = seen.registers)
    (hmemory : cpu.memory = seen.memory) :
    cpu = seen.wait (cpu.clock.cycles - seen.clock.cycles) := by
  have hle : seen.clock.cycles ≤ cpu.clock.cycles :=
    h.afterSteps_eq ▸ seen.cycles_le_afterSteps turns
  have hclock : cpu.clock = seen.clock.tick (cpu.clock.cycles - seen.clock.cycles) := by
    refine Clock.ext ?_
    rw [Clock.cycles_tick, Nat.add_sub_cancel' hle, Nat.min_eq_right cpu.clock.cycles_le]
  have hverbose := h.verbose_eq
  obtain ⟨registers, clock, verbose, memory⟩ := cpu
  simp only [Cpu.wait, Cpu.mk.injEq]
  exact ⟨hregisters, hclock, hverbose, hmemory⟩

end Leads

end Cpu

/-! ## Limits -/

namespace RunLimit

variable {limit : RunLimit} {fuel instructions cycles length cost : Nat}

/-- What is not used up later was not used up before. -/
theorem isUsedUp_of_le {laterInstructions laterCycles : Nat}
    (hinstructions : instructions ≤ laterInstructions) (hcycles : cycles ≤ laterCycles)
    (h : limit.isUsedUp laterInstructions laterCycles = false) :
    limit.isUsedUp instructions cycles = false := by
  cases limit with
  | unbounded => rfl
  | instructions count | cycles count =>
    have hlater := of_decide_eq_false h
    exact decide_eq_false (by omega)

theorem rounds_mul_le (limit : RunLimit) (fuel instructions cycles length cost : Nat) :
    limit.rounds fuel instructions cycles length cost * length ≤ fuel := by
  have hle : limit.rounds fuel instructions cycles length cost ≤ fuel / length := by
    cases limit with
    | unbounded => exact Nat.le_refl _
    | instructions count | cycles count => exact Nat.min_le_left ..
  exact Nat.mul_le_of_le_div _ _ _ hle

/-- After the rounds that are left out something of the limit is left. -/
theorem isUsedUp_rounds (h : 0 < limit.rounds fuel instructions cycles length cost) :
    let rounds := limit.rounds fuel instructions cycles length cost
    limit.isUsedUp (instructions + rounds * length) (cycles + rounds * cost) = false := by
  intro rounds
  cases limit with
  | unbounded => rfl
  | instructions count =>
    have hle : rounds ≤ (count - instructions - 1) / length := Nat.min_le_right ..
    have hmul := Nat.mul_le_of_le_div _ _ _ hle
    have hleft : 0 < count - instructions - 1 := Nat.pos_of_div_pos (Nat.lt_of_lt_of_le h hle)
    exact decide_eq_false (by omega)
  | cycles count =>
    have hle : rounds ≤ (count - cycles - 1) / cost := Nat.min_le_right ..
    have hmul := Nat.mul_le_of_le_div _ _ _ hle
    have hleft : 0 < count - cycles - 1 := Nat.pos_of_div_pos (Nat.lt_of_lt_of_le h hle)
    exact decide_eq_false (by omega)

end RunLimit

/-! ## Runs -/

namespace Cpu

variable {M : Type} [Bus M] {seen cpu after : Cpu M} {limit : RunLimit}
  {start fuel executed turns : Nat}

/-- The turns that go on can be taken off a run that reports nothing. -/
theorem runFrom_add (hquiet : cpu.verbose = false)
    (h : ∀ j < turns, GoesOn limit start (executed + j) (cpu.afterSteps j)) :
    runFrom limit start (fuel + turns) executed [] cpu =
      runFrom limit start fuel (executed + turns) [] (cpu.afterSteps turns) := by
  induction turns generalizing executed cpu with
  | zero => rfl
  | succ turns ih =>
    have hfirst : GoesOn limit start executed cpu := h 0 (Nat.zero_lt_succ turns)
    have hlater : ∀ j < turns,
        GoesOn limit start (executed + 1 + j) (cpu.step.cpu.afterSteps j) := fun j hj => by
      rw [Nat.add_right_comm]
      exact h (j + 1) (Nat.succ_lt_succ hj)
    rw [← Nat.add_assoc, runFrom_succ_of_goesOn hfirst, cpu.step_quiet.2 hquiet,
      List.reverse_nil, List.nil_append, ih (cpu.step_quiet.1.trans hquiet) hlater,
      Nat.add_right_comm, Nat.add_assoc]
    rfl

/-- **A run takes the steps that lead somewhere**, if the limit is not used up there. -/
theorem Leads.runFrom_eq (h : Leads cpu turns after) (hquiet : cpu.verbose = false)
    (fuel : Nat)
    (hlimit : limit.isUsedUp (executed + turns) (after.clock.cycles - start) = false) :
    runFrom limit start (fuel + turns) executed [] cpu =
      runFrom limit start fuel (executed + turns) [] after := by
  rw [← h.afterSteps_eq] at hlimit ⊢
  refine runFrom_add hquiet fun j hj => ⟨?_, h.goesOn j hj⟩
  have hclock : (cpu.afterSteps j).clock.cycles ≤ (cpu.afterSteps turns).clock.cycles := by
    rw [← Nat.add_sub_cancel' (Nat.le_of_lt hj), afterSteps_add]
    exact cycles_le_afterSteps _ _
  exact RunLimit.isUsedUp_of_le (Nat.add_le_add_left (Nat.le_of_lt hj) executed)
    (Nat.sub_le_sub_right hclock start) hlimit

/-- **A leap** over the rounds to come is what the plain run does without one. -/
theorem Leads.runFrom_leap (h : Leads seen turns cpu) (hquiet : cpu.verbose = false)
    (hregisters : cpu.registers = seen.registers) (hmemory : cpu.memory = seen.memory)
    (limit : RunLimit) (start fuel executed : Nat) :
    let cost := cpu.clock.cycles - seen.clock.cycles
    let rounds := limit.rounds fuel executed (cpu.clock.cycles - start) turns cost
    runFrom limit start (fuel - rounds * turns) (executed + rounds * turns) []
        (cpu.wait (rounds * cost)) =
      runFrom limit start fuel executed [] cpu := by
  intro cost rounds
  have hback : cpu = seen.wait cost := h.eq_wait hregisters hmemory
  have hround : Leads cpu turns (cpu.wait cost) := by
    have hagain := h.wait cost
    rwa [← hback] at hagain
  rcases Nat.eq_zero_or_pos rounds with hzero | hpos
  · rw [hzero, Nat.zero_mul, Nat.zero_mul, wait_zero]
    rfl
  have hclock : (cpu.wait (rounds * cost)).clock.cycles - start ≤
      cpu.clock.cycles - start + rounds * cost := by
    have hmin : (cpu.wait (rounds * cost)).clock.cycles ≤ cpu.clock.cycles + rounds * cost :=
      Nat.min_le_right ..
    omega
  have hlimit := RunLimit.isUsedUp_of_le (Nat.le_refl _) hclock (RunLimit.isUsedUp_rounds hpos)
  have hall := (hround.rounds rounds).runFrom_eq hquiet (fuel - rounds * turns) hlimit
  rw [Nat.sub_add_cancel (limit.rounds_mul_le ..)] at hall
  exact hall.symm

variable [DecidableEq M]

/-- A turn that ends a run ends it with or without a state to remember. -/
theorem leapFrom_of_endsWith {seen? : Option (Cpu M)} {result : Except Fault RunSummary}
    (hquiet : cpu.verbose = false) (h : EndsWith limit start executed cpu result after) :
    leapFrom limit start (fuel + 1) executed seen? turns cpu =
      runFrom limit start (fuel + 1) executed [] cpu := by
  have hsilent := cpu.step_quiet.2 hquiet
  rw [leapFrom.eq_def, runFrom.eq_def]
  cases h with
  | limit spent =>
    simp only [spent, if_true]
    rfl
  | «break» unspent step | fault unspent step =>
    rcases hs : cpu.step with ⟨result, after, events⟩
    rw [hs] at step hsilent
    obtain rfl : events = [] := hsilent
    cases step
    simp only [unspent, hs]
    rfl

/-- A run that remembers a state which has led to the one it is in takes the same turns as the plain
run, or leaps over them. -/
theorem leapFrom_eq_runFrom {seen? : Option (Cpu M)} (hquiet : cpu.verbose = false)
    (hseen : ∀ seen ∈ seen?, Leads seen turns cpu) :
    leapFrom limit start fuel executed seen? turns cpu =
      runFrom limit start fuel executed [] cpu := by
  induction fuel generalizing executed seen? turns cpu with
  | zero =>
    rw [leapFrom.eq_def, runFrom.eq_def]
    rfl
  | succ fuel ih =>
    rcases (goesOn_or_endsWith limit start executed cpu).symm with ⟨result, after, hend⟩ | hgo
    · exact leapFrom_of_endsWith hquiet hend
    rw [runFrom_succ_of_goesOn hgo, cpu.step_quiet.2 hquiet, leapFrom.eq_def]
    obtain ⟨hlimit, mnemonic, hne, hok⟩ := hgo
    have hafter : cpu.step.cpu.verbose = false := cpu.step_quiet.1.trans hquiet
    have hlater : ∀ seen ∈ seen?, Leads seen (turns + 1) cpu.step.cpu := fun seen hmem =>
      (hseen seen hmem).trans (.of_step hok hne)
    rcases hs : cpu.step with ⟨result, after, events⟩
    rw [hs] at hok hafter hlater
    cases hok
    have hnothing : ∀ seen ∈ (none : Option (Cpu M)), Leads seen (turns + 1) after :=
      fun _ h => absurd h (Option.not_mem_none _)
    simp only [hlimit, hs, if_neg hne]
    -- the state that is remembered may become a new one, or none, or stay; or the run is back there
    by_cases hnew : executed + 1 < 2 * (turns + 1)
    · rw [if_pos hnew]
      exact ih hafter fun seen hmem => Option.mem_some.mp hmem ▸ .refl after
    rw [if_neg hnew]
    cases seen? with
    | none => exact ih hafter hnothing
    | some seen =>
      dsimp only
      by_cases hregisters : after.registers ≠ seen.registers
      · rw [if_pos hregisters]
        exact ih hafter hlater
      rw [if_neg hregisters]
      by_cases hmemory : after.memory ≠ seen.memory
      · rw [if_pos hmemory]
        exact ih hafter hnothing
      rw [if_neg hmemory]
      exact (hlater seen rfl).runFrom_leap hafter (not_not.mp hregisters) (not_not.mp hmemory) ..

/-- **Leaps make no difference.** -/
theorem runLeaping_eq_run (limit : RunLimit) (cpu : Cpu M) :
    cpu.runLeaping limit = cpu.run limit := by
  rw [runLeaping]
  cases hquiet : cpu.verbose with
  | true => rfl
  | false => exact leapFrom_eq_runFrom hquiet fun _ h => absurd h (Option.not_mem_none _)

end Cpu

end Nmos6502
