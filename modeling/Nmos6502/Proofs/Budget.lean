import Mathlib.Tactic.Common
import Nmos6502.Proofs.Resumption
import Nmos6502.Session.Processor

/-!
# Limited runs end

Nothing says that a program comes to an end, but a run with a limit does. Each instruction that ends
well counts one, and it takes two cycles or more as long as the clock has not come to its own end.
So what is left of a limit gets smaller with every turn, and there is a number of steps after which
a run has ended, whatever the program does and whatever the bus answers. More fuel than that changes
nothing.

A budget of cycles is used up by the last instruction, which began within it. So a run takes longer
than its budget by less than that one instruction.

## Main definitions

* `Cpu.EndsWithin` — a run ends within so many steps

## Main results

* `Cpu.runWithin_of_le` — more fuel changes nothing
* `Cpu.le_cycles_afterSteps` — steps that end well take two cycles each
* `Cpu.exists_endsWithin_cycles`, `Cpu.exists_endsWithin_instructions` — limited runs end
* `Cpu.limited_run_ends` — when a limited run ends, and what it has spent by then
-/

namespace Nmos6502

/-- Every operation takes two cycles or more. -/
theorem Operation.two_le_cost {operation : Operation} {opcode : UInt8}
    (ho : operation? opcode = some operation) (status : Status) : 2 ≤ operation.cost status :=
  Nat.le_trans
    (forall_operation (p := fun operation => 2 ≤ operation.cycles) (by decide +kernel) ho)
    (Nat.le_add_right _ _)

namespace Cpu

variable {M : Type} [Bus M] {limit : RunLimit} {start fuel more executed count steps : Nat}
  {reported : List Event} {cpu after : Cpu M} {summary : RunSummary} {report : RunReport M}

/-! ## Fuel -/

/-- More fuel changes nothing once a run has ended. -/
theorem runFrom_of_le (h : runFrom limit start fuel executed reported cpu = some report)
    (hle : fuel ≤ more) : runFrom limit start more executed reported cpu = some report := by
  induction fuel generalizing more executed reported cpu with
  | zero =>
    cases hspent : limit.isUsedUp executed (cpu.clock.cycles - start) with
    | true => rwa [runFrom_of_spent hspent] at h ⊢
    | false => cases (runFrom_zero hspent).symm.trans h
  | succ fuel ih =>
    cases hspent : limit.isUsedUp executed (cpu.clock.cycles - start) with
    | true => rwa [runFrom_of_spent hspent] at h ⊢
    | false =>
      obtain ⟨more, rfl⟩ := Nat.exists_eq_succ_of_ne_zero (Nat.ne_zero_of_lt hle)
      rw [runFrom_succ hspent] at h ⊢
      cases hs : cpu.step.result with
      | error fault => rwa [hs] at h
      | ok mnemonic =>
        by_cases hbrk : mnemonic = .brk
        · simp only [hs, if_pos hbrk] at h ⊢
          exact h
        · simp only [hs, if_neg hbrk] at h ⊢
          exact ih h (Nat.le_of_succ_le_succ hle)

theorem runWithin_of_le (h : cpu.runWithin fuel limit = some report) (hle : fuel ≤ more) :
    cpu.runWithin more limit = some report :=
  runFrom_of_le h hle

/-- With fuel for so many steps or for more, a run ends with a report. -/
def EndsWithin (cpu : Cpu M) (limit : RunLimit) (steps : Nat) (report : RunReport M) : Prop :=
  ∀ fuel, steps ≤ fuel → cpu.runWithin fuel limit = some report

/-- A run that cannot go on for so many steps ends within them. -/
theorem exists_endsWithin (h : cpu.runWithin steps limit ≠ none) :
    ∃ report, cpu.EndsWithin limit steps report := by
  obtain ⟨report, hreport⟩ := Option.ne_none_iff_exists'.mp h
  exact ⟨report, fun _ hle => runWithin_of_le hreport hle⟩

/-! ## What steps take -/

/-- A step that ends well takes two cycles or more, or the clock has come to its end. -/
theorem le_cycles_step {mnemonic : Mnemonic} (h : cpu.step.result = .ok mnemonic) :
    min maxCycles (cpu.clock.cycles + 2) ≤ cpu.step.cpu.clock.cycles := by
  obtain ⟨operation, -, hx⟩ := exists_executes h
  obtain ⟨opcode, -, ho⟩ := exists_opcode_of_next? hx.next
  have hcost : 2 ≤ cpu.cost := by
    rw [cost, hx.next]
    exact operation.two_le_cost ho _
  rw [step_clock_of_ok h, Clock.cycles_tick]
  omega

/-- **Time passes.** So do steps that end well, each of them. -/
theorem le_cycles_afterSteps (h : ∀ j < count, ∃ mnemonic, cpu.resultAt j = .ok mnemonic) :
    min maxCycles (cpu.clock.cycles + 2 * count) ≤ (cpu.afterSteps count).clock.cycles := by
  induction count with
  | zero => exact Nat.min_le_right _ _
  | succ count ih =>
    have hbefore := ih fun j hj => h j (Nat.lt_succ_of_lt hj)
    obtain ⟨mnemonic, hlast⟩ := h count (Nat.lt_succ_self count)
    have hstep := le_cycles_step hlast
    rw [afterSteps_succ]
    omega

/-! ## Limited runs -/

/-- A budget that the clock has room for is used up in time: half as many steps do it. -/
theorem exists_endsWithin_cycles (cpu : Cpu M) {n : Nat}
    (hroom : cpu.clock.cycles + n ≤ maxCycles) :
    ∃ report, cpu.EndsWithin (.cycles n) ((n + 1) / 2) report := by
  refine exists_endsWithin fun hnone => ?_
  obtain ⟨hsteps, hunspent⟩ := runWithin_eq_none_iff.mp hnone
  have hok : ∀ j < (n + 1) / 2, ∃ mnemonic, cpu.resultAt j = .ok mnemonic := by
    intro j hj
    obtain ⟨mnemonic, -, hok⟩ := hsteps j hj
    exact ⟨mnemonic, hok⟩
  have hpassed := le_cycles_afterSteps hok
  have hleft := of_decide_eq_false (hunspent ((n + 1) / 2) (Nat.le_refl _))
  omega

/-- As many steps as there are instructions to be executed are enough. -/
theorem exists_endsWithin_instructions (cpu : Cpu M) (n : Nat) :
    ∃ report, cpu.EndsWithin (.instructions n) n report := by
  refine exists_endsWithin fun hnone => ?_
  obtain ⟨-, hunspent⟩ := runWithin_eq_none_iff.mp hnone
  exact of_decide_eq_false (hunspent n (Nat.le_refl n)) (Nat.le_refl n)

/-- A budget that ended a run has been spent. -/
theorem Completed.budget_le {n : Nat} (h : Completed (.cycles n) cpu after summary)
    (hstop : summary.stop = .limitReached) : n ≤ summary.cycles := by
  obtain ⟨-, hspent, -⟩ := h.limit_iff.mp hstop
  have hle := of_decide_eq_true hspent
  rwa [← h.after_eq, h.cycles, Nat.add_sub_cancel_left] at hle

/-- What a budget is answered with. -/
theorem perform_runForCycles {n : Nat} (h : cpu.run (.cycles n) = some report) :
    (CpuRequest.runForCycles n).perform cpu =
      match report.result with
      | .ok summary => ⟨.ok (.number summary.cycles), report.cpu, report.events⟩
      | .error fault => ⟨.error (.fault fault), report.cpu, report.events⟩ := by
  obtain ⟨summary | fault, after, events⟩ := report <;>
  · rw [CpuRequest.perform, runReply, h]

/-- **Limited runs end.** If the clock has room for a budget and one instruction more, then half as
many steps as there are cycles are enough, whatever the program does. If the budget ended the run,
it was spent; if anything but a fault did, no more than six cycles beyond it were. The cycles are
what a processor answers. A run of so many instructions ends within as many steps, and if it is
their number that ended it, it has executed all of them. -/
theorem limited_run_ends (cpu : Cpu M) (n : Nat) (hroom : cpu.clock.cycles + n + 7 < 2 ^ 64) :
    (∃ report, cpu.EndsWithin (.cycles n) ((n + 1) / 2) report ∧
      cpu.run (.cycles n) = some report ∧
      (∀ summary, report.result = .ok summary →
        (summary.stop = .limitReached → n ≤ summary.cycles) ∧ summary.cycles ≤ n + 6 ∧
        summary.instructions ≤ (n + 1) / 2 ∧
        report.cpu.clock.cycles = cpu.clock.cycles + summary.cycles ∧
        (CpuRequest.runForCycles n).perform cpu =
          ⟨.ok (.number summary.cycles), report.cpu, report.events⟩) ∧
      ∀ fault, report.result = .error fault →
        (CpuRequest.runForCycles n).perform cpu =
          ⟨.error (.fault fault), report.cpu, report.events⟩) ∧
    ∃ report, cpu.EndsWithin (.instructions n) n report ∧
      cpu.run (.instructions n) = some report ∧
      ∀ summary, report.result = .ok summary →
        summary.instructions ≤ n ∧ (summary.stop = .limitReached → summary.instructions = n) := by
  have hmax : maxCycles + 1 = 2 ^ 64 := rfl
  have hample : ample = maxCycles := rfl
  constructor
  · obtain ⟨report, hends⟩ := cpu.exists_endsWithin_cycles (n := n) (by omega)
    have hrun : cpu.run (.cycles n) = some report := hends ample (by omega)
    have hanswer := perform_runForCycles hrun
    refine ⟨report, hends, hrun, fun summary hok => ?_, fun fault herror => ?_⟩
    · rw [hok] at hanswer
      rcases runWithin_cases (hends _ (Nat.le_refl _)) with
        ⟨found, hresult, hsteps, hcompleted⟩ | ⟨fault, hresult, -⟩
      · cases hok.symm.trans hresult
        exact ⟨hcompleted.budget_le, hcompleted.cycles_le, hsteps, hcompleted.cycles, hanswer⟩
      · cases hok.symm.trans hresult
    · rw [herror] at hanswer
      exact hanswer
  · obtain ⟨report, hends⟩ := cpu.exists_endsWithin_instructions n
    have hrun : cpu.run (.instructions n) = some report := hends ample (by omega)
    refine ⟨report, hends, hrun, fun summary hok => ⟨?_, fun hstop => ?_⟩⟩
    · rcases runWithin_cases hrun with ⟨found, hresult, -, hcompleted⟩ | ⟨fault, hresult, -⟩
      · cases hok.symm.trans hresult
        exact hcompleted.instructions_le
      · cases hok.symm.trans hresult
    · exact instructions_eq_of_limitReached hrun hok hstop

/-- A program that counts for ever is stopped by a budget of four cycles. It exceeds it by one. -/
theorem limited_run_ends_counting :
    counting.clock.cycles + 4 + 7 < 2 ^ 64 ∧
    ∃ report, counting.EndsWithin (.cycles 4) 2 report ∧
      report.result = .ok ⟨2, 5, .limitReached⟩ ∧
      ((CpuRequest.runForCycles 4).perform counting).result = .ok (.number 5) := by
  have hroom : counting.clock.cycles + 4 + 7 < 2 ^ 64 := by decide
  obtain ⟨⟨report, hends, hrun, hcompleted, -⟩, -⟩ := limited_run_ends counting 4 hroom
  have hresult : (counting.run (.cycles 4)).map RunReport.result =
      some (.ok ⟨2, 5, .limitReached⟩) := by decide +kernel
  obtain ⟨found, hfound, hok⟩ := Option.map_eq_some_iff.mp hresult
  cases hrun.symm.trans hfound
  obtain ⟨-, -, -, -, hanswer⟩ := hcompleted _ hok
  exact ⟨hroom, report, hends, hok, by rw [hanswer]⟩

end Cpu

end Nmos6502
