import Mathlib.Tactic.Common
import Nmos6502.Emulator
import Nmos6502.Proofs.Leap

/-!
# The counts of an emulator

An emulator answers a run with a count of 32 bits. The runs themselves count without bounds. A run
that is limited by a number of instructions executes no more of them than it was asked for, so their
number has 32 bits, and it is exact. A budget of cycles can be exceeded by its last instruction, by
up to six cycles: no instruction takes more than seven, and the first of them is within the budget.
So next to the largest budgets the cycles of a run may not fit in 32 bits, and the answer is what
is left of them.

## Main results

* `Cpu.Completed.instructions_le`, `Cpu.Completed.cycles_le` — how far a run goes
* `Emulator.counts_answered` — what the counts of an emulator say
* `Emulator.runForCycles_overflows` — a budget whose answer is wrong
-/

namespace Nmos6502

/-! ## How far a run goes -/

/-- No operation takes more than seven cycles. -/
theorem Operation.cost_le {operation : Operation} {opcode : UInt8}
    (ho : operation? opcode = some operation) (status : Status) : operation.cost status ≤ 7 := by
  obtain ⟨hseven, hsix⟩ := forall_operation
    (p := fun operation => operation.cycles ≤ 7 ∧
      (operation.mode = .relative → operation.cycles ≤ 6))
    (by decide +kernel) ho
  rw [cost]
  split
  next ht => exact Nat.succ_le_succ (hsix (mode_of_isTaken ho ht))
  · exact hseven

namespace Cpu

variable {M : Type} [Bus M] {cpu after : Cpu M} {summary : RunSummary} {limit : RunLimit}

theorem cycles_step_le (cpu : Cpu M) : cpu.step.cpu.clock.cycles ≤ cpu.clock.cycles + 7 := by
  cases hs : cpu.step.result with
  | error fault =>
    rw [step_clock_of_error hs]
    exact Nat.le_add_right _ 7
  | ok mnemonic =>
    obtain ⟨operation, -, hx⟩ := exists_executes hs
    obtain ⟨opcode, -, ho⟩ := exists_opcode_of_next? hx.next
    have hcost : cpu.cost ≤ 7 := by
      rw [cost, hx.next]
      exact operation.cost_le ho _
    rw [step_clock_of_ok hs]
    exact Nat.le_trans (Nat.min_le_right ..) (Nat.add_le_add_left hcost _)

namespace Completed

/-- However a run ended, its limit was not used up before any of its steps. -/
theorem unspent (h : Completed limit cpu after summary) :
    ∀ j < summary.instructions, cpu.spends limit j = false := by
  cases hstop : summary.stop with
  | breakInstruction => exact (h.break_iff.mp hstop).2
  | limitReached => exact (h.limit_iff.mp hstop).2.2

/-- A run executes no more instructions than it may. -/
theorem instructions_le {count : Nat} (h : Completed (.instructions count) cpu after summary) :
    summary.instructions ≤ count := by
  refine Nat.le_of_not_lt fun hlt => ?_
  have hleft : decide (count ≤ count) = false := h.unspent count hlt
  exact absurd (Nat.le_refl count) (of_decide_eq_false hleft)

/-- A run takes at most six cycles more than its budget. -/
theorem cycles_le {budget : Nat} (h : Completed (.cycles budget) cpu after summary) :
    summary.cycles ≤ budget + 6 := by
  have hcycles := h.cycles
  rw [h.after_eq] at hcycles
  cases hn : summary.instructions with
  | zero =>
    rw [hn] at hcycles
    simp only [afterSteps] at hcycles
    omega
  | succ last =>
    have hleft := h.unspent last (hn ▸ Nat.lt_succ_self last)
    have hbudget : (cpu.afterSteps last).clock.cycles - cpu.clock.cycles < budget :=
      Nat.lt_of_not_le (of_decide_eq_false hleft)
    have hlast := (cpu.afterSteps last).cycles_step_le
    rw [hn, afterSteps_succ] at hcycles
    omega

end Completed

end Cpu

/-! ## The answers -/

namespace Emulator

theorem count_eq (n : Nat) : count n = n % 2 ^ 32 := UInt32.toNat_ofNat'

/-- An answer to a run comes from a run that ended well. -/
theorem runReply_ok {emulator : Emulator} {limit : RunLimit} {counted : RunSummary → Nat}
    {answer : Answer} (h : (emulator.runReply limit counted).result = .ok answer) :
    ∃ summary, answer = .number (counted summary % 2 ^ 32) ∧
      Cpu.Completed limit emulator.cpu (emulator.runReply limit counted).state.cpu summary := by
  unfold runReply at h ⊢
  rw [Cpu.runLeaping_eq_run] at h ⊢
  cases hrun : emulator.cpu.run limit with
  | none =>
    rw [hrun] at h
    cases h
  | some report =>
    rw [hrun] at h
    rcases Cpu.runWithin_cases hrun with ⟨summary, hresult, -, hcompleted⟩ | ⟨fault, hresult, -⟩
    · obtain ⟨result, after, events⟩ := report
      cases hresult
      cases h
      exact ⟨summary, by rw [count_eq], hcompleted⟩
    · obtain ⟨result, after, events⟩ := report
      cases hresult
      cases h

/-- **What the counts say.** A run that is limited by a number of instructions is answered with the
exact number of instructions that it executed. A run with a budget takes at most six cycles more,
and is answered with the 32 bits that these cycles leave, which are exact where the budget has room
for the six. -/
theorem counts_answered (emulator : Emulator) (argument : UInt32) (answer : Answer) :
    (((EmulatorRequest.run argument).perform emulator).result = .ok answer →
      ∃ n ≤ argument.toNat, answer = .number n ∧
        ((EmulatorRequest.run argument).perform emulator).state.cpu = emulator.cpu.afterSteps n ∧
        ∀ j < n, ∃ mnemonic, emulator.cpu.resultAt j = .ok mnemonic) ∧
    (((EmulatorRequest.runForCycles argument).perform emulator).result = .ok answer →
      ∃ passed ≤ argument.toNat + 6, answer = .number (passed % 2 ^ 32) ∧
        ((EmulatorRequest.runForCycles argument).perform emulator).state.cpu.clock.cycles =
          emulator.cpu.clock.cycles + passed ∧
        (argument.toNat + 6 < 2 ^ 32 → answer = .number passed)) := by
  refine ⟨fun h => ?_, fun h => ?_⟩
  · obtain ⟨summary, hanswer, hcompleted⟩ := runReply_ok h
    have hle := hcompleted.instructions_le
    have hexact : summary.instructions % 2 ^ 32 = summary.instructions :=
      Nat.mod_eq_of_lt (Nat.lt_of_le_of_lt hle argument.toNat_lt)
    exact ⟨_, hle, hexact ▸ hanswer, hcompleted.after_eq, hcompleted.steps⟩
  · obtain ⟨summary, hanswer, hcompleted⟩ := runReply_ok h
    have hle := hcompleted.cycles_le
    refine ⟨_, hle, hanswer, hcompleted.cycles, fun hroom => ?_⟩
    have hexact : summary.cycles % 2 ^ 32 = summary.cycles :=
      Nat.mod_eq_of_lt (Nat.lt_of_le_of_lt hle hroom)
    exact hexact ▸ hanswer

/-- An emulator with a program that idles once and then jumps to where it is, through a pointer. -/
def spinning : Emulator :=
  ((EmulatorRequest.poke 0 [0xEA, 0x6C, 0x04, 0x00, 0x01, 0x00]).perform (ofSize 16)).state

/-- A budget of one hundred cycles is exceeded by two, and the answer says so. -/
theorem counts_answered_spinning :
    ((EmulatorRequest.runForCycles 100).perform spinning).result = .ok (.number 102) ∧
    ((EmulatorRequest.runForCycles 100).perform spinning).state.cpu.clock.cycles = 102 := by
  have hresult : ((EmulatorRequest.runForCycles 100).perform spinning).result =
      .ok (.number 102) := by decide +kernel
  obtain ⟨-, hcycles⟩ := counts_answered spinning 100 (.number 102)
  obtain ⟨passed, -, -, hclock, hexact⟩ := hcycles hresult
  cases hexact (by decide)
  exact ⟨hresult, hclock⟩

/-- The largest budget is exceeded by two as well. The cycles are one more than there are numbers of
32 bits, and one is all that the answer leaves of them. -/
theorem runForCycles_overflows :
    spinning.cpu.clock.cycles = 0 ∧
    ((EmulatorRequest.runForCycles 0xFFFFFFFF).perform spinning).result = .ok (.number 1) ∧
    ((EmulatorRequest.runForCycles 0xFFFFFFFF).perform spinning).state.cpu.clock.cycles =
      4294967297 := by
  decide +kernel

end Emulator

end Nmos6502
