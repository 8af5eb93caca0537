import Mathlib.Tactic.Common
import Nmos6502.Cpu.Run

/-!
# Runs

What one turn of a run can do, said once: the limit is used up, or a step fails, or it executes a
break, or the run goes on with one unit of fuel less. Statements about runs are inductions on the
fuel over these four cases.

## Main definitions

* `Cpu.runStates` — the states in which the successful steps of a run begin

## Main results

* `Cpu.runFrom_cases` — the four cases of a turn
-/

namespace Nmos6502.Cpu

variable {M : Type} [Bus M]

/-- The states in which those steps of a run begin that end well. The parameters are those of
`runFrom`. -/
def runStates (limit : RunLimit) (start : Nat) : (fuel executed : Nat) → Cpu M → List (Cpu M)
  | 0, _, _ => []
  | fuel + 1, executed, cpu =>
    if limit.isUsedUp executed (cpu.clock.cycles - start) then []
    else
      match cpu.step.result with
      | .error _ => []
      | .ok mnemonic =>
        cpu :: if mnemonic = .brk then [] else
          runStates limit start fuel (executed + 1) cpu.step.cpu

variable {limit : RunLimit} {start fuel executed : Nat} {reported : List Event} {cpu : Cpu M}
  {report : RunReport M}

/-- **One turn of a run.** -/
theorem runFrom_cases (h : runFrom limit start fuel executed reported cpu = some report) :
    (limit.isUsedUp executed (cpu.clock.cycles - start) = true ∧
      report.result = .ok ⟨executed, cpu.clock.cycles - start, .limitReached⟩ ∧
      report.cpu = cpu) ∨
    ∃ left, fuel = left + 1 ∧ limit.isUsedUp executed (cpu.clock.cycles - start) = false ∧
      ((∃ fault, cpu.step.result = .error fault ∧ report.result = .error fault ∧
          report.cpu = cpu.step.cpu) ∨
        (cpu.step.result = .ok .brk ∧ report.cpu = cpu.step.cpu ∧
          report.result =
            .ok ⟨executed + 1, cpu.step.cpu.clock.cycles - start, .breakInstruction⟩) ∨
        ∃ mnemonic later, cpu.step.result = .ok mnemonic ∧ mnemonic ≠ .brk ∧
          runFrom limit start left (executed + 1) later cpu.step.cpu = some report) := by
  rw [runFrom.eq_def] at h
  cases hlimit : limit.isUsedUp executed (cpu.clock.cycles - start) with
  | true =>
    simp only [hlimit, if_true] at h
    cases h
    exact .inl ⟨rfl, rfl, rfl⟩
  | false =>
    simp only [hlimit] at h
    cases fuel with
    | zero => cases h
    | succ left =>
      refine .inr ⟨left, rfl, rfl, ?_⟩
      rcases hs : cpu.step with ⟨fault | mnemonic, after, events⟩
      · simp only [hs] at h
        cases h
        exact .inl ⟨fault, rfl, rfl, rfl⟩
      · by_cases hbrk : mnemonic = .brk
        · subst hbrk
          simp only [hs] at h
          cases h
          exact .inr (.inl ⟨rfl, rfl, rfl⟩)
        · simp only [hs, if_neg hbrk] at h
          exact .inr (.inr ⟨mnemonic, _, rfl, hbrk, h⟩)

end Nmos6502.Cpu
