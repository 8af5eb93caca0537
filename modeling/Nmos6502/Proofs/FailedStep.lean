import Mathlib.Tactic.Common
import Nmos6502.GuardedRam
import Nmos6502.Proofs.Step

/-!
# What a failed step leaves behind

A step that fails keeps the registers, the clock and the verbose setting. Memory it may have
changed, but only by the writes of its instruction that come before the one that was refused: none
at all if the instruction did not come to its end.

A memory can rule out even that, by a check that tells the truth. What the check accepts has to be
writable as memory is and after one other write. That is enough for every instruction, since none
writes more than two bytes, and only a call writes two.

## Main definitions

* `Bus.Truthful` — what the check accepts can be written

## Main results

* `Cpu.step_failed` — everything a failed step leaves behind
-/

namespace Nmos6502

namespace Bus

variable {M : Type} [Bus M]

/-- The check tells the truth: an address that it accepts can be written, as memory is and after
any other write that is accepted. -/
structure Truthful (memory : M) : Prop where
  /-- An accepted address can be written. -/
  now : ∀ address value, check memory address = .ok () → refusal? memory address value = none
  /-- It can still be written after another write. -/
  later : ∀ address value other byte, check memory address = .ok () →
    refusal? memory other byte = none → refusal? (put memory other byte) address value = none

/-- A truthful check answers for two writes. -/
theorem Truthful.exists_writeAll {memory : M} (ht : Truthful memory)
    {writes : List (UInt16 × UInt8)} (hlen : writes.length ≤ 2)
    (hw : ∀ write ∈ writes, check memory write.1 = .ok ()) :
    ∃ after, writeAll memory writes = (.ok (), after) := by
  match writes with
  | [] => exact ⟨memory, rfl⟩
  | [first] =>
    have hfirst := ht.now first.1 first.2 (hw first (by simp))
    exact ⟨_, by rw [writeAll, hfirst]; rfl⟩
  | [first, second] =>
    have hfirst := ht.now first.1 first.2 (hw first (by simp))
    have hsecond := ht.later second.1 second.2 _ _ (hw second (by simp)) hfirst
    exact ⟨put (put memory first.1 first.2) second.1 second.2, by
      simp only [writeAll, hfirst, hsecond]⟩
  | _ :: _ :: _ :: _ => simp at hlen

end Bus

/-- Plain memory writes wherever its check accepts. -/
theorem Ram.truthful (ram : Ram) : Bus.Truthful ram where
  now _ _ h := refusal?_eq_none_iff.mpr (check_eq_ok_iff.mp h)
  later _ _ other byte h _ := refusal?_eq_none_iff.mpr
    (Nat.lt_of_lt_of_eq (check_eq_ok_iff.mp h) (ram.size_put other byte).symm)

namespace Cpu

variable {M : Type} [Bus M] {cpu : Cpu M}

/-- The writes of an instruction were accepted by the check before any of them is made. -/
theorem check_of_mem_rehearse :
    ∀ write ∈ cpu.rehearse.2.writes, Bus.check cpu.memory write.1 = .ok () :=
  Microcode.check_of_mem_writes _ (by simp)

/-- A step over a truthful check is refused no write. -/
theorem exists_writeAll_of_truthful (ht : Bus.Truthful cpu.memory) {executed : Executed}
    (h : cpu.rehearse.1 = .ok executed) :
    ∃ after, Bus.writeAll cpu.memory cpu.rehearse.2.writes = (.ok (), after) := by
  have hr : cpu.rehearse = (.ok executed, cpu.rehearse.2) := Prod.ext h rfl
  obtain ⟨operation, -, -, hj⟩ := rehearse_ok hr
  refine ht.exists_writeAll ?_ check_of_mem_rehearse
  rw [hj, Operation.writes_journal]
  exact operation.length_writes_le_two cpu.registers cpu.image

/-- A step that fails over a truthful check changes nothing at all. -/
theorem step_cpu_of_error (ht : Bus.Truthful cpu.memory) {fault : Fault}
    (h : cpu.step.result = .error fault) : cpu.step.cpu = cpu := by
  rcases step_error_cases h with ⟨-, hcpu⟩ | ⟨executed, cause, memory, hr, -, hw, -⟩
  · exact hcpu
  · obtain ⟨after, hmade⟩ := exists_writeAll_of_truthful ht hr
    rw [hmade] at hw
    cases hw

/-- **A failed step** keeps the registers, the clock and the verbose setting. Memory has the
instruction's writes up to the one that was refused, and none if the instruction itself failed.
Where the check tells the truth, memory is as before. -/
theorem step_failed {fault : Fault} (h : cpu.step.result = .error fault) :
    (cpu.step.cpu.registers = cpu.registers ∧ cpu.step.cpu.clock = cpu.clock ∧
      cpu.step.cpu.verbose = cpu.verbose) ∧
    (∃ made left, cpu.rehearse.2.writes = made ++ left ∧
      Bus.writeAll cpu.memory made = (.ok (), cpu.step.cpu.memory) ∧
      ((cpu.rehearse.1 = .error fault ∧ made = []) ∨
        ∃ executed address value later cause,
          cpu.rehearse.1 = .ok executed ∧ left = (address, value) :: later ∧
          Bus.write cpu.step.cpu.memory address value = .error cause ∧
          fault = .refused cause)) ∧
    (Bus.Truthful cpu.memory → cpu.step.cpu.memory = cpu.memory) := by
  rcases step_error_cases h with ⟨hr, hcpu⟩ | ⟨executed, cause, memory, hr, rfl, hw, hcpu⟩
  · rw [hcpu]
    exact ⟨⟨rfl, rfl, rfl⟩, ⟨[], _, rfl, rfl, .inl ⟨hr, rfl⟩⟩, fun _ => rfl⟩
  · rw [hcpu]
    refine ⟨⟨rfl, rfl, rfl⟩, ?_, fun ht => ?_⟩
    · obtain ⟨made, address, value, later, hwrites, hmade, hrefused⟩ := Bus.writeAll_error hw
      exact ⟨made, _, hwrites, hmade, .inr ⟨executed, address, value, later, cause, hr, rfl,
        Bus.write_of_refusal hrefused, rfl⟩⟩
    · obtain ⟨after, hafter⟩ := exists_writeAll_of_truthful ht hr
      rw [hafter] at hw
      cases hw

/-- A call whose second push meets a guard that did not announce itself. -/
def guardedCall : Cpu GuardedRam where
  registers := ⟨0, 0, 0, 0xFF, 0x0100, .powerOn⟩
  clock := .zero
  verbose := false
  memory := ⟨(Ram.zeros 0x0200 (by decide) (by decide)).put 0x0100 0x20,
    some ⟨0x01FE, 0x01FF, true, .refused, false⟩⟩

/-- A call whose second push lies beyond the end of plain memory. -/
def shortCall : Cpu Ram where
  registers := ⟨0, 0, 0, 0x00, 0x0010, .powerOn⟩
  clock := .zero
  verbose := false
  memory := (Ram.zeros 0x0180 (by decide) (by decide)).put 0x0010 0x20

/-- Behind the guard the first push stays, though the registers do not know of it. In plain memory
nothing stays. -/
theorem step_failed_calls :
    guardedCall.step.result = .error (.refused ⟨0x01FE, 0x01FE⟩) ∧
    guardedCall.step.cpu.registers = guardedCall.registers ∧
    Bus.read guardedCall.step.cpu.memory 0x01FF = .ok 0x01 ∧
    shortCall.step.result = .error (.refused ⟨0x01FF, 0x0180⟩) ∧
    shortCall.step.cpu.memory = shortCall.memory := by
  have hguarded : guardedCall.step.result = .error (.refused ⟨0x01FE, 0x01FE⟩) := by
    decide +kernel
  have hshort : shortCall.step.result = .error (.refused ⟨0x01FF, 0x0180⟩) := by
    decide +kernel
  exact ⟨hguarded, (step_failed hguarded).1.1, by decide +kernel, hshort,
    (step_failed hshort).2.2 (Ram.truthful _)⟩

end Cpu

end Nmos6502
