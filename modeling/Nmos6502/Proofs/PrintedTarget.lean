import Nmos6502.Proofs.Control
import Nmos6502.Proofs.HexReading

/-!
# The target that is printed

A listing shows where a branch, a jump or a call goes. For a branch this is computed a second time:
from the address of the instruction, while executing computes it from the program counter as it has
become by the fetches. And it is text by then. Read back as an address, it is where execution goes,
around both ends of the address space as well.

Both computations are the effective address. On one side the text of an operand that is a target
reads as that address, which has nothing to do with steps. On the other side, control goes there.

## Main results

* `Mode.parseAddress_operandText` — a target reads as the effective address
* `Cpu.step_printed_target` — what is printed before a step is where the step goes
-/

namespace Nmos6502

open Text

/-- **A target reads as the effective address.** -/
theorem Mode.parseAddress_operandText {mode : Mode} (h : mode = .relative ∨ mode = .absolute)
    {registers : Registers} {image : Image} {target : UInt16}
    (htarget : mode.effectiveAddress? registers image = some target) :
    parseAddress (operandText mode ((mode.operandAddresses registers).map image.byte)
      registers.pc) = .ok target := by
  rcases h with rfl | rfl <;> cases htarget <;> exact parseAddress_hexWord .upper _

namespace Cpu

variable {M : Type} [Bus M] {cpu : Cpu M} {mnemonic : Mnemonic}

/-- **The printed target is where execution goes.** The instruction is looked at before the step. If
it is a branch that is taken, or an absolute jump or call, its operand as text reads as the address
that the program counter has after the step. -/
theorem step_printed_target (h : cpu.step.result = .ok mnemonic) :
    ∃ instruction, cpu.peek = .ok instruction ∧ instruction.mnemonic = mnemonic ∧
      (mnemonic.isTaken cpu.registers.status = true ∨
          (mnemonic = .jmp ∨ mnemonic = .jsr) ∧ instruction.mode = .absolute →
        parseAddress instruction.operandText = .ok cpu.step.cpu.registers.pc) := by
  obtain ⟨operation, rfl, hx⟩ := exists_executes h
  obtain ⟨opcode, found, hread, ho, -, -, hpeek⟩ := exists_peek_of_step_ok h
  obtain ⟨opcode', hread', ho'⟩ := exists_opcode_of_next? hx.next
  cases hread.symm.trans hread'
  cases ho.symm.trans ho'
  refine ⟨_, hpeek, rfl, fun hgoes => ?_⟩
  have hmode : operation.mode = .relative ∨ operation.mode = .absolute := by
    refine hgoes.imp (fun htaken => ?_) And.right
    exact Operation.mode_of_isTaken ho htaken
  have hsent : operation.mnemonic.isTaken cpu.registers.status = true ∨
      operation.mnemonic.family = .jump ∨ operation.mnemonic.family = .call := by
    refine hgoes.imp_right fun hjumps => ?_
    rcases hjumps.1 with hm | hm <;> rw [hm]
    · exact .inl rfl
    · exact .inr rfl
  obtain ⟨target, htarget⟩ :
      ∃ target, operation.mode.effectiveAddress? cpu.registers cpu.image = some target := by
    rcases hmode with hmode | hmode <;> rw [hmode] <;> exact ⟨_, rfl⟩
  rw [hx.pc_of_goes hsent htarget]
  exact Mode.parseAddress_operandText hmode htarget

/-- The target of a branch back from the first address, and of a branch forwards from near the
last. -/
theorem step_printed_target_atEdge :
    (∃ instruction, (atEdge 0x90 0x80 0x0000).peek = .ok instruction ∧
      instruction.operandText = "$FF82" ∧
      (atEdge 0x90 0x80 0x0000).step.cpu.registers.pc = 0xFF82) ∧
    ∃ instruction, (atEdge 0x90 0x7F 0xFFF0).peek = .ok instruction ∧
      instruction.operandText = "$0071" ∧
      (atEdge 0x90 0x7F 0xFFF0).step.cpu.registers.pc = 0x0071 := by
  have hback : (atEdge 0x90 0x80 0x0000).step.result = .ok .bcc := by decide +kernel
  have hforth : (atEdge 0x90 0x7F 0xFFF0).step.result = .ok .bcc := by decide +kernel
  have hpeek : (atEdge 0x90 0x80 0x0000).peek =
      .ok ⟨0x0000, 0x90, .bcc, .relative, [0x90, 0x80], 2, 2⟩ := by decide +kernel
  have hpeek' : (atEdge 0x90 0x7F 0xFFF0).peek =
      .ok ⟨0xFFF0, 0x90, .bcc, .relative, [0x90, 0x7F], 2, 2⟩ := by decide +kernel
  obtain ⟨instruction, hfound, -, hpc⟩ := step_printed_target hback
  obtain ⟨instruction', hfound', -, hpc'⟩ := step_printed_target hforth
  cases hpeek.symm.trans hfound
  cases hpeek'.symm.trans hfound'
  have htext : operandText .relative [0x80] 0x0000 = "$FF82" := by decide +kernel
  have htext' : operandText .relative [0x7F] 0xFFF0 = "$0071" := by decide +kernel
  have hread : parseAddress "$FF82" = .ok 0xFF82 := by decide +kernel
  have hread' : parseAddress "$0071" = .ok 0x0071 := by decide +kernel
  refine ⟨⟨_, hpeek, htext, ?_⟩, _, hpeek', htext', ?_⟩
  · exact Except.ok.inj ((hpc (.inl rfl)).symm.trans ((congrArg parseAddress htext).trans hread))
  · exact Except.ok.inj ((hpc' (.inl rfl)).symm.trans ((congrArg parseAddress htext').trans hread'))

end Cpu

end Nmos6502
