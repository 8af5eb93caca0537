import Mathlib.Tactic.Common
import Nmos6502.GuardedRam
import Nmos6502.Proofs.Demands

/-!
# Looking ahead

`Cpu.peek` decodes the instruction that `Cpu.step` is about to execute. The two look at memory in
different ways. Decoding reads the whole instruction as a range, and the range is asked for only
when the opcode is documented and memory long enough. Executing fetches byte by byte and goes on to
pointers, operands and the stack. They agree all the same, since the bytes of the instruction are
the first demands of an instruction: what refuses the range refuses the instruction, and with the
same cause.

What decoding cannot see is everything after these bytes, so a step can still fail where decoding
succeeds. It then fails because memory refused an access.

## Main definitions

* `Bus.successive` — addresses one after the other

## Main results

* `Bus.readRange_eq` — a range is refused with its first byte that is refused
* `Cpu.peek_of_fits` — what decoding gives for an instruction that is documented and fits
* `Cpu.step_agrees_peek` — decoding and executing agree
-/

namespace Nmos6502

/-! ## Ranges -/

namespace Bus

variable {M : Type} [Bus M]

/-- So many addresses, from `address` on. -/
def successive (address : UInt16) : (count : Nat) → List UInt16
  | 0 => []
  | count + 1 => address :: successive (address + 1) count

@[simp] theorem length_successive (address : UInt16) (count : Nat) :
    (successive address count).length = count := by
  induction count generalizing address with
  | zero => rfl
  | succ count ih => rw [successive, List.length_cons, ih]

theorem readRangeFrom_eq (memory : M) (found : List UInt8) (count : Nat) (address : UInt16) :
    readRangeFrom memory found count address =
      match firstRefusal? memory ((successive address count).map .read) with
      | some cause => .error cause
      | none => .ok (found.reverse ++ (successive address count).map (image memory).byte) := by
  induction count generalizing found address with
  | zero => simp [readRangeFrom, successive, firstRefusal?]
  | succ count ih =>
    rw [readRangeFrom, successive, List.map_cons, firstRefusal?_cons, List.map_cons, refusalOf?]
    cases hr : read memory address with
    | error cause => rfl
    | ok byte =>
      simp only [Option.none_or, ih, byte_image_of_read hr]
      rw [List.reverse_cons, List.append_assoc]
      rfl

/-- **A range** is refused with the first of its bytes that is refused. -/
theorem readRange_eq (memory : M) (address : UInt16) (count : Nat) :
    readRange memory address count =
      match firstRefusal? memory ((successive address count).map .read) with
      | some cause => .error cause
      | none => .ok ((successive address count).map (image memory).byte) :=
  readRangeFrom_eq memory [] count address

end Bus

/-! ## The bytes of an instruction -/

namespace Operation

variable (operation : Operation) (registers : Registers) (image : Image)

theorem ownAddresses_eq :
    operation.ownAddresses registers = Bus.successive registers.pc operation.size := by
  obtain ⟨mnemonic, mode, cycles⟩ := operation
  have htwo := pc_add_two registers.pc
  cases mode <;> simp [ownAddresses, Mode.operandAddresses, size, Mode.size, Mode.operandLength,
    Bus.successive, htwo]

/-- The bytes of an instruction are its first demands. -/
theorem exists_demands :
    ∃ others, operation.demands registers image =
      (operation.ownAddresses registers).map .read ++ others := by
  exact ⟨_, by rw [demands, allReads_eq, List.map_append, List.append_assoc]⟩

end Operation

/-! ## Decoding and executing -/

namespace Cpu

variable {M : Type} [Bus M] {cpu : Cpu M} {opcode : UInt8} {operation : Operation}

/-- **Decoding** an instruction that is documented and fits. -/
theorem peek_of_fits (hread : Bus.read cpu.memory cpu.registers.pc = .ok opcode)
    (ho : operation? opcode = some operation)
    (hs : operation.size ≤ Bus.size cpu.memory - cpu.registers.pc.toNat) :
    cpu.peek =
      match Bus.firstRefusal? cpu.memory ((operation.ownAddresses cpu.registers).map .read) with
      | some cause => .error (.refused cause)
      | none =>
        .ok (.ofOperation cpu.registers.pc opcode operation
          ((operation.ownAddresses cpu.registers).map cpu.image.byte)) := by
  rw [peek, Instruction.decodeAt, hread]
  simp only [ho, if_neg (Nat.not_lt.mpr hs), Bus.readRange_eq, operation.ownAddresses_eq]
  cases Bus.firstRefusal? cpu.memory ((Bus.successive cpu.registers.pc operation.size).map .read)
    <;> rfl

/-- Decoding and executing begin with the same three questions: for the opcode, for its operation
and for the size of memory. -/
theorem peek_cases (cpu : Cpu M) :
    (∃ fault, cpu.peek = .error fault ∧ cpu.rehearse.1 = .error fault) ∨
      ∃ opcode operation, Bus.read cpu.memory cpu.registers.pc = .ok opcode ∧
        operation? opcode = some operation ∧
        operation.size ≤ Bus.size cpu.memory - cpu.registers.pc.toNat := by
  cases hread : Bus.read cpu.memory cpu.registers.pc with
  | error cause =>
    exact .inl ⟨.refused cause, by rw [peek, Instruction.decodeAt, hread],
      rehearse_of_read_error hread⟩
  | ok opcode =>
    cases ho : operation? opcode with
    | none =>
      refine .inl ⟨.illegalOpcode opcode cpu.registers.pc, ?_, rehearse_of_illegal hread ho⟩
      simp only [peek, Instruction.decodeAt, hread, ho]
    | some operation =>
      by_cases hs : Bus.size cpu.memory - cpu.registers.pc.toNat < operation.size
      · refine .inl ⟨_, ?_, rehearse_of_incomplete hread ho hs⟩
        simp only [peek, Instruction.decodeAt, hread, ho, if_pos hs]
      · exact .inr ⟨opcode, operation, rfl, ho, Nat.not_lt.mp hs⟩

theorem step_result_of_rehearse_error {fault : Fault} (h : cpu.rehearse.1 = .error fault) :
    cpu.step.result = .error fault := by
  have hr : cpu.rehearse = (.error fault, cpu.rehearse.2) := Prod.ext h rfl
  rw [step_of_rehearse_error hr]

/-- A step that ends well had its rehearsal end well. -/
theorem exists_rehearse_of_ok {mnemonic : Mnemonic} (h : cpu.step.result = .ok mnemonic) :
    ∃ executed, cpu.rehearse.1 = .ok executed := by
  cases hr : cpu.rehearse.1 with
  | ok executed => exact ⟨executed, rfl⟩
  | error fault =>
    rw [step_result_of_rehearse_error hr] at h
    cases h

theorem step_error_of_peek_error {fault : Fault} (h : cpu.peek = .error fault) :
    cpu.step.result = .error fault := by
  apply step_result_of_rehearse_error
  rcases cpu.peek_cases with ⟨found, hpeek, hrehearse⟩ | ⟨opcode, operation, hread, ho, hs⟩
  · rw [hpeek] at h
    cases h
    exact hrehearse
  · obtain ⟨others, hdemands⟩ := operation.exists_demands cpu.registers cpu.image
    rw [peek_of_fits hread ho hs] at h
    rw [rehearse_of_fits hread ho hs, hdemands, Bus.firstRefusal?_append]
    cases hr : Bus.firstRefusal? cpu.memory ((operation.ownAddresses cpu.registers).map .read) with
    | none => rw [hr] at h; cases h
    | some cause => rw [hr] at h; cases h; rfl

/-- Where decoding succeeds, only memory can make the step fail. -/
theorem step_refused_of_peek_ok {instruction : Instruction} {fault : Fault}
    (hpeek : cpu.peek = .ok instruction) (h : cpu.step.result = .error fault) :
    ∃ cause, fault = .refused cause := by
  rcases step_error_cases h with ⟨hr, -⟩ | ⟨executed, cause, memory, -, hfault, -⟩
  · rcases cpu.peek_cases with ⟨found, herror, -⟩ | ⟨opcode, operation, hread, ho, hs⟩
    · rw [hpeek] at herror
      cases herror
    · rw [rehearse_of_fits hread ho hs] at hr
      split at hr
      · exact ⟨_, (Except.error.inj hr).symm⟩
      · cases hr
  · exact ⟨cause, hfault⟩

/-- A step that ends well executes the instruction that decoding gives. -/
theorem exists_peek_of_step_ok {mnemonic : Mnemonic} (h : cpu.step.result = .ok mnemonic) :
    ∃ opcode operation, Bus.read cpu.memory cpu.registers.pc = .ok opcode ∧
      operation? opcode = some operation ∧ operation.mnemonic = mnemonic ∧
      cpu.rehearse.2 = operation.journal cpu.registers cpu.image ∧
      cpu.peek = .ok (.ofOperation cpu.registers.pc opcode operation
        ((operation.ownAddresses cpu.registers).map cpu.image.byte)) := by
  obtain ⟨operation, hm, hx⟩ := exists_executes h
  obtain ⟨opcode, hread, ho⟩ := exists_opcode_of_next? hx.next
  obtain ⟨executed, hr⟩ := exists_rehearse_of_ok h
  have hs : operation.size ≤ Bus.size cpu.memory - cpu.registers.pc.toNat := by
    by_contra hlt
    rw [rehearse_of_incomplete hread ho (Nat.not_le.mp hlt)] at hr
    cases hr
  refine ⟨opcode, operation, hread, ho, hm, hx.journal, ?_⟩
  obtain ⟨others, hdemands⟩ := operation.exists_demands cpu.registers cpu.image
  rw [rehearse_of_fits hread ho hs, hdemands, Bus.firstRefusal?_append] at hr
  rw [peek_of_fits hread ho hs]
  cases hown : Bus.firstRefusal? cpu.memory ((operation.ownAddresses cpu.registers).map .read) with
  | none => rfl
  | some cause => rw [hown] at hr; cases hr

/-- The first accesses of an instruction are to its own bytes. -/
theorem zipWith_read_isPrefix (operation : Operation) (registers : Registers) (image : Image) :
    List.zipWith Access.read (Bus.successive registers.pc operation.size)
        ((operation.ownAddresses registers).map image.byte) <+:
      (operation.journal registers image).accesses.reverse := by
  rw [operation.accesses_journal, List.reverse_reverse, operation.ownAddresses_eq,
    List.zipWith_map_right, List.zipWith_self, Operation.accesses, operation.allReads_eq,
    List.map_append,
    List.append_assoc, operation.ownAddresses_eq]
  exact List.prefix_append _ _

/-- **Decoding and executing agree.** Where decoding fails, the step fails with the same fault. A
step that ends well executes the instruction that decoding gives, and the bytes of that are the
first that the step reads, at the program counter and after it. Where decoding succeeds, the opcode
is documented and memory long enough, and a step that fails was refused an access. -/
theorem step_agrees_peek (cpu : Cpu M) :
    (∀ fault, cpu.peek = .error fault → cpu.step.result = .error fault) ∧
    (∀ mnemonic, cpu.step.result = .ok mnemonic →
      ∃ instruction operation, cpu.peek = .ok instruction ∧
        Bus.read cpu.memory cpu.registers.pc = .ok instruction.opcode ∧
        operation? instruction.opcode = some operation ∧
        operation.mnemonic = mnemonic ∧ instruction.mnemonic = mnemonic ∧
        instruction.address = cpu.registers.pc ∧ instruction.mode = operation.mode ∧
        instruction.size = operation.size ∧ instruction.cycles = operation.cycles ∧
        instruction.raw.length = operation.size ∧
        List.zipWith Access.read (Bus.successive cpu.registers.pc operation.size)
            instruction.raw <+: cpu.rehearse.2.accesses.reverse) ∧
    ∀ instruction fault, cpu.peek = .ok instruction → cpu.step.result = .error fault →
      ∃ cause, fault = .refused cause := by
  refine ⟨fun fault => step_error_of_peek_error, fun mnemonic h => ?_,
    fun instruction fault => step_refused_of_peek_ok⟩
  obtain ⟨opcode, operation, hread, ho, rfl, hjournal, hpeek⟩ := exists_peek_of_step_ok h
  refine ⟨_, operation, hpeek, hread, ho, rfl, rfl, rfl, rfl, rfl, rfl, ?_, ?_⟩
  · rw [Instruction.ofOperation, List.length_map, operation.ownAddresses_eq,
      Bus.length_successive]
  · rw [hjournal]
    exact zipWith_read_isPrefix operation cpu.registers cpu.image

/-- A load whose last byte cannot be read. -/
def hiddenLoad : Cpu GuardedRam where
  registers := ⟨0, 0, 0, 0xFF, 0x0100, .powerOn⟩
  clock := .zero
  verbose := false
  memory := ⟨(Ram.zeros 0x0140 (by decide) (by decide)).put 0x0100 0xAD,
    some ⟨0x0102, 0x0103, false, .stored, false⟩⟩

/-- A push with the stack beyond the end of memory, after a load. -/
def loadThenPush : Cpu Ram where
  registers := ⟨0, 0, 0, 0xFF, 0, .powerOn⟩
  clock := .zero
  verbose := false
  memory := (((Ram.zeros 0x0080 (by decide) (by decide)).put 0 0xA9).put 1 0x42).put 2 0x48

/-- Decoding foresees what happens to the first load, and what the second executes. It does not
foresee that the push fails. -/
theorem step_agrees_peek_loads :
    hiddenLoad.step.result = .error (.refused ⟨0x0102, 0x0102⟩) ∧
    (∃ instruction, loadThenPush.peek = .ok instruction ∧ instruction.mnemonic = .lda ∧
      instruction.size = 2 ∧ instruction.cycles = 2 ∧
      List.zipWith Access.read [0, 1] instruction.raw <+:
        loadThenPush.rehearse.2.accesses.reverse) ∧
    ∃ cause, loadThenPush.step.cpu.step.result = .error (.refused cause) := by
  obtain ⟨hhidden, -, -⟩ := step_agrees_peek hiddenLoad
  obtain ⟨-, hload, -⟩ := step_agrees_peek loadThenPush
  obtain ⟨-, -, hpush⟩ := step_agrees_peek loadThenPush.step.cpu
  refine ⟨hhidden _ (by decide +kernel), ?_, ?_⟩
  · obtain ⟨instruction, operation, hpeek, hread, ho, -, hm, -, -, hsize, hcycles, -, hbytes⟩ :=
      hload .lda (by decide +kernel)
    have hopcode : Bus.read loadThenPush.memory loadThenPush.registers.pc = .ok 0xA9 := by
      decide +kernel
    have hlda : operation? 0xA9 = some ⟨.lda, .immediate, 2⟩ := by decide +kernel
    rw [← Except.ok.inj (hopcode.symm.trans hread), hlda] at ho
    cases ho
    exact ⟨instruction, hpeek, hm, hsize, hcycles, hbytes⟩
  · have hpeek : loadThenPush.step.cpu.peek = .ok ⟨2, 0x48, .pha, .implied, [0x48], 1, 3⟩ := by
      decide +kernel
    have hfails : loadThenPush.step.cpu.step.result = .error (.refused ⟨0x01FF, 0x0080⟩) := by
      decide +kernel
    obtain ⟨cause, hcause⟩ := hpush _ _ hpeek hfails
    exact ⟨cause, hfails.trans (congrArg _ hcause)⟩

end Cpu

end Nmos6502
