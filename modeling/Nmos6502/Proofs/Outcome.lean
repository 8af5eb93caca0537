import Mathlib.Tactic.Common
import Nmos6502.Proofs.FailedStep
import Nmos6502.Proofs.Footprint
import Nmos6502.Proofs.PlainMemory
import Nmos6502.Proofs.ReadSet

/-!
# What a step over plain memory comes to

Several things can be wrong with one instruction: it may be incomplete and its pointer out of reach,
or its target and the stack. Which of them is reported is a matter of order, and over plain memory
the order can be written down as a short table. The opcode has to be there, then it has to begin
something, then the instruction has to fit, and then the first access that lies beyond the end
decides. `Cpu.outcome` is this table. It runs no instruction.

The accesses after those to the instruction itself are in `Operation.laterAddresses`: the pointer,
the byte to work on, the place of the result, the stack. No operation has use for all of them.

The check that the instruction fits comes before its operand is fetched. So the operand is fetched
only where its bytes follow the opcode without going around the end of the address space.

## Main definitions

* `Operation.laterAddresses` — what an instruction has to reach besides its own bytes
* `Cpu.outcome` — the table
* `Cpu.fetched` — where the bytes of the instruction come from

## Main results

* `Operation.map_address_demands` — the addresses that an instruction asks for
* `Cpu.fetched_prefix` — no fetch goes around the end
* `Cpu.step_outcome` — the table is right
-/

namespace Nmos6502

/-! ## The addresses of an instruction -/

namespace Operation

/-- The addresses that an instruction has to reach besides its own bytes, in order: those of the
pointer, of the byte to work on, of what is written, and of what is pulled from the stack. -/
def laterAddresses (operation : Operation) (registers : Registers) (image : Image) :
    List UInt16 :=
  let target := (operation.mode.effectiveAddress? registers image).toList
  operation.mode.pointerAddresses registers image ++
    ((if operation.mnemonic.operandUse.reads then target else []) ++
      (operation.mayWrite registers image ++ operation.mnemonic.pulledSlots registers.sp))

end Operation

/-- The operations of a family write where they may, and nowhere else. -/
theorem Family.map_fst_writes {family : Family} {operand : Operand} (hs : family.Suits operand)
    (ha : operand.mode = .accumulator → operand.address? = none) (registers : Registers)
    (image : Image) :
    (family.effect operand registers image).writes.map Prod.fst =
      family.mayWrite operand.address? registers.sp := by
  cases family with
  | store source =>
    obtain ⟨address, haddress⟩ := Option.isSome_iff_exists.mp hs.2
    simp [effect, mayWrite, haddress]
  | modify action =>
    simp only [effect, mayWrite]
    split
    next hm => rw [ha hm]; rfl
    next hm =>
      obtain ⟨address, haddress⟩ := Option.isSome_iff_exists.mp (hs.2.resolve_left hm)
      simp [haddress]
  | branch condition =>
    simp only [effect]
    split <;> rfl
  | load | internal | jump | push | pull | call | comeBack | resume => rfl

namespace Operation

variable {operation : Operation} {opcode : UInt8}

theorem map_fst_writes (ho : operation? opcode = some operation) (registers : Registers)
    (image : Image) :
    (operation.effect registers image).writes.map Prod.fst =
      operation.mayWrite registers image := by
  have htable : operation.mayWrite registers image = operation.mnemonic.family.mayWrite
      (operation.mode.effectiveAddress? registers image) registers.sp := by
    unfold mayWrite
    cases operation.mnemonic <;> rfl
  have haccumulator : operation.mode = .accumulator →
      operation.mode.effectiveAddress? registers image = none := fun h => by rw [h]; rfl
  rw [htable]
  exact Family.map_fst_writes (suits_operand (admits_of_operation? ho) registers image)
    haccumulator _ image

/-- No operation writes and pulls. -/
theorem pulledSlots_append_mayWrite (operation : Operation) (registers : Registers)
    (image : Image) :
    operation.mnemonic.pulledSlots registers.sp ++ operation.mayWrite registers image =
      operation.mayWrite registers image ++ operation.mnemonic.pulledSlots registers.sp := by
  unfold mayWrite
  cases operation.mnemonic with
  | pla | plp | rts | rti => rfl
  | _ => exact (List.append_nil _).symm

theorem targetAddresses_eq (ho : operation? opcode = some operation) (registers : Registers)
    (image : Image) :
    operation.mode.targetAddresses operation.mnemonic.family.operandUse registers image =
      if operation.mnemonic.operandUse.reads then
        (operation.mode.effectiveAddress? registers image).toList
      else [] := by
  rw [Mode.targetAddresses, ← operandUse_eq_family]
  cases hreads : operation.mnemonic.operandUse.reads with
  | false => rw [Bool.and_false]
  | true =>
    cases ha : operation.mode.effectiveAddress? registers image with
    | none => simp
    | some address => rw [isInMemory_of_effectiveAddress ho hreads ha, Bool.and_true]

/-- **The addresses an instruction asks for**: those of its own bytes, and then the others. -/
theorem map_address_demands (ho : operation? opcode = some operation) (registers : Registers)
    (image : Image) :
    (operation.demands registers image).map Demand.address =
      operation.ownAddresses registers ++ operation.laterAddresses registers image := by
  have hreads : Demand.address ∘ Demand.read = id := rfl
  have hwrites : (Demand.address ∘ fun write : UInt16 × UInt8 => Demand.write write.1) =
      Prod.fst := rfl
  rw [demands, List.map_append, List.map_map, List.map_map, hreads, hwrites, List.map_id,
    map_fst_writes ho, allReads_eq, targetAddresses_eq ho, pulls_effect, laterAddresses]
  simp only [List.append_assoc, pulledSlots_append_mayWrite]

end Operation

/-! ## The accesses that are made -/

/-- What was accessed before a fault is what is accessed first where nothing is refused. -/
theorem Microcode.exists_accesses_image {α M : Type} [Bus M] (memory : M) (code : Microcode α)
    (journal : Journal) :
    ∃ missed, (code.perform (Bus.image memory) journal).2.accesses =
      missed ++ (code.perform memory journal).2.accesses := by
  have hcut : ∀ (code : Microcode α) (journal : Journal),
      ∃ missed, (code.perform (Bus.image memory) journal).2.accesses =
        missed ++ journal.accesses := fun code journal => by
    obtain ⟨made, h⟩ := exists_accesses_perform (Bus.image memory) code journal
    exact ⟨_, h⟩
  induction code generalizing journal with
  | done result => exact ⟨[], rfl⟩
  | fail fault => exact ⟨[], rfl⟩
  | read address next ih =>
    cases hp : journal.pending? address with
    | some value =>
      simp only [perform, Journal.read, hp]
      exact ih value _
    | none =>
      cases hr : Bus.read memory address with
      | error cause =>
        have hstop : ((read address next).perform memory journal).2 = journal := by
          simp only [perform, Journal.read, hp, hr]
        rw [hstop]
        exact hcut _ journal
      | ok value =>
        have himage : Bus.read (Bus.image memory) address = .ok value :=
          congrArg Except.ok (Bus.byte_image_of_read hr)
        simp only [perform, Journal.read, hp, hr, himage]
        exact ih value _
  | write address value next ih =>
    cases hc : Bus.check memory address with
    | error cause =>
      have hstop : ((write address value next).perform memory journal).2 = journal := by
        simp only [perform, hc]
      rw [hstop]
      exact hcut _ journal
    | ok accepted =>
      have himage : Bus.check (Bus.image memory) address = .ok () := rfl
      simp only [perform, hc, himage]
      exact ih _
  | idle next ih => exact ih _

namespace Cpu

/-! ## The table -/

variable {cpu : Cpu Ram} {operation : Operation}

theorem next?_of_operation? {opcode : UInt8}
    (hread : Bus.read cpu.memory cpu.registers.pc = .ok opcode)
    (ho : operation? opcode = some operation) : cpu.next? = some operation := by
  unfold next?
  rw [hread]
  exact ho

/-- What a step comes to. -/
def outcome (cpu : Cpu Ram) : Except Fault Mnemonic :=
  let pc := cpu.registers.pc
  let size := cpu.memory.size
  if size ≤ pc.toNat then .error (.refused ⟨pc.toNat, size⟩)
  else
    let opcode := cpu.memory.bytes.getD pc.toNat 0
    match operation? opcode with
    | none => .error (.illegalOpcode opcode pc)
    | some operation =>
      let available := size - pc.toNat
      if available < operation.size then .error (.incomplete pc operation.size available)
      else
        match cpu.memory.firstBeyond? (operation.laterAddresses cpu.registers cpu.image) with
        | some address => .error (.refused ⟨address.toNat, size⟩)
        | none => .ok operation.mnemonic

theorem step_result_of_fits {opcode : UInt8}
    (hread : Bus.read cpu.memory cpu.registers.pc = .ok opcode)
    (ho : operation? opcode = some operation)
    (hs : operation.size ≤ cpu.memory.size - cpu.registers.pc.toNat) :
    cpu.step.result =
      match cpu.memory.firstBeyond? (operation.laterAddresses cpu.registers cpu.image) with
      | some address => .error (.refused ⟨address.toNat, cpu.memory.size⟩)
      | none => .ok operation.mnemonic := by
  have hpos : 0 < operation.size := operation.mode.size_pos
  have hown : cpu.memory.firstBeyond? (operation.ownAddresses cpu.registers) = none := by
    rw [operation.ownAddresses_eq]
    exact cpu.memory.firstBeyond?_successive_of_le (by omega)
  have hrehearse := rehearse_of_fits hread ho hs
  rw [Ram.firstRefusal?_eq, Operation.map_address_demands ho, Ram.firstBeyond?_append, hown,
    Option.none_or] at hrehearse
  cases hbeyond : cpu.memory.firstBeyond?
      (operation.laterAddresses cpu.registers cpu.image) with
  | some address =>
    rw [hbeyond] at hrehearse
    exact step_result_of_rehearse_error hrehearse
  | none =>
    rw [hbeyond] at hrehearse
    obtain ⟨after, hw⟩ := exists_writeAll_of_truthful (Ram.truthful cpu.memory) hrehearse
    rw [step_of_writeAll_ok (Prod.ext hrehearse rfl) hw]

theorem step_result_eq_outcome (cpu : Cpu Ram) : cpu.step.result = cpu.outcome := by
  have hread := cpu.memory.read_eq cpu.registers.pc
  rw [outcome]
  by_cases hpc : cpu.memory.size ≤ cpu.registers.pc.toNat
  · rw [if_pos hpc] at hread ⊢
    exact step_result_of_rehearse_error (rehearse_of_read_error hread)
  · rw [if_neg hpc] at hread ⊢
    cases ho : operation? (cpu.memory.bytes.getD cpu.registers.pc.toNat 0) with
    | none =>
      simp only [ho]
      exact step_result_of_rehearse_error (rehearse_of_illegal hread ho)
    | some operation =>
      simp only [ho]
      by_cases hs : cpu.memory.size - cpu.registers.pc.toNat < operation.size
      · rw [if_pos hs]
        exact step_result_of_rehearse_error (rehearse_of_incomplete hread ho hs)
      · rw [if_neg hs]
        exact step_result_of_fits hread ho (Nat.not_lt.mp hs)

/-! ## What is fetched -/

/-- The addresses that a step accesses, in order, up to a fault. -/
def accessed (cpu : Cpu Ram) : List UInt16 :=
  cpu.rehearse.2.accesses.reverse.map fun access => access.demand.address

/-- How many bytes the instruction at the program counter has. What begins no instruction is one
byte. -/
def instructionLength (cpu : Cpu Ram) : Nat :=
  cpu.next?.elim 1 Operation.size

/-- Where a step fetches its instruction from: the first addresses that it accesses, one for each
byte of the instruction. -/
def fetched (cpu : Cpu Ram) : List Nat :=
  (cpu.accessed.take cpu.instructionLength).map UInt16.toNat

theorem instructionLength_pos (cpu : Cpu Ram) : 0 < cpu.instructionLength := by
  rw [instructionLength]
  cases cpu.next? with
  | none => exact Nat.one_pos
  | some operation => exact operation.mode.size_pos

theorem accessed_of_read_error {cause : OutOfBounds}
    (hread : Bus.read cpu.memory cpu.registers.pc = .error cause) : cpu.accessed = [] := by
  have hnone : Journal.empty.read cpu.memory cpu.registers.pc = .error cause := hread
  simp only [accessed, rehearse, Registers.instruction, Registers.fetch, readByte,
    Microcode.read_bind, Microcode.perform, hnone]
  rfl

/-- An instruction that cannot go on accesses its opcode and nothing else. -/
theorem accessed_of_stops {opcode : UInt8}
    (hread : Bus.read cpu.memory cpu.registers.pc = .ok opcode)
    (hstop : ∀ operation, operation? opcode = some operation →
      cpu.memory.size - cpu.registers.pc.toNat < operation.size) :
    cpu.accessed = [cpu.registers.pc] := by
  have haccesses : cpu.rehearse.2.accesses = [.read cpu.registers.pc opcode] := by
    rw [rehearse, Registers.instruction, Microcode.perform_bind_of_ok (fetch_of_read hread)]
    cases ho : operation? opcode with
    | none =>
      simp only [ho]
      rfl
    | some operation =>
      have hs : Bus.size cpu.memory - cpu.registers.pc.toNat < operation.size := hstop _ ho
      simp only [ho, if_pos hs]
      rfl
  rw [accessed, haccesses]
  rfl

/-- An instruction that fits accesses its own addresses first and then the others. -/
theorem accessed_of_fits (hnext : cpu.next? = some operation)
    (hs : operation.size ≤ cpu.memory.size - cpu.registers.pc.toNat) :
    cpu.accessed <+:
      operation.ownAddresses cpu.registers ++
        operation.laterAddresses cpu.registers cpu.image := by
  obtain ⟨opcode, hread, ho⟩ := exists_opcode_of_next? hnext
  have himage : operation? (cpu.image.byte cpu.registers.pc) = some operation := by
    rw [image, Bus.byte_image_of_read hread, ho]
  obtain ⟨missed, hmissed⟩ := Microcode.exists_accesses_image cpu.memory
    (cpu.registers.instruction cpu.memory.size) .empty
  have hall := congrArg (fun outcome => outcome.2.accesses) (instruction_image himage hs)
  simp only [Operation.accesses_journal] at hall
  have hmade : operation.accesses cpu.registers cpu.image =
      cpu.rehearse.2.accesses.reverse ++ missed.reverse := by
    rw [← List.reverse_append, ← List.reverse_inj, List.reverse_reverse, ← hall]
    exact hmissed
  have haddresses : (operation.accesses cpu.registers cpu.image).map
      (fun access => access.demand.address) =
        (operation.demands cpu.registers cpu.image).map Demand.address := by
    simp [Operation.accesses, Operation.demands, Access.demand, Demand.address, Function.comp_def]
  refine ⟨missed.reverse.map fun access => access.demand.address, ?_⟩
  rw [accessed, ← List.map_append, ← hmade, haddresses, Operation.map_address_demands ho]

/-- What accesses at most the opcode fetches at most the opcode. -/
theorem fetched_of_accessed_prefix (h : cpu.accessed <+: [cpu.registers.pc]) :
    cpu.fetched <+: List.range' cpu.registers.pc.toNat cpu.instructionLength := by
  obtain ⟨more, hlength⟩ := Nat.exists_eq_succ_of_ne_zero (Nat.ne_of_gt cpu.instructionLength_pos)
  rw [fetched, hlength, List.range'_succ]
  have hfirst : (cpu.accessed.take (more + 1)).map UInt16.toNat <+: [cpu.registers.pc.toNat] :=
    ((List.take_prefix _ _).trans h).map UInt16.toNat
  exact hfirst.trans (List.prefix_append [_] _)

/-- The check has made sure that the bytes of the instruction do not go around the end. -/
theorem fetched_of_fits (hnext : cpu.next? = some operation)
    (hs : operation.size ≤ cpu.memory.size - cpu.registers.pc.toNat) :
    cpu.fetched <+: List.range' cpu.registers.pc.toNat operation.size := by
  have hown : (operation.ownAddresses cpu.registers).map UInt16.toNat =
      List.range' cpu.registers.pc.toNat operation.size := by
    have hpos : 0 < operation.size := operation.mode.size_pos
    have hsize : cpu.memory.size ≤ addressSpace := cpu.memory.size_le
    rw [operation.ownAddresses_eq]
    exact Bus.map_toNat_successive_of_le (by omega)
  have hcount : (operation.ownAddresses cpu.registers).length = operation.size := by
    simpa using congrArg List.length hown
  have htake : cpu.accessed.take operation.size <+: operation.ownAddresses cpu.registers := by
    refine List.prefix_of_prefix_length_le
      ((List.take_prefix _ _).trans (accessed_of_fits hnext hs)) (List.prefix_append _ _) ?_
    rw [hcount, List.length_take]
    exact Nat.min_le_left _ _
  rw [fetched, instructionLength, hnext, ← hown]
  exact htake.map UInt16.toNat

/-- **No fetch goes around the end.** The bytes of an instruction come from successive places. -/
theorem fetched_prefix (cpu : Cpu Ram) :
    cpu.fetched <+: List.range' cpu.registers.pc.toNat cpu.instructionLength := by
  cases hread : Bus.read cpu.memory cpu.registers.pc with
  | error cause =>
    exact fetched_of_accessed_prefix (accessed_of_read_error hread ▸ List.nil_prefix)
  | ok opcode =>
    by_cases hfits : ∃ operation, operation? opcode = some operation ∧
        operation.size ≤ cpu.memory.size - cpu.registers.pc.toNat
    · obtain ⟨operation, ho, hs⟩ := hfits
      have hnext := next?_of_operation? hread ho
      rw [instructionLength, hnext]
      exact fetched_of_fits hnext hs
    · have hstops := accessed_of_stops hread fun operation ho =>
        Nat.lt_of_not_le fun hs => hfits ⟨operation, ho, hs⟩
      exact fetched_of_accessed_prefix (hstops ▸ List.prefix_rfl)

/-- **What a step comes to.** The table is right, for every memory and every state. Memory that
fills the address space refuses nothing, so there every instruction that fits succeeds. And the
bytes of an instruction never come from around the end of the address space. -/
theorem step_outcome (cpu : Cpu Ram) :
    cpu.step.result = cpu.outcome ∧
    (cpu.memory.size = addressSpace → ∀ operation, cpu.next? = some operation →
      cpu.registers.pc.toNat + operation.size ≤ addressSpace →
        cpu.step.result = .ok operation.mnemonic) ∧
    cpu.fetched <+: List.range' cpu.registers.pc.toNat cpu.instructionLength := by
  refine ⟨cpu.step_result_eq_outcome, fun hfull operation hnext hs => ?_, cpu.fetched_prefix⟩
  obtain ⟨opcode, hread, ho⟩ := exists_opcode_of_next? hnext
  have hnone : cpu.memory.firstBeyond? (operation.laterAddresses cpu.registers cpu.image) = none :=
    cpu.memory.firstBeyond?_eq_none fun address _ => hfull ▸ address.toNat_lt
  rw [step_result_of_fits hread ho (by omega), hnone]

/-- A load through a pointer whose first byte is the last of memory. -/
def loadingAtEnd : Cpu Ram where
  registers := ⟨0, 0, 0, 0xFF, 0, .powerOn⟩
  clock := .zero
  verbose := false
  memory := ((Ram.zeros 0x0018 (by decide) (by decide)).put 0 0xB1).put 1 0x17

/-- A break in the last byte of the address space. -/
def breakingAtEnd : Cpu Ram where
  registers := ⟨0, 0, 0, 0xFF, 0xFFFF, .powerOn⟩
  clock := .zero
  verbose := false
  memory := .full

/-- The second byte of the pointer is the one that is refused. A break in the last byte fits and
succeeds, and only that byte is fetched. -/
theorem step_outcome_atEnd :
    loadingAtEnd.step.result = .error (.refused ⟨0x0018, 0x0018⟩) ∧
    breakingAtEnd.step.result = .ok .brk ∧
    breakingAtEnd.fetched <+: [0xFFFF] := by
  constructor
  · obtain ⟨hresult, -, -⟩ := step_outcome loadingAtEnd
    have htable : loadingAtEnd.outcome = .error (.refused ⟨0x0018, 0x0018⟩) := by decide +kernel
    exact hresult.trans htable
  · obtain ⟨-, hfull, hfetched⟩ := step_outcome breakingAtEnd
    have hsize : breakingAtEnd.memory.size = addressSpace := Array.size_replicate
    have hread : Bus.read breakingAtEnd.memory 0xFFFF = .ok 0 := by
      rw [Ram.read_eq, hsize, if_neg (by decide)]
      simp [breakingAtEnd, Ram.full, Ram.zeros, addressSpace]
    have hbrk : operation? 0 = some ⟨.brk, .implied, 7⟩ := by decide +kernel
    have hnext : breakingAtEnd.next? = some ⟨.brk, .implied, 7⟩ := next?_of_operation? hread hbrk
    rw [instructionLength, hnext] at hfetched
    exact ⟨hfull hsize _ hnext (by decide), hfetched⟩

end Cpu

end Nmos6502
