import Mathlib.Tactic.Common
import Nmos6502.GuardedRam
import Nmos6502.Proofs.Demands

/-!
# What a step may read

Reading memory can have effects of its own where devices are mapped into it, so which addresses a
step reads is part of what it does. A step may read the bytes of its instruction, the pointer that
the mode follows, the byte to work on if the operation works on one, and the slots of the stack
that it pulls. No others: not the place a store replaces, not the destination of a jump, and never
an address a second time to be sure.

That is stated over two memories. They treat writes alike and give the same answers where the step
may read; elsewhere they have nothing to do with each other, and one may refuse what the other
gives. The step is then the same over both. So the set is an upper bound that cannot be met by
chance: an address that is read and not in the set could be given another byte.

Addresses are found by reading. Where the bytes that an address is computed from cannot be read,
there is no such address, and the set does not contain it.

## Main definitions

* `Mnemonic.pulledSlots` — the slots of the stack that an operation pulls
* `Cpu.MayRead` — the addresses that a step may read
* `Bus.WritesAlike` — two memories treat writes alike
* `Cpu.onto`, `Cpu.StepsAlike` — a processor over another memory, and that it makes the same step

## Main results

* `Cpu.mayRead_of_mem_demands` — the step asks for no byte outside the set
* `Cpu.step_reads_only` — what is outside the set does not matter
-/

namespace Nmos6502

/-! ## The set -/

/-- The slots of the stack that an operation pulls. -/
def Mnemonic.pulledSlots (mnemonic : Mnemonic) (sp : UInt8) : List UInt16 :=
  match mnemonic with
  | .pla | .plp => [stackSlot (sp + 1)]
  | .rts => [stackSlot (sp + 1), stackSlot (sp + 2)]
  | .rti => [stackSlot (sp + 1), stackSlot (sp + 2), stackSlot (sp + 3)]
  | _ => []

/-- Stores, jumps, calls and branches work on no byte in memory and pull nothing. -/
theorem Mnemonic.reads_no_byte {mnemonic : Mnemonic}
    (h : mnemonic ∈ [.sta, .stx, .sty, .jmp, .jsr, .bcc, .bcs, .beq, .bmi, .bne, .bpl, .bvc, .bvs])
    (sp : UInt8) :
    (mnemonic.operandUse = .unused ∨ mnemonic.operandUse = .write) ∧
      mnemonic.pulledSlots sp = [] := by
  cases mnemonic with
  | sta | stx | sty => exact ⟨.inr rfl, rfl⟩
  | jmp | jsr | bcc | bcs | beq | bmi | bne | bpl | bvc | bvs => exact ⟨.inl rfl, rfl⟩
  | _ => exact absurd h (by decide)

namespace Cpu

variable {M N : Type} [Bus M] [Bus N]

/-- The bytes at some addresses can be read. -/
def CanRead (cpu : Cpu M) (addresses : List UInt16) : Prop :=
  ∀ address ∈ addresses, ∃ byte, Bus.read cpu.memory address = .ok byte

/-- The addresses that a step may read. -/
inductive MayRead (cpu : Cpu M) : UInt16 → Prop
  /-- The opcode. -/
  | opcode : MayRead cpu cpu.registers.pc
  /-- The bytes of the instruction. -/
  | own {operation : Operation} (next : cpu.next? = some operation) {address : UInt16}
    (mem : address ∈ operation.ownAddresses cpu.registers) : MayRead cpu address
  /-- The bytes of the pointer, if there are operand bytes to tell where it is. -/
  | pointer {operation : Operation} (next : cpu.next? = some operation)
    (own : cpu.CanRead (operation.ownAddresses cpu.registers)) {address : UInt16}
    (mem : address ∈ operation.mode.pointerAddresses cpu.registers cpu.image) :
    MayRead cpu address
  /-- The effective address, if the operation works on the byte there. -/
  | target {operation : Operation} (next : cpu.next? = some operation)
    (own : cpu.CanRead (operation.ownAddresses cpu.registers))
    (pointer : cpu.CanRead (operation.mode.pointerAddresses cpu.registers cpu.image))
    (use : operation.mnemonic.operandUse = .read ∨
      operation.mnemonic.operandUse = .readModifyWrite) {address : UInt16}
    (effective : operation.mode.effectiveAddress? cpu.registers cpu.image = some address) :
    MayRead cpu address
  /-- The slots of the stack that are pulled. -/
  | stack {operation : Operation} (next : cpu.next? = some operation) {address : UInt16}
    (mem : address ∈ operation.mnemonic.pulledSlots cpu.registers.sp) : MayRead cpu address

end Cpu

/-! ## Demands are in the set -/

/-- The slots of the stack that the operations of a family pull. -/
def Family.pulledSlots (family : Family) (sp : UInt8) : List UInt16 :=
  match family with
  | .pull _ => [stackSlot (sp + 1)]
  | .comeBack => [stackSlot (sp + 1), stackSlot (sp + 1 + 1)]
  | .resume => [stackSlot (sp + 1), stackSlot (sp + 1 + 1), stackSlot (sp + 1 + 1 + 1)]
  | _ => []

theorem Family.pulls_effect (family : Family) (operand : Operand) (registers : Registers)
    (image : Image) :
    (family.effect operand registers image).pulls = family.pulledSlots registers.sp := by
  cases family with
  | modify action =>
    simp only [effect]
    split <;> rfl
  | branch condition =>
    simp only [effect]
    split <;> rfl
  | load | store | internal | jump | push | pull | call | comeBack | resume => rfl

theorem Operation.pulls_effect (operation : Operation) (registers : Registers) (image : Image) :
    (operation.effect registers image).pulls =
      operation.mnemonic.pulledSlots registers.sp := by
  have htable : operation.mnemonic.pulledSlots registers.sp =
      operation.mnemonic.family.pulledSlots registers.sp := by
    simp only [Family.pulledSlots, sp_add_two, sp_add_three]
    cases operation.mnemonic <;> rfl
  rw [htable]
  exact Family.pulls_effect ..

/-- An operation that works on the byte at an effective address has its operand in memory. -/
theorem Operation.isInMemory_of_effectiveAddress {operation : Operation} {opcode : UInt8}
    (ho : operation? opcode = some operation) (hreads : operation.mnemonic.operandUse.reads = true)
    {registers : Registers} {image : Image} {address : UInt16}
    (ha : operation.mode.effectiveAddress? registers image = some address) :
    operation.mode.isInMemory = true := by
  have hmode := forall_operation
    (p := fun operation => operation.mnemonic.operandUse.reads = true →
      operation.mode.isInMemory = true ∨ operation.mode = .immediate ∨
        operation.mode = .accumulator)
    (by decide +kernel) ho hreads
  rcases hmode with hm | hm | hm
  · exact hm
  · rw [hm] at ha
    cases ha
  · rw [hm] at ha
    cases ha

namespace Cpu

variable {M N : Type} [Bus M] [Bus N] {cpu : Cpu M}

/-- The demands of an operation are in the set, as long as those before it were met. -/
theorem mayRead_of_demands {operation : Operation} (next : cpu.next? = some operation)
    {before after : List Demand} {address : UInt16}
    (h : operation.demands cpu.registers cpu.image = before ++ .read address :: after)
    (hmet : ∀ earlier ∈ before, Bus.refusalOf? cpu.memory earlier = none) :
    cpu.MayRead address := by
  have hread : ∀ addresses : List UInt16,
      (∀ earlier ∈ addresses.map Demand.read, Bus.refusalOf? cpu.memory earlier = none) →
        cpu.CanRead addresses :=
    fun addresses hmet a ha => Bus.exists_read_of_met (hmet _ (List.mem_map_of_mem ha))
  have hmem : ∀ addresses : List UInt16,
      Demand.read address ∈ addresses.map Demand.read → address ∈ addresses := by
    intro addresses hd
    obtain ⟨a, ha, heq⟩ := List.mem_map.mp hd
    cases heq
    exact ha
  simp only [Operation.demands, Operation.allReads_eq, List.map_append, List.append_assoc] at h
  rcases Bus.mem_or_met_of_append_eq h hmet with hd | ⟨hown, rest, h, hmet⟩
  · exact .own next (hmem _ hd)
  rcases Bus.mem_or_met_of_append_eq h hmet with hd | ⟨hpointer, rest, h, hmet⟩
  · exact .pointer next (hread _ hown) (hmem _ hd)
  rcases Bus.mem_or_met_of_append_eq h hmet with hd | ⟨-, rest, h, hmet⟩
  · have ha := hmem _ hd
    rw [Mode.targetAddresses, ← operandUse_eq_family] at ha
    split at ha
    next huse =>
      refine .target next (hread _ hown) (hread _ hpointer) ?_ (Option.mem_toList.mp ha)
      have hreads := ((Bool.and_eq_true _ _).mp huse).2
      cases hu : operation.mnemonic.operandUse with
      | read => exact .inl rfl
      | readModifyWrite => exact .inr rfl
      | unused | write => rw [hu] at hreads; cases hreads
    next => cases ha
  rcases Bus.mem_or_met_of_append_eq h hmet with hd | ⟨-, rest, h, -⟩
  · have ha := hmem _ hd
    rw [Operation.pulls_effect] at ha
    exact .stack next ha
  · have hwrite : Demand.read address ∈ rest ++ Demand.read address :: after := by simp
    rw [← h] at hwrite
    obtain ⟨write, -, heq⟩ := List.mem_map.mp hwrite
    cases heq

/-- **The step asks for no byte outside the set.** -/
theorem mayRead_of_mem_demands {address : UInt16}
    (h : .read address ∈ (cpu.registers.instruction (Bus.size cpu.memory)).demands cpu.memory
      .empty) : cpu.MayRead address := by
  cases hread : Bus.read cpu.memory cpu.registers.pc with
  | error cause =>
    simp only [Registers.instruction, Registers.fetch, readByte, Microcode.read_bind,
      Microcode.demands, Journal.pending?_empty, hread, List.mem_singleton] at h
    cases h
    exact .opcode
  | ok opcode =>
    have hlater := h
    simp only [Registers.instruction, Registers.fetch, readByte, Microcode.read_bind,
      Microcode.demands, Journal.pending?_empty, hread, Microcode.done_bind,
      Microcode.pure_eq_done] at hlater
    rcases List.mem_cons.mp hlater with heq | hlater
    · cases heq
      exact .opcode
    cases ho : operation? opcode with
    | none =>
      simp only [ho, Microcode.demands] at hlater
      cases hlater
    | some operation =>
      by_cases hs : Bus.size cpu.memory - cpu.registers.pc.toNat < operation.size
      · simp only [ho, if_pos hs, Microcode.demands] at hlater
        cases hlater
      · have himage : operation? (cpu.image.byte cpu.registers.pc) = some operation := by
          rw [image, Bus.byte_image_of_read hread, ho]
        have hnext : cpu.next? = some operation := (next?_of_read hread).trans himage
        obtain ⟨before, after, hdemands, hmet⟩ := Microcode.exists_append_of_mem_demands _ h
        have hall := Operation.demands_instruction himage (Nat.not_lt.mp hs)
        exact mayRead_of_demands hnext (hall.symm.trans hdemands) hmet

end Cpu

/-! ## Two memories -/

namespace Bus

variable {M N : Type} [Bus M] [Bus N]

/-- Two memories have the same size and treat writes alike: the checks agree, and every series of
writes has the same outcome. -/
structure WritesAlike (memory : M) (other : N) : Prop where
  /-- The sizes are the same. -/
  size : size other = size memory
  /-- The checks agree. -/
  check : ∀ address, check other address = check memory address
  /-- Every series of writes is accepted by both, or refused with the same cause. -/
  writeAll : ∀ writes, (writeAll other writes).1 = (writeAll memory writes).1

theorem writeAll_append {memory between : M} {first second : List (UInt16 × UInt8)}
    (h : Bus.writeAll memory first = (.ok (), between)) :
    Bus.writeAll memory (first ++ second) = Bus.writeAll between second := by
  induction first generalizing memory with
  | nil => cases h; rfl
  | cons write first ih =>
    obtain ⟨haccepted, hlater⟩ := writeAll_cons_ok.mp h
    rw [List.cons_append, Bus.writeAll, haccepted]
    exact ih hlater

theorem writeAll_cons_of_error {memory : M} {write : UInt16 × UInt8} {cause : OutOfBounds}
    (h : (Bus.writeAll memory [write]).1 = .error cause) (left : List (UInt16 × UInt8)) :
    Bus.writeAll memory (write :: left) = (.error cause, memory) := by
  rw [Bus.writeAll] at h ⊢
  cases hr : refusal? memory write.1 write.2 with
  | none =>
    rw [hr] at h
    cases h
  | some refusal =>
    rw [hr] at h
    rw [Except.error.inj h]

/-- Memories that treat writes alike cut a series of writes off at the same place. -/
theorem WritesAlike.exists_made {memory : M} {other : N} (hw : WritesAlike memory other)
    (writes : List (UInt16 × UInt8)) :
    ∃ made, made <+: writes ∧
      Bus.writeAll memory made = (.ok (), (Bus.writeAll memory writes).2) ∧
      Bus.writeAll other made = (.ok (), (Bus.writeAll other writes).2) := by
  rcases h : Bus.writeAll memory writes with ⟨cause | done, after⟩
  · obtain ⟨made, address, value, left, rfl, hmade, hrefused⟩ := writeAll_error h
    obtain ⟨between, hother⟩ : ∃ between, Bus.writeAll other made = (.ok (), between) :=
      ⟨_, Prod.ext ((hw.writeAll made).trans (congrArg Prod.fst hmade)) rfl⟩
    refine ⟨made, List.prefix_append _ _, hmade, ?_⟩
    -- one more write settles it: the first memory refuses it, so the other does
    have hcut : (Bus.writeAll between [(address, value)]).1 = .error cause := by
      have houtcome := hw.writeAll (made ++ [(address, value)])
      rw [writeAll_append hmade, writeAll_append hother] at houtcome
      rw [houtcome, Bus.writeAll, hrefused]
    rw [hother, writeAll_append hother, writeAll_cons_of_error hcut]
  · exact ⟨writes, List.prefix_refl _, h,
      Prod.ext ((hw.writeAll writes).trans (congrArg Prod.fst h)) rfl⟩

end Bus

namespace Cpu

variable {M N : Type} [Bus M] [Bus N]

/-- The processor over another memory. -/
def onto (cpu : Cpu M) (other : N) : Cpu N :=
  ⟨cpu.registers, cpu.clock, cpu.verbose, other⟩

/-- A processor makes the same step over another memory. -/
structure StepsAlike (cpu : Cpu M) (other : N) : Prop where
  /-- The same operation is executed, or the step fails with the same fault. -/
  result : (cpu.onto other).step.result = cpu.step.result
  /-- The registers end up the same. -/
  registers : (cpu.onto other).step.cpu.registers = cpu.step.cpu.registers
  /-- So does the clock. -/
  clock : (cpu.onto other).step.cpu.clock = cpu.step.cpu.clock
  /-- The instruction asks for the same writes. -/
  writes : (cpu.onto other).rehearse.2.writes = cpu.rehearse.2.writes
  /-- The same of them are made. -/
  made : ∃ made, made <+: cpu.rehearse.2.writes ∧
    Bus.writeAll cpu.memory made = (.ok (), cpu.step.cpu.memory) ∧
    Bus.writeAll other made = (.ok (), (cpu.onto other).step.cpu.memory)

variable {cpu : Cpu M} {other : N}

theorem rehearse_onto (hw : Bus.WritesAlike cpu.memory other)
    (hr : ∀ address, cpu.MayRead address → Bus.read other address = Bus.read cpu.memory address) :
    (cpu.onto other).rehearse = cpu.rehearse := by
  rw [rehearse, onto, hw.size]
  refine Microcode.perform_congr _ fun demand hd => ?_
  cases demand with
  | read address => exact hr address (mayRead_of_mem_demands hd)
  | write address => exact hw.check address

theorem stepsAlike (hw : Bus.WritesAlike cpu.memory other)
    (hr : ∀ address, cpu.MayRead address → Bus.read other address = Bus.read cpu.memory address) :
    cpu.StepsAlike other := by
  have honto := rehearse_onto hw hr
  rcases h : cpu.rehearse with ⟨fault | executed, journal⟩
  · rw [h] at honto
    have hstep := step_of_rehearse_error h
    have hother := step_of_rehearse_error honto
    refine ⟨by rw [hstep, hother], by rw [hstep, hother]; rfl, by rw [hstep, hother]; rfl,
      by rw [h, honto], [], List.nil_prefix, by rw [hstep]; rfl, by rw [hother]; rfl⟩
  · rw [h] at honto
    obtain ⟨made, hprefix, hmade, hmadeOther⟩ := hw.exists_made journal.writes
    have houtcome := hw.writeAll journal.writes
    rcases hfirst : Bus.writeAll cpu.memory journal.writes with ⟨cause | done, memory⟩ <;>
      rcases hsecond : Bus.writeAll other journal.writes with ⟨refusal | done, memory'⟩ <;>
      rw [hfirst, hsecond] at houtcome <;> cases houtcome <;>
      rw [hfirst] at hmade <;> rw [hsecond] at hmadeOther
    · have hstep := step_of_writeAll_error h hfirst
      have hother := step_of_writeAll_error honto hsecond
      refine ⟨by rw [hstep, hother], by rw [hstep, hother]; rfl, by rw [hstep, hother]; rfl,
        by rw [h, honto], made, by rw [h]; exact hprefix, by rw [hstep]; exact hmade,
        by rw [hother]; exact hmadeOther⟩
    · have hstep := step_of_writeAll_ok h hfirst
      have hother := step_of_writeAll_ok honto hsecond
      refine ⟨by rw [hstep, hother], by rw [hstep, hother], by rw [hstep, hother]; rfl,
        by rw [h, honto], made, by rw [h]; exact hprefix, by rw [hstep]; exact hmade,
        by rw [hother]; exact hmadeOther⟩

/-- The set has nothing but what the operation reads. -/
theorem MayRead.mem_allReads {operation : Operation} (next : cpu.next? = some operation)
    {address : UInt16} (h : cpu.MayRead address) :
    address ∈ operation.allReads cpu.registers cpu.image := by
  have hsame : ∀ {found : Operation}, cpu.next? = some found → found = operation :=
    fun hfound => Option.some.inj (hfound.symm.trans next)
  rw [operation.allReads_eq]
  cases h with
  | opcode => exact List.mem_append_left _ (List.mem_cons_self ..)
  | own hnext mem => exact List.mem_append_left _ (hsame hnext ▸ mem)
  | pointer hnext own mem =>
    exact List.mem_append_right _ (List.mem_append_left _ (hsame hnext ▸ mem))
  | target hnext own pointer use effective =>
    cases hsame hnext
    obtain ⟨opcode, -, ho⟩ := exists_opcode_of_next? next
    have hreads : operation.mnemonic.operandUse.reads = true := by
      rcases use with hu | hu <;> rw [hu] <;> rfl
    refine List.mem_append_right _ (List.mem_append_right _ (List.mem_append_left _ ?_))
    rw [Mode.targetAddresses, Operation.isInMemory_of_effectiveAddress ho hreads effective,
      ← operandUse_eq_family, hreads, effective]
    exact List.mem_cons_self ..
  | stack hnext mem =>
    refine List.mem_append_right _ (List.mem_append_right _ (List.mem_append_right _ ?_))
    rw [Operation.pulls_effect]
    exact hsame hnext ▸ mem

/-- Where an operation works on no byte in memory and pulls nothing, it reads the bytes of the
instruction and of the pointer only. -/
theorem allReads_of_reads_no_byte {operation : Operation} {registers : Registers} {image : Image}
    (huse : operation.mnemonic.operandUse = .unused ∨ operation.mnemonic.operandUse = .write)
    (hpulls : operation.mnemonic.pulledSlots registers.sp = []) :
    operation.allReads registers image =
      operation.ownAddresses registers ++ operation.mode.pointerAddresses registers image := by
  have htarget : operation.mode.targetAddresses operation.mnemonic.family.operandUse registers
      image = [] := by
    rw [Mode.targetAddresses, ← operandUse_eq_family]
    rcases huse with hu | hu <;> rw [hu] <;> simp [OperandUse.reads]
  rw [operation.allReads_eq, htarget, operation.pulls_effect, hpulls, List.append_nil,
    List.append_nil]

/-- **A step reads nothing else.** Over two memories that treat writes alike and give the same
answers where the step may read, the step is the same. A store, a jump, a call or a branch may read
its own bytes and a pointer, so what its target holds does not matter, nor whether it can be read
at all. -/
theorem step_reads_only (cpu : Cpu M) (other : N) (hw : Bus.WritesAlike cpu.memory other) :
    ((∀ address, cpu.MayRead address →
        Bus.read other address = Bus.read cpu.memory address) → cpu.StepsAlike other) ∧
    ∀ operation, cpu.next? = some operation →
      operation.mnemonic ∈ [.sta, .stx, .sty, .jmp, .jsr, .bcc, .bcs, .beq, .bmi, .bne, .bpl, .bvc,
        .bvs] →
      (∀ address ∈ operation.ownAddresses cpu.registers ++
          operation.mode.pointerAddresses cpu.registers cpu.image,
        Bus.read other address = Bus.read cpu.memory address) → cpu.StepsAlike other := by
  refine ⟨stepsAlike hw, fun operation next hm hr => ?_⟩
  obtain ⟨huse, hpulls⟩ := Mnemonic.reads_no_byte hm cpu.registers.sp
  have hreads := @allReads_of_reads_no_byte operation cpu.registers cpu.image huse hpulls
  exact stepsAlike hw fun address h => hr address (hreads ▸ h.mem_allReads next)

end Cpu

/-! ## A guard that forbids reading -/

/-- Plain memories of one size treat writes alike, whatever they hold. -/
theorem Ram.writesAlike {ram other : Ram} (hsize : other.size = ram.size) :
    Bus.WritesAlike ram other where
  size := hsize
  check address := by
    show (if address.toNat < other.size then _ else _) = if address.toNat < ram.size then _ else _
    rw [hsize]
  writeAll writes := by
    induction writes generalizing ram other with
    | nil => rfl
    | cons write writes ih =>
      have hrefusal : Bus.refusal? other write.1 write.2 = Bus.refusal? ram write.1 write.2 := by
        show other.refusal? write.1 write.2 = ram.refusal? write.1 write.2
        rw [Ram.refusal?, Ram.refusal?, hsize]
      rw [Bus.writeAll, Bus.writeAll, hrefusal]
      cases Bus.refusal? ram write.1 write.2 with
      | some cause => rfl
      | none =>
        refine ih ?_
        show (other.put write.1 write.2).size = (ram.put write.1 write.2).size
        rw [Ram.size_put, Ram.size_put, hsize]

namespace GuardedRam

variable {ram other : Ram} {guard : Guard}

theorem guardOf?_eq_some {memory : GuardedRam} {address : UInt16} {found : Guard}
    (h : memory.guardOf? address = some found) : memory.guard = some found := by
  rw [guardOf?, Option.filter_eq_some_iff] at h
  exact h.1

/-- Where a guard stores what is written, writes are refused as by plain memory. -/
theorem refusal?_of_stored (hsize : other.size = ram.size) (hstored : guard.writes = .stored)
    (address : UInt16) (value : UInt8) :
    Bus.refusal? (⟨other, some guard⟩ : GuardedRam) address value =
      Bus.refusal? ram address value := by
  have hplain : other.refusal? address value = ram.refusal? address value := by
    rw [Ram.refusal?, Ram.refusal?, hsize]
  show GuardedRam.refusal? _ address value = ram.refusal? address value
  rw [GuardedRam.refusal?]
  split
  next found hfound =>
    cases guardOf?_eq_some hfound
    rw [hstored]
    exact hplain
  next => exact hplain

theorem put_of_stored (hstored : guard.writes = .stored) (address : UInt16) (value : UInt8) :
    Bus.put (⟨other, some guard⟩ : GuardedRam) address value =
      ⟨other.put address value, some guard⟩ := by
  have hkept : (⟨other, some guard⟩ : GuardedRam).loses address = false := by
    rw [loses]
    split
    next found hfound =>
      cases guardOf?_eq_some hfound
      rw [hstored]
      rfl
    next => rfl
  show GuardedRam.put _ address value = _
  rw [GuardedRam.put, hkept]
  rfl

/-- A guard that stores what is written treats writes like plain memory, whatever can be read. -/
theorem writesAlike (hsize : other.size = ram.size) (hstored : guard.writes = .stored) :
    Bus.WritesAlike ram (⟨other, some guard⟩ : GuardedRam) where
  size := hsize
  check address := by
    show GuardedRam.check _ address = if address.toNat < ram.size then _ else _
    rw [GuardedRam.check]
    split
    next found hfound =>
      cases guardOf?_eq_some hfound
      rw [hstored, if_neg (by simp), check.plain, hsize]
    next => rw [check.plain, hsize]
  writeAll writes := by
    induction writes generalizing ram other with
    | nil => rfl
    | cons write writes ih =>
      rw [Bus.writeAll, Bus.writeAll, refusal?_of_stored hsize hstored]
      cases Bus.refusal? ram write.1 write.2 with
      | some cause => rfl
      | none =>
        simp only [put_of_stored hstored]
        refine ih ?_
        show (other.put write.1 write.2).size = (ram.put write.1 write.2).size
        rw [Ram.size_put, Ram.size_put, hsize]

end GuardedRam

namespace Cpu

/-- An operation on the accumulator and a byte that is found through a pointer in the zero page. -/
def indirectly (opcode : UInt8) : Cpu Ram where
  registers := ⟨0x5A, 0x02, 0, 0xFF, 0, .powerOn⟩
  clock := .zero
  verbose := false
  memory := (((Ram.zeros 0x0050 (by decide) (by decide)).put 0 opcode).put 1 0x40).put 0x42 0x34

/-- A store does not notice that its target holds another byte, which cannot be read. A load does
not notice what is at the address before its target. -/
theorem step_reads_only_indirectly :
    (∃ hidden : GuardedRam,
      Bus.read hidden 0x0034 ≠ Bus.read (indirectly 0x81).memory 0x0034 ∧
      ((indirectly 0x81).onto hidden).step.result = .ok .sta) ∧
    ((indirectly 0xA1).onto ((indirectly 0xA1).memory.put 0x0033 0xFF)).step.cpu.registers =
      (indirectly 0xA1).step.cpu.registers := by
  constructor
  · let hidden : GuardedRam :=
      ⟨(indirectly 0x81).memory.put 0x0034 0xFF, some ⟨0x0034, 0x0035, false, .stored, true⟩⟩
    have hw : Bus.WritesAlike (indirectly 0x81).memory hidden :=
      GuardedRam.writesAlike (Ram.size_put ..) rfl
    obtain ⟨-, hstores⟩ := step_reads_only (indirectly 0x81) hidden hw
    have hnext : (indirectly 0x81).next? = some ⟨.sta, .indexedIndirect, 6⟩ := by decide +kernel
    have hreads : (Operation.ownAddresses ⟨.sta, .indexedIndirect, 6⟩ (indirectly 0x81).registers ++
        Mode.indexedIndirect.pointerAddresses (indirectly 0x81).registers
          (indirectly 0x81).image).all (fun address =>
            Bus.read hidden address = Bus.read (indirectly 0x81).memory address) = true := by
      decide +kernel
    have hsame := hstores _ hnext (by decide) fun address h =>
      of_decide_eq_true (List.all_eq_true.mp hreads address h)
    have hresult : (indirectly 0x81).step.result = .ok .sta := by decide +kernel
    exact ⟨hidden, by decide +kernel, hsame.result.trans hresult⟩
  · have hw : Bus.WritesAlike (indirectly 0xA1).memory
        ((indirectly 0xA1).memory.put 0x0033 0xFF) :=
      Ram.writesAlike (Ram.size_put ..)
    obtain ⟨hloads, -⟩ := step_reads_only (indirectly 0xA1) _ hw
    have hnext : (indirectly 0xA1).next? = some ⟨.lda, .indexedIndirect, 6⟩ := by decide +kernel
    have hreads : (Operation.allReads ⟨.lda, .indexedIndirect, 6⟩
        (indirectly 0xA1).registers (indirectly 0xA1).image).all (fun address =>
          Bus.read ((indirectly 0xA1).memory.put 0x0033 0xFF) address =
            Bus.read (indirectly 0xA1).memory address) = true := by decide +kernel
    have hsame := hloads fun address h =>
      of_decide_eq_true (List.all_eq_true.mp hreads address (h.mem_allReads hnext))
    exact hsame.registers

end Cpu

end Nmos6502
