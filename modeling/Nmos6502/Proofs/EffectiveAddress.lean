import Nmos6502.Proofs.FullMemory

/-!
# Effective addresses

Nine modes find their operand in memory, and their sums wrap in four ways: an index to a zero-page
address and the second byte of a zero-page pointer stay in the zero page, an index to a full address
stays in the address space, and the second byte of a jump's pointer stays in the page of the first.
`Mode.place?` states the nine formulas with numbers for addresses, so every wrap is a remainder that
can be seen. A pointer is followed only where memory has both of its bytes.

What is found is what is used. `Family.ActsAt` says for each family what that means: the byte at the
place is the one that acts on the registers, the result goes to the place and leaves the rest of
memory alone, and a jump goes on at the place.

## Main definitions

* `Mode.place?` — where a mode finds its operand
* `Family.ActsAt` — what an operation does there

## Main results

* `Mode.place?_eq` — the formulas agree with what the processor computes
* `Cpu.step_actsAt` — every step acts at the place that the formula gives
-/

namespace Nmos6502

/-! ## Places -/

namespace Ram

/-- The number that the bytes at two places spell, the low byte first, if both are there. -/
def pointer? (ram : Ram) (lowPlace highPlace : Nat) : Option Nat := do
  let low ← ram.bytes[lowPlace]?
  let high ← ram.bytes[highPlace]?
  return low.toNat + 0x100 * high.toNat

variable {ram : Ram} {address low high : UInt16}

theorem getElem_bytes (h : address.toNat < ram.bytes.size) :
    ram.bytes[address.toNat] = (Bus.image ram).byte address := by
  rw [byte_image]
  simp [h]

theorem pointer?_of_lt (hlow : low.toNat < ram.bytes.size) (hhigh : high.toNat < ram.bytes.size) :
    ram.pointer? low.toNat high.toNat = some ((Bus.image ram).word low high).toNat := by
  rw [pointer?, Array.getElem?_eq_getElem hlow, Array.getElem?_eq_getElem hhigh,
    getElem_bytes hlow, getElem_bytes hhigh, Image.word, toNat_word]
  rfl

/-- One write that is made replaces the byte at its address. -/
theorem bytes_of_writeAll_singleton {after : Ram} {value : UInt8}
    (h : Bus.writeAll ram [(address, value)] = (.ok (), after)) :
    ∃ h : address.toNat < ram.bytes.size, after.bytes = ram.bytes.set address.toNat value h := by
  obtain ⟨haccepted, hmade⟩ := Bus.writeAll_cons_ok.mp h
  have hinside : address.toNat < ram.bytes.size := refusal?_eq_none_iff.mp haccepted
  cases hmade
  refine ⟨hinside, ?_⟩
  show ram.bytes.setIfInBounds address.toNat value = _
  rw [Array.setIfInBounds, dif_pos hinside]

end Ram

namespace Mode

/-- Where a mode finds its operand: `bytes` are those after the opcode, and `x` and `y` the index
registers. -/
def place? (mode : Mode) (bytes : List Nat) (x y : Nat) (ram : Ram) : Option Nat :=
  match mode, bytes with
  | .zeroPage, [b₁] => some b₁
  | .zeroPageX, [b₁] => some ((b₁ + x) % 0x100)
  | .zeroPageY, [b₁] => some ((b₁ + y) % 0x100)
  | .absolute, [b₁, b₂] => some (b₁ + 0x100 * b₂)
  | .absoluteX, [b₁, b₂] => some ((b₁ + 0x100 * b₂ + x) % 0x10000)
  | .absoluteY, [b₁, b₂] => some ((b₁ + 0x100 * b₂ + y) % 0x10000)
  | .indirect, [b₁, b₂] =>
    let w := b₁ + 0x100 * b₂
    ram.pointer? w (w / 0x100 * 0x100 + (w + 1) % 0x100)
  | .indexedIndirect, [b₁] =>
    let q := (b₁ + x) % 0x100
    ram.pointer? q ((q + 1) % 0x100)
  | .indirectIndexed, [b₁] =>
    (ram.pointer? b₁ ((b₁ + 1) % 0x100)).map fun base => (base + y) % 0x10000
  | _, _ => none

variable {mode : Mode} {registers : Registers} {ram : Ram}

/-- The operand bytes of an instruction that does not run past the end of memory. -/
theorem slice_operand (h : registers.pc.toNat + mode.size ≤ ram.size) :
    ram.slice (registers.pc.toNat + 1) mode.operandLength =
      (mode.operandAddresses registers).map (Bus.image ram).byte := by
  have hfits : registers.pc.toNat + 1 + mode.operandLength ≤ ram.size := by
    rw [size] at h
    omega
  have htwo := pc_add_two registers.pc
  rw [Ram.slice_eq_bytes hfits]
  cases mode <;>
    simp [Image.bytes, operandAddresses, operandLength, List.range_succ, UInt16.ofNat_add, htwo]

/-- A mode that follows a pointer finds it, if memory has the pointer. -/
theorem pointer?_of_pointerAddresses {low high : UInt16}
    (h : mode.pointerAddresses registers (Bus.image ram) = [low, high])
    (hpointer : ∀ a ∈ mode.pointerAddresses registers (Bus.image ram), a.toNat < ram.size) :
    ram.pointer? low.toNat high.toNat = some ((Bus.image ram).word low high).toNat := by
  rw [h] at hpointer
  exact Ram.pointer?_of_lt (hpointer low (by simp)) (hpointer high (by simp))

/-- **The formulas agree with what the processor computes**, if memory has the pointer. -/
theorem place?_eq (registers : Registers) (ram : Ram) (hmode : mode.isInMemory = true)
    (hpointer : ∀ a ∈ mode.pointerAddresses registers (Bus.image ram), a.toNat < ram.size) :
    mode.place? ((mode.operandAddresses registers).map fun a => ((Bus.image ram).byte a).toNat)
        registers.x.toNat registers.y.toNat ram =
      (mode.effectiveAddress? registers (Bus.image ram)).map UInt16.toNat := by
  have hword := toNat_word ((Bus.image ram).byte (registers.pc + 1))
    ((Bus.image ram).byte (registers.pc + 2))
  cases mode with
  | implied | accumulator | immediate | relative => cases hmode
  | zeroPage => exact congrArg some (UInt8.toNat_toUInt16 _).symm
  | zeroPageX | zeroPageY => exact congrArg some (toNat_zeroPageIndexed ..).symm
  | absolute => exact congrArg some hword.symm
  | absoluteX | absoluteY =>
    refine congrArg some (Eq.symm ?_)
    rw [toNat_absoluteIndexed, Image.word, hword]
    rfl
  | indirect =>
    have hfound := pointer?_of_pointerAddresses rfl hpointer
    rw [toNat_pointerHighAddress, Image.word, hword] at hfound
    exact hfound
  | indexedIndirect =>
    have hfound := pointer?_of_pointerAddresses rfl hpointer
    rw [UInt8.toNat_toUInt16, UInt8.toNat_toUInt16, UInt8.toNat_add _ 1, UInt8.toNat_add] at hfound
    exact hfound
  | indirectIndexed =>
    have hfound := pointer?_of_pointerAddresses rfl hpointer
    rw [UInt8.toNat_toUInt16, UInt8.toNat_toUInt16, UInt8.toNat_add] at hfound
    refine (congrArg (Option.map _) hfound).trans ?_
    exact congrArg some (toNat_absoluteIndexed ..).symm

end Mode

/-! ## Acting at a place -/

/-- What an operation of a family does at a place of memory: it uses the byte there, or the place is
the only one that it changes, or both; or it goes on there. The `registers` are those before it, but
the program counter stands after the instruction. The other families have no place to act at. -/
def Family.ActsAt (family : Family) (place : Nat) (registers : Registers) (before after : Cpu Ram) :
    Prop :=
  match family with
  | .load action =>
    ∃ h : place < before.memory.bytes.size,
      after.registers = action registers before.memory.bytes[place] ∧
      after.memory = before.memory
  | .store source =>
    ∃ h : place < before.memory.bytes.size,
      after.registers = registers ∧
      after.memory.bytes = before.memory.bytes.set place (source registers) h
  | .modify action =>
    ∃ h : place < before.memory.bytes.size,
      let result := action registers before.memory.bytes[place]
      after.registers = result.2 ∧ after.memory.bytes = before.memory.bytes.set place result.1 h
  | .jump => after.registers.pc.toNat = place ∧ after.memory = before.memory
  | .call => after.registers.pc.toNat = place
  | _ => False

/-- **An operation acts at the place that its mode has found.** The cases are the families that work
on memory. -/
theorem Family.actsAt_effect {family : Family} {mode : Mode} {address : UInt16}
    {registers : Registers} {before after : Cpu Ram} (hadmits : family.admits mode = true)
    (hmode : mode.isInMemory = true)
    (hinside : family.operandUse.reads = true → address.toNat < before.memory.bytes.size)
    {operand : Operand} (hoperand : operand = ⟨mode,
      if family.operandUse.reads then some (before.image.byte address) else none, some address⟩)
    (hregisters : after.registers = (family.effect operand registers before.image).registers)
    (hwrites : Bus.writeAll before.memory (family.effect operand registers before.image).writes =
      (.ok (), after.memory)) :
    family.ActsAt address.toNat registers before after := by
  subst hoperand
  cases family with
  | load action =>
    have hlt := hinside rfl
    refine ⟨hlt, ?_, (congrArg Prod.snd hwrites).symm⟩
    rw [Ram.getElem_bytes hlt]
    exact hregisters
  | store source =>
    obtain ⟨hlt, hset⟩ := Ram.bytes_of_writeAll_singleton hwrites
    exact ⟨hlt, hregisters, hset⟩
  | modify action =>
    have hplace : mode ≠ .accumulator := by
      rintro rfl
      cases hmode
    simp only [effect, if_neg hplace] at hregisters hwrites
    obtain ⟨hlt, hset⟩ := Ram.bytes_of_writeAll_singleton hwrites
    have hbyte : before.memory.bytes[address.toNat] = before.image.byte address :=
      Ram.getElem_bytes hlt
    refine ⟨hlt, ?_⟩
    rw [hbyte]
    exact ⟨hregisters, hset⟩
  | jump =>
    refine ⟨?_, (congrArg Prod.snd hwrites).symm⟩
    rw [hregisters]
    rfl
  | call =>
    show after.registers.pc.toNat = address.toNat
    rw [hregisters]
    rfl
  | internal | branch | push | pull | comeBack | resume =>
    obtain rfl := of_decide_eq_true hadmits
    cases hmode

namespace Cpu

variable {cpu : Cpu Ram} {operation : Operation} {mnemonic : Mnemonic}

/-- A step that ends well has not run past the end, nor reached beyond it. -/
theorem lt_size_of_step_ok (h : cpu.step.result = .ok mnemonic)
    (hnext : cpu.next? = some operation) :
    cpu.registers.pc.toNat + operation.size ≤ cpu.memory.size ∧
      ∀ a ∈ operation.laterAddresses cpu.registers cpu.image, a.toNat < cpu.memory.size := by
  obtain ⟨opcode, hread, ho⟩ := exists_opcode_of_next? hnext
  have hpc := Ram.lt_size_of_read_ok hread
  by_cases hs : cpu.memory.size - cpu.registers.pc.toNat < operation.size
  · rw [step_result_of_rehearse_error (rehearse_of_incomplete hread ho hs)] at h
    cases h
  refine ⟨by omega, fun a ha => ?_⟩
  rw [step_result_of_fits hread ho (Nat.not_lt.mp hs)] at h
  cases hbeyond : cpu.memory.firstBeyond?
      (operation.laterAddresses cpu.registers cpu.image) with
  | some address =>
    rw [hbeyond] at h
    cases h
  | none =>
    have hinside := List.find?_eq_none.mp hbeyond a ha
    simpa using hinside

/-- **Effective addresses.** A step of an instruction with its operand in memory acts at the place
that the formula of its mode gives, for the operand bytes, the index registers and memory. -/
theorem step_actsAt (h : cpu.step.result = .ok mnemonic) (hnext : cpu.next? = some operation)
    (hmode : operation.mode.isInMemory = true) :
    let operand := cpu.memory.slice (cpu.registers.pc.toNat + 1) operation.mode.operandLength
    let following := cpu.registers.pc + UInt16.ofNat operation.size
    ∃ place,
      operation.mode.place? (operand.map UInt8.toNat) cpu.registers.x.toNat cpu.registers.y.toNat
        cpu.memory = some place ∧
      operation.mnemonic.family.ActsAt place { cpu.registers with pc := following } cpu
        cpu.step.cpu := by
  intro operand following
  obtain ⟨found, -, hx⟩ := exists_executes h
  obtain rfl : operation = found := Option.some.inj (hnext.symm.trans hx.next)
  obtain ⟨opcode, -, ho⟩ := exists_opcode_of_next? hnext
  obtain ⟨hfits, hlater⟩ := lt_size_of_step_ok h hnext
  obtain ⟨address, ha⟩ := operation.mode.exists_effectiveAddress cpu.registers cpu.image hmode
  have hinside : operation.mnemonic.family.operandUse.reads = true →
      address.toNat < cpu.memory.bytes.size := by
    intro hreads
    refine hlater address (List.mem_append_right _ (List.mem_append_left _ ?_))
    rw [operandUse_eq_family, if_pos hreads, ha]
    exact List.mem_singleton_self _
  have hplace := Mode.place?_eq cpu.registers cpu.memory hmode fun a hpointer =>
    hlater a (List.mem_append_left _ hpointer)
  refine ⟨address.toNat, ?_, Family.actsAt_effect (admits_of_operation? ho) hmode hinside
    (Mode.operand_of_isInMemory hmode ha) hx.registers hx.writeAll⟩
  rw [show operand = _ from Mode.slice_operand hfits, List.map_map]
  exact hplace.trans (congrArg (Option.map UInt16.toNat) ha)

/-- A pointer to `$FFF0` in the last byte of the zero page and the first. At `$0100` a byte is
loaded `$20` bytes from where it points, and at `$0102` the program goes on where it points. -/
def pointing (pc : UInt16) : Cpu Ram where
  registers := ⟨0, 0, 0x20, 0xFF, pc, .powerOn⟩
  clock := .zero
  verbose := false
  memory := (((((((Ram.zeros 0x0110 (by decide) (by decide)).put 0x00FF 0xF0).put 0 0xFF).put 0x0010
    0x42).put 0x0100 0xB1).put 0x0101 0xFF).put 0x0102 0x6C).put 0x0103 0xFF

/-- The load goes around the end of the zero page and the end of the address space, and the jump
takes the second byte of its pointer from the same page. -/
theorem step_actsAt_pointing :
    (pointing 0x0100).step.result = .ok .lda ∧
    (pointing 0x0100).step.cpu.registers.a = 0x42 ∧
    (pointing 0x0102).step.result = .ok .jmp ∧
    (pointing 0x0102).step.cpu.registers.pc.toNat = 0xFFF0 := by
  have hload : (pointing 0x0100).step.result = .ok .lda := by decide +kernel
  have hjump : (pointing 0x0102).step.result = .ok .jmp := by decide +kernel
  refine ⟨hload, ?_, hjump, ?_⟩
  · have hlda : (pointing 0x0100).next? = some ⟨.lda, .indirectIndexed, 5⟩ := by decide +kernel
    obtain ⟨place, hplace, hinside, hregisters, -⟩ := step_actsAt hload hlda rfl
    have hformula : Mode.indirectIndexed.place?
        (((pointing 0x0100).memory.slice 0x0101 1).map UInt8.toNat) 0 0x20
        (pointing 0x0100).memory = some 0x0010 := by decide +kernel
    obtain rfl : 0x0010 = place := Option.some.inj (hformula.symm.trans hplace)
    have hthere : (pointing 0x0100).memory.bytes[0x0010]? = some 0x42 := by decide +kernel
    obtain ⟨_, hbyte⟩ := Array.getElem?_eq_some_iff.mp hthere
    rw [hregisters]
    exact hbyte
  · have hjmp : (pointing 0x0102).next? = some ⟨.jmp, .indirect, 5⟩ := by decide +kernel
    obtain ⟨place, hplace, hpc, -⟩ := step_actsAt hjump hjmp rfl
    have hformula : Mode.indirect.place?
        (((pointing 0x0102).memory.slice 0x0103 2).map UInt8.toNat) 0 0x20
        (pointing 0x0102).memory = some 0xFFF0 := by decide +kernel
    exact hpc.trans (Option.some.inj (hplace.symm.trans hformula))

end Cpu

end Nmos6502
