import Nmos6502.Proofs.Family
import Nmos6502.Proofs.Perform

/-!
# The effect of an instruction

What an instruction does when memory refuses nothing, as a function of the registers before it and
of an image of memory: which addresses it reads and in which order, what it writes, how long it
idles, and the registers it leaves. Nothing here runs: the addresses and the results are written
down from the bytes of the image.

`instruction_image` says that the microcode of an instruction does just that. It is an equation
without hypotheses on the image, so it is proved by rewriting, one addressing mode and one family
at a time. Together with `Microcode.perform_image` it describes every instruction that ends well
against any memory.

Registers are those before the instruction, the program counter standing at the opcode, so the
operand bytes are at `pc + 1` and `pc + 2`.

## Main definitions

* `Mode.effectiveAddress?`, `Mode.pointerAddresses`, `Mode.operand` — what a mode finds
* `Effect`, `Family.effect`, `Operation.effect` — what an operation does with it
* `Operation.reads` — the addresses read before the operation

## Main results

* `resolve_image` — operands
* `Family.microcode_image` — operations
* `instruction_image` — the whole instruction
-/

namespace Nmos6502

/-! ## What a mode finds -/

/-- The word whose bytes an image has at two addresses. -/
def Image.word (image : Image) (lowAddress highAddress : UInt16) : UInt16 :=
  Nmos6502.word (image.byte lowAddress) (image.byte highAddress)

/-- A word of the zero page, which wraps. -/
def Image.zeroPageWord (image : Image) (pointer : UInt8) : UInt16 :=
  image.word pointer.toUInt16 (pointer + 1).toUInt16

namespace Mode

variable (mode : Mode) (use : OperandUse) (registers : Registers) (image : Image)

/-- The addresses of the operand bytes. -/
def operandAddresses : List UInt16 :=
  [registers.pc + 1, registers.pc + 2].take mode.operandLength

/-- The addresses of the pointer, if the mode follows one. -/
def pointerAddresses : List UInt16 :=
  let low := image.byte (registers.pc + 1)
  let base := image.word (registers.pc + 1) (registers.pc + 2)
  match mode with
  | .indirect => [base, pointerHighAddress base]
  | .indexedIndirect => [(low + registers.x).toUInt16, (low + registers.x + 1).toUInt16]
  | .indirectIndexed => [low.toUInt16, (low + 1).toUInt16]
  | _ => []

/-- Where the operand is, or where a branch goes. -/
def effectiveAddress? : Option UInt16 :=
  let low := image.byte (registers.pc + 1)
  let base := image.word (registers.pc + 1) (registers.pc + 2)
  match mode with
  | .implied | .accumulator | .immediate => none
  | .relative => some (relativeTarget (registers.pc + 2) low)
  | .zeroPage => some low.toUInt16
  | .zeroPageX => some (zeroPageIndexed low registers.x)
  | .zeroPageY => some (zeroPageIndexed low registers.y)
  | .absolute => some base
  | .absoluteX => some (absoluteIndexed base registers.x)
  | .absoluteY => some (absoluteIndexed base registers.y)
  | .indirect => some (image.word base (pointerHighAddress base))
  | .indexedIndirect => some (image.zeroPageWord (low + registers.x))
  | .indirectIndexed => some (absoluteIndexed (image.zeroPageWord low) registers.y)

/-- Where the operand's byte is read, if it is. -/
def targetAddresses : List UInt16 :=
  if mode.isInMemory && use.reads then (mode.effectiveAddress? registers image).toList else []

/-- The addresses read after the opcode to find the operand, in order. -/
def reads : List UInt16 :=
  mode.operandAddresses registers ++ mode.pointerAddresses registers image ++
    mode.targetAddresses use registers image

/-- The byte to work on, if it is known before the operation. -/
def value? : Option UInt8 :=
  match mode with
  | .implied | .relative => none
  | .accumulator => some registers.a
  | .immediate => some (image.byte (registers.pc + 1))
  | mode => if use.reads then (mode.effectiveAddress? registers image).map image.byte else none

/-- What the mode finds. -/
def operand : Operand where
  mode := mode
  value? := mode.value? use registers image
  address? := mode.effectiveAddress? registers image

/-- A mode in memory has an effective address. -/
theorem exists_effectiveAddress {mode : Mode} (h : mode.isInMemory = true) :
    ∃ address, mode.effectiveAddress? registers image = some address := by
  cases mode <;> first | exact ⟨_, rfl⟩ | cases h

/-- A mode in memory has the byte at its address as its value, if that is read. -/
theorem value?_of_isInMemory {mode : Mode} (h : mode.isInMemory = true) :
    mode.value? use registers image =
      if use.reads then (mode.effectiveAddress? registers image).map image.byte else none := by
  cases mode <;> first | rfl | cases h

/-- What a mode in memory finds. -/
theorem operand_of_isInMemory {mode : Mode} (h : mode.isInMemory = true) {use : OperandUse}
    {registers : Registers} {image : Image} {address : UInt16}
    (ha : mode.effectiveAddress? registers image = some address) :
    mode.operand use registers image =
      ⟨mode, if use.reads then some (image.byte address) else none, some address⟩ := by
  rw [operand, mode.value?_of_isInMemory use registers image h, ha]
  rfl

end Mode

/-! ## Finding the operand -/

section Finding

variable {journal : Journal} (hj : ∀ a, journal.pending? a = none) (image : Image)

include hj

theorem readByte_image (address : UInt16) :
    (readByte address).perform image journal =
      (.ok (image.byte address), journal.noteReads image [address]) := by
  simp only [readByte, Microcode.perform, Journal.read_image hj]
  rfl

theorem readWord_image (lowAddress highAddress : UInt16) :
    (readWord lowAddress highAddress).perform image journal =
      (.ok (image.word lowAddress highAddress),
        journal.noteReads image [lowAddress, highAddress]) := by
  rw [readWord, Microcode.perform_bind_of_ok (readByte_image hj image lowAddress),
    Microcode.perform_bind_of_ok (readByte_image (by simpa using hj) image highAddress)]
  rfl

theorem readZeroPageWord_image (pointer : UInt8) :
    (readZeroPageWord pointer).perform image journal =
      (.ok (image.zeroPageWord pointer),
        journal.noteReads image [pointer.toUInt16, (pointer + 1).toUInt16]) :=
  readWord_image hj image _ _

theorem fetch_image (registers : Registers) :
    registers.fetch.perform image journal =
      (.ok (image.byte registers.pc, { registers with pc := registers.pc + 1 }),
        journal.noteReads image [registers.pc]) := by
  rw [Registers.fetch, Microcode.perform_bind_of_ok (readByte_image hj image registers.pc)]
  rfl

theorem fetchWord_image (registers : Registers) :
    registers.fetchWord.perform image journal =
      (.ok (image.word registers.pc (registers.pc + 1),
          { registers with pc := registers.pc + 1 + 1 }),
        journal.noteReads image [registers.pc, registers.pc + 1]) := by
  rw [Registers.fetchWord, Microcode.perform_bind_of_ok (fetch_image hj image registers),
    Microcode.perform_bind_of_ok (fetch_image (by simpa using hj) image _)]
  rfl

theorem inMemory_image (mode : Mode) (use : OperandUse) (address : UInt16)
    (registers : Registers) :
    (Operand.inMemory mode use address registers).perform image journal =
      (.ok (⟨mode, if use.reads then some (image.byte address) else none, some address⟩,
          registers),
        journal.noteReads image (if use.reads then [address] else [])) := by
  unfold Operand.inMemory
  split
  · rw [Microcode.perform_bind_of_ok (readByte_image hj image address)]
    rfl
  · rfl

end Finding

/-- The program counter is advanced one byte at a time. -/
theorem pc_add_two (pc : UInt16) : pc + 1 + 1 = pc + 2 := by rw [UInt16.add_assoc]; rfl

theorem pc_add_three (pc : UInt16) : pc + 2 + 1 = pc + 3 := by rw [UInt16.add_assoc]; rfl

/-- **Finding the operand.** The program counter stands after the opcode, and then after the
instruction. -/
theorem resolve_image (mode : Mode) (use : OperandUse) (registers : Registers) (image : Image)
    {journal : Journal} (hj : ∀ a, journal.pending? a = none) :
    (Operand.resolve mode use { registers with pc := registers.pc + 1 }).perform image journal =
      (.ok (mode.operand use registers image,
          { registers with pc := registers.pc + UInt16.ofNat mode.size }),
        journal.noteReads image (mode.reads use registers image)) := by
  have hfetch := fetch_image hj image { registers with pc := registers.pc + 1 }
  have hword := fetchWord_image hj image { registers with pc := registers.pc + 1 }
  simp only [pc_add_two, pc_add_three] at hfetch hword
  cases mode with
  | implied | accumulator => rfl
  | immediate | relative =>
    rw [Operand.resolve, Microcode.perform_bind_of_ok hfetch]
    rfl
  | zeroPage | zeroPageX | zeroPageY =>
    rw [Operand.resolve, Microcode.perform_bind_of_ok hfetch,
      inMemory_image (by simpa using hj), ← Journal.noteReads_append]
    rfl
  | absolute | absoluteX | absoluteY =>
    rw [Operand.resolve, Microcode.perform_bind_of_ok hword,
      inMemory_image (by simpa using hj), ← Journal.noteReads_append]
    rfl
  | indirect =>
    rw [Operand.resolve, Microcode.perform_bind_of_ok hword,
      Microcode.perform_bind_of_ok (readWord_image (by simpa using hj) image _ _),
      inMemory_image (by simpa using hj), ← Journal.noteReads_append, ← Journal.noteReads_append]
    rfl
  | indexedIndirect | indirectIndexed =>
    rw [Operand.resolve, Microcode.perform_bind_of_ok hfetch,
      Microcode.perform_bind_of_ok (readZeroPageWord_image (by simpa using hj) image _),
      inMemory_image (by simpa using hj), ← Journal.noteReads_append, ← Journal.noteReads_append]
    rfl

/-! ## What an operation does

Page one is the stack: the byte at stack pointer `sp` is at `stackSlot sp`, and a stack pointer
that leaves the page at one end comes back at the other. -/

/-- The address of page one that a stack pointer stands for. -/
def stackSlot (sp : UInt8) : UInt16 := 0x0100 ||| sp.toUInt16

theorem stackAddress_eq (registers : Registers) :
    registers.stackAddress = stackSlot registers.sp :=
  forall_byte (p := fun sp => 0x0100 + sp.toUInt16 = stackSlot sp) (by decide +kernel) registers.sp

/-- The stack pointer, too, moves one byte at a time. -/
theorem sp_add_two (sp : UInt8) : sp + 1 + 1 = sp + 2 := by rw [UInt8.add_assoc]; rfl

theorem sp_add_three (sp : UInt8) : sp + 2 + 1 = sp + 3 := by rw [UInt8.add_assoc]; rfl

/-- What an operation does once its operand is found. -/
structure Effect where
  /-- The registers after it. -/
  registers : Registers
  /-- The addresses it reads, in order. All of them are on the stack. -/
  pulls : List UInt16 := []
  /-- The bytes it writes, in order. -/
  writes : List (UInt16 × UInt8) := []
  /-- The cycles it lets pass without an access. -/
  idles : Nat := 0

/-- The operand has what the family works on. -/
def Family.Suits (family : Family) (operand : Operand) : Prop :=
  match family with
  | .load _ => operand.value?.isSome
  | .store _ => operand.mode ≠ .accumulator ∧ operand.address?.isSome
  | .modify _ =>
    operand.value?.isSome ∧ (operand.mode = .accumulator ∨ operand.address?.isSome)
  | .branch _ | .jump | .call => operand.address?.isSome
  | _ => True

/-- What an operation does to registers whose program counter stands after the instruction. An
operand that suits the family has the byte and the address that are used here. -/
def Family.effect (family : Family) (operand : Operand) (registers : Registers) (image : Image) :
    Effect :=
  let value := operand.value?.getD 0
  let address := operand.address?.getD 0
  let sp := registers.sp
  match family with
  | .load action => { registers := action registers value }
  | .store source => { registers, writes := [(address, source registers)] }
  | .modify action =>
    let (result, registers) := action registers value
    if operand.mode = .accumulator then { registers := { registers with a := result } }
    else { registers, writes := [(address, result)] }
  | .internal action => { registers := action registers }
  | .branch condition =>
    if condition registers.status then { registers := { registers with pc := address }, idles := 1 }
    else { registers }
  | .jump => { registers := { registers with pc := address } }
  | .push source =>
    { registers := { registers with sp := sp - 1 }
      writes := [(stackSlot sp, source registers)] }
  | .pull action =>
    { registers := action { registers with sp := sp + 1 } (image.byte (stackSlot (sp + 1)))
      pulls := [stackSlot (sp + 1)] }
  | .call =>
    { registers := { registers with sp := sp - 1 - 1, pc := address }
      writes := [(stackSlot sp, highByte (registers.pc - 1)),
        (stackSlot (sp - 1), lowByte (registers.pc - 1))] }
  | .comeBack =>
    { registers :=
        { registers with
          sp := sp + 1 + 1
          pc := image.word (stackSlot (sp + 1)) (stackSlot (sp + 1 + 1)) + 1 }
      pulls := [stackSlot (sp + 1), stackSlot (sp + 1 + 1)] }
  | .resume =>
    { registers :=
        { registers with
          sp := sp + 1 + 1 + 1
          status := .ofPulled (image.byte (stackSlot (sp + 1)))
          pc := image.word (stackSlot (sp + 1 + 1)) (stackSlot (sp + 1 + 1 + 1)) }
      pulls := [stackSlot (sp + 1), stackSlot (sp + 1 + 1), stackSlot (sp + 1 + 1 + 1)] }

/-- The journal after an effect. -/
def Journal.noteEffect (journal : Journal) (image : Image) (effect : Effect) : Journal :=
  ((journal.noteReads image effect.pulls).noteWrites effect.writes).noteIdles effect.idles

section Stack

variable {journal : Journal} (hj : ∀ a, journal.pending? a = none) (image : Image)

include hj

theorem pull_image (registers : Registers) :
    registers.pull.perform image journal =
      (.ok (image.byte (stackSlot (registers.sp + 1)),
          { registers with sp := registers.sp + 1 }),
        journal.noteReads image [stackSlot (registers.sp + 1)]) := by
  rw [Registers.pull, stackAddress_eq, Microcode.perform_bind_of_ok (readByte_image hj image _)]
  rfl

theorem pullWord_image (registers : Registers) :
    registers.pullWord.perform image journal =
      (.ok (image.word (stackSlot (registers.sp + 1)) (stackSlot (registers.sp + 1 + 1)),
          { registers with sp := registers.sp + 1 + 1 }),
        journal.noteReads image
          [stackSlot (registers.sp + 1), stackSlot (registers.sp + 1 + 1)]) := by
  rw [Registers.pullWord, Microcode.perform_bind_of_ok (pull_image hj image registers),
    Microcode.perform_bind_of_ok (pull_image (by simpa using hj) image _)]
  rfl

end Stack

theorem push_image (image : Image) (journal : Journal) (registers : Registers) (value : UInt8) :
    (registers.push value).perform image journal =
      (.ok { registers with sp := registers.sp - 1 },
        journal.noteWrites [(stackSlot registers.sp, value)]) := by
  rw [Registers.push, stackAddress_eq]
  rfl

theorem pushWord_image (image : Image) (journal : Journal) (registers : Registers)
    (value : UInt16) :
    (registers.pushWord value).perform image journal =
      (.ok { registers with sp := registers.sp - 1 - 1 },
        journal.noteWrites [(stackSlot registers.sp, highByte value),
          (stackSlot (registers.sp - 1), lowByte value)]) := by
  rw [Registers.pushWord, Microcode.perform_bind_of_ok (push_image image journal registers _),
    push_image]
  rfl

/-- **What an operation does.** The cases are the families. -/
theorem Family.microcode_image {family : Family} {operand : Operand}
    (hs : family.Suits operand) (registers : Registers) (image : Image) {journal : Journal}
    (hj : ∀ a, journal.pending? a = none) :
    (family.microcode operand registers).perform image journal =
      (.ok (family.effect operand registers image).registers,
        journal.noteEffect image (family.effect operand registers image)) := by
  obtain ⟨mode, value?, address?⟩ := operand
  cases family with
  | load action =>
    obtain ⟨value, rfl⟩ := Option.isSome_iff_exists.mp hs
    rfl
  | store source =>
    obtain ⟨hmode, hs⟩ := hs
    obtain ⟨address, rfl⟩ := Option.isSome_iff_exists.mp hs
    rw [Family.microcode, Operand.store, if_neg hmode]
    rfl
  | modify action =>
    obtain ⟨hv, hs⟩ := hs
    obtain ⟨value, rfl⟩ := Option.isSome_iff_exists.mp hv
    by_cases hmode : mode = .accumulator
    · subst hmode
      rfl
    · obtain ⟨address, rfl⟩ := Option.isSome_iff_exists.mp (hs.resolve_left hmode)
      simp only [Family.microcode, Operand.load, Operand.store, Family.effect, if_neg hmode]
      rfl
  | internal action => rfl
  | branch condition =>
    obtain ⟨address, rfl⟩ := Option.isSome_iff_exists.mp hs
    rw [Family.microcode, Family.effect]
    cases condition registers.status <;> rfl
  | jump =>
    obtain ⟨address, rfl⟩ := Option.isSome_iff_exists.mp hs
    rfl
  | push source => exact push_image image journal registers _
  | pull action =>
    rw [Family.microcode, Microcode.perform_bind_of_ok (pull_image hj image registers)]
    rfl
  | call =>
    obtain ⟨address, rfl⟩ := Option.isSome_iff_exists.mp hs
    rw [Family.microcode, Microcode.perform_bind_of_ok (pushWord_image image journal registers _)]
    rfl
  | comeBack =>
    rw [Family.microcode, Microcode.perform_bind_of_ok (pullWord_image hj image registers)]
    rfl
  | resume =>
    rw [Family.microcode, Microcode.perform_bind_of_ok (pull_image hj image registers),
      Microcode.perform_bind_of_ok (pullWord_image (by simpa using hj) image _)]
    rfl

/-! ## The whole instruction -/

/-- A mode that the family can work on finds what the family works on. -/
theorem suits_operand {family : Family} {mode : Mode} (h : family.admits mode = true)
    (registers : Registers) (image : Image) :
    family.Suits (mode.operand family.operandUse registers image) := by
  have hmem : mode.isInMemory = true →
      (mode.effectiveAddress? registers image).isSome ∧
        ∀ use : OperandUse, use.reads = true → (mode.value? use registers image).isSome := by
    intro hm
    obtain ⟨address, ha⟩ := mode.exists_effectiveAddress registers image hm
    refine ⟨by rw [ha]; rfl, fun use hu => ?_⟩
    rw [mode.value?_of_isInMemory use registers image hm, if_pos hu, ha]
    rfl
  cases family with
  | load action =>
    rcases (Bool.or_eq_true _ _).mp h with hi | hm
    · rw [of_decide_eq_true hi]; rfl
    · exact (hmem hm).2 .read rfl
  | store source =>
    refine ⟨?_, (hmem h).1⟩
    rintro rfl
    cases h
  | modify action =>
    rcases (Bool.or_eq_true _ _).mp h with ha | hm
    · rw [of_decide_eq_true ha]; exact ⟨rfl, .inl rfl⟩
    · exact ⟨(hmem hm).2 .readModifyWrite rfl, .inr (hmem hm).1⟩
  | branch condition => rw [of_decide_eq_true h]; rfl
  | jump | call =>
    rcases (Bool.or_eq_true _ _).mp h with ha | ha <;> rw [of_decide_eq_true ha] <;> rfl
  | internal | push | pull | comeBack | resume => trivial

namespace Operation

variable (operation : Operation) (registers : Registers) (image : Image)

/-- The addresses read before the operation, the opcode first. -/
def reads : List UInt16 :=
  registers.pc :: operation.mode.reads operation.mnemonic.family.operandUse registers image

/-- What the operation does. -/
def effect : Effect :=
  operation.mnemonic.family.effect
    (operation.mode.operand operation.mnemonic.family.operandUse registers image)
    { registers with pc := registers.pc + UInt16.ofNat operation.size } image

/-- An operation that loads a byte lets it act on the registers, and that is all. -/
theorem effect_of_load {action : Registers → UInt8 → Registers} {byte : UInt8}
    (hfamily : operation.mnemonic.family = .load action)
    (hvalue : operation.mode.value? operation.mnemonic.family.operandUse registers image =
      some byte) :
    operation.effect registers image =
      { registers := action
          { registers with pc := registers.pc + UInt16.ofNat operation.size } byte } := by
  rw [effect, hfamily, Family.effect, Mode.operand, ← hfamily, hvalue]
  rfl

/-- The journal of the whole instruction. -/
def journal : Journal :=
  (Journal.empty.noteReads image (operation.reads registers image)).noteEffect image
    (operation.effect registers image)

end Operation

/-- **The whole instruction.** Against an image, an instruction that is documented and fits does
what its operation does to what its mode finds. -/
theorem instruction_image {registers : Registers} {image : Image} {size : Nat}
    {operation : Operation} (ho : operation? (image.byte registers.pc) = some operation)
    (hs : operation.size ≤ size - registers.pc.toNat) :
    (registers.instruction size).perform image .empty =
      (.ok ⟨operation, (operation.effect registers image).registers⟩,
        operation.journal registers image) := by
  have hempty : ∀ a, Journal.empty.pending? a = none := fun a => rfl
  have hsuits := suits_operand (admits_of_operation? ho) registers image
  rw [Registers.instruction, Microcode.perform_bind_of_ok (fetch_image hempty image registers)]
  simp only [ho, if_neg (Nat.not_lt.mpr hs)]
  rw [Microcode.perform_bind_of_ok (resolve_image _ _ registers image (by simp)),
    operandUse_eq_family, execute_eq_microcode,
    Microcode.perform_bind_of_ok (Family.microcode_image hsuits _ image (by simp))]
  rfl

/-- An instruction that ends well is documented and fits. -/
theorem operation?_of_instruction_ok {registers : Registers} {image : Image} {size : Nat}
    {executed : Executed} {later : Journal}
    (h : (registers.instruction size).perform image .empty = (.ok executed, later)) :
    ∃ operation, operation? (image.byte registers.pc) = some operation ∧
      operation.size ≤ size - registers.pc.toNat := by
  have hempty : ∀ a, Journal.empty.pending? a = none := fun a => rfl
  rw [Registers.instruction,
    Microcode.perform_bind_of_ok (fetch_image hempty image registers)] at h
  cases ho : operation? (image.byte registers.pc) with
  | none => simp only [ho] at h; cases h
  | some operation =>
    refine ⟨operation, rfl, ?_⟩
    by_contra hlt
    simp only [ho, if_pos (Nat.not_le.mp hlt)] at h
    cases h

end Nmos6502
