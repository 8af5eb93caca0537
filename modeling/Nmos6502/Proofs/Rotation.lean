import Mathlib.Logic.Function.Iterate
import Nmos6502.Proofs.Iteration
import Nmos6502.Proofs.Location
import Nmos6502.Proofs.Outcome

/-!
# Rotations of nine bits

The rotates turn a byte and the carry together, so what they turn has nine bits, and a rotation of
nine bits loses nothing: it can be undone, and after nine of them all is as before. The shifts are
the two that lose a bit. All four work where their operand is, in the accumulator or in memory.

What one step does to the nine bits is one equation for each rotate. A program of rotates that all
work on one location does what the equations say, one after the other, and that is all that is used
of it. Whether the steps of a program work on one location is seen from memory before the first of
them, if the location is not within the program: nothing else is changed there.

## Main definitions

* `nineBits` — the carry and a byte
* `Cpu.Replaces` — what a step does that replaces one byte
* `Cpu.Works` — the steps to come work on one location
* `Cpu.HoldsCode` — a program for one location is in memory
* `Cpu.AgreesOff` — two processors differ only at a location

## Main results

* `nineBits_rotateLeft`, `nineBits_rotateRight` — a rotate is a rotation
* `Cpu.exists_replaces` — a step that shifts
* `Cpu.Works.nineBits?_eq` — a program of rotates
* `Cpu.HoldsCode.works` — a program in memory works on its location
* `Cpu.rotations` — steps and programs
-/

namespace Nmos6502

/-! ## Nine bits -/

/-- A byte with the carry on top. -/
def nineBits (carry : Bool) (byte : UInt8) : BitVec 9 :=
  BitVec.ofNat 9 (0x100 * carry.toNat + byte.toNat)

theorem toNat_nineBits (carry : Bool) (byte : UInt8) :
    (nineBits carry byte).toNat = 0x100 * carry.toNat + byte.toNat := by
  have hcarry := carry.toNat_le
  have hbyte := byte.toNat_lt
  exact (BitVec.toNat_ofNat _ _).trans (Nat.mod_eq_of_lt (by omega))

/-- The nine bits tell the carry and the byte. -/
theorem nineBits_inj {carry other : Bool} {byte result : UInt8} :
    nineBits carry byte = nineBits other result ↔ carry = other ∧ byte = result := by
  have hbyte := byte.toNat_lt
  have hresult := result.toNat_lt
  rw [← BitVec.toNat_inj, toNat_nineBits, toNat_nineBits, ← UInt8.toNat_inj]
  cases carry <;> cases other <;> simp <;> omega

/-- **A rotate to the left is a rotation** of nine bits. -/
theorem nineBits_rotateLeft (carry : Bool) (byte : UInt8) :
    nineBits (rotateLeft carry byte).2 (rotateLeft carry byte).1 =
      (nineBits carry byte).rotateLeft 1 := by
  cases carry <;>
  exact forall_byte (p := fun byte => nineBits (rotateLeft _ byte).2 (rotateLeft _ byte).1 =
    (nineBits _ byte).rotateLeft 1) (by decide +kernel) byte

/-- **A rotate to the right is a rotation** of nine bits. -/
theorem nineBits_rotateRight (carry : Bool) (byte : UInt8) :
    nineBits (rotateRight carry byte).2 (rotateRight carry byte).1 =
      (nineBits carry byte).rotateRight 1 := by
  cases carry <;>
  exact forall_byte (p := fun byte => nineBits (rotateRight _ byte).2 (rotateRight _ byte).1 =
    (nineBits _ byte).rotateRight 1) (by decide +kernel) byte

/-- A fact about nine bits can be checked number by number. -/
theorem forall_nineBits {p : BitVec 9 → Prop} (h : ∀ n < 512, p (BitVec.ofNat 9 n))
    (bits : BitVec 9) : p bits := by
  have := h bits.toNat bits.isLt
  rwa [BitVec.ofNat_toNat, BitVec.setWidth_eq] at this

theorem rotateRight_rotateLeft :
    Function.LeftInverse (fun bits : BitVec 9 => bits.rotateRight 1) (·.rotateLeft 1) :=
  forall_nineBits (p := fun bits => (bits.rotateLeft 1).rotateRight 1 = bits) (by decide +kernel)

theorem rotateLeft_nine (bits : BitVec 9) : (BitVec.rotateLeft · 1)^[9] bits = bits :=
  forall_nineBits (p := fun bits => (BitVec.rotateLeft · 1)^[9] bits = bits)
    (by decide +kernel) bits

theorem rotateRight_nine (bits : BitVec 9) : (BitVec.rotateRight · 1)^[9] bits = bits :=
  forall_nineBits (p := fun bits => (BitVec.rotateRight · 1)^[9] bits = bits)
    (by decide +kernel) bits

/-! ## Bits that are lost -/

theorem shiftLeft_eq (carry : Bool) (byte : UInt8) :
    (shiftLeft carry byte).1.toNat = 2 * byte.toNat % 0x100 ∧
      (shiftLeft carry byte).2 = byte.toNat.testBit 7 :=
  forall_byte (p := fun byte => (byte <<< 1).toNat = 2 * byte.toNat % 0x100 ∧
    isNegative byte = byte.toNat.testBit 7) (by decide +kernel) byte

theorem shiftRight_eq (carry : Bool) (byte : UInt8) :
    (shiftRight carry byte).1.toNat = byte.toNat / 2 ∧
      (shiftRight carry byte).2 = byte.toNat.testBit 0 :=
  forall_byte (p := fun byte => (byte >>> 1).toNat = byte.toNat / 2 ∧
    (byte &&& 0x01 != 0) = byte.toNat.testBit 0) (by decide +kernel) byte

/-! ## Steps -/

/-- The shifts, and what they make of a carry and a byte. -/
def Mnemonic.shift? : Mnemonic → Option (Bool → UInt8 → UInt8 × Bool)
  | .asl => some shiftLeft
  | .lsr => some shiftRight
  | .rol => some rotateLeft
  | .ror => some rotateRight
  | _ => none

theorem Mnemonic.family_of_shift? {mnemonic : Mnemonic} {action : Bool → UInt8 → UInt8 × Bool}
    (h : mnemonic.shift? = some action) : mnemonic.family = .modify (shifted action) := by
  cases mnemonic with
  | asl | lsr | rol | ror =>
    cases h
    rfl
  | _ => cases h

namespace Cpu

/-- The carry, and the byte at a location. -/
def nineBits? (cpu : Cpu Ram) (location : Location) : Option (BitVec 9) :=
  (cpu.byteAt? location).map (nineBits cpu.registers.status.carry)

/-- What a step does that works on its operand: it leaves a byte where the old one was, the flags
describe it, no other register but the program counter changes, and no other byte of memory. -/
structure Replaces (cpu : Cpu Ram) (location : Location) (old new : UInt8) : Prop where
  /-- The location is that of the operand. -/
  target : cpu.target? = some location
  /-- The byte before the step. -/
  before : cpu.byteAt? location = some old
  /-- The byte after it. -/
  after : cpu.step.cpu.byteAt? location = some new
  /-- The flags describe the byte. -/
  shows : cpu.step.cpu.Shows location new.toNat
  /-- What is elsewhere stays, the accumulator among it if the byte is not there. -/
  kept : ∀ other, location ≠ other → cpu.step.cpu.byteAt? other = cpu.byteAt? other
  /-- Memory keeps its size. -/
  size : cpu.step.cpu.memory.size = cpu.memory.size
  /-- The program goes on with what follows. -/
  pc : ∃ operation, cpu.next? = some operation ∧
    cpu.step.cpu.registers.pc = cpu.registers.pc + UInt16.ofNat operation.size

variable {cpu : Cpu Ram} {location : Location} {mnemonic : Mnemonic}

/-- **A step that shifts**, wherever its operand is. -/
theorem exists_replaces {action : Bool → UInt8 → UInt8 × Bool}
    (hshift : mnemonic.shift? = some action) (h : cpu.step.result = .ok mnemonic) :
    ∃ location old, cpu.Replaces location old (action cpu.registers.status.carry old).1 ∧
      cpu.step.cpu.registers.status.carry = (action cpu.registers.status.carry old).2 := by
  obtain ⟨operation, rfl, hx⟩ := exists_executes h
  obtain ⟨location, old, htarget, hold, hcpu⟩ := hx.modify_eq (Mnemonic.family_of_shift? hshift)
  have hwithin := within_of_byteAt? hold
  refine ⟨location, old, ⟨htarget, hold, ?_, ?_, fun other hne => ?_, ?_, operation, hx.next, ?_⟩,
    ?_⟩ <;> rw [hcpu]
  · refine byteAt?_replace ?_ _
    exact hwithin
  · refine shows_replace ?_ rfl
    exact hwithin
  · rw [byteAt?_replace_of_ne hne]
    cases other <;> rfl
  · exact size_replace _ location _
  · cases location <;> rfl
  · cases location <;> rfl

/-- If the operand is known to be at a location, that is where the byte is replaced. -/
theorem exists_replaces_at {action : Bool → UInt8 → UInt8 × Bool}
    (hshift : mnemonic.shift? = some action) (h : cpu.step.result = .ok mnemonic)
    (htarget : cpu.target? = some location) :
    ∃ old, cpu.Replaces location old (action cpu.registers.status.carry old).1 ∧
      cpu.step.cpu.registers.status.carry = (action cpu.registers.status.carry old).2 := by
  obtain ⟨found, old, hreplaces, hcarry⟩ := exists_replaces hshift h
  obtain rfl : location = found := Option.some.inj (htarget.symm.trans hreplaces.target)
  exact ⟨old, hreplaces, hcarry⟩

/-- A step of a shift that turns nine bits. -/
theorem exists_turned {action : Bool → UInt8 → UInt8 × Bool} (turn : BitVec 9 → BitVec 9)
    (hshift : mnemonic.shift? = some action)
    (hturn : ∀ carry byte,
      nineBits (action carry byte).2 (action carry byte).1 = turn (nineBits carry byte))
    (h : cpu.step.result = .ok mnemonic) :
    ∃ location old new, cpu.Replaces location old new ∧
      nineBits cpu.step.cpu.registers.status.carry new =
        turn (nineBits cpu.registers.status.carry old) := by
  obtain ⟨location, old, hreplaces, hcarry⟩ := exists_replaces hshift h
  refine ⟨location, old, _, hreplaces, ?_⟩
  rw [hcarry, hturn]

/-! ## Programs of rotates -/

/-- The steps to come are those of the given operations, and each works on the location. -/
def Works (location : Location) : List Mnemonic → Cpu Ram → Prop
  | [], _ => True
  | mnemonic :: program, cpu =>
    cpu.step.result = .ok mnemonic ∧ cpu.target? = some location ∧
      Works location program cpu.step.cpu

/-- The same carry, and the same byte at a location. -/
def SameAt (location : Location) (before after : Cpu Ram) : Prop :=
  after.byteAt? location = before.byteAt? location ∧
    after.registers.status.carry = before.registers.status.carry

end Cpu

/-- What a rotate makes of nine bits. -/
def Mnemonic.turned (mnemonic : Mnemonic) (bits : BitVec 9) : BitVec 9 :=
  match mnemonic with
  | .rol => bits.rotateLeft 1
  | .ror => bits.rotateRight 1
  | _ => bits

/-- What the rotates of a program make of nine bits. -/
def turnedAll (program : List Mnemonic) (bits : BitVec 9) : BitVec 9 :=
  program.foldl (fun bits mnemonic => mnemonic.turned bits) bits

theorem turnedAll_replicate (mnemonic : Mnemonic) (count : Nat) :
    turnedAll (List.replicate count mnemonic) = mnemonic.turned^[count] := by
  induction count with
  | zero => rfl
  | succ count ih =>
    funext bits
    exact congrFun ih (mnemonic.turned bits)

theorem turnedAll_append (first second : List Mnemonic) (bits : BitVec 9) :
    turnedAll (first ++ second) bits = turnedAll second (turnedAll first bits) :=
  List.foldl_append

/-- Rotates to the right undo as many rotates to the left. -/
theorem turnedAll_back (count : Nat) (bits : BitVec 9) :
    turnedAll (List.replicate count .rol ++ List.replicate count .ror) bits = bits := by
  rw [turnedAll_append, turnedAll_replicate, turnedAll_replicate]
  exact Function.LeftInverse.iterate rotateRight_rotateLeft count bits

namespace Cpu

variable {cpu : Cpu Ram} {location : Location} {mnemonic : Mnemonic} {program : List Mnemonic}

/-- A step of a rotate turns the nine bits. -/
theorem nineBits?_step (hrotate : mnemonic = .rol ∨ mnemonic = .ror)
    (h : cpu.step.result = .ok mnemonic) (htarget : cpu.target? = some location) :
    ∃ bits, cpu.nineBits? location = some bits ∧
      cpu.step.cpu.nineBits? location = some (mnemonic.turned bits) := by
  have hturned : ∃ location old new, cpu.Replaces location old new ∧
      nineBits cpu.step.cpu.registers.status.carry new =
        mnemonic.turned (nineBits cpu.registers.status.carry old) := by
    rcases hrotate with rfl | rfl
    · exact exists_turned (·.rotateLeft 1) rfl nineBits_rotateLeft h
    · exact exists_turned (·.rotateRight 1) rfl nineBits_rotateRight h
  obtain ⟨found, old, new, hreplaces, hbits⟩ := hturned
  obtain rfl : location = found := Option.some.inj (htarget.symm.trans hreplaces.target)
  refine ⟨nineBits cpu.registers.status.carry old, ?_, ?_⟩
  · rw [nineBits?, hreplaces.before, Option.map_some]
  · rw [nineBits?, hreplaces.after, Option.map_some, hbits]

namespace Works

/-- **A program of rotates** turns the nine bits once for each of them. -/
theorem nineBits?_eq (h : cpu.Works location program)
    (hrotates : ∀ mnemonic ∈ program, mnemonic = .rol ∨ mnemonic = .ror) :
    (cpu.afterSteps program.length).nineBits? location =
      (cpu.nineBits? location).map (turnedAll program) := by
  induction program generalizing cpu with
  | nil => exact Option.map_id'.symm
  | cons mnemonic program ih =>
    obtain ⟨hstep, htarget, hlater⟩ := h
    obtain ⟨bits, hbits, hturned⟩ :=
      nineBits?_step (hrotates mnemonic (List.mem_cons_self ..)) hstep htarget
    have hrest := ih hlater fun m hm => hrotates m (List.mem_cons_of_mem _ hm)
    rw [hturned] at hrest
    rw [hbits]
    exact hrest

/-- A program that turns nine bits all the way round leaves the byte and the carry. -/
theorem sameAt (h : cpu.Works location program)
    (hrotates : ∀ mnemonic ∈ program, mnemonic = .rol ∨ mnemonic = .ror)
    (hround : ∀ bits, turnedAll program bits = bits) :
    SameAt location cpu (cpu.afterSteps program.length) := by
  have hbits := h.nineBits?_eq hrotates
  rw [show turnedAll program = id from funext hround, Option.map_id, id] at hbits
  cases program with
  | nil => exact ⟨rfl, rfl⟩
  | cons mnemonic program =>
    obtain ⟨hstep, htarget, -⟩ := h
    obtain ⟨bits, hbefore, -⟩ :=
      nineBits?_step (hrotates mnemonic (List.mem_cons_self ..)) hstep htarget
    rw [hbefore] at hbits
    obtain ⟨old, hold, hfirst⟩ := Option.map_eq_some_iff.mp hbefore
    obtain ⟨new, hnew, hlast⟩ := Option.map_eq_some_iff.mp hbits
    obtain ⟨hcarry, rfl⟩ := nineBits_inj.mp (hfirst.trans hlast.symm)
    exact ⟨hnew.trans hold.symm, hcarry.symm⟩

/-- What is not at the location stays. -/
theorem kept (h : cpu.Works location program)
    (hshifts : ∀ mnemonic ∈ program, mnemonic.shift?.isSome) {other : Location}
    (hne : location ≠ other) :
    (cpu.afterSteps program.length).byteAt? other = cpu.byteAt? other := by
  induction program generalizing cpu with
  | nil => rfl
  | cons mnemonic program ih =>
    obtain ⟨hstep, htarget, hlater⟩ := h
    obtain ⟨action, hshift⟩ :=
      Option.isSome_iff_exists.mp (hshifts mnemonic (List.mem_cons_self ..))
    obtain ⟨old, hreplaces, -⟩ := exists_replaces_at hshift hstep htarget
    have hrest := ih hlater fun m hm => hshifts m (List.mem_cons_of_mem _ hm)
    exact hrest.trans (hreplaces.kept other hne)

end Works

end Cpu

/-! ## Programs in memory -/

/-- A shift finds its operand without a pointer. -/
theorem Operation.pointerLength_of_shift {operation : Operation} {opcode : UInt8}
    (ho : operation? opcode = some operation) (hshift : operation.mnemonic.shift?.isSome) :
    operation.mode.pointerLength = 0 :=
  forall_operation (p := fun operation => operation.mnemonic.shift?.isSome →
    operation.mode.pointerLength = 0) (by decide +kernel) ho hshift

/-- Without a pointer, an effective address depends on the operand bytes and the index registers. -/
theorem Mode.effectiveAddress?_congr {mode : Mode} {registers other : Registers}
    {image changed : Image} (hpointer : mode.pointerLength = 0) (hpc : other.pc = registers.pc)
    (hx : other.x = registers.x) (hy : other.y = registers.y)
    (hbytes : ∀ address ∈ mode.operandAddresses registers,
      changed.byte address = image.byte address) :
    mode.effectiveAddress? other changed = mode.effectiveAddress? registers image := by
  cases mode with
  | implied | accumulator | immediate => rfl
  | relative | zeroPage | zeroPageX | zeroPageY =>
    have hlow : changed.byte (registers.pc + 1) = image.byte (registers.pc + 1) :=
      hbytes _ (List.mem_singleton_self _)
    simp only [effectiveAddress?, hpc, hx, hy, hlow]
  | absolute | absoluteX | absoluteY =>
    have hlow : changed.byte (registers.pc + 1) = image.byte (registers.pc + 1) :=
      hbytes _ (List.mem_cons_self ..)
    have hhigh : changed.byte (registers.pc + 2) = image.byte (registers.pc + 2) :=
      hbytes _ (List.mem_cons_of_mem _ (List.mem_singleton_self _))
    simp only [effectiveAddress?, Image.word, hpc, hx, hy, hlow, hhigh]
  | indirect | indexedIndirect | indirectIndexed => cases hpointer

/-- A shift reaches for nothing but its operand. -/
theorem Operation.effectiveAddress?_of_mem_laterAddresses {operation : Operation} {opcode : UInt8}
    (ho : operation? opcode = some operation) (hshift : operation.mnemonic.shift?.isSome)
    {registers : Registers} {image : Image} {address : UInt16}
    (h : address ∈ operation.laterAddresses registers image) :
    operation.mode.effectiveAddress? registers image = some address := by
  have hpointer : operation.mode.pointerAddresses registers image = [] := by
    have hlength := operation.pointerLength_of_shift ho hshift
    cases hmode : operation.mode <;> rw [hmode] at hlength <;> first | rfl | cases hlength
  rw [laterAddresses, hpointer, mayWrite] at h
  obtain ⟨mnemonic, mode, cycles⟩ := operation
  cases mnemonic with
  | asl | lsr | rol | ror =>
    simpa [Mnemonic.operandUse, OperandUse.reads, Mnemonic.pulledSlots] using h
  | _ => cases hshift

namespace Cpu

/-- From the program counter on, memory holds instructions of the given operations. Each of them is
within memory and works on the location, and none of their bytes is there. -/
def HoldsCode (location : Location) : List Mnemonic → Cpu Ram → Prop
  | [], _ => True
  | mnemonic :: program, cpu =>
    ∃ operation, cpu.next? = some operation ∧ operation.mnemonic = mnemonic ∧
      cpu.target? = some location ∧
      cpu.registers.pc.toNat + operation.size ≤ cpu.memory.size ∧
      location ∉ (operation.ownAddresses cpu.registers).map .memory ∧
      HoldsCode location program (cpu.mapRegisters fun registers =>
        { registers with pc := registers.pc + UInt16.ofNat operation.size })

/-- Two processors are at the same place of a program for a location, and differ only there. -/
structure AgreesOff (location : Location) (cpu other : Cpu Ram) : Prop where
  /-- The program counters are the same. -/
  pc : other.registers.pc = cpu.registers.pc
  /-- The sizes of memory are the same. -/
  size : other.memory.size = cpu.memory.size
  /-- What is elsewhere is the same. -/
  kept : ∀ place, location ≠ place → other.byteAt? place = cpu.byteAt? place

variable {cpu other : Cpu Ram} {location : Location} {program : List Mnemonic}

/-- The instruction at the program counter is the same, and so is the place of its operand. -/
theorem AgreesOff.target?_eq (h : cpu.AgreesOff location other) {operation : Operation}
    (hnext : cpu.next? = some operation) (hshift : operation.mnemonic.shift?.isSome)
    (hown : location ∉ (operation.ownAddresses cpu.registers).map .memory)
    (htarget : cpu.target? = some location) :
    other.next? = some operation ∧ other.target? = some location := by
  obtain ⟨opcode, -, ho⟩ := exists_opcode_of_next? hnext
  have helsewhere : ∀ address ∈ operation.ownAddresses cpu.registers, location ≠ .memory address :=
    fun address hmem he => hown (he ▸ List.mem_map_of_mem hmem)
  have hopcode := h.kept _ (helsewhere _ (List.mem_cons_self ..))
  have hsame : other.next? = some operation := by
    rw [← hnext, next?_eq_bind, next?_eq_bind, h.pc, hopcode]
  have hindex : location ≠ .x ∧ location ≠ .y := by
    rcases target?_cases htarget with rfl | ⟨address, rfl⟩ <;> exact ⟨by simp, by simp⟩
  have hx : other.registers.x = cpu.registers.x := Option.some.inj (h.kept .x hindex.1)
  have hy : other.registers.y = cpu.registers.y := Option.some.inj (h.kept .y hindex.2)
  have hbytes : ∀ address ∈ operation.mode.operandAddresses cpu.registers,
      other.image.byte address = cpu.image.byte address := by
    intro address hmem
    have hkept := h.kept _ (helsewhere address (List.mem_cons_of_mem _ hmem))
    exact congrArg (Option.getD · 0) hkept
  have haddress : operation.mode.effectiveAddress? other.registers other.image =
      operation.mode.effectiveAddress? cpu.registers cpu.image :=
    Mode.effectiveAddress?_congr (operation.pointerLength_of_shift ho hshift) h.pc hx hy hbytes
  refine ⟨hsame, ?_⟩
  rw [← htarget, target?_of_next? hsame, target?_of_next? hnext, haddress]

theorem HoldsCode.congr (h : cpu.HoldsCode location program)
    (hagrees : cpu.AgreesOff location other)
    (hshifts : ∀ mnemonic ∈ program, mnemonic.shift?.isSome) :
    other.HoldsCode location program := by
  induction program generalizing cpu other with
  | nil => trivial
  | cons mnemonic program ih =>
    obtain ⟨operation, hnext, rfl, htarget, hfits, hown, hlater⟩ := h
    obtain ⟨hsame, hplace⟩ :=
      hagrees.target?_eq hnext (hshifts _ (List.mem_cons_self ..)) hown htarget
    refine ⟨operation, hsame, rfl, hplace, ?_, ?_, ?_⟩
    · rw [hagrees.pc, hagrees.size]
      exact hfits
    · rw [Operation.ownAddresses, Mode.operandAddresses, hagrees.pc]
      exact hown
    · refine ih hlater ?_ fun m hm => hshifts m (List.mem_cons_of_mem _ hm)
      refine ⟨congrArg (· + _) hagrees.pc, hagrees.size, fun place hne => ?_⟩
      have hkept := hagrees.kept place hne
      cases place <;> exact hkept

/-- The first instruction of a program in memory can be executed. -/
theorem step_ok_of_target? {operation : Operation} (hnext : cpu.next? = some operation)
    (hshift : operation.mnemonic.shift?.isSome)
    (hfits : cpu.registers.pc.toNat + operation.size ≤ cpu.memory.size)
    (htarget : cpu.target? = some location) (hwithin : location.Within cpu.memory.size) :
    cpu.step.result = .ok operation.mnemonic := by
  obtain ⟨opcode, hread, ho⟩ := exists_opcode_of_next? hnext
  rw [step_result_of_fits hread ho (by omega), Ram.firstBeyond?_eq_none]
  intro address hmem
  have ha := Operation.effectiveAddress?_of_mem_laterAddresses ho hshift hmem
  have hne : operation.mode ≠ .accumulator := by
    intro haccumulator
    rw [haccumulator] at ha
    cases ha
  rw [target?_of_next? hnext, if_neg hne, ha, Option.map_some] at htarget
  cases htarget
  exact hwithin

/-- **A program in memory works on its location.** Each of its steps leaves the rest of the program
as it was. -/
theorem HoldsCode.works (h : cpu.HoldsCode location program)
    (hshifts : ∀ mnemonic ∈ program, mnemonic.shift?.isSome)
    (hwithin : location.Within cpu.memory.size) : cpu.Works location program := by
  induction program generalizing cpu with
  | nil => trivial
  | cons mnemonic program ih =>
    obtain ⟨operation, hnext, rfl, htarget, hfits, hown, hlater⟩ := h
    have hshift := hshifts _ (List.mem_cons_self ..)
    have hrest : ∀ m ∈ program, m.shift?.isSome := fun m hm => hshifts m (List.mem_cons_of_mem _ hm)
    have hstep := step_ok_of_target? hnext hshift hfits htarget hwithin
    obtain ⟨action, haction⟩ := Option.isSome_iff_exists.mp hshift
    obtain ⟨old, hreplaces, -⟩ := exists_replaces_at haction hstep htarget
    obtain ⟨same, hsame, hpc⟩ := hreplaces.pc
    obtain rfl : operation = same := Option.some.inj (hnext.symm.trans hsame)
    -- what the step has changed is at the location, and the rest of the program is not
    refine ⟨hstep, htarget, ih (hlater.congr ⟨hpc, hreplaces.size, fun place hne => ?_⟩ hrest) hrest
      (hreplaces.size ▸ hwithin)⟩
    rw [hreplaces.kept place hne]
    cases place <;> rfl

/-- **Rotations.** A rotate turns nine bits, wherever its operand is, and a shift loses the bit that
goes to the carry. Shifts in memory that all work on one location outside themselves are executed
one after the other. So rotates to the right undo as many rotates to the left, and nine rotates to
one side change nothing. What is not at the location stays. -/
theorem rotations (cpu : Cpu Ram) :
    ((cpu.step.result = .ok .rol → ∃ location old new, cpu.Replaces location old new ∧
        nineBits cpu.step.cpu.registers.status.carry new =
          (nineBits cpu.registers.status.carry old).rotateLeft 1) ∧
      (cpu.step.result = .ok .ror → ∃ location old new, cpu.Replaces location old new ∧
        nineBits cpu.step.cpu.registers.status.carry new =
          (nineBits cpu.registers.status.carry old).rotateRight 1) ∧
      (cpu.step.result = .ok .asl → ∃ location old new, cpu.Replaces location old new ∧
        cpu.step.cpu.registers.status.carry = old.toNat.testBit 7 ∧
        new.toNat = 2 * old.toNat % 0x100) ∧
      (cpu.step.result = .ok .lsr → ∃ location old new, cpu.Replaces location old new ∧
        cpu.step.cpu.registers.status.carry = old.toNat.testBit 0 ∧
        new.toNat = old.toNat / 2)) ∧
    ∀ location,
      (∀ program : List Mnemonic, (∀ mnemonic ∈ program, mnemonic.shift?.isSome) →
        location.Within cpu.memory.size → cpu.HoldsCode location program →
        cpu.Works location program) ∧
      (∀ count, cpu.Works location (List.replicate count .rol ++ List.replicate count .ror) →
        SameAt location cpu (cpu.afterSteps (2 * count))) ∧
      (cpu.Works location (List.replicate 9 .rol) → SameAt location cpu (cpu.afterSteps 9)) ∧
      (cpu.Works location (List.replicate 9 .ror) → SameAt location cpu (cpu.afterSteps 9)) ∧
      ∀ program other, (∀ mnemonic ∈ program, mnemonic.shift?.isSome) →
        cpu.Works location program → location ≠ other →
        (cpu.afterSteps program.length).byteAt? other = cpu.byteAt? other := by
  refine ⟨⟨fun h => ?_, fun h => ?_, fun h => ?_, fun h => ?_⟩, fun location =>
    ⟨fun program hshifts hwithin h => h.works hshifts hwithin, fun count h => ?_, fun h => ?_,
      fun h => ?_, fun program other hshifts h hne => h.kept hshifts hne⟩⟩
  · exact exists_turned (·.rotateLeft 1) rfl nineBits_rotateLeft h
  · exact exists_turned (·.rotateRight 1) rfl nineBits_rotateRight h
  · obtain ⟨location, old, hreplaces, hcarry⟩ := exists_replaces rfl h
    obtain ⟨hvalue, hbit⟩ := shiftLeft_eq cpu.registers.status.carry old
    exact ⟨location, old, _, hreplaces, hcarry.trans hbit, hvalue⟩
  · obtain ⟨location, old, hreplaces, hcarry⟩ := exists_replaces rfl h
    obtain ⟨hvalue, hbit⟩ := shiftRight_eq cpu.registers.status.carry old
    exact ⟨location, old, _, hreplaces, hcarry.trans hbit, hvalue⟩
  · have hsame := h.sameAt (fun mnemonic hm => ?_) (turnedAll_back count)
    · rwa [List.length_append, List.length_replicate, List.length_replicate, ← Nat.two_mul] at hsame
    · rcases List.mem_append.mp hm with hm | hm
      · exact .inl (List.eq_of_mem_replicate hm)
      · exact .inr (List.eq_of_mem_replicate hm)
  · refine h.sameAt (fun mnemonic hm => .inl (List.eq_of_mem_replicate hm)) fun bits => ?_
    rw [turnedAll_replicate]
    exact rotateLeft_nine bits
  · refine h.sameAt (fun mnemonic hm => .inr (List.eq_of_mem_replicate hm)) fun bits => ?_
    rw [turnedAll_replicate]
    exact rotateRight_nine bits

/-- A byte in the zero page that is turned to the left and back, with the carry set. -/
def turning : Cpu Ram where
  registers := ⟨0x55, 0, 0, 0xFF, 0, Status.powerOn.setFlag .carry true⟩
  clock := .zero
  verbose := false
  memory := (((((Ram.zeros 0x0090 (by decide) (by decide)).put 0 0x26).put 1 0x40).put 2
    0x66).put 3 0x40).put 0x0040 0x80

/-- The top bit goes out to the carry, the carry comes in at the bottom, and both go back. The
accumulator has no part in it. -/
theorem rotations_turning :
    turning.HoldsCode (.memory 0x0040) [.rol, .ror] ∧
    turning.step.cpu.byteAt? (.memory 0x0040) = some 0x01 ∧
    turning.step.cpu.registers.status.carry = true ∧
    SameAt (.memory 0x0040) turning (turning.afterSteps 2) ∧
    (turning.afterSteps 2).byteAt? .a = some 0x55 := by
  obtain ⟨⟨hleft, -⟩, hprograms⟩ := rotations turning
  obtain ⟨hworks, hback, -, -, hkept⟩ := hprograms (.memory 0x0040)
  have hcode : turning.HoldsCode (.memory 0x0040) [.rol, .ror] :=
    ⟨⟨.rol, .zeroPage, 5⟩, by decide +kernel, rfl, by decide +kernel, by decide +kernel,
      by decide +kernel, ⟨.ror, .zeroPage, 5⟩, by decide +kernel, rfl, by decide +kernel,
      by decide +kernel, by decide +kernel, trivial⟩
  have hruns := hworks [.rol, .ror] (by decide) (by decide +kernel) hcode
  obtain ⟨location, old, new, hreplaces, hturned⟩ := hleft hruns.1
  cases hruns.2.1.symm.trans hreplaces.target
  have hold : turning.byteAt? (.memory 0x0040) = some 0x80 := by decide +kernel
  cases hold.symm.trans hreplaces.before
  have hbits : (nineBits true 0x80).rotateLeft 1 = nineBits true 0x01 := by decide
  obtain ⟨hcarry, hnew⟩ := nineBits_inj.mp (hturned.trans hbits)
  refine ⟨hcode, hnew ▸ hreplaces.after, hcarry, hback 1 hruns, ?_⟩
  exact hkept [.rol, .ror] .a (by decide) hruns (by simp)

end Cpu

end Nmos6502
