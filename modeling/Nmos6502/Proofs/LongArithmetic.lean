import Mathlib.Data.Nat.Digits.Defs
import Mathlib.Tactic.Ring
import Nmos6502.Proofs.DormantFlags
import Nmos6502.Proofs.FullMemory

/-!
# Arithmetic on long numbers

A number of several bytes is added to another byte by byte, the lowest first, and the carry goes
from one byte to the next. The program clears the carry, then loads, adds and stores each byte, and
breaks. To subtract it sets the carry and subtracts; since the processor subtracts by adding the
complement, the two programs are one, and differ in what they make of a byte of the second number.

The program is followed byte by byte. After `i` bytes the target has the lowest `i` bytes of the
result, and together with the carry, which stands for one more byte, they are exactly the sum of the
lowest bytes of the two numbers. Nothing outside the target has changed, so the code and the numbers
are still there for the next byte.

## Main definitions

* `littleEndian` — the number that bytes spell
* `LongProgram`, `LongProgram.code` — the program and its bytes
* `LongProgram.Fits`, `LongProgram.Ready` — where it may stand, and that it stands there
* `LongProgram.Reached` — how far it has come

## Main results

* `Cpu.Leads.limb`, `LongProgram.Reached.next` — one byte of the numbers
* `LongProgram.run_longProgram` — the whole run
-/

namespace Nmos6502

/-! ## Numbers of several bytes -/

/-- The number that some bytes spell, the lowest first. -/
def littleEndian (bytes : List UInt8) : Nat := Nat.ofDigits 256 (bytes.map UInt8.toNat)

theorem littleEndian_append_singleton (bytes : List UInt8) (byte : UInt8) :
    littleEndian (bytes ++ [byte]) = littleEndian bytes + 256 ^ bytes.length * byte.toNat := by
  rw [littleEndian, List.map_append, Nat.ofDigits_append, List.length_map, List.map_singleton,
    Nat.ofDigits_singleton]
  rfl

theorem littleEndian_lt (bytes : List UInt8) : littleEndian bytes < 256 ^ bytes.length := by
  have hdigits : ∀ digit ∈ bytes.map UInt8.toNat, digit < 256 := by
    intro digit hd
    obtain ⟨byte, -, rfl⟩ := List.mem_map.mp hd
    exact byte.toNat_lt
  simpa [littleEndian] using Nat.ofDigits_lt_base_pow_length (by decide) hdigits

/-- One more byte of an image, of which something is made, counts for more than those before it. -/
theorem littleEndian_map_bytes_succ (image : Image) (place count : Nat) (f : UInt8 → UInt8) :
    littleEndian ((image.bytes place (count + 1)).map f) =
      littleEndian ((image.bytes place count).map f) +
        256 ^ count * (f (image.byte (UInt16.ofNat (place + count)))).toNat := by
  rw [Image.bytes_succ, List.map_append, List.map_singleton, littleEndian_append_singleton,
    List.length_map, Image.length_bytes]

theorem littleEndian_bytes_succ (image : Image) (place count : Nat) :
    littleEndian (image.bytes place (count + 1)) =
      littleEndian (image.bytes place count) +
        256 ^ count * (image.byte (UInt16.ofNat (place + count))).toNat := by
  simpa only [List.map_id, id_eq] using littleEndian_map_bytes_succ image place count id

/-- A number and its complement are all ones together. -/
theorem littleEndian_complement (bytes : List UInt8) :
    littleEndian (bytes.map (~~~ ·)) + littleEndian bytes + 1 = 256 ^ bytes.length := by
  induction bytes with
  | nil => rfl
  | cons byte bytes ih =>
    have hbyte := byte.toNat_lt
    have hcomplement : (~~~byte).toNat = 0xFF - byte.toNat := by
      simp [UInt8.toNat_not]
    simp only [littleEndian, List.map_cons, Nat.ofDigits_cons, List.length_cons] at ih ⊢
    rw [hcomplement, Nat.pow_succ, ← ih]
    omega

/-! ## The program -/

/-- What is done with two long numbers. -/
inductive LongOperation where
  /-- The second is added to the first. -/
  | sum
  /-- The second is subtracted from the first. -/
  | difference

namespace LongOperation

/-- The carry to begin with. -/
def carryIn : LongOperation → Bool
  | .sum => false
  | .difference => true

/-- The operation that prepares the carry. -/
def preparing : LongOperation → Mnemonic
  | .sum => .clc
  | .difference => .sec

/-- Its opcode. -/
def preparingCode : LongOperation → UInt8
  | .sum => 0x18
  | .difference => 0x38

/-- The operation on two bytes. -/
def combining : LongOperation → Mnemonic
  | .sum => .adc
  | .difference => .sbc

/-- Its opcode, for a byte at an absolute address. -/
def combiningCode : LongOperation → UInt8
  | .sum => 0x6D
  | .difference => 0xED

/-- What is added for a byte of the second number. -/
def summand (operation : LongOperation) (byte : UInt8) : UInt8 :=
  match operation with
  | .sum => byte
  | .difference => ~~~byte

/-- The action of the operation on two bytes. -/
def action (operation : LongOperation) (registers : Registers) (byte : UInt8) : Registers :=
  registers.addWithCarry (operation.summand byte)

/-- What the operation gives for two numbers: the result as a number of `count` bytes, and whether
the carry is set. A carry after a subtraction says that nothing had to be borrowed. -/
def Gives (operation : LongOperation) (count first second result : Nat) (carry : Bool) : Prop :=
  match operation with
  | .sum =>
    result = (first + second) % 256 ^ count ∧ (carry = true ↔ 256 ^ count ≤ first + second)
  | .difference =>
    (result : Int) = ((first : Int) - second) % 256 ^ count ∧ (carry = true ↔ second ≤ first)

theorem operation?_preparingCode (operation : LongOperation) :
    operation? operation.preparingCode = some ⟨operation.preparing, .implied, 2⟩ := by
  cases operation <;> decide +kernel

theorem operation?_combiningCode (operation : LongOperation) :
    operation? operation.combiningCode = some ⟨operation.combining, .absolute, 4⟩ := by
  cases operation <;> decide +kernel

theorem family_combining (operation : LongOperation) :
    operation.combining.family = .load operation.action := by
  cases operation <;> rfl

theorem family_preparing (operation : LongOperation) :
    operation.preparing.family =
      .internal fun registers => registers.assign .carry operation.carryIn := by
  cases operation <;> rfl

end LongOperation

/-- The bytes of an instruction with the address of a place. -/
def absoluteCode (opcode : UInt8) (place : Nat) : List UInt8 :=
  [opcode, lowByte (UInt16.ofNat place), highByte (UInt16.ofNat place)]

/-- A program that works on two numbers of `count` bytes, and where everything stands. -/
structure LongProgram where
  /-- What it does with the numbers. -/
  operation : LongOperation
  /-- Where it begins. -/
  start : Nat
  /-- Where the first number begins. -/
  first : Nat
  /-- Where the second number begins. -/
  second : Nat
  /-- Where the result begins. -/
  target : Nat
  /-- How many bytes a number has. -/
  count : Nat

namespace LongProgram

variable (program : LongProgram)

/-- The code for one byte: `LDA`, the operation, and `STA`. -/
def limb (i : Nat) : List UInt8 :=
  absoluteCode 0xAD (program.first + i) ++
    (absoluteCode program.operation.combiningCode (program.second + i) ++
      absoluteCode 0x8D (program.target + i))

/-- The whole code. It ends with a `BRK`. -/
def code : List UInt8 :=
  [program.operation.preparingCode] ++
    ((List.range program.count).flatMap program.limb ++ [0x00])

theorem length_limb (i : Nat) : (program.limb i).length = 9 := rfl

/-- How many bytes the code has. -/
def size : Nat := 9 * program.count + 2

theorem length_code : program.code.length = program.size := by
  rw [code, size, List.length_append, List.length_append,
    Image.length_flatMap_range program.length_limb, List.length_singleton, List.length_singleton]
  omega

/-- The code and the numbers lie in the address space, and the result overwrites neither. -/
structure Fits : Prop where
  /-- The code lies in the address space. -/
  code : program.start + program.size ≤ addressSpace
  /-- The first number does. -/
  first : program.first + program.count ≤ addressSpace
  /-- The second number does. -/
  second : program.second + program.count ≤ addressSpace
  /-- The result does. -/
  target : program.target + program.count ≤ addressSpace
  /-- The result stays off the code. -/
  target_code : program.target + program.count ≤ program.start ∨
    program.start + program.size ≤ program.target
  /-- It stays off the first number. -/
  target_first : program.target + program.count ≤ program.first ∨
    program.first + program.count ≤ program.target
  /-- It stays off the second number. -/
  target_second : program.target + program.count ≤ program.second ∨
    program.second + program.count ≤ program.target

end LongProgram

/-! ## The instructions of the program -/

namespace Cpu

variable {cpu : Cpu Ram} {place target : Nat} {opcode : UInt8} {mnemonic : Mnemonic}

/-- The instruction at the program counter concerns only the registers. -/
theorem step_of_internal {action : Registers → Registers} {cycles : Nat}
    (hfamily : mnemonic.family = .internal action) (hfull : cpu.memory.size = addressSpace)
    (hpc : cpu.registers.pc = UInt16.ofNat place)
    (hcode : cpu.image.bytes place 1 = [opcode])
    (ho : operation? opcode = some ⟨mnemonic, .implied, cycles⟩) :
    cpu.step.result = .ok mnemonic ∧
      cpu.step.cpu =
        { registers := action { cpu.registers with pc := UInt16.ofNat (place + 1) }
          clock := cpu.clock.tick cycles
          verbose := cpu.verbose
          memory := cpu.memory } := by
  have hopcode : cpu.image.byte (UInt16.ofNat place) = opcode := (List.cons.inj hcode).1
  have hhere : operation? (cpu.image.byte cpu.registers.pc) =
      some ⟨mnemonic, .implied, cycles⟩ := by
    rw [hpc, hopcode, ho]
  have hstep := step_of_full hfull hhere (by simp) cpu.registers.pc.toNat_lt
  have hnext : cpu.registers.pc + UInt16.ofNat 1 = UInt16.ofNat (place + 1) := by
    rw [hpc, UInt16.ofNat_add]
  rw [effect, Operation.effect, hfamily] at hstep
  rwa [← hnext]

/-- The instruction at the program counter has the address of a place. -/
theorem step_of_absoluteCode (hfull : cpu.memory.size = addressSpace)
    (hpc : cpu.registers.pc = UInt16.ofNat place)
    (hcode : cpu.image.bytes place 3 = absoluteCode opcode target)
    (ho : operation? opcode = some ⟨mnemonic, .absolute, 4⟩)
    (hfits : place + 3 ≤ addressSpace) :
    let registers := { cpu.registers with pc := UInt16.ofNat (place + 3) }
    let reads := mnemonic.family.operandUse.reads
    let address := UInt16.ofNat target
    let effect := mnemonic.family.effect
      ⟨.absolute, if reads then some (cpu.image.byte address) else none, some address⟩
        registers cpu.image
    cpu.step.result = .ok mnemonic ∧
      cpu.step.cpu = ⟨effect.registers, cpu.clock.tick 4, cpu.verbose,
        Bus.putAll cpu.memory effect.writes⟩ := by
  intro registers reads address effect
  have hbytes : cpu.image.byte (UInt16.ofNat place) = opcode ∧
      cpu.image.byte (UInt16.ofNat (place + 1)) = lowByte address ∧
      cpu.image.byte (UInt16.ofNat (place + 2)) = highByte address := by
    simpa [Image.bytes, List.range_succ, absoluteCode] using hcode
  obtain ⟨hopcode, hlow, hhigh⟩ := hbytes
  rw [UInt16.ofNat_add, ← hpc] at hlow hhigh
  have hword : cpu.image.word (cpu.registers.pc + 1) (cpu.registers.pc + 2) = address := by
    rw [Image.word]
    exact (congrArg₂ word hlow hhigh).trans (word_lowByte_highByte address)
  have heffect : cpu.effect ⟨mnemonic, .absolute, 4⟩ = effect := by
    have hplace : Mode.absolute.effectiveAddress? cpu.registers cpu.image = some address :=
      congrArg some hword
    have hnext : cpu.registers.pc + UInt16.ofNat 3 = UInt16.ofNat (place + 3) := by
      rw [hpc, UInt16.ofNat_add]
    rw [Cpu.effect, Operation.effect, Mode.operand_of_isInMemory rfl hplace]
    exact congrArg (fun pc => Family.effect _ _ { cpu.registers with pc } cpu.image) hnext
  have hplace : cpu.registers.pc.toNat = place := by
    rw [hpc, toNat_ofNat_of_lt (by omega)]
  have hhere : operation? (cpu.image.byte cpu.registers.pc) = some ⟨mnemonic, .absolute, 4⟩ := by
    rw [hpc, hopcode, ho]
  have hstep := step_of_full hfull hhere (by simp) (by rw [hplace]; exact hfits)
  rwa [heffect] at hstep

end Cpu

namespace Cpu.Leads

variable {seen cpu : Cpu Ram} {turns place target : Nat} {opcode : UInt8} {mnemonic : Mnemonic}

section Instruction

variable (h : Leads seen turns cpu) (hfull : cpu.memory.size = addressSpace)
  (hpc : cpu.registers.pc = UInt16.ofNat place)
  (hcode : cpu.image.bytes place 3 = absoluteCode opcode target)
  (ho : operation? opcode = some ⟨mnemonic, .absolute, 4⟩) (hfits : place + 3 ≤ addressSpace)

include h hfull hpc hcode ho hfits

/-- An instruction with an address is no break, so it leads one step on. -/
theorem absolute : Leads seen (turns + 1) cpu.step.cpu := by
  have hne : mnemonic ≠ .brk := by
    rintro rfl
    exact absurd (admits_of_operation? ho) (by decide)
  obtain ⟨hresult, -⟩ := step_of_absoluteCode hfull hpc hcode ho hfits
  exact h.trans (.of_step hresult hne)

/-- A load lets the byte at its place act on the registers. -/
theorem load {action : Registers → UInt8 → Registers} (hfamily : mnemonic.family = .load action) :
    Leads seen (turns + 1)
      { registers := action { cpu.registers with pc := UInt16.ofNat (place + 3) }
          (cpu.image.byte (UInt16.ofNat target))
        clock := cpu.clock.tick 4
        verbose := cpu.verbose
        memory := cpu.memory } := by
  obtain ⟨-, hcpu⟩ := step_of_absoluteCode hfull hpc hcode ho hfits
  rw [hfamily] at hcpu
  exact hcpu ▸ h.absolute hfull hpc hcode ho hfits

/-- A store puts a register's byte at its place. -/
theorem store {source : Registers → UInt8} (hfamily : mnemonic.family = .store source) :
    Leads seen (turns + 1)
      { registers := { cpu.registers with pc := UInt16.ofNat (place + 3) }
        clock := cpu.clock.tick 4
        verbose := cpu.verbose
        memory := cpu.memory.put (UInt16.ofNat target)
          (source { cpu.registers with pc := UInt16.ofNat (place + 3) }) } := by
  obtain ⟨-, hcpu⟩ := step_of_absoluteCode hfull hpc hcode ho hfits
  rw [hfamily] at hcpu
  exact hcpu ▸ h.absolute hfull hpc hcode ho hfits

end Instruction

/-- **One byte.** A byte of the first number, a byte of the second and the carry are added, and the
sum goes to the target and the carry. -/
theorem limb {first second : Nat} (operation : LongOperation)
    (hfull : cpu.memory.size = addressSpace) (hpc : cpu.registers.pc = UInt16.ofNat place)
    (hfits : place + 9 ≤ addressSpace)
    (hload : cpu.image.bytes place 3 = absoluteCode 0xAD first)
    (hcombine : cpu.image.bytes (place + 3) 3 = absoluteCode operation.combiningCode second)
    (hstore : cpu.image.bytes (place + 6) 3 = absoluteCode 0x8D target) :
    ∃ registers, Leads cpu 3
        { registers
          clock := cpu.clock.tick 12
          verbose := cpu.verbose
          memory := cpu.memory.put (UInt16.ofNat target) registers.a } ∧
      registers.pc = UInt16.ofNat (place + 9) ∧
      registers.a.toNat + 256 * registers.status.carry.toNat =
        (cpu.image.byte (UInt16.ofNat first)).toNat +
          (operation.summand (cpu.image.byte (UInt16.ofNat second))).toNat +
          cpu.registers.status.carry.toNat := by
  have hlda : operation? 0xAD = some ⟨.lda, .absolute, 4⟩ := by decide +kernel
  have hsta : operation? 0x8D = some ⟨.sta, .absolute, 4⟩ := by decide +kernel
  have hloaded := (refl cpu).load hfull hpc hload hlda (by omega) rfl
  have hcombined := hloaded.load hfull rfl hcombine operation.operation?_combiningCode (by omega)
    operation.family_combining
  have hstored := hcombined.store hfull rfl hstore hsta (by omega) rfl
  rw [Clock.tick_tick, Clock.tick_tick] at hstored
  exact ⟨_, hstored, rfl, Registers.addWithCarry_sum _ _⟩

end Cpu.Leads

/-! ## The run of the program -/

namespace LongProgram

variable {program : LongProgram} {before now : Cpu Ram} {i : Nat}

open Cpu

/-- The processor is about to execute the program, and has all the memory there can be. -/
structure Ready (program : LongProgram) (cpu : Cpu Ram) : Prop where
  /-- Memory fills the address space. -/
  full : cpu.memory.size = addressSpace
  /-- The program stands in it. -/
  code : cpu.memory.slice program.start program.size = program.code
  /-- The program counter is at its start. -/
  pc : cpu.registers.pc = UInt16.ofNat program.start

/-- The code is made of its parts. -/
theorem Ready.parts (h : program.Ready before) (hfits : program.Fits) :
    before.image.bytes program.start 1 = [program.operation.preparingCode] ∧
      (∀ i < program.count,
        before.image.bytes (program.start + 1 + 9 * i) 9 = program.limb i) ∧
      before.image.bytes (program.start + 1 + 9 * program.count) 1 = [0x00] := by
  have hcode : before.image.bytes program.start program.code.length = program.code := by
    rw [program.length_code, ← h.code, Ram.slice_eq_bytes (h.full ▸ hfits.code)]
    rfl
  rw [LongProgram.code, Image.bytes_append_iff, Image.bytes_append_iff] at hcode
  obtain ⟨hbegin, hlimbs, hend⟩ := hcode
  rw [Image.length_flatMap_range program.length_limb] at hend
  exact ⟨hbegin, Image.bytes_flatMap program.length_limb hlimbs, hend⟩

/-- The code for one byte is made of three instructions. -/
theorem limb_parts {image : Image} {place : Nat} (h : image.bytes place 9 = program.limb i) :
    image.bytes place 3 = absoluteCode 0xAD (program.first + i) ∧
      image.bytes (place + 3) 3 =
        absoluteCode program.operation.combiningCode (program.second + i) ∧
      image.bytes (place + 6) 3 = absoluteCode 0x8D (program.target + i) := by
  have hparts : image.bytes place (program.limb i).length = program.limb i := h
  rw [limb, Image.bytes_append_iff, Image.bytes_append_iff] at hparts
  exact hparts

/-- So many bytes of the numbers are done. -/
structure Reached (program : LongProgram) (before : Cpu Ram) (i : Nat) (now : Cpu Ram) : Prop where
  /-- The steps so far lead here. -/
  leads : Leads before (1 + 3 * i) now
  /-- The code for the next byte comes next. -/
  pc : now.registers.pc = UInt16.ofNat (program.start + 1 + 9 * i)
  /-- The cycles so far. -/
  clock : now.clock = before.clock.tick (2 + 12 * i)
  /-- Memory still fills the address space. -/
  full : now.memory.size = addressSpace
  /-- Only the bytes of the result so far have changed. -/
  kept (address : UInt16) :
    address.toNat < program.target ∨ program.target + i ≤ address.toNat →
      now.image.byte address = before.image.byte address
  /-- The result so far and the carry are the sum so far. -/
  sum : littleEndian (now.image.bytes program.target i) +
      256 ^ i * now.registers.status.carry.toNat =
    littleEndian (before.image.bytes program.first i) +
      littleEndian ((before.image.bytes program.second i).map program.operation.summand) +
      program.operation.carryIn.toNat

/-- The carry is prepared. -/
theorem Ready.reached (h : program.Ready before) (hfits : program.Fits) :
    program.Reached before 0 before.step.cpu := by
  obtain ⟨hresult, hcpu⟩ := step_of_internal program.operation.family_preparing h.full h.pc
    (h.parts hfits).1 program.operation.operation?_preparingCode
  have hne : program.operation.preparing ≠ .brk := by
    cases program.operation <;> decide
  have hleads := Leads.of_step hresult hne
  rw [hcpu] at hleads ⊢
  refine ⟨hleads, rfl, rfl, h.full, fun _ _ => rfl, ?_⟩
  simp [Image.bytes, littleEndian, Registers.assign, Status.setFlag]

/-- What stands off the result is still there. -/
theorem Reached.bytes_eq (h : program.Reached before i now) (hi : i ≤ program.count)
    {place count : Nat} (hfits : place + count ≤ addressSpace)
    (hoff : program.target + program.count ≤ place ∨ place + count ≤ program.target) :
    now.image.bytes place count = before.image.bytes place count := by
  refine Image.bytes_congr fun k hk => h.kept _ ?_
  rw [toNat_ofNat_of_lt (by omega)]
  omega

/-- **From byte to byte.** -/
theorem Reached.next (h : program.Reached before i now) (hready : program.Ready before)
    (hfits : program.Fits) (hi : i < program.count) :
    ∃ later, program.Reached before (i + 1) later := by
  have ⟨hcode, hfirst, hsecond, htarget, hoffCode, hoffFirst, hoffSecond⟩ := hfits
  have hsize : program.size = 9 * program.count + 2 := rfl
  -- the code for this byte and the two bytes themselves are as they were
  have hlimb : now.image.bytes (program.start + 1 + 9 * i) 9 = program.limb i := by
    rw [h.bytes_eq (Nat.le_of_lt hi) (by omega) (by omega)]
    exact (hready.parts hfits).2.1 i hi
  have hx := h.kept (UInt16.ofNat (program.first + i)) (by
    rw [toNat_ofNat_of_lt (by omega)]
    omega)
  have hy := h.kept (UInt16.ofNat (program.second + i)) (by
    rw [toNat_ofNat_of_lt (by omega)]
    omega)
  obtain ⟨hload, hcombine, hstore⟩ := limb_parts hlimb
  obtain ⟨registers, hleads, hpc, hsum⟩ := Leads.limb program.operation h.full h.pc (by omega)
    hload hcombine hstore
  rw [hx, hy] at hsum
  have hplace : (UInt16.ofNat (program.target + i)).toNat = program.target + i :=
    toNat_ofNat_of_lt (by omega)
  refine ⟨_, h.leads.trans hleads, hpc, ?_, (Ram.size_put ..).trans h.full, ?_, ?_⟩
  · rw [h.clock, Clock.tick_tick]
    rfl
  · intro address haddress
    refine (Ram.byte_put_of_full h.full _ address _).trans ?_
    rw [if_neg]
    · exact h.kept address (by omega)
    · rintro rfl
      omega
  · rw [Cpu.image, Ram.bytes_put_of_full h.full (by omega), littleEndian_append_singleton,
      Image.length_bytes, littleEndian_bytes_succ, littleEndian_map_bytes_succ]
    calc littleEndian (now.image.bytes program.target i) + 256 ^ i * registers.a.toNat +
          256 ^ (i + 1) * registers.status.carry.toNat
        = littleEndian (now.image.bytes program.target i) +
            256 ^ i * (registers.a.toNat + 256 * registers.status.carry.toNat) := by ring
      _ = littleEndian (now.image.bytes program.target i) +
            256 ^ i * now.registers.status.carry.toNat +
            256 ^ i * (before.image.byte (UInt16.ofNat (program.first + i))).toNat +
            256 ^ i * (program.operation.summand
              (before.image.byte (UInt16.ofNat (program.second + i)))).toNat := by
        rw [hsum]
        ring
      _ = _ := by
        rw [h.sum]
        ring

/-- All bytes of the numbers are done, one after the other. -/
theorem Ready.exists_reached (h : program.Ready before) (hfits : program.Fits) {i : Nat}
    (hi : i ≤ program.count) : ∃ now, program.Reached before i now := by
  induction i with
  | zero => exact ⟨_, h.reached hfits⟩
  | succ i ih =>
    obtain ⟨now, hnow⟩ := ih (Nat.le_of_succ_le hi)
    exact hnow.next h hfits hi

/-- A sum and its carry, with a modulus that the carry stands for. -/
theorem eq_mod_of_sum {first second result modulus : Nat} {carry : Bool} (hlt : result < modulus)
    (h : result + modulus * carry.toNat = first + second) :
    result = (first + second) % modulus ∧ (carry = true ↔ modulus ≤ first + second) := by
  rw [← h, Nat.add_mul_mod_self_left, Nat.mod_eq_of_lt hlt]
  refine ⟨rfl, ?_⟩
  cases carry with
  | false => simpa using hlt
  | true => simp

/-- A difference and its carry: the borrow is what the carry lacks. -/
theorem eq_emod_of_difference {first second result modulus : Nat} {carry : Bool}
    (hlt : result < modulus) (h : result + modulus * carry.toNat + second = first + modulus) :
    (result : Int) = ((first : Int) - second) % modulus ∧ (carry = true ↔ second ≤ first) := by
  have hdifference : (first : Int) - second = result + modulus * (carry.toNat - 1) := by
    have hcast := congrArg (Nat.cast : Nat → Int) h
    push_cast at hcast
    rw [mul_sub]
    omega
  refine ⟨?_, ?_⟩
  · rw [hdifference, Int.add_mul_emod_self_left]
    exact (Int.emod_eq_of_lt (Int.natCast_nonneg _) (Int.ofNat_lt.mpr hlt)).symm
  · cases carry with
    | false =>
      simp only [Bool.toNat_false, Nat.mul_zero] at h
      simp only [Bool.false_eq_true, false_iff]
      omega
    | true =>
      simp only [Bool.toNat_true, Nat.mul_one] at h
      simp only [true_iff]
      omega

/-- The result and the carry, when all bytes are done. -/
theorem Reached.gives (h : program.Reached before program.count now) :
    program.operation.Gives program.count
      (littleEndian (before.image.bytes program.first program.count))
      (littleEndian (before.image.bytes program.second program.count))
      (littleEndian (now.image.bytes program.target program.count))
      now.registers.status.carry := by
  have hlt := littleEndian_lt (now.image.bytes program.target program.count)
  have hcomplement := littleEndian_complement (before.image.bytes program.second program.count)
  have hsum := h.sum
  rw [Image.length_bytes] at hlt hcomplement
  cases hoperation : program.operation with
  | sum =>
    rw [hoperation, show LongOperation.sum.summand = id from rfl, List.map_id] at hsum
    exact eq_mod_of_sum hlt hsum
  | difference =>
    rw [hoperation, show LongOperation.difference.summand = (~~~ ·) from rfl] at hsum
    have hcarryIn : LongOperation.difference.carryIn.toNat = 1 := rfl
    have hborrow : littleEndian (now.image.bytes program.target program.count) +
        256 ^ program.count * now.registers.status.carry.toNat +
        littleEndian (before.image.bytes program.second program.count) =
          littleEndian (before.image.bytes program.first program.count) + 256 ^ program.count := by
      omega
    have hdifference := eq_emod_of_difference hlt hborrow
    push_cast at hdifference
    exact hdifference

/-- **Arithmetic on long numbers.** The run of the program ends with its break; that is after three
instructions for each byte and two more. The bytes of the target then spell the sum or the
difference of the two numbers, up to the carry, which says whether there is more to it. Nothing else
in memory has changed. The flags and registers to begin with do not matter, nor does the clock, as
long as it can count the cycles. -/
theorem run_longProgram (program : LongProgram) (hfits : program.Fits) (cpu : Cpu Ram)
    (hready : program.Ready cpu) :
    ∃ cycles after events,
      cpu.run .unbounded =
        some ⟨.ok ⟨3 * program.count + 2, cycles, .breakInstruction⟩, after, events⟩ ∧
      cycles = min (12 * program.count + 9) (maxCycles - cpu.clock.cycles) ∧
      after.memory.size = addressSpace ∧
      (∀ address : UInt16, address.toNat < program.target ∨
        program.target + program.count ≤ address.toNat →
          after.memory.read address = cpu.memory.read address) ∧
      program.operation.Gives program.count
        (littleEndian (cpu.memory.slice program.first program.count))
        (littleEndian (cpu.memory.slice program.second program.count))
        (littleEndian (after.memory.slice program.target program.count))
        after.registers.status.carry := by
  obtain ⟨now, hnow⟩ := hready.exists_reached hfits (Nat.le_refl _)
  have hbrk : operation? 0x00 = some ⟨.brk, .implied, 7⟩ := by decide +kernel
  have hsize : program.size = 9 * program.count + 2 := rfl
  have ⟨hcode, hfirst, hsecond, htarget, hoffCode, _, _⟩ := hfits
  have hend : now.image.bytes (program.start + 1 + 9 * program.count) 1 = [0x00] := by
    rw [hnow.bytes_eq (Nat.le_refl _) (by omega) (by omega)]
    exact (hready.parts hfits).2.2
  obtain ⟨hbreak, hafter⟩ := step_of_internal rfl hnow.full hnow.pc hend hbrk
  have hample : addressSpace < ample := by decide
  obtain ⟨events, hrun⟩ := hnow.leads.run_of_break hbreak (by omega)
  have hturns : 1 + 3 * program.count + 1 = 3 * program.count + 2 := by omega
  rw [hafter, hnow.clock, Clock.tick_tick, hturns] at hrun
  refine ⟨_, _, events, hrun, ?_, hnow.full, fun address haddress => ?_, ?_⟩
  · have hclock := cpu.clock.cycles_le
    rw [Clock.cycles_tick]
    omega
  · have hkept := hnow.kept address haddress
    have hthen := Ram.read_of_full hready.full address
    rw [← show _ = (Bus.image cpu.memory).byte address from hkept] at hthen
    exact (Ram.read_of_full hnow.full address).trans hthen.symm
  · rw [Ram.slice_eq_bytes (hready.full ▸ hfirst), Ram.slice_eq_bytes (hready.full ▸ hsecond),
      Ram.slice_eq_bytes (hnow.full ▸ htarget)]
    exact hnow.gives

/-- Two bytes are subtracted from two bytes. -/
def subtracting : LongProgram where
  operation := .difference
  start := 0x0200
  first := 0
  second := 2
  target := 4
  count := 2

/-- The bytes of the program and of the numbers `$0100` and `$0201`, by address. -/
def subtractingBytes : List (UInt16 × UInt8) :=
  [(0, 0x00), (1, 0x01), (2, 0x01), (3, 0x02)] ++
    subtracting.code.zipIdx.map fun entry => (UInt16.ofNat (0x0200 + entry.2), entry.1)

/-- A processor in decimal mode that is about to execute the program. -/
def aboutToSubtract : Cpu Ram where
  registers := ⟨0, 0, 0, 0xFF, 0x0200, { Status.powerOn with decimal := true }⟩
  clock := .zero
  verbose := true
  memory := Bus.putAll Ram.full subtractingBytes

theorem full_aboutToSubtract : aboutToSubtract.memory.size = addressSpace :=
  (Ram.size_putAll ..).trans Array.size_replicate

theorem slice_aboutToSubtract {place count : Nat} (h : place + count ≤ addressSpace) :
    aboutToSubtract.memory.slice place count =
      (List.range count).map fun i =>
        (subtractingBytes.reverse.lookup (UInt16.ofNat (place + i))).getD
          ((Bus.image Ram.full).byte (UInt16.ofNat (place + i))) := by
  have hfull : Ram.full.size = addressSpace := Array.size_replicate
  rw [Ram.slice_eq_bytes (full_aboutToSubtract ▸ h)]
  exact List.map_congr_left fun _ _ => Ram.byte_putAll_of_full hfull _ _

theorem ready_aboutToSubtract : subtracting.Ready aboutToSubtract where
  full := full_aboutToSubtract
  code := (slice_aboutToSubtract (by decide)).trans (by decide +kernel)
  pc := rfl

/-- The difference is negative, so something is borrowed: it is `$FEFF`, and the carry is clear. -/
theorem run_longProgram_borrowing :
    subtracting.Fits ∧ subtracting.Ready aboutToSubtract ∧
    ∃ after events, aboutToSubtract.run .unbounded =
        some ⟨.ok ⟨8, 33, .breakInstruction⟩, after, events⟩ ∧
      littleEndian (after.memory.slice 4 2) = 0xFEFF ∧ after.registers.status.carry = false := by
  have hfits : subtracting.Fits := by
    constructor <;> decide
  obtain ⟨cycles, after, events, hrun, rfl, -, -, hresult, hcarry⟩ :=
    run_longProgram subtracting hfits aboutToSubtract ready_aboutToSubtract
  have hfirst : aboutToSubtract.memory.slice 0 2 = [0x00, 0x01] :=
    (slice_aboutToSubtract (by decide)).trans (by decide +kernel)
  have hsecond : aboutToSubtract.memory.slice 2 2 = [0x01, 0x02] :=
    (slice_aboutToSubtract (by decide)).trans (by decide +kernel)
  have hcycles : min (12 * subtracting.count + 9) (maxCycles - aboutToSubtract.clock.cycles) =
      33 := by decide
  have hvalue : ((littleEndian [0x00, 0x01] : Int) - littleEndian [0x01, 0x02]) % 256 ^ 2 =
      0xFEFF := by decide
  have hborrow : ¬ littleEndian [0x01, 0x02] ≤ littleEndian [0x00, 0x01] := by decide
  rw [show subtracting.first = 0 from rfl, show subtracting.second = 2 from rfl,
    show subtracting.count = 2 from rfl, hfirst, hsecond] at hresult hcarry
  rw [hcycles] at hrun
  refine ⟨hfits, ready_aboutToSubtract, after, events, hrun, ?_, ?_⟩
  · exact Int.ofNat.inj (hresult.trans hvalue)
  · exact Bool.eq_false_iff.mpr fun hset => hborrow (hcarry.mp hset)

end LongProgram

end Nmos6502
