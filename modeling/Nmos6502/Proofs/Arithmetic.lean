import Nmos6502.Proofs.DormantFlags
import Nmos6502.Proofs.Transition

/-!
# Exact arithmetic

An addition gives a byte and three flags that say what the byte leaves out. The accumulator and the
carry together are the sum of the bytes as they are counted from zero. Overflow is about the same
bytes in two's complement: it is set when their sum has no byte, and the sign of the result is wrong
then. The operation itself only looks at three signs. That this comes to the same is seen from where
the sum can lie: summands of different signs cannot leave the range, and summands of one sign that
do leave it come back with the other.

A subtraction is the addition of the complement. The complement of a byte is read as `-1` less the
byte, so what is added besides the carry is what is taken away besides the borrow.

## Main definitions

* `FitsSigned` — the numbers that have a byte in two's complement
* `Registers.IsSum`, `Registers.IsDifference` — what accumulator and flags are after the operation
* `Mode.loadCycles` — the time that an operation takes to load its byte

## Main results

* `Registers.overflow_addWithCarry` — overflow is that the signed sum has no byte
* `Registers.isSum_addWithCarry`, `Registers.isDifference_subtractWithBorrow`
* `Cpu.step_arithmetic` — steps
-/

namespace Nmos6502

/-! ## Bytes in two's complement -/

/-- A number that a byte can stand for in two's complement. -/
def FitsSigned (n : Int) : Prop := -128 ≤ n ∧ n ≤ 127

instance (n : Int) : Decidable (FitsSigned n) := inferInstanceAs (Decidable (_ ∧ _))

theorem isNegative_eq_testBit (byte : UInt8) : isNegative byte = byte.toNat.testBit 7 :=
  forall_byte (p := fun byte => isNegative byte = byte.toNat.testBit 7) (by decide +kernel) byte

theorem signed_not (byte : UInt8) : signed (~~~byte) = -1 - signed byte := by
  have hbyte := byte.toNat_lt
  have hcomplement : (~~~byte).toNat = 0xFF - byte.toNat := by
    simp [UInt8.toNat_not]
  rw [signed_eq, signed_eq]
  simp only [isNegative_iff, hcomplement]
  split <;> split <;> omega

/-! ## Sums and differences -/

namespace Registers

/-- The zero and the negative flag describe the accumulator. -/
structure Described (registers : Registers) : Prop where
  /-- Zero says that nothing is left. -/
  zero : registers.status.zero = true ↔ registers.a = 0
  /-- Negative is the top bit. -/
  negative : registers.status.negative = registers.a.toNat.testBit 7

/-- The registers after an addition of a byte and the carry. -/
structure IsSum (before : Registers) (byte : UInt8) (after : Registers) : Prop where
  /-- The carry is the ninth bit of the sum. -/
  value : (after.a.toNat : Int) + 0x100 * after.status.carry.toNat =
    before.a.toNat + byte.toNat + before.status.carry.toNat
  /-- Overflow says that the signed sum has no byte. -/
  overflow : after.status.overflow = true ↔
    ¬ FitsSigned (signed before.a + signed byte + before.status.carry.toNat)
  /-- The other two flags describe the result. -/
  described : after.Described

/-- The registers after a subtraction of a byte and the borrow, which is set when the carry is
clear. -/
structure IsDifference (before : Registers) (byte : UInt8) (after : Registers) : Prop where
  /-- A borrow makes up for what is missing in the accumulator. -/
  value : (after.a.toNat : Int) - 0x100 * (1 - after.status.carry.toNat) =
    before.a.toNat - byte.toNat - (1 - before.status.carry.toNat)
  /-- Overflow says that the signed difference has no byte. -/
  overflow : after.status.overflow = true ↔
    ¬ FitsSigned (signed before.a - signed byte - (1 - before.status.carry.toNat))
  /-- The other two flags describe the result. -/
  described : after.Described

/-- Where the program was makes no difference to a sum. -/
theorem IsSum.of_pc {before after : Registers} {byte : UInt8} {pc : UInt16}
    (h : IsSum { before with pc } byte after) : IsSum before byte after :=
  ⟨h.value, h.overflow, h.described⟩

/-- Nor to a difference. -/
theorem IsDifference.of_pc {before after : Registers} {byte : UInt8} {pc : UInt16}
    (h : IsDifference { before with pc } byte after) : IsDifference before byte after :=
  ⟨h.value, h.overflow, h.described⟩

variable (registers : Registers) (byte : UInt8)

theorem described_addWithCarry : (registers.addWithCarry byte).Described where
  zero := beq_iff_eq
  negative := isNegative_eq_testBit _

/-- **The three signs tell overflow.** -/
theorem overflow_addWithCarry :
    (registers.addWithCarry byte).status.overflow = true ↔
      ¬ FitsSigned (signed registers.a + signed byte + registers.status.carry.toNat) := by
  have ha := registers.a.toNat_lt
  have hbyte := byte.toNat_lt
  have hresult := (registers.addWithCarry byte).a.toNat_lt
  have hcarry := Bool.toNat_le registers.status.carry
  have hsum := registers.addWithCarry_sum byte
  have hsigns : (registers.addWithCarry byte).status.overflow = true ↔
      (isNegative registers.a = true ↔ isNegative byte = true) ∧
        ¬ (isNegative (registers.addWithCarry byte).a = true ↔ isNegative byte = true) := by
    rw [← Bool.eq_iff_iff, ← Bool.eq_iff_iff]
    exact Bool.and_eq_true_iff.trans (and_congr beq_iff_eq bne_iff_ne)
  rw [hsigns, signed_eq, signed_eq, FitsSigned]
  simp only [isNegative_iff]
  -- in each case of the two signs, the sum of the numbers says which result has the wrong sign
  split <;> split <;> omega

theorem isSum_addWithCarry : registers.IsSum byte (registers.addWithCarry byte) where
  value := by
    have hsum := registers.addWithCarry_sum byte
    omega
  overflow := registers.overflow_addWithCarry byte
  described := registers.described_addWithCarry byte

theorem isDifference_subtractWithBorrow :
    registers.IsDifference byte (registers.subtractWithBorrow byte) where
  value := by
    have hsum := registers.subtractWithBorrow_sum byte
    omega
  overflow := by
    rw [subtractWithBorrow, overflow_addWithCarry, signed_not]
    have hsame : signed registers.a + (-1 - signed byte) + registers.status.carry.toNat =
        signed registers.a - signed byte - (1 - registers.status.carry.toNat) := by omega
    rw [hsame]
  described := registers.described_addWithCarry _

end Registers

/-! ## Steps -/

/-- The cycles of an operation that loads: an access for every byte of the instruction and of the
pointer, one for the byte that is loaded, and one where the zero page is indexed. -/
def Mode.loadCycles : Mode → Nat
  | .immediate => 2
  | .zeroPage => 3
  | .zeroPageX | .zeroPageY | .absolute | .absoluteX | .absoluteY => 4
  | .indirectIndexed => 5
  | .indexedIndirect => 6
  | _ => 0

/-- What an operation that loads takes is a matter of its mode. -/
theorem Operation.cycles_of_load {opcode : UInt8} {operation : Operation}
    (ho : operation? opcode = some operation) (huse : operation.mnemonic.operandUse = .read) :
    operation.cycles = operation.mode.loadCycles :=
  forall_operation (p := fun operation =>
    operation.mnemonic.operandUse = .read → operation.cycles = operation.mode.loadCycles)
    (by decide +kernel) ho huse

namespace Cpu

variable {M : Type} [Bus M]

theorem exists_isDifference {cpu : Cpu M} (h : cpu.step.result = .ok .sbc) :
    ∃ byte, cpu.loadedByte? = some byte ∧
      cpu.registers.IsDifference byte cpu.step.cpu.registers := by
  obtain ⟨operation, byte, -, -, hbyte, hcpu⟩ := step_of_load rfl h
  refine ⟨byte, hbyte, ?_⟩
  rw [hcpu]
  exact (Registers.isDifference_subtractWithBorrow _ byte).of_pc

/-- **Exact arithmetic.** A step that adds leaves accumulator and flags as the sum of the bytes has
it, a step that subtracts as the difference has it, in every mode and whether decimal mode was asked
for or not. A subtraction does to the registers what the addition of the complement would do in its
place, from whatever memory the same processor loads that; and if the mode is the same, it does so
to the whole processor. -/
theorem step_arithmetic (cpu : Cpu M) :
    (cpu.step.result = .ok .adc → ∃ byte, cpu.loadedByte? = some byte ∧
      cpu.registers.IsSum byte cpu.step.cpu.registers) ∧
    (cpu.step.result = .ok .sbc → ∃ byte, cpu.loadedByte? = some byte ∧
      cpu.registers.IsDifference byte cpu.step.cpu.registers ∧
      ∀ {N : Type} [Bus N] (memory : N), (cpu.onto memory).step.result = .ok .adc →
        (cpu.onto memory).loadedByte? = some (~~~byte) →
        { (cpu.onto memory).step.cpu.registers with pc := cpu.step.cpu.registers.pc } =
          cpu.step.cpu.registers ∧
        ((cpu.onto memory).next?.map Operation.mode = cpu.next?.map Operation.mode →
          (cpu.onto memory).step.cpu = cpu.step.cpu.onto memory)) := by
  refine ⟨fun hadc => ?_, fun hsbc => ?_⟩
  · obtain ⟨operation, byte, -, -, hbyte, hcpu⟩ := step_of_load rfl hadc
    refine ⟨byte, hbyte, ?_⟩
    rw [hcpu]
    exact (Registers.isSum_addWithCarry _ byte).of_pc
  · obtain ⟨byte, hbyte, hdifference⟩ := exists_isDifference hsbc
    refine ⟨byte, hbyte, hdifference, fun memory hadc hcomplement => ?_⟩
    obtain ⟨operation, subtracted, hnext, hmnemonic, hsubtracted, hcpu⟩ := step_of_load rfl hsbc
    obtain ⟨other, added, hnext', hmnemonic', hadded, hcpu'⟩ := step_of_load rfl hadc
    cases hbyte.symm.trans hsubtracted
    cases hcomplement.symm.trans hadded
    rw [hcpu', hcpu]
    refine ⟨rfl, fun hmodes => ?_⟩
    rw [hnext, hnext'] at hmodes
    have hmode : other.mode = operation.mode := Option.some.inj hmodes
    obtain ⟨opcode, -, ho⟩ := exists_opcode_of_next? hnext
    obtain ⟨opcode', -, ho'⟩ := exists_opcode_of_next? hnext'
    have hcycles : other.cycles = operation.cycles := by
      rw [Operation.cycles_of_load ho (by rw [hmnemonic]; rfl),
        Operation.cycles_of_load ho' (by rw [hmnemonic']; rfl), hmode]
    have hsize : other.size = operation.size := congrArg Mode.size hmode
    rw [hcycles, hsize]
    rfl

/-- An operation on the zero page with a byte that is there, in decimal mode and with the carry
set. -/
def combining (code value : UInt8) : Cpu Ram where
  registers := ⟨0x50, 0, 0, 0xFF, 0, { Status.powerOn with carry := true, decimal := true }⟩
  clock := .zero
  verbose := false
  memory := (((Ram.zeros 0x0012 (by decide) (by decide)).put 0 code).put 1 0x11).put 0x11 value

/-- To take `-80` from `80` overflows, and gives what it gives to add `79` and the carry. -/
theorem step_arithmetic_combining :
    (combining 0xE5 0xB0).step.result = .ok .sbc ∧
    (combining 0x65 0x4F).step.result = .ok .adc ∧
    (combining 0xE5 0xB0).registers.IsDifference 0xB0 (combining 0xE5 0xB0).step.cpu.registers ∧
    (combining 0xE5 0xB0).step.cpu.registers.status.overflow = true ∧
    (combining 0x65 0x4F).registers.IsSum 0x4F (combining 0x65 0x4F).step.cpu.registers ∧
    (combining 0x65 0x4F).step.cpu =
      (combining 0xE5 0xB0).step.cpu.onto (combining 0x65 0x4F).memory := by
  have hsbc : (combining 0xE5 0xB0).step.result = .ok .sbc := by decide +kernel
  have hadc : (combining 0x65 0x4F).step.result = .ok .adc := by decide +kernel
  have hloaded : (combining 0xE5 0xB0).loadedByte? = some 0xB0 := by decide +kernel
  have hadded : (combining 0x65 0x4F).loadedByte? = some 0x4F := by decide +kernel
  have hmode : (combining 0x65 0x4F).next?.map Operation.mode =
      (combining 0xE5 0xB0).next?.map Operation.mode := by decide +kernel
  have hcomplement : ~~~(0xB0 : UInt8) = 0x4F := by decide
  obtain ⟨byte, hbyte, hdifference, hsame⟩ := (step_arithmetic (combining 0xE5 0xB0)).2 hsbc
  obtain ⟨summand, hsummand, hsum⟩ := (step_arithmetic (combining 0x65 0x4F)).1 hadc
  cases hloaded.symm.trans hbyte
  cases hadded.symm.trans hsummand
  refine ⟨hsbc, hadc, hdifference, hdifference.overflow.mpr (by decide), hsum, ?_⟩
  exact (hsame (combining 0x65 0x4F).memory hadc (hcomplement ▸ hadded)).2 hmode

end Cpu

end Nmos6502
