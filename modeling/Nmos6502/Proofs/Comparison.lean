import Nmos6502.Proofs.Arithmetic
import Nmos6502.Proofs.Control
import Nmos6502.Proofs.Footprint

/-!
# What a comparison decides

A comparison takes a byte away from a register and keeps nothing but three flags. Together they
order the two as numbers from zero: the carry says that the byte is not the larger one, zero that
the two are the same, and negative is the top bit of the difference. So the branch that comes next
goes by that order. A subtraction that begins without a borrow leaves the same three flags, and
overflow besides; with it, the two are also ordered as numbers with a sign.

That the flags order two bytes is `Status.Orders`. It is derived once, from a difference without a
borrow, and both kinds of instruction leave one.

## Main definitions

* `Status.Orders` — carry, zero and negative order two bytes
* `Mnemonic.compared?` — the register of a comparison
* `Mnemonic.decided?` — whether a branch should be taken, by the order of two bytes

## Main results

* `Status.Orders.isTaken` — flags that order two bytes decide the branches
* `Registers.IsDifference.negative_ne_overflow_iff` — the signed order after a subtraction
* `Cpu.comparison_decides` — steps
-/

namespace Nmos6502

/-! ## The order of two bytes -/

/-- The carry, the zero and the negative flag tell how a byte is to another one. -/
structure Status.Orders (status : Status) (left right : UInt8) : Prop where
  /-- The carry says that nothing had to be borrowed. -/
  carry : status.carry = true ↔ right.toNat ≤ left.toNat
  /-- Zero says that there is no difference. -/
  zero : status.zero = true ↔ left = right
  /-- Negative is the top bit of the difference. -/
  negative : status.negative = (((left.toNat : Int) - right.toNat) % 0x100).toNat.testBit 7

/-- Whether a branch should be taken after two bytes were compared. Overflow is not up to that. -/
def Mnemonic.decided? (branch : Mnemonic) (left right : UInt8) : Option Bool :=
  let difference := ((left.toNat : Int) - right.toNat) % 0x100
  match branch with
  | .bcs => some (right.toNat ≤ left.toNat)
  | .bcc => some (left.toNat < right.toNat)
  | .beq => some (left = right)
  | .bne => some (left ≠ right)
  | .bmi => some (difference.toNat.testBit 7)
  | .bpl => some (!difference.toNat.testBit 7)
  | _ => none

theorem Mnemonic.isBranch_of_decided {branch : Mnemonic} {left right : UInt8} {taken : Bool}
    (h : branch.decided? left right = some taken) : branch.isBranch = true := by
  cases branch with
  | bcc | bcs | bne | beq | bpl | bmi => rfl
  | _ => cases h

namespace Status

variable {status : Status} {left right : UInt8}

/-- A difference without a borrow orders what it is the difference of. -/
theorem orders_of_difference (result : UInt8)
    (hvalue : (result.toNat : Int) - 0x100 * (1 - status.carry.toNat) = left.toNat - right.toNat)
    (hzero : status.zero = true ↔ result = 0)
    (hnegative : status.negative = result.toNat.testBit 7) : status.Orders left right := by
  have hresult := result.toNat_lt
  have hleft := left.toNat_lt
  have hright := right.toNat_lt
  have hcarry := Bool.toNat_le status.carry
  refine ⟨Bool.toNat_eq_one.symm.trans (by omega), ?_, ?_⟩
  · rw [hzero, ← UInt8.toNat_inj, ← UInt8.toNat_inj, UInt8.toNat_zero]
    omega
  · have hwrapped : result.toNat = (((left.toNat : Int) - right.toNat) % 0x100).toNat := by omega
    rw [hnegative, hwrapped]

/-- **The order decides the branches.** -/
theorem Orders.isTaken (h : status.Orders left right) {branch : Mnemonic} {taken : Bool}
    (hdecided : branch.decided? left right = some taken) : branch.isTaken status = taken := by
  have hcarry : status.carry = decide (right.toNat ≤ left.toNat) :=
    Bool.eq_iff_iff.mpr (h.carry.trans decide_eq_true_iff.symm)
  have hzero : status.zero = decide (left = right) :=
    Bool.eq_iff_iff.mpr (h.zero.trans decide_eq_true_iff.symm)
  cases branch with
  | bcs => cases hdecided; exact hcarry
  | bcc =>
    cases hdecided
    have hclear : (!status.carry) = decide (left.toNat < right.toNat) := by
      rw [hcarry, ← decide_not]
      simp only [Nat.not_le]
    exact hclear
  | beq => cases hdecided; exact hzero
  | bne => cases hdecided; exact (congrArg not hzero).trans decide_not.symm
  | bmi => cases hdecided; exact h.negative
  | bpl => cases hdecided; exact congrArg not h.negative
  | _ => cases hdecided

end Status

namespace Registers

/-- A comparison leaves flags that order the register and the byte. -/
theorem orders_compare (registers : Registers) (contents value : UInt8) :
    (registers.compare contents value).status.Orders contents value := by
  refine Status.orders_of_difference (contents - value) ?_ beq_iff_eq (isNegative_eq_testBit _)
  have hcontents := contents.toNat_lt
  have hvalue := value.toNat_lt
  have hcarry : (registers.compare contents value).status.carry =
    decide (value.toNat ≤ contents.toNat) := rfl
  rw [hcarry, UInt8.toNat_sub]
  by_cases hle : value.toNat ≤ contents.toNat
  · rw [decide_eq_true hle, Bool.toNat_true]
    omega
  · rw [decide_eq_false hle, Bool.toNat_false]
    omega

variable {before after : Registers} {byte : UInt8}

/-- So does a subtraction that begins without a borrow. -/
theorem IsDifference.orders (h : before.IsDifference byte after)
    (hcarry : before.status.carry = true) : after.status.Orders before.a byte := by
  have hvalue := h.value
  rw [hcarry, Bool.toNat_true] at hvalue
  exact Status.orders_of_difference after.a (hvalue.trans (by omega)) h.described.zero
    h.described.negative

/-- **The signed order.** Negative is the sign of the difference, unless that has no byte, and then
it is the other sign. -/
theorem IsDifference.negative_ne_overflow_iff (h : before.IsDifference byte after)
    (hcarry : before.status.carry = true) :
    after.status.negative ≠ after.status.overflow ↔ signed before.a < signed byte := by
  have ha := before.a.toNat_lt
  have hbyte := byte.toNat_lt
  have hafter := after.a.toNat_lt
  have hborrow := Bool.toNat_le after.status.carry
  have hnegative : after.status.negative = true ↔ 0x80 ≤ after.a.toNat := by
    rw [h.described.negative, ← isNegative_eq_testBit, isNegative_iff]
  have hvalue := h.value
  have hoverflow := h.overflow
  rw [hcarry, Bool.toNat_true] at hvalue hoverflow
  rw [ne_eq, Bool.eq_iff_iff, hnegative, hoverflow, FitsSigned, signed_eq, signed_eq]
  simp only [isNegative_iff]
  split <;> split <;> omega

end Registers

/-! ## Steps -/

/-- The register that an operation compares with a byte, if that is what it does. -/
def Mnemonic.compared? : Mnemonic → Option (Registers → UInt8)
  | .cmp => some (·.a)
  | .cpx => some (·.x)
  | .cpy => some (·.y)
  | _ => none

theorem Mnemonic.family_of_compared {mnemonic : Mnemonic} {register : Registers → UInt8}
    (h : mnemonic.compared? = some register) :
    mnemonic.family =
      .load fun registers value => registers.compare (register registers) value := by
  cases mnemonic with
  | cmp | cpx | cpy => cases h; rfl
  | _ => cases h

/-- Where the program is makes no difference to what is compared. -/
theorem Mnemonic.compared_pc {mnemonic : Mnemonic} {register : Registers → UInt8}
    (h : mnemonic.compared? = some register) (registers : Registers) (pc : UInt16) :
    register { registers with pc } = register registers := by
  cases mnemonic with
  | cmp | cpx | cpy => cases h; rfl
  | _ => cases h

namespace Cpu

variable {M : Type} [Bus M] {cpu : Cpu M} {left right : UInt8}

/-- A branch changes no cell. -/
theorem Branches.sameBut {taken : Bool} (h : cpu.Branches taken) {before : Registers}
    {cells : List Cell} (hbefore : before.SameBut cells cpu.registers) :
    before.SameBut cells cpu.step.cpu.registers := by
  obtain ⟨offset, -, hcpu⟩ := h
  rw [hcpu, ← List.append_nil cells]
  exact hbefore.trans (Registers.sameBut_pc _ _)

theorem Branches.memory_eq {taken : Bool} (h : cpu.Branches taken) :
    cpu.step.cpu.memory = cpu.memory := by
  obtain ⟨offset, -, hcpu⟩ := h
  rw [hcpu]

/-- A branch goes by the order that the flags tell. -/
theorem branches_of_orders (horders : cpu.registers.status.Orders left right) {branch : Mnemonic}
    {taken : Bool} (hdecided : branch.decided? left right = some taken)
    (h : cpu.step.result = .ok branch) : cpu.Branches taken :=
  horders.isTaken hdecided ▸ branches_of_ok (Mnemonic.isBranch_of_decided hdecided) h

/-- **Comparisons decide the branch that follows.** If it comes to a branch on carry, zero or
negative after a comparison, the branch goes by the order of the register and the byte, in every
mode; and in the end the registers, the other flags and memory are as they were. A subtraction that
begins without a borrow decides these branches as well, by the accumulator as it was, and negative
and overflow differ after it exactly if that was less than the byte, as numbers with a sign. -/
theorem comparison_decides (cpu : Cpu M) :
    (∀ mnemonic register, mnemonic.compared? = some register → cpu.step.result = .ok mnemonic →
      ∃ byte, cpu.loadedByte? = some byte ∧
        cpu.registers.SameBut [.carry, .zero, .negative] cpu.step.cpu.registers ∧
        cpu.step.cpu.memory = cpu.memory ∧
        ∀ branch taken, branch.decided? (register cpu.registers) byte = some taken →
          cpu.step.cpu.step.result = .ok branch →
          cpu.step.cpu.Branches taken ∧
            cpu.registers.SameBut [.carry, .zero, .negative] cpu.step.cpu.step.cpu.registers ∧
            cpu.step.cpu.step.cpu.memory = cpu.memory) ∧
    (cpu.step.result = .ok .sbc → cpu.registers.status.carry = true →
      ∃ byte, cpu.loadedByte? = some byte ∧
        let after := cpu.step.cpu.registers.status
        (after.negative ≠ after.overflow ↔ signed cpu.registers.a < signed byte) ∧
        (after.carry = true ↔ byte.toNat ≤ cpu.registers.a.toNat) ∧
        ∀ branch taken, branch.decided? cpu.registers.a byte = some taken →
          cpu.step.cpu.step.result = .ok branch → cpu.step.cpu.Branches taken) := by
  refine ⟨fun mnemonic register hregister h => ?_, fun h hcarry => ?_⟩
  · obtain ⟨operation, byte, -, -, hbyte, hcpu⟩ :=
      step_of_load (Mnemonic.family_of_compared hregister) h
    have horders : cpu.step.cpu.registers.status.Orders (register cpu.registers) byte := by
      rw [hcpu, Mnemonic.compared_pc hregister]
      exact Registers.orders_compare _ _ byte
    have hsame : cpu.registers.SameBut [.carry, .zero, .negative] cpu.step.cpu.registers := by
      rw [hcpu]
      exact (Registers.sameBut_compare _ _ byte).of_pc
    have hmemory : cpu.step.cpu.memory = cpu.memory := by rw [hcpu]
    refine ⟨byte, hbyte, hsame, hmemory, fun branch taken hdecided hbranch => ?_⟩
    have hbranches := branches_of_orders horders hdecided hbranch
    exact ⟨hbranches, hbranches.sameBut hsame, hbranches.memory_eq.trans hmemory⟩
  · obtain ⟨byte, hbyte, hdifference⟩ := exists_isDifference h
    have horders := hdifference.orders hcarry
    exact ⟨byte, hbyte, hdifference.negative_ne_overflow_iff hcarry, horders.carry,
      fun branch taken hdecided => branches_of_orders horders hdecided⟩

/-- `$10` is compared with `$90`, or `$90` is taken from it, and then control goes to `$0005` if it
is less. -/
def comparing (code : UInt8) : Cpu Ram where
  registers := ⟨0x10, 0, 0, 0xFF, 0, { Status.powerOn with carry := true }⟩
  clock := .zero
  verbose := false
  memory := ((((Ram.zeros 0x0006 (by decide) (by decide)).put 0 code).put 1 0x90).put 2 0x90).put 3
    0x01

/-- It is less as a number from zero, but not as a number with a sign. -/
theorem comparison_decides_comparing :
    (comparing 0xC9).step.result = .ok .cmp ∧
    (comparing 0xC9).step.cpu.Branches true ∧
    (comparing 0xC9).step.cpu.step.cpu.registers.a = 0x10 ∧
    (comparing 0xE9).step.result = .ok .sbc ∧
    (comparing 0xE9).step.cpu.registers.status.negative =
      (comparing 0xE9).step.cpu.registers.status.overflow ∧
    (comparing 0xE9).step.cpu.Branches true := by
  have hcmp : (comparing 0xC9).step.result = .ok .cmp := by decide +kernel
  have hsbc : (comparing 0xE9).step.result = .ok .sbc := by decide +kernel
  have hbranch : (comparing 0xC9).step.cpu.step.result = .ok .bcc := by decide +kernel
  have hbranch' : (comparing 0xE9).step.cpu.step.result = .ok .bcc := by decide +kernel
  have hcompared : (comparing 0xC9).loadedByte? = some 0x90 := by decide +kernel
  have hsubtracted : (comparing 0xE9).loadedByte? = some 0x90 := by decide +kernel
  have hsigned : ¬ signed 0x10 < signed 0x90 := by decide
  obtain ⟨byte, hbyte, -, -, hdecides⟩ := (comparison_decides (comparing 0xC9)).1 .cmp _ rfl hcmp
  obtain ⟨byte', hbyte', hdiffer, -, hdecides'⟩ :=
    (comparison_decides (comparing 0xE9)).2 hsbc rfl
  cases hcompared.symm.trans hbyte
  cases hsubtracted.symm.trans hbyte'
  obtain ⟨htaken, hsame, -⟩ := hdecides .bcc true (by decide) hbranch
  exact ⟨hcmp, htaken, hsame .a (by decide), hsbc, not_ne_iff.mp (mt hdiffer.mp hsigned),
    hdecides' .bcc true (by decide) hbranch'⟩

end Cpu

end Nmos6502
