import Mathlib.Algebra.Ring.Nat
import Mathlib.Data.List.Nodup
import Mathlib.Tactic.Common
import Nmos6502.Instruction.Text
import Nmos6502.Proofs.Family

/-!
# The form of an operand

The text of an operand is its digits with something around them. What is around them depends on
the mode alone, and so does the number of the digits, since a digit that is not known has its place
taken by a question mark. Two digits stand for a byte of the operand, or four for the place a branch
goes to.

With every digit blanked out what is left of the text is its form. The forms of two modes differ,
except for those of a branch and of an absolute address. There the mnemonic tells, for branches
have no other mode and nothing else has theirs. So from the mnemonic and the form an opcode can be
had back, and then the digits give the operand bytes.

## Main definitions

* `digitsOrMarks` — the digits of a number that is there or missing
* `bytePlaces`, `targetPlaces` — those of a byte and of the target of a branch
* `Mode.before`, `Mode.digits`, `Mode.behind` — the parts of the text of an operand
* `Mode.form` — the text of an operand with its digits blanked out
* `opcodeOf?` — the opcode of an operation and a mode

## Main results

* `toList_operandText` — the text of an operand consists of these parts
* `operandText_injective` — it tells the bytes of the operand, those that are there
* `opcode_eq_of_form` — the mnemonic and the form tell the opcode
-/

namespace Nmos6502

open Text

/-! ## Digits -/

namespace Text

theorem digitChar_injective {letters : LetterCase} {m n : Nat} (hm : m < 16) (hn : n < 16)
    (h : digitChar letters m = digitChar letters n) : m = n := by
  have hall : ∀ m < 16, ∀ n < 16, digitChar letters m = digitChar letters n → m = n := by
    cases letters <;> decide
  exact hall m hm n hn h

/-- Numbers of the same width are told apart by their digits. -/
theorem fixedDigits_injective {base : Nat} {letters : LetterCase} (hbase : base ≤ 16) :
    ∀ {width m n : Nat}, m < base ^ width → n < base ^ width →
      fixedDigits base letters width m = fixedDigits base letters width n → m = n
  | 0, m, n, hm, hn, _ => by
    rw [Nat.pow_zero] at hm hn
    omega
  | width + 1, m, n, hm, hn, h => by
    rw [Nat.pow_succ] at hm hn
    have hpos : 0 < base := Nat.pos_of_ne_zero fun h0 => by
      rw [h0, Nat.mul_zero] at hm
      exact Nat.not_lt_zero _ hm
    obtain ⟨hhigh, hlow⟩ := List.append_inj' h rfl
    have hquotient : m / base = n / base :=
      fixedDigits_injective hbase (Nat.div_lt_of_lt_mul (Nat.mul_comm .. ▸ hm))
        (Nat.div_lt_of_lt_mul (Nat.mul_comm .. ▸ hn)) hhigh
    have hremainder : m % base = n % base :=
      digitChar_injective (Nat.lt_of_lt_of_le (Nat.mod_lt m hpos) hbase)
        (Nat.lt_of_lt_of_le (Nat.mod_lt n hpos) hbase) (List.cons.inj hlow).1
    rw [← Nat.div_add_mod m base, ← Nat.div_add_mod n base, hquotient, hremainder]

theorem mem_fixedDigits {base : Nat} {letters : LetterCase} {c : Char} (hbase : 0 < base) :
    ∀ {width n : Nat}, c ∈ fixedDigits base letters width n →
      ∃ digit < base, c = digitChar letters digit
  | 0, _, h => by cases h
  | width + 1, n, h => by
    rcases List.mem_append.mp h with h | h
    · exact mem_fixedDigits hbase h
    · exact ⟨n % base, Nat.mod_lt n hbase, List.mem_singleton.mp h⟩

theorem hexByte_injective {letters : LetterCase} {byte other : UInt8}
    (h : hexByte letters byte = hexByte letters other) : byte = other := by
  have hdigits := congrArg String.toList h
  rw [toList_hexByte, toList_hexByte] at hdigits
  exact UInt8.toNat_inj.mp
    (fixedDigits_injective (Nat.le_refl 16) byte.toNat_lt other.toNat_lt hdigits)

end Text

/-- The characters that stand in the places of digits. -/
def digitMarks : List Char :=
  ['?', '0', '1', '2', '3', '4', '5', '6', '7', '8', '9', 'A', 'B', 'C', 'D', 'E', 'F']

/-- A digit is not told from another one. -/
def blank (c : Char) : Char := if c ∈ digitMarks then '?' else c

theorem mem_digitMarks_of_mem_fixedDigits {width n : Nat} {c : Char}
    (h : c ∈ fixedDigits 16 .upper width n) : c ∈ digitMarks ∧ c ≠ '?' := by
  obtain ⟨digit, hdigit, rfl⟩ := mem_fixedDigits (by decide) h
  have hall : ∀ digit < 16, digitChar .upper digit ∈ digitMarks ∧ digitChar .upper digit ≠ '?' := by
    decide
  exact hall digit hdigit

/-- The digits of a number, or the marks that take their places if there is no number. -/
def digitsOrMarks (width : Nat) : Option Nat → List Char
  | none => List.replicate width '?'
  | some n => fixedDigits 16 .upper width n

theorem length_digitsOrMarks (width : Nat) (n : Option Nat) :
    (digitsOrMarks width n).length = width := by
  cases n with
  | none => exact List.length_replicate
  | some n => exact length_fixedDigits ..

theorem mem_digitMarks {width : Nat} {n : Option Nat} {c : Char} (h : c ∈ digitsOrMarks width n) :
    c ∈ digitMarks := by
  cases n with
  | none =>
    rw [(List.mem_replicate.mp h).2]
    exact List.mem_cons_self ..
  | some n => exact (mem_digitMarks_of_mem_fixedDigits h).1

/-- The digits of a number are not taken for the marks. -/
theorem replicate_ne_fixedDigits {width : Nat} (hwidth : 0 < width) (n : Nat) :
    List.replicate width '?' ≠ fixedDigits 16 .upper width n := by
  intro h
  have hmem : '?' ∈ fixedDigits 16 .upper width n :=
    h ▸ List.mem_replicate.mpr ⟨Nat.ne_of_gt hwidth, rfl⟩
  exact (mem_digitMarks_of_mem_fixedDigits hmem).2 rfl

/-- Where bytes have numbers of their own, the digits of the number tell the byte, and that there
is one. -/
theorem digitsOrMarks_injective {width : Nat} (hwidth : 0 < width) {number : UInt8 → Nat}
    (hnumber : Function.Injective number) (hbound : ∀ byte, number byte < 16 ^ width)
    {byte other : Option UInt8}
    (h : digitsOrMarks width (byte.map number) = digitsOrMarks width (other.map number)) :
    byte = other := by
  cases byte with
  | none =>
    cases other with
    | none => rfl
    | some other => exact absurd h (replicate_ne_fixedDigits hwidth _)
  | some byte =>
    cases other with
    | none => exact absurd h.symm (replicate_ne_fixedDigits hwidth _)
    | some other =>
      have hsame := fixedDigits_injective (Nat.le_refl 16) (hbound byte) (hbound other) h
      rw [hnumber hsame]

/-- The two digits of a byte. -/
def bytePlaces (byte : Option UInt8) : List Char := digitsOrMarks 2 (byte.map UInt8.toNat)

/-- The four digits of the place a branch at `address` goes to. -/
def targetPlaces (address : UInt16) (offset : Option UInt8) : List Char :=
  digitsOrMarks 4 (offset.map fun offset => (relativeTarget (address + 2) offset).toNat)

theorem bytePlaces_injective {byte other : Option UInt8} (h : bytePlaces byte = bytePlaces other) :
    byte = other := by
  have hnumber : Function.Injective UInt8.toNat := fun _ _ => UInt8.toNat_inj.mp
  exact digitsOrMarks_injective (by decide) hnumber UInt8.toNat_lt h

/-- No two distances lead to the same place. -/
theorem relativeTarget_injective {next : UInt16} {offset other : UInt8}
    (h : relativeTarget next offset = relativeTarget next other) : offset = other := by
  have hoffset := offset.toNat_lt
  have hother := other.toNat_lt
  have hnumbers := congrArg UInt16.toNat h
  apply UInt8.toNat_inj.mp
  unfold relativeTarget at hnumbers
  split at hnumbers <;> split at hnumbers <;>
    simp only [UInt16.toNat_add, UInt16.toNat_sub, UInt8.toNat_toUInt16, UInt16.reduceToNat]
      at hnumbers <;> omega

theorem targetPlaces_injective {address : UInt16} {offset other : Option UInt8}
    (h : targetPlaces address offset = targetPlaces address other) : offset = other := by
  have hnumber : Function.Injective fun offset => (relativeTarget (address + 2) offset).toNat :=
    fun _ _ hsame => relativeTarget_injective (UInt16.toNat_inj.mp hsame)
  exact digitsOrMarks_injective (by decide) hnumber (fun _ => UInt16.toNat_lt _) h

/-! ## The parts of the text of an operand -/

theorem toList_byteDigits (operand : List UInt8) :
    (byteDigits operand).toList = bytePlaces operand[0]? := by
  cases operand with
  | nil => simp [byteDigits, bytePlaces, digitsOrMarks, List.replicate]
  | cons byte operand => exact toList_hexByte ..

theorem fixedDigits_word (low high : UInt8) :
    fixedDigits 16 .upper 4 (word low high).toNat =
      bytePlaces (some high) ++ bytePlaces (some low) := by
  have hlow := low.toNat_lt
  have hfirst : (low.toNat + 256 * high.toNat) / 16 / 16 = high.toNat := by omega
  have hsecond : (low.toNat + 256 * high.toNat) / 16 % 16 = low.toNat / 16 % 16 := by omega
  have hthird : (low.toNat + 256 * high.toNat) % 16 = low.toNat % 16 := by omega
  rw [toNat_word]
  simp only [bytePlaces, Option.map_some, digitsOrMarks, fixedDigits, hfirst, hsecond, hthird,
    List.append_assoc, List.nil_append]

theorem toList_wordDigits (operand : List UInt8) :
    (wordDigits operand).toList = bytePlaces operand[1]? ++ bytePlaces operand[0]? := by
  match operand with
  | [] => simp [wordDigits, bytePlaces, digitsOrMarks, List.replicate]
  | [low] => simp [wordDigits, bytePlaces, digitsOrMarks, List.replicate]
  | low :: high :: _ => exact (toList_hexWord ..).trans (fixedDigits_word low high)

theorem toList_targetDigits (address : UInt16) (operand : List UInt8) :
    (targetDigits address operand).toList = targetPlaces address operand[0]? := by
  cases operand with
  | nil => simp [targetDigits, targetPlaces, digitsOrMarks, List.replicate]
  | cons offset operand => exact toList_hexWord ..

namespace Mode

/-- What stands before the digits. -/
def before : Mode → List Char
  | .implied => []
  | .accumulator => ['A']
  | .immediate => ['#', '$']
  | .indirect | .indexedIndirect | .indirectIndexed => ['(', '$']
  | _ => ['$']

/-- What stands behind the digits. -/
def behind : Mode → List Char
  | .zeroPageX | .absoluteX => [',', 'X']
  | .zeroPageY | .absoluteY => [',', 'Y']
  | .indirect => [')']
  | .indexedIndirect => [',', 'X', ')']
  | .indirectIndexed => [')', ',', 'Y']
  | _ => []

/-- The digits of an operand. -/
def digits (mode : Mode) (operand : List UInt8) (address : UInt16) : List Char :=
  match mode with
  | .relative => targetPlaces address operand[0]?
  | mode =>
    match mode.operandLength with
    | 0 => []
    | 1 => bytePlaces operand[0]?
    | _ => bytePlaces operand[1]? ++ bytePlaces operand[0]?

/-- How many digits there are. -/
def digitCount : Mode → Nat
  | .relative => 4
  | mode => 2 * mode.operandLength

/-- The text of an operand with its digits blanked out. -/
def form (mode : Mode) : List Char :=
  mode.before.map blank ++ List.replicate mode.digitCount '?' ++ mode.behind.map blank

end Mode

/-- The text of an operand is its digits with what stands around them. -/
theorem toList_operandText (mode : Mode) (operand : List UInt8) (address : UInt16) :
    (operandText mode operand address).toList =
      mode.before ++ mode.digits operand address ++ mode.behind := by
  cases mode <;>
    simp [operandText, Mode.before, Mode.digits, Mode.behind, Mode.operandLength,
      toList_byteDigits, toList_wordDigits, toList_targetDigits]

namespace Mode

theorem length_digits (mode : Mode) (operand : List UInt8) (address : UInt16) :
    (mode.digits operand address).length = mode.digitCount := by
  cases mode <;>
    simp [digits, digitCount, operandLength, bytePlaces, targetPlaces, length_digitsOrMarks]

theorem mem_digitMarks_of_mem_digits {mode : Mode} {operand : List UInt8} {address : UInt16}
    {c : Char} (h : c ∈ mode.digits operand address) : c ∈ digitMarks := by
  cases mode with
  | implied | accumulator => cases h
  | immediate | zeroPage | zeroPageX | zeroPageY | indexedIndirect | indirectIndexed | relative =>
    exact mem_digitMarks h
  | absolute | absoluteX | absoluteY | indirect =>
    rcases List.mem_append.mp h with h | h <;> exact mem_digitMarks h

end Mode

/-- The form does not depend on the operand. -/
theorem map_blank_operandText (mode : Mode) (operand : List UInt8) (address : UInt16) :
    (operandText mode operand address).toList.map blank = mode.form := by
  have hdigits : (mode.digits operand address).map blank = List.replicate mode.digitCount '?' := by
    refine List.eq_replicate_iff.mpr ⟨?_, ?_⟩
    · rw [List.length_map, Mode.length_digits]
    · intro c hc
      obtain ⟨digit, hmem, rfl⟩ := List.mem_map.mp hc
      exact if_pos (Mode.mem_digitMarks_of_mem_digits hmem)
  rw [toList_operandText, List.map_append, List.map_append, hdigits]
  rfl

/-! ## The operand from its digits -/

/-- The bytes that the digits show are all there is of an operand. -/
theorem eq_of_getElem? {operand other : List UInt8} {length : Nat} (ho : operand.length ≤ length)
    (hother : other.length ≤ length) (h : ∀ i < length, operand[i]? = other[i]?) :
    operand = other := by
  refine List.ext_getElem? fun i => ?_
  by_cases hi : i < length
  · exact h i hi
  · have hle := Nat.not_lt.mp hi
    rw [List.getElem?_eq_none (Nat.le_trans ho hle),
      List.getElem?_eq_none (Nat.le_trans hother hle)]

theorem Mode.digits_injective {mode : Mode} {address : UInt16} {operand other : List UInt8}
    (ho : operand.length ≤ mode.operandLength) (hother : other.length ≤ mode.operandLength)
    (h : mode.digits operand address = mode.digits other address) : operand = other := by
  refine eq_of_getElem? ho hother fun i hi => ?_
  cases mode with
  | implied | accumulator => exact absurd hi (Nat.not_lt_zero i)
  | immediate | zeroPage | zeroPageX | zeroPageY | indexedIndirect | indirectIndexed =>
    rw [Nat.lt_one_iff.mp hi]
    exact bytePlaces_injective h
  | relative =>
    rw [Nat.lt_one_iff.mp hi]
    exact targetPlaces_injective h
  | absolute | absoluteX | absoluteY | indirect =>
    obtain ⟨hhigh, hlow⟩ := List.append_inj h (by simp only [bytePlaces, length_digitsOrMarks])
    obtain rfl | rfl : i = 0 ∨ i = 1 := by
      have hi : i < 2 := hi
      omega
    · exact bytePlaces_injective hlow
    · exact bytePlaces_injective hhigh

/-- **The text of an operand tells its bytes**, those that are there. -/
theorem operandText_injective {mode : Mode} {address : UInt16} {operand other : List UInt8}
    (ho : operand.length ≤ mode.operandLength) (hother : other.length ≤ mode.operandLength)
    (h : operandText mode operand address = operandText mode other address) : operand = other := by
  have hparts := congrArg String.toList h
  rw [toList_operandText, toList_operandText] at hparts
  have hdigits := List.append_cancel_left (List.append_cancel_right hparts)
  exact Mode.digits_injective ho hother hdigits

/-! ## The opcode from the mnemonic and the form -/

/-- Branches have no other mode than theirs, and nothing else has it. -/
theorem mode_eq_relative_iff {opcode : UInt8} {operation : Operation}
    (ho : operation? opcode = some operation) :
    operation.mode = .relative ↔ ∃ condition, operation.mnemonic.family = .branch condition := by
  have hadmits := admits_of_operation? ho
  constructor
  · intro hmode
    rw [hmode] at hadmits
    cases hfamily : operation.mnemonic.family with
    | branch condition => exact ⟨condition, rfl⟩
    | _ =>
      rw [hfamily] at hadmits
      cases hadmits
  · rintro ⟨condition, hfamily⟩
    rw [hfamily] at hadmits
    exact of_decide_eq_true hadmits

/-- All modes but that of a branch. -/
def modesWithoutRelative : List Mode :=
  [.implied, .accumulator, .immediate, .zeroPage, .zeroPageX, .zeroPageY, .absolute, .absoluteX,
    .absoluteY, .indirect, .indexedIndirect, .indirectIndexed]

theorem mem_modesWithoutRelative {mode : Mode} (h : mode ≠ .relative) :
    mode ∈ modesWithoutRelative := by
  cases mode with
  | relative => exact absurd rfl h
  | _ => decide

/-- Modes of the same form are the same, if both or none is that of a branch. -/
theorem Mode.eq_of_form {mode other : Mode} (h : mode.form = other.form)
    (hbranch : mode = .relative ↔ other = .relative) : mode = other := by
  by_cases hmode : mode = .relative
  · rw [hmode, hbranch.mp hmode]
  · have hforms : (modesWithoutRelative.map form).Nodup := by decide
    have hother : other ≠ .relative := fun hother => hmode (hbranch.mpr hother)
    exact List.inj_on_of_nodup_map hforms (mem_modesWithoutRelative hmode)
      (mem_modesWithoutRelative hother) h

/-- The opcode that stands for an operation with its operand found in some mode. -/
def opcodeOf? (mnemonic : Mnemonic) (mode : Mode) : Option UInt8 :=
  legalOpcodes.find? fun opcode =>
    (operation? opcode).any fun operation =>
      operation.mode = mode && operation.mnemonic = mnemonic

/-- The matrix has no operation twice. -/
theorem opcodeOf?_eq_some {opcode : UInt8} {operation : Operation}
    (ho : operation? opcode = some operation) :
    opcodeOf? operation.mnemonic operation.mode = some opcode := by
  have hall : ∀ opcode, (operation? opcode).all (fun operation =>
      opcodeOf? operation.mnemonic operation.mode = some opcode) = true :=
    forall_byte (by decide +kernel)
  have hopcode := hall opcode
  rw [ho] at hopcode
  exact of_decide_eq_true hopcode

/-- **The mnemonic and the form tell the opcode.** -/
theorem opcode_eq_of_form {opcode other : UInt8} {operation found : Operation}
    (ho : operation? opcode = some operation) (hf : operation? other = some found)
    (hmnemonic : operation.mnemonic = found.mnemonic)
    (hform : operation.mode.form = found.mode.form) : opcode = other := by
  have hbranch : operation.mode = .relative ↔ found.mode = .relative := by
    rw [mode_eq_relative_iff ho, mode_eq_relative_iff hf, hmnemonic]
  have hmode : operation.mode = found.mode := Mode.eq_of_form hform hbranch
  have hopcode := opcodeOf?_eq_some ho
  rw [hmnemonic, hmode, opcodeOf?_eq_some hf] at hopcode
  exact (Option.some.inj hopcode).symm

end Nmos6502
