import Mathlib.Data.List.Forall2
import Mathlib.Tactic.Common
import Nmos6502.Proofs.Lossless
import Nmos6502.Proofs.Tiling

/-!
# Digits that are missing

Of an instruction that is cut off some bytes are not known, and question marks take the places of
their digits. Whatever the bytes are, the whole instruction has the same text with the question
marks filled in. So the text of the line is as long as that of the instruction, and what it shows
besides question marks is right.

The bytes of an operand that are known are its first, since what is cut off is its end. For an
address these are the lower digits, which stand behind the others. But a digit stands in a place of
its own, so it is enough to look at the digits of one byte at a time: they are known, and then they
are the same, or there are as many marks. A branch has only one byte in its operand, and the digits
of its target are known or not known all at once.

## Main definitions

* `FillsIn` — a text in which nothing but question marks has been replaced

## Main results

* `fillsIn_instructionText` — more bytes of the operand fill in the text
* `truncated_filled_in` — an instruction that is cut off, with its missing bytes
-/

namespace Nmos6502

/-! ## Filling in -/

/-- A text is another one with nothing but question marks replaced. -/
def FillsIn (text marked : List Char) : Prop :=
  List.Forall₂ (fun c mark => mark = '?' ∨ c = mark) text marked

namespace FillsIn

variable {text marked more others : List Char}

theorem refl (text : List Char) : FillsIn text text :=
  List.forall₂_same.mpr fun _ _ => .inr rfl

theorem append (h : FillsIn text marked) (h' : FillsIn more others) :
    FillsIn (text ++ more) (marked ++ others) :=
  List.rel_append h h'

/-- Marks can be filled in with anything that is as long. -/
theorem replicate : ∀ text : List Char, FillsIn text (List.replicate text.length '?')
  | [] => .nil
  | _ :: text => .cons (.inl rfl) (replicate text)

/-- Where texts differ, one of them has a question mark. -/
theorem getElem?_eq (h : FillsIn text marked) {i : Nat} (hdiffers : text[i]? ≠ marked[i]?) :
    marked[i]? = some '?' := by
  induction h generalizing i with
  | nil => exact absurd rfl hdiffers
  | @cons c mark text marked hsame _ ih =>
    cases i with
    | zero =>
      rcases hsame with rfl | rfl
      · rfl
      · exact absurd rfl hdiffers
    | succ i => exact ih hdiffers

/-- An operand is written or left out as it is with marks. -/
theorem withOperand {operand known : String} (h : FillsIn operand.toList known.toList)
    (mnemonic : String) :
    FillsIn (withOperand mnemonic operand).toList (withOperand mnemonic known).toList := by
  have hempty : operand.isEmpty = known.isEmpty := by
    rw [Bool.eq_iff_iff, String.isEmpty_iff, String.isEmpty_iff, ← String.toList_eq_nil_iff,
      ← String.toList_eq_nil_iff, ← List.length_eq_zero_iff, ← List.length_eq_zero_iff,
      h.length_eq]
  rw [Nmos6502.withOperand, Nmos6502.withOperand, hempty]
  split
  · exact .refl _
  · simp only [String.toList_append]
    exact (FillsIn.refl _).append h

end FillsIn

/-! ## Operands -/

section Operands

variable (operand missing : List UInt8)

/-- The digits of a byte that was missing fill in the marks that stood for it, and the others stay
as they are. -/
theorem fillsIn_digitsOrMarks (width : Nat) (number : UInt8 → Nat) (i : Nat) :
    FillsIn (digitsOrMarks width ((operand ++ missing)[i]?.map number))
      (digitsOrMarks width (operand[i]?.map number)) := by
  by_cases hi : i < operand.length
  · rw [List.getElem?_append_left hi]
    exact .refl _
  · have hmarks := FillsIn.replicate (digitsOrMarks width ((operand ++ missing)[i]?.map number))
    rw [length_digitsOrMarks] at hmarks
    rwa [List.getElem?_eq_none (Nat.not_lt.mp hi)]

theorem fillsIn_digits (mode : Mode) (address : UInt16) :
    FillsIn (mode.digits (operand ++ missing) address) (mode.digits operand address) := by
  have hbyte (i : Nat) : FillsIn (bytePlaces (operand ++ missing)[i]?) (bytePlaces operand[i]?) :=
    fillsIn_digitsOrMarks operand missing 2 UInt8.toNat i
  cases mode with
  | implied | accumulator => exact .nil
  | immediate | zeroPage | zeroPageX | zeroPageY | indexedIndirect | indirectIndexed =>
    exact hbyte 0
  | relative => exact fillsIn_digitsOrMarks operand missing 4 _ 0
  | absolute | absoluteX | absoluteY | indirect => exact (hbyte 1).append (hbyte 0)

/-- **More bytes fill in the text of an instruction.** -/
theorem fillsIn_instructionText (operation : Operation) (address : UInt16) :
    FillsIn (instructionText operation (operand ++ missing) address).toList
      (instructionText operation operand address).toList := by
  refine FillsIn.withOperand ?_ operation.mnemonic.name
  rw [toList_operandText, toList_operandText]
  exact ((FillsIn.refl _).append (fillsIn_digits operand missing operation.mode address)).append
    (.refl _)

end Operands

/-! ## Lines that are cut off -/

/-- **An instruction that is cut off, with its missing bytes.** The line begins with a documented
opcode and is too short for it. With any bytes that make up the length, an instruction is decoded at
the same address. Its text is as long as that of the line, and it differs from it only where the
line has a question mark. -/
theorem truncated_filled_in {bytes found : List UInt8} {start address : UInt16}
    (h : .truncated address found ∈ disassemble bytes start) :
    ∃ opcode operation, found.head? = some opcode ∧ operation? opcode = some operation ∧
      found.length < operation.size ∧
      ∀ missing, (found ++ missing).length = operation.size →
        ∃ instruction, Instruction.decode (found ++ missing) address = .ok instruction ∧
          instruction.raw = found ++ missing ∧
          instruction.text.length = (Line.truncated address found).text.length ∧
          ∀ i : Nat, instruction.text.toList[i]? ≠ (Line.truncated address found).text.toList[i]? →
            (Line.truncated address found).text.toList[i]? = some '?' := by
  obtain ⟨rest, opens⟩ := (tiles_disassemble bytes start).exists_opens_of_mem h
  cases opens with
  | @truncated opcode operation legal operand short =>
    refine ⟨opcode, operation, rfl, legal, Instruction.length_of_short short,
      fun missing hlength => ?_⟩
    have hwhole : (operand ++ missing).length = operation.mode.operandLength := by
      rw [Operation.size, Mode.size, List.cons_append, List.length_cons] at hlength
      omega
    have hdecode := Instruction.decode_of_whole legal hwhole address []
    rw [List.append_nil] at hdecode
    have hfills := fillsIn_instructionText operand missing operation address
    rw [Line.text_truncated legal]
    refine ⟨_, hdecode, rfl, ?_, fun i => hfills.getElem?_eq⟩
    rw [← String.length_toList, ← String.length_toList]
    exact hfills.length_eq

/-- A jump whose high byte is cut off, and the jump that it may be. -/
theorem truncated_filled_in_jump :
    .truncated 0xFFFF [0x6C, 0x34] ∈ disassemble [0xEA, 0x6C, 0x34] 0xFFFE ∧
      (Line.truncated 0xFFFF [0x6C, 0x34]).text = "JMP ($??34)" ∧
      ∃ instruction, Instruction.decode [0x6C, 0x34, 0x12] 0xFFFF = .ok instruction ∧
        instruction.text = "JMP ($1234)" ∧
        instruction.text.length = (Line.truncated 0xFFFF [0x6C, 0x34]).text.length ∧
        (Line.truncated 0xFFFF [0x6C, 0x34]).text.toList[6]? = some '?' := by
  have hline : .truncated 0xFFFF [0x6C, 0x34] ∈ disassemble [0xEA, 0x6C, 0x34] 0xFFFE := by
    decide +kernel
  have hjump : operation? 0x6C = some ⟨.jmp, .indirect, 5⟩ := by decide +kernel
  have hdecode : Instruction.decode [0x6C, 0x34, 0x12] 0xFFFF =
      .ok ⟨0xFFFF, 0x6C, .jmp, .indirect, [0x6C, 0x34, 0x12], 3, 5⟩ := by decide +kernel
  obtain ⟨opcode, operation, hopcode, ho, -, hfilled⟩ := truncated_filled_in hline
  cases hopcode
  cases hjump.symm.trans ho
  obtain ⟨instruction, hdecode', -, hlength, hmark⟩ := hfilled [0x12] rfl
  cases hdecode.symm.trans hdecode'
  exact ⟨hline, by decide +kernel, _, hdecode, by decide +kernel, hlength,
    hmark 6 (by decide +kernel)⟩

end Nmos6502
