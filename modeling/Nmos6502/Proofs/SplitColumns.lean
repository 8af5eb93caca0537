import Mathlib.Data.List.TakeDrop
import Mathlib.Data.List.TakeWhile
import Mathlib.Tactic.Common
import Nmos6502.Proofs.Lossless

/-!
# Lines taken apart

A table shows the mnemonic and the operand of a line in columns of their own. A whole instruction
brings both with it. For the other lines only the text is there, and it is cut at its first space.

Both ways lead to the same columns. The text of any line is a word without a space and, unless it is
empty, an operand after a space, and such a text is cut where it was put together. So the columns of
a whole instruction, too, are what its text is cut into, and in every line the two columns give the
text again.

## Main results

* `splitAtSpace_withOperand` — a text is cut where it was put together
* `Line.splitAtSpace_text` — the columns of every line are what its text is cut into
* `columns_recombine` — the columns of the lines of a listing
-/

namespace Nmos6502

open Text

/-! ## Cutting a text -/

theorem splitAtSpace_eq (text : String) :
    splitAtSpace text =
      (String.ofList (text.toList.takeWhile (· != ' ')),
        String.ofList (text.toList.dropWhile (· != ' ')).tail) := by
  rw [splitAtSpace, List.span_eq_takeWhile_dropWhile]

/-- **A text is cut where it was put together**, if the mnemonic has no space. -/
theorem splitAtSpace_withOperand {mnemonic : String} (h : ' ' ∉ mnemonic.toList)
    (operand : String) : splitAtSpace (withOperand mnemonic operand) = (mnemonic, operand) := by
  have hword : ∀ c ∈ mnemonic.toList, (c != ' ') = true := fun c hc =>
    bne_iff_ne.mpr fun hspace => h (hspace ▸ hc)
  rw [splitAtSpace_eq, withOperand]
  split
  next hempty =>
    rw [List.takeWhile_eq_self_iff.mpr hword, List.dropWhile_eq_nil_iff.mpr hword,
      String.ofList_toList, String.isEmpty_iff.mp hempty]
    rfl
  next =>
    have hchars : (mnemonic ++ " " ++ operand).toList =
        mnemonic.toList ++ ' ' :: operand.toList := by
      simp only [String.toList_append, List.append_assoc]
      rfl
    rw [hchars, List.takeWhile_append_of_pos hword, List.dropWhile_append_of_pos hword,
      List.takeWhile_cons_of_neg (by simp), List.dropWhile_cons_of_neg (by simp),
      List.append_nil, List.tail_cons, String.ofList_toList, String.ofList_toList]

/-! ## The columns of a line -/

theorem Mnemonic.space_not_mem_name (mnemonic : Mnemonic) : ' ' ∉ mnemonic.name.toList := fun h =>
  absurd (mnemonic.name_letters.2 ' ' h) (by decide)

namespace Line

/-- The text of a line is a word and an operand. -/
theorem exists_text_eq (line : Line) :
    ∃ mnemonic operand, ' ' ∉ mnemonic.toList ∧ line.text = withOperand mnemonic operand := by
  match line with
  | .decoded instruction =>
    exact ⟨_, _, instruction.mnemonic.space_not_mem_name, rfl⟩
  | .illegal _ opcode =>
    refine ⟨".byte", "$" ++ hexByte .upper opcode, by decide, ?_⟩
    have hsome : ("$" ++ hexByte .upper opcode).isEmpty = false := by
      simp
    rw [withOperand, hsome, text, ← String.toList_inj]
    simp
  | .truncated _ [] => exact ⟨"", "", by decide, rfl⟩
  | .truncated address (opcode :: operand) =>
    rw [text]
    cases operation? opcode with
    | none => exact ⟨".byte", "", by decide, rfl⟩
    | some operation => exact ⟨_, _, operation.mnemonic.space_not_mem_name, rfl⟩

/-- **The columns of every line are what its text is cut into**, those of a whole instruction
included. -/
theorem splitAtSpace_text (line : Line) :
    splitAtSpace line.text = (line.columns.mnemonic, line.columns.operand) := by
  cases line with
  | decoded instruction =>
    exact splitAtSpace_withOperand instruction.mnemonic.space_not_mem_name instruction.operandText
  | illegal | truncated => rfl

/-- The columns of a line give its text. -/
theorem withOperand_columns (line : Line) :
    ' ' ∉ line.columns.mnemonic.toList ∧
      withOperand line.columns.mnemonic line.columns.operand = line.text := by
  obtain ⟨mnemonic, operand, hspace, htext⟩ := line.exists_text_eq
  have hcolumns := line.splitAtSpace_text
  rw [htext, splitAtSpace_withOperand hspace] at hcolumns
  obtain ⟨hmnemonic, hoperand⟩ := Prod.mk.inj hcolumns
  rw [← hmnemonic, ← hoperand]
  exact ⟨hspace, htext.symm⟩

end Line

/-- **The columns of a line give the line again.** Address and bytes are those of the line. The
mnemonic has no space, and with the operand after a space, if there is one, it is the text of the
line; cutting the text at its first space gives the two back. The line as it stands in a hex dump is
twenty characters of address and bytes, and then this text. -/
theorem columns_recombine {bytes : List UInt8} {start : UInt16} {line : Line}
    (h : line ∈ disassemble bytes start) :
    line.columns.address = line.address ∧ line.columns.bytes = line.bytes ∧
      ' ' ∉ line.columns.mnemonic.toList ∧
      withOperand line.columns.mnemonic line.columns.operand = line.text ∧
      splitAtSpace line.text = (line.columns.mnemonic, line.columns.operand) ∧
      line.columns.text = line.format true ∧ (line.margin true).length = 20 ∧
      line.columns.text.toList = line.margin true ++
        (withOperand line.columns.mnemonic line.columns.operand).toList := by
  obtain ⟨rest, opens⟩ := (tiles_disassemble bytes start).exists_opens_of_mem h
  obtain ⟨hspace, htext⟩ := line.withOperand_columns
  refine ⟨rfl, rfl, hspace, htext, line.splitAtSpace_text, rfl, (opens.margin_spec true).1, ?_⟩
  rw [htext]
  exact line.toList_format true

/-- A jump whose high byte is cut off, after a byte that begins no instruction. -/
theorem columns_recombine_jump :
    .truncated 0x0601 [0x6C, 0x34] ∈ disassemble [0x02, 0x6C, 0x34] 0x0600 ∧
      (Line.truncated 0x0601 [0x6C, 0x34]).columns.mnemonic = "JMP" ∧
      (Line.truncated 0x0601 [0x6C, 0x34]).columns.operand = "($??34)" ∧
      (Line.truncated 0x0601 [0x6C, 0x34]).columns.text.toList =
        "$0601    6C 34      ".toList ++ "JMP ($??34)".toList := by
  have hline : .truncated 0x0601 [0x6C, 0x34] ∈ disassemble [0x02, 0x6C, 0x34] 0x0600 := by
    decide +kernel
  obtain ⟨-, -, -, -, -, -, -, htext⟩ := columns_recombine hline
  refine ⟨hline, by decide +kernel, by decide +kernel, htext.trans ?_⟩
  decide +kernel

end Nmos6502
