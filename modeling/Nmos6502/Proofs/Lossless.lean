import Mathlib.Data.List.Nodup
import Mathlib.Tactic.Common
import Nmos6502.Listing.Text
import Nmos6502.Proofs.OperandForm
import Nmos6502.Proofs.Tiling

/-!
# Nothing is lost in a listing

A listing shows addresses and bytes only if it is asked to, and where it shows a branch it shows the
target and not the distance. Still, the bytes can be had back from the text, if it is known where
they begin.

For one line this is a matter of its text. A byte that is shown as data is not mistaken for an
instruction, since no mnemonic begins with a dot. In an instruction the mnemonic takes three
characters and the operand follows after a space, so both can be told. Mnemonic and form of the
operand give the opcode, and the digits give the other bytes, with question marks for those that
are cut off.

For a listing it is an induction along its lines. No line has a line break inside, so equal listings
have equal first lines. These stand at the same address, so they cover the same bytes, and what is
left after them begins at the same address again. The columns before the text have a fixed width,
so they change nothing.

## Main definitions

* `mnemonics` — all mnemonics

## Main results

* `Line.Opens.bytes_eq_of_text` — the text of a line and its address tell the bytes
* `render_lossless` — so does a listing
-/

namespace Nmos6502

open Text

/-! ## Mnemonics and operands -/

/-- All mnemonics. -/
def mnemonics : List Mnemonic :=
  [.adc, .and, .asl, .bcc, .bcs, .beq, .bit, .bmi, .bne, .bpl, .brk, .bvc, .bvs, .clc, .cld, .cli,
    .clv, .cmp, .cpx, .cpy, .dec, .dex, .dey, .eor, .inc, .inx, .iny, .jmp, .jsr, .lda, .ldx, .ldy,
    .lsr, .nop, .ora, .pha, .php, .pla, .plp, .rol, .ror, .rti, .rts, .sbc, .sec, .sed, .sei, .sta,
    .stx, .sty, .tax, .tay, .tsx, .txa, .txs, .tya]

theorem mem_mnemonics (mnemonic : Mnemonic) : mnemonic ∈ mnemonics := by
  cases mnemonic <;> decide

namespace Mnemonic

theorem name_injective {mnemonic other : Mnemonic} (h : mnemonic.name = other.name) :
    mnemonic = other := by
  have hnames : (mnemonics.map name).Nodup := by decide +kernel
  exact List.inj_on_of_nodup_map hnames (mem_mnemonics mnemonic) (mem_mnemonics other) h

/-- A mnemonic is written in three capital letters. -/
theorem name_letters (mnemonic : Mnemonic) :
    mnemonic.name.toList.length = 3 ∧ ∀ c ∈ mnemonic.name.toList, c.isUpper = true := by
  cases mnemonic <;> simp [name]

end Mnemonic

/-- The mnemonic comes first, and the operand after one more character. -/
theorem withOperand_parts (mnemonic : Mnemonic) (operand : String) :
    (withOperand mnemonic.name operand).toList.take 3 = mnemonic.name.toList ∧
      (withOperand mnemonic.name operand).toList.drop 4 = operand.toList := by
  obtain ⟨hlength, -⟩ := mnemonic.name_letters
  have hdrop : mnemonic.name.toList.drop 4 = [] :=
    List.drop_of_length_le (hlength ▸ Nat.le_succ 3)
  rw [withOperand]
  split
  next hempty =>
    rw [String.isEmpty_iff.mp hempty]
    exact ⟨List.take_of_length_le (Nat.le_of_eq hlength), hdrop⟩
  next =>
    simp only [String.toList_append, List.append_assoc]
    refine ⟨List.take_left' hlength, ?_⟩
    rw [List.drop_append, hlength, hdrop]
    rfl

theorem withOperand_injective {mnemonic other : Mnemonic} {operand found : String}
    (h : withOperand mnemonic.name operand = withOperand other.name found) :
    mnemonic = other ∧ operand = found := by
  obtain ⟨hname, hoperand⟩ := withOperand_parts mnemonic operand
  obtain ⟨hname', hoperand'⟩ := withOperand_parts other found
  rw [h] at hname hoperand
  refine ⟨Mnemonic.name_injective (String.toList_injective ?_), String.toList_injective ?_⟩
  · exact hname.symm.trans hname'
  · exact hoperand.symm.trans hoperand'

/-! ## The text of a line -/

/-- A byte as data. -/
def dataText (opcode : UInt8) : String := ".byte $" ++ hexByte .upper opcode

/-- An instruction, of whose operand bytes some may be missing. -/
def instructionText (operation : Operation) (operand : List UInt8) (address : UInt16) : String :=
  withOperand operation.mnemonic.name (operandText operation.mode operand address)

/-- A line that is cut off shows an instruction. -/
theorem Line.text_truncated {opcode : UInt8} {operation : Operation}
    (legal : operation? opcode = some operation) (address : UInt16) (operand : List UInt8) :
    (Line.truncated address (opcode :: operand)).text =
      instructionText operation operand address := by
  rw [Line.text, legal]
  rfl

/-- A line shows a byte as data, or an instruction with the operand bytes that are there. -/
theorem Line.Opens.text_cases {line : Line} {start : UInt16} {rest : List UInt8}
    (h : line.Opens start rest) :
    (∃ opcode, line.bytes = [opcode] ∧ line.text = dataText opcode) ∨
      ∃ opcode operation operand, operation? opcode = some operation ∧
        operand.length ≤ operation.mode.operandLength ∧ line.bytes = opcode :: operand ∧
        line.text = instructionText operation operand start := by
  cases h with
  | @decoded opcode operation legal operand whole =>
    exact .inr ⟨opcode, operation, operand, legal, Nat.le_of_eq whole, rfl, rfl⟩
  | @illegal opcode unknown => exact .inl ⟨opcode, rfl, rfl⟩
  | @truncated opcode operation legal operand short =>
    exact .inr ⟨opcode, operation, operand, legal, Nat.le_of_lt short, rfl,
      Line.text_truncated legal start operand⟩

theorem dataText_injective {opcode other : UInt8} (h : dataText opcode = dataText other) :
    opcode = other := by
  have hchars := congrArg String.toList h
  rw [dataText, dataText, String.toList_append, String.toList_append] at hchars
  exact hexByte_injective (String.toList_injective (List.append_cancel_left hchars))

/-- No mnemonic begins with a dot. -/
theorem dataText_ne_instructionText (opcode : UInt8) (operation : Operation)
    (operand : List UInt8) (address : UInt16) :
    dataText opcode ≠ instructionText operation operand address := by
  intro h
  obtain ⟨hname, -⟩ := withOperand_parts operation.mnemonic
    (operandText operation.mode operand address)
  have hdot : '.' ∈ (dataText opcode).toList.take 3 := by
    simp [dataText]
  rw [h, instructionText, hname] at hdot
  exact absurd (operation.mnemonic.name_letters.2 '.' hdot) (by decide)

theorem instructionText_injective {opcode other : UInt8} {operation found : Operation}
    {operand operand' : List UInt8} {address : UInt16} (ho : operation? opcode = some operation)
    (hf : operation? other = some found)
    (hlength : operand.length ≤ operation.mode.operandLength)
    (hlength' : operand'.length ≤ found.mode.operandLength)
    (h : instructionText operation operand address = instructionText found operand' address) :
    opcode = other ∧ operand = operand' := by
  obtain ⟨hmnemonic, htext⟩ := withOperand_injective h
  have hform : operation.mode.form = found.mode.form := by
    rw [← map_blank_operandText operation.mode operand address, htext, map_blank_operandText]
  have hopcode : opcode = other := opcode_eq_of_form ho hf hmnemonic hform
  rw [hopcode, hf] at ho
  cases ho
  exact ⟨hopcode, operandText_injective hlength hlength' htext⟩

/-- **The text of a line tells the bytes**, if it is known where the line stands. -/
theorem Line.Opens.bytes_eq_of_text {line other : Line} {start : UInt16} {rest rest' : List UInt8}
    (h : line.Opens start rest) (h' : other.Opens start rest') (htext : line.text = other.text) :
    line.bytes = other.bytes := by
  rcases h.text_cases with ⟨opcode, hbytes, hdata⟩ |
      ⟨opcode, operation, operand, legal, hlength, hbytes, hinstruction⟩ <;>
    rcases h'.text_cases with ⟨opcode', hbytes', hdata'⟩ |
      ⟨opcode', operation', operand', legal', hlength', hbytes', hinstruction'⟩
  · rw [hdata, hdata'] at htext
    rw [hbytes, hbytes', dataText_injective htext]
  · rw [hdata, hinstruction'] at htext
    exact (dataText_ne_instructionText _ _ _ _ htext).elim
  · rw [hinstruction, hdata'] at htext
    exact (dataText_ne_instructionText _ _ _ _ htext.symm).elim
  · rw [hinstruction, hinstruction'] at htext
    obtain ⟨hopcode, hoperand⟩ :=
      instructionText_injective legal legal' hlength hlength' htext
    rw [hbytes, hbytes', hopcode, hoperand]

/-! ## A line in its columns -/

theorem toList_padRight (width : Nat) (text : String) :
    (padRight width text).toList =
      text.toList ++ List.replicate (width - text.toList.length) ' ' := by
  rw [padRight, String.toList_append, String.toList_ofList, String.length_toList]

/-- A text that is not too long fills its column, and no more. -/
theorem length_padRight {width : Nat} {text : String} (h : text.toList.length ≤ width) :
    (padRight width text).toList.length = width := by
  rw [toList_padRight, List.length_append, List.length_replicate]
  omega

theorem newline_not_mem_padRight {width : Nat} {text : String} (h : '\n' ∉ text.toList) :
    '\n' ∉ (padRight width text).toList := by
  rw [toList_padRight, List.mem_append, List.mem_replicate]
  rintro (hmem | ⟨-, hspace⟩)
  · exact h hmem
  · cases hspace

theorem newline_not_mem_fixedDigits {letters : LetterCase} (width n : Nat) :
    '\n' ∉ fixedDigits 16 letters width n := by
  intro h
  obtain ⟨digit, hdigit, heq⟩ := mem_fixedDigits (by decide) h
  have hall : ∀ digit < 16, '\n' ≠ digitChar letters digit := by cases letters <;> decide
  exact hall digit hdigit heq

/-- What stands in a joined text stands in the separator or in one of the parts. -/
theorem mem_intercalate {separator : List Char} {c : Char} :
    ∀ {parts : List (List Char)}, c ∈ separator.intercalate parts →
      c ∈ separator ∨ ∃ part ∈ parts, c ∈ part
  | [], h => by cases h
  | [part], h => .inr ⟨part, List.mem_singleton_self part, by simpa using h⟩
  | part :: next :: parts, h => by
    rw [List.intercalate_cons_cons] at h
    rcases List.mem_append.mp h with h | h
    · exact (List.mem_append.mp h).elim (fun h => .inr ⟨part, List.mem_cons_self .., h⟩) .inl
    · exact (mem_intercalate h).imp_right fun ⟨other, hother, hc⟩ =>
        ⟨other, List.mem_cons_of_mem _ hother, hc⟩

theorem newline_not_mem_hexBytes (letters : LetterCase) (bytes : List UInt8) :
    '\n' ∉ (hexBytes letters bytes).toList := by
  rw [toList_hexBytes]
  intro h
  rcases mem_intercalate h with hspace | ⟨part, hpart, hdigit⟩
  · exact absurd hspace (by decide)
  · obtain ⟨byte, -, rfl⟩ := List.mem_map.mp hpart
    exact newline_not_mem_fixedDigits _ _ hdigit

/-- The bytes of a line fit into their column. -/
theorem length_hexBytes_le {bytes : List UInt8} (h : bytes.length ≤ 3) :
    (hexBytes .upper bytes).toList.length ≤ 10 := by
  match bytes, h with
  | [], _ => simp [hexBytes]
  | [_], _ => simp [hexBytes]
  | [_, _], _ => simp [hexBytes]
  | [_, _, _], _ => simp [hexBytes]
  | _ :: _ :: _ :: _ :: _, h =>
    simp only [List.length_cons] at h
    omega

namespace Line.Opens

variable {line : Line} {start : UInt16} {rest : List UInt8}

theorem newline_not_mem_text (h : line.Opens start rest) : '\n' ∉ line.text.toList := by
  rcases h.text_cases with ⟨opcode, -, hdata⟩ | ⟨_, operation, operand, -, -, -, hinstruction⟩
  · rw [hdata, dataText, String.toList_append, List.mem_append, toList_hexByte]
    rintro (hmem | hmem)
    · exact absurd hmem (by decide)
    · exact newline_not_mem_fixedDigits _ _ hmem
  · have hname : '\n' ∉ operation.mnemonic.name.toList := fun hmem =>
      absurd (operation.mnemonic.name_letters.2 _ hmem) (by decide)
    have hoperand : '\n' ∉ (operandText operation.mode operand start).toList := by
      intro hmem
      have hblank : blank '\n' ∈ operation.mode.form :=
        map_blank_operandText operation.mode operand start ▸ List.mem_map_of_mem hmem
      have hform : ∀ mode : Mode, blank '\n' ∉ mode.form := by
        intro mode
        cases mode <;> decide
      exact hform _ hblank
    rw [hinstruction, instructionText, withOperand]
    split
    next => exact hname
    next =>
      rw [String.toList_append, String.toList_append, List.mem_append, List.mem_append]
      rintro ((hmem | hmem) | hmem)
      · exact hname hmem
      · exact absurd hmem (by decide)
      · exact hoperand hmem

end Line.Opens

namespace Line

/-- What stands before the text of a line. -/
def margin (line : Line) (hexDump : Bool) : List Char :=
  if hexDump then
    (padRight 8 ("$" ++ hexWord .upper line.address)).toList ++ [' '] ++
      (padRight 10 (hexBytes .upper line.bytes)).toList ++ [' ']
  else []

theorem toList_format (line : Line) (hexDump : Bool) :
    (line.format hexDump).toList = line.margin hexDump ++ line.text.toList := by
  cases hexDump with
  | false => rfl
  | true =>
    simp only [format, if_true, dumpText, inColumns, margin, String.toList_append]
    rfl

namespace Opens

variable {line : Line} {start : UInt16} {rest : List UInt8}

/-- The text of a line begins at the same place in all lines of a listing. -/
theorem margin_spec (h : line.Opens start rest) (hexDump : Bool) :
    (line.margin hexDump).length = (if hexDump then 20 else 0) ∧
      '\n' ∉ line.margin hexDump := by
  cases hexDump with
  | false => exact ⟨rfl, List.not_mem_nil⟩
  | true =>
    have haddress : ("$" ++ hexWord .upper line.address).toList.length ≤ 8 ∧
        '\n' ∉ ("$" ++ hexWord .upper line.address).toList := by
      simp [newline_not_mem_fixedDigits]
    have hlength := length_hexBytes_le h.length_bytes_le
    simp only [margin, if_true]
    constructor
    · simp only [List.length_append, length_padRight haddress.1, length_padRight hlength,
        List.length_singleton]
    · simp only [List.mem_append, not_or]
      exact ⟨⟨⟨newline_not_mem_padRight haddress.2, by decide⟩,
        newline_not_mem_padRight (newline_not_mem_hexBytes .upper _)⟩, by decide⟩

theorem newline_not_mem_format (h : line.Opens start rest) (hexDump : Bool) :
    '\n' ∉ (line.format hexDump).toList := by
  rw [toList_format, List.mem_append]
  rintro (hmem | hmem)
  · exact (h.margin_spec hexDump).2 hmem
  · exact h.newline_not_mem_text hmem

/-- With or without columns, a line shows its text. -/
theorem text_eq_of_format {other : Line} {rest' : List UInt8} (h : line.Opens start rest)
    (h' : other.Opens start rest') {hexDump : Bool}
    (hformat : line.format hexDump = other.format hexDump) : line.text = other.text := by
  have hchars := congrArg String.toList hformat
  rw [toList_format, toList_format] at hchars
  have hwidth := (h.margin_spec hexDump).1.trans (h'.margin_spec hexDump).1.symm
  exact String.toList_injective (List.append_inj hchars hwidth).2

end Opens

end Line

/-! ## The whole listing -/

/-- Texts that end at the first separator are the same if what they are in is the same. -/
theorem split_at_separator {separator : Char} :
    ∀ {text other rest rest' : List Char}, separator ∉ text → separator ∉ other →
      text ++ separator :: rest = other ++ separator :: rest' → text = other ∧ rest = rest'
  | [], [], _, _, _, _, h => ⟨rfl, (List.cons.inj h).2⟩
  | [], c :: other, _, _, _, hother, h =>
    absurd (List.cons.inj h).1 (List.ne_of_not_mem_cons hother)
  | c :: text, [], _, _, htext, _, h =>
    absurd (List.cons.inj h).1.symm (List.ne_of_not_mem_cons htext)
  | c :: text, d :: other, _, _, htext, hother, h => by
    obtain ⟨hhead, htail⟩ := List.cons.inj h
    obtain ⟨hsame, hrest⟩ := split_at_separator (List.not_mem_of_not_mem_cons htext)
      (List.not_mem_of_not_mem_cons hother) htail
    exact ⟨by rw [hhead, hsame], hrest⟩

/-- The lines of a listing as text, each with its line break. -/
def bodyText (lines : List Line) (hexDump : Bool) : List Char :=
  lines.flatMap fun line => (line.format hexDump).toList ++ ['\n']

theorem toList_render (bytes : List UInt8) (start : UInt16) (hexDump : Bool) :
    (render bytes start hexDump).toList =
      (if hexDump then listingHeader ++ "\n" else "").toList ++
        bodyText (disassemble bytes start) hexDump := by
  rw [render, String.toList_append, String.toList_join, List.flatMap_map, bodyText]
  simp only [String.toList_append]
  rfl

/-- Without a header a listing is nothing but its lines. -/
theorem toList_render_plain (bytes : List UInt8) (start : UInt16) :
    (render bytes start false).toList = bodyText (disassemble bytes start) false :=
  toList_render bytes start false

theorem bodyText_cons (line : Line) (lines : List Line) (hexDump : Bool) :
    bodyText (line :: lines) hexDump =
      (line.format hexDump).toList ++ '\n' :: bodyText lines hexDump := by
  rw [bodyText, List.flatMap_cons, List.append_assoc]
  rfl

theorem bodyText_append (lines others : List Line) (hexDump : Bool) :
    bodyText (lines ++ others) hexDump = bodyText lines hexDump ++ bodyText others hexDump :=
  List.flatMap_append

/-- Lines that cover bytes from the same address on cover the same bytes if they look the same. -/
theorem Tiles.bytes_eq_of_bodyText {bytes other : List UInt8} {start : UInt16}
    {lines found : List Line} {hexDump : Bool} (h : Tiles bytes start lines)
    (h' : Tiles other start found) (htext : bodyText lines hexDump = bodyText found hexDump) :
    bytes = other := by
  induction h generalizing other found with
  | nil start =>
    cases h' with
    | nil => rfl
    | cons opens later =>
      rw [bodyText_cons] at htext
      exact (List.append_ne_nil_of_right_ne_nil _ (List.cons_ne_nil _ _) htext.symm).elim
  | @cons line start rest lines opens later ih =>
    cases h' with
    | nil =>
      rw [bodyText_cons] at htext
      exact (List.append_ne_nil_of_right_ne_nil _ (List.cons_ne_nil _ _) htext).elim
    | @cons line' _ rest' lines' opens' later' =>
      rw [bodyText_cons, bodyText_cons] at htext
      -- the first line break is the one that ends the first line, in both listings
      obtain ⟨hfirst, hothers⟩ := split_at_separator (opens.newline_not_mem_format hexDump)
        (opens'.newline_not_mem_format hexDump) htext
      have hbytes : line.bytes = line'.bytes :=
        opens.bytes_eq_of_text opens'
          (opens.text_eq_of_format opens' (String.toList_injective hfirst))
      rw [hbytes] at ih ⊢
      rw [ih later' hothers]

/-- **Nothing is lost in a listing.** Where bytes begin at the same address, listings tell them
apart, with or without addresses and bytes in them. In any listing the text of a line, together
with the address, tells the bytes that the line covers. -/
theorem render_lossless (bytes other : List UInt8) (start : UInt16) (hexDump : Bool) :
    (render bytes start hexDump = render other start hexDump → bytes = other) ∧
      ∀ line ∈ disassemble bytes start, ∀ begin, ∀ found ∈ disassemble other begin,
        line.address = found.address → line.text = found.text → line.bytes = found.bytes := by
  constructor
  · intro h
    have hchars := congrArg String.toList h
    rw [toList_render, toList_render] at hchars
    exact (tiles_disassemble bytes start).bytes_eq_of_bodyText (tiles_disassemble other start)
      (List.append_cancel_left hchars)
  · intro line hline begin found hfound haddress htext
    obtain ⟨rest, opens⟩ := (tiles_disassemble bytes start).exists_opens_of_mem hline
    obtain ⟨rest', opens'⟩ := (tiles_disassemble other begin).exists_opens_of_mem hfound
    rw [haddress] at opens
    exact opens.bytes_eq_of_text opens' htext

/-- An instruction that is cut off is told from the whole one, here at the end of the address space.
A branch covers the same bytes wherever else its address and its target are shown. -/
theorem render_lossless_cutOff :
    render [0xAD, 0x34] 0xFFFE false ≠ render [0xAD, 0x34, 0x12] 0xFFFE false ∧
      ∃ line ∈ disassemble [0xEA, 0xD0, 0xFE] 0x05FF, ∃ found ∈ disassemble [0xD0, 0xFE] 0x0600,
        line.address = found.address ∧ line.text = found.text ∧ line.bytes = found.bytes := by
  constructor
  · intro h
    exact absurd ((render_lossless [0xAD, 0x34] [0xAD, 0x34, 0x12] 0xFFFE false).1 h) (by decide)
  · have hline : Line.decoded (.ofOperation 0x0600 0xD0 ⟨.bne, .relative, 2⟩ [0xD0, 0xFE]) ∈
        disassemble [0xEA, 0xD0, 0xFE] 0x05FF := by decide +kernel
    have hfound : Line.decoded (.ofOperation 0x0600 0xD0 ⟨.bne, .relative, 2⟩ [0xD0, 0xFE]) ∈
        disassemble [0xD0, 0xFE] 0x0600 := by decide +kernel
    obtain ⟨-, hbytes⟩ := render_lossless [0xEA, 0xD0, 0xFE] [0xD0, 0xFE] 0x05FF false
    exact ⟨_, hline, _, hfound, rfl, rfl, hbytes _ hline _ _ hfound rfl rfl⟩

end Nmos6502
