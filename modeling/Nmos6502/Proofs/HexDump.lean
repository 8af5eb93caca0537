import Mathlib.Tactic.Common
import Nmos6502.Proofs.HexReading
import Nmos6502.Proofs.Lossless

/-!
# A hex dump can be read back

A hex dump is the plain listing with two columns before it and a header above. Whoever has only the
text can take it apart again: a line ends at its line break, and every column begins at the same
place in all lines, the titles included.

That the places are the same is a matter of width. An address takes five characters of eight, and a
line covers at most three bytes, which take eight characters of ten. So nothing sticks out of its
column, and the text begins where the columns end.

## Main definitions

* `textLines` — the lines of a text, without their line breaks
* `Line.addressColumn`, `Line.byteColumn` — what a hex dump shows before the text of a line

## Main results

* `textLines_render` — the lines of a listing are those that were put in
* `render_read_back` — columns and bytes of a hex dump
-/

namespace Nmos6502

open Text

/-! ## The lines of a text -/

/-- The lines of a text in which each line ends in a line break. -/
def textLines (text : String) : List (List Char) := (text.toList.splitOn '\n').dropLast

/-- Lines with a break after each are lines with a break between each two, if nothing follows. -/
theorem flatMap_newline (lines : List (List Char)) :
    lines.flatMap (· ++ ['\n']) = ['\n'].intercalate (lines ++ [[]]) := by
  induction lines with
  | nil => rfl
  | cons line lines ih =>
    obtain ⟨next, later, hlater⟩ := List.exists_cons_of_ne_nil
      (List.append_ne_nil_of_right_ne_nil lines (List.cons_ne_nil [] []))
    rw [List.flatMap_cons, ih, List.cons_append, hlater, List.intercalate_cons_cons]

/-- Lines that have no break inside are found again. -/
theorem textLines_eq {text : String} {lines : List (List Char)}
    (htext : text.toList = lines.flatMap (· ++ ['\n'])) (h : ∀ line ∈ lines, '\n' ∉ line) :
    textLines text = lines := by
  have hall : ∀ line ∈ lines ++ [[]], '\n' ∉ line := by
    intro line hline
    rcases List.mem_append.mp hline with hline | hline
    · exact h line hline
    · exact List.mem_singleton.mp hline ▸ List.not_mem_nil
  have hsome : lines ++ [[]] ≠ [] := List.append_ne_nil_of_right_ne_nil _ (List.cons_ne_nil _ _)
  rw [textLines, htext, flatMap_newline, List.splitOn_intercalate '\n' hall hsome,
    List.dropLast_concat]

/-- The header of a hex dump as lines. -/
def headerLines : List (List Char) :=
  [listingTitle.toList, List.replicate listingTitle.length '-']

theorem newline_not_mem_headerLines : ∀ line ∈ headerLines, '\n' ∉ line := by
  intro line hline
  simp only [headerLines, List.mem_cons, List.not_mem_nil, or_false] at hline
  rcases hline with rfl | rfl
  · decide +kernel
  · exact fun h => absurd (List.mem_replicate.mp h).2 (by decide)

/-- **The lines of a listing.** -/
theorem textLines_render (bytes : List UInt8) (start : UInt16) (hexDump : Bool) :
    textLines (render bytes start hexDump) =
      (if hexDump then headerLines else []) ++
        (disassemble bytes start).map fun line => (line.format hexDump).toList := by
  apply textLines_eq
  · rw [toList_render, List.flatMap_append, List.flatMap_map, bodyText]
    congr 1
    cases hexDump with
    | false => rfl
    | true =>
      simp only [if_true, listingHeader, headerLines, String.toList_append, String.toList_ofList,
        List.flatMap_cons, List.flatMap_nil, List.append_nil, List.append_assoc]
      rfl
  · intro text htext
    rcases List.mem_append.mp htext with htitle | hbody
    · cases hexDump with
      | false => exact (List.not_mem_nil htitle).elim
      | true => exact newline_not_mem_headerLines text htitle
    · obtain ⟨line, hline, rfl⟩ := List.mem_map.mp hbody
      obtain ⟨rest, opens⟩ := (tiles_disassemble bytes start).exists_opens_of_mem hline
      exact opens.newline_not_mem_format hexDump

/-! ## Columns -/

namespace Line

/-- What a hex dump shows of the address of a line. -/
def addressColumn (line : Line) : String := "$" ++ hexWord .upper line.address

/-- What a hex dump shows of the bytes of a line, blanks up to the next column included. -/
def byteColumn (line : Line) : String := padRight 10 (hexBytes .upper line.bytes)

theorem length_addressColumn (line : Line) : line.addressColumn.toList.length = 5 := by
  simp [addressColumn]

theorem Opens.columns_spec {line : Line} {start : UInt16} {rest : List UInt8}
    (h : line.Opens start rest) :
    (line.format true).toList.take 5 = line.addressColumn.toList ∧
      ((line.format true).toList.drop 9).take 10 = line.byteColumn.toList ∧
      (line.format true).toList.drop 20 = line.text.toList := by
  have haddress : (padRight 8 line.addressColumn).toList =
      line.addressColumn.toList ++ [' ', ' ', ' '] := by
    rw [toList_padRight, length_addressColumn]
    rfl
  have hbytes : line.byteColumn.toList.length = 10 :=
    length_padRight (length_hexBytes_le h.length_bytes_le)
  have hmargin : line.margin true =
      (padRight 8 line.addressColumn).toList ++ [' '] ++ line.byteColumn.toList ++ [' '] := rfl
  have hwidth : (line.addressColumn.toList ++ [' ', ' ', ' '] ++ [' ']).length = 9 := by
    simp only [List.length_append, length_addressColumn]
    rfl
  rw [haddress] at hmargin
  rw [toList_format]
  refine ⟨?_, ?_, List.drop_left' (h.margin_spec true).1⟩
  · simp only [hmargin, List.append_assoc]
    exact List.take_left' line.length_addressColumn
  · rw [hmargin, List.append_assoc, List.append_assoc, List.drop_left' hwidth,
      List.take_left' hbytes]

/-- The bytes that the byte columns of lines spell are those of the lines. -/
theorem spells_byteColumn (line : Line) : Spells line.byteColumn.toList line.bytes :=
  (spells_hexBytes .upper line.bytes).padRight 10

end Line

/-- **A hex dump can be read back.** After the header there is a line for each line of the plain
listing. The first five characters show the address, the ten from place 9 on show the bytes, and the
plain line stands from place 20 on. The titles stand at the same places. The byte columns of all
lines, joined with or without blanks, spell the bytes that were listed. -/
theorem render_read_back (bytes : List UInt8) (start : UInt16) (separator : List Char)
    (hblank : ∀ c ∈ separator, isBlank c = true) :
    ∃ title rule body, textLines (render bytes start true) = title :: rule :: body ∧
      title.drop 9 = "Hexdump    Disassembly".toList ∧ title.drop 20 = "Disassembly".toList ∧
      body.map (·.drop 20) = textLines (render bytes start false) ∧
      body.map (fun line => parseAddress (String.ofList (line.take 5))) =
        (disassemble bytes start).map (fun line => .ok line.address) ∧
      parseBytes (String.ofList (separator.intercalate (body.map fun line =>
        (line.drop 9).take 10))) = .ok bytes := by
  have hcolumns : ∀ line ∈ disassemble bytes start,
      (line.format true).toList.take 5 = line.addressColumn.toList ∧
        ((line.format true).toList.drop 9).take 10 = line.byteColumn.toList ∧
        (line.format true).toList.drop 20 = (line.format false).toList := by
    intro line hline
    obtain ⟨rest, opens⟩ := (tiles_disassemble bytes start).exists_opens_of_mem hline
    exact opens.columns_spec
  have hlines := textLines_render bytes start true
  have hplain := textLines_render bytes start false
  rw [if_pos rfl, headerLines, List.cons_append, List.cons_append, List.nil_append] at hlines
  rw [if_neg Bool.false_ne_true, List.nil_append] at hplain
  refine ⟨_, _, _, hlines, by decide +kernel, by decide +kernel, ?_, ?_, ?_⟩
  · rw [hplain, List.map_map, Function.comp_def]
    exact List.map_congr_left fun line hline => (hcolumns line hline).2.2
  · rw [List.map_map, Function.comp_def]
    refine List.map_congr_left fun line hline => ?_
    rw [(hcolumns line hline).1, String.ofList_toList]
    exact parseAddress_hexWord .upper line.address
  · have hcolumn : ((disassemble bytes start).map fun line => (line.format true).toList).map
        (fun line => (line.drop 9).take 10) =
          (disassemble bytes start).map fun line => line.byteColumn.toList := by
      rw [List.map_map, Function.comp_def]
      exact List.map_congr_left fun line hline => (hcolumns line hline).2.1
    have hspells := Spells.intercalate hblank (disassemble bytes start)
      fun line _ => line.spells_byteColumn
    rw [(tiles_disassemble bytes start).flatMap_bytes] at hspells
    rw [hcolumn]
    apply parseBytes_of_spells
    rwa [String.toList_ofList]

/-- A listing that goes round the address space, with a byte that begins no instruction and an
instruction that is cut off. -/
theorem render_read_back_around :
    (∀ c ∈ [' '], isBlank c = true) ∧
      ∃ title rule body, textLines (render [0xA9, 0x01, 0xFF, 0x4C, 0x00] 0xFFFE true) =
          title :: rule :: body ∧
        body = ["$FFFE    A9 01      LDA #$01".toList, "$0000    FF         .byte $FF".toList,
          "$0001    4C 00      JMP $??00".toList] ∧
        parseBytes (String.ofList ([' '].intercalate (body.map fun line =>
          (line.drop 9).take 10))) = .ok [0xA9, 0x01, 0xFF, 0x4C, 0x00] := by
  have hblank : ∀ c ∈ [' '], isBlank c = true := List.forall_mem_singleton.mpr isBlank_space
  have hlisted : (textLines (render [0xA9, 0x01, 0xFF, 0x4C, 0x00] 0xFFFE true)).drop 2 =
      ["$FFFE    A9 01      LDA #$01".toList, "$0000    FF         .byte $FF".toList,
        "$0001    4C 00      JMP $??00".toList] := by decide +kernel
  obtain ⟨title, rule, body, hlines, -, -, -, -, hbytes⟩ :=
    render_read_back [0xA9, 0x01, 0xFF, 0x4C, 0x00] 0xFFFE [' '] hblank
  rw [hlines] at hlisted
  exact ⟨hblank, title, rule, body, hlines, hlisted, hbytes⟩

end Nmos6502
