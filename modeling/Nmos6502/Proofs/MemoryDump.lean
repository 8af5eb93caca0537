import Mathlib.Algebra.Order.Floor.Div
import Mathlib.GroupTheory.GroupAction.Ring
import Mathlib.Tactic.Common
import Nmos6502.Proofs.HexDump
import Nmos6502.Proofs.HexGrammar
import Nmos6502.Ram.Dump

/-!
# A memory dump can be read back

The rows of a dump are shown one after the other. A row begins where the one before it ends,
sixteen bytes further on, and the first begins at a multiple of sixteen, at or before the place that
is asked for. So the rows lie end to end, and together they show all bytes from the beginning of the
first up to the end of the range. Only the last row can be cut short.

All rows end where the range does or before. If memory has the whole range, no row asks for bytes
that are not there. This is said of the loop that makes the rows, with a test at each slice.

In the text a row is a line. Its first six characters are the label, and all behind them are digits
and blanks, so the lines without their labels can be read as one text.

## Main definitions

* `Ram.rowsUpTo` — the rows from a place on
* `Ram.rowsFrom?` — the same rows made by a loop that tests its slices
* `rowLabel`, `rowLine` — a row as a line

## Main results

* `Ram.rowsFrom?_eq` — the loop makes these rows, and no test fails
* `Ram.flatMap_rowsUpTo` — the rows lie end to end
* `Ram.dump_read_back` — what is read from a dump
-/

namespace Nmos6502

open Text

namespace Ram

variable {ram : Ram} {start stop row : Nat}

/-! ## Slices -/

theorem length_slice {length : Nat} (h : start + length ≤ ram.size) :
    (ram.slice start length).length = length := by
  rw [size] at h
  rw [slice, Array.length_toList, Array.size_extract]
  omega

theorem slice_add (ram : Ram) (start length more : Nat) :
    ram.slice start (length + more) =
      ram.slice start length ++ ram.slice (start + length) more := by
  simp only [slice_eq_take, List.take_add, List.drop_drop]

/-- The bytes from `start` up to `stop`, if memory has them all. -/
def sliceUpTo? (ram : Ram) (start stop : Nat) : Option (List UInt8) :=
  if start ≤ stop ∧ stop ≤ ram.size then some (ram.slice start (stop - start)) else none

/-! ## Rows -/

/-- The rows that show the bytes from `row` up to `stop`. -/
def rowsUpTo (ram : Ram) (stop row : Nat) : List (Nat × List UInt8) :=
  (List.range ((stop - row) ⌈/⌉ rowLength)).map fun i =>
    let place := row + rowLength * i
    (place, ram.slice place (min rowLength (stop - place)))

/-- The rows that show the bytes from `row` up to `stop`, made one after the other. There are none
if a slice is out of range. -/
def rowsFrom? (ram : Ram) (stop row : Nat) : Option (List (Nat × List UInt8)) :=
  if row < stop then do
    let bytes ← ram.sliceUpTo? row (min (row + rowLength) stop)
    let later ← ram.rowsFrom? stop (row + rowLength)
    return (row, bytes) :: later
  else some []
termination_by stop - row
decreasing_by
  have : 0 < rowLength := by decide
  omega

/-- Rows are counted from the last one. -/
theorem rows_induction (stop : Nat) {motive : Nat → Prop} (done : ∀ row, stop ≤ row → motive row)
    (next : ∀ row, row < stop → motive (row + rowLength) → motive row) (row : Nat) :
    motive row := by
  induction hrest : stop - row using Nat.strong_induction_on generalizing row with
  | _ rest ih =>
    have hlength : 0 < rowLength := by decide
    by_cases h : row < stop
    · exact next row h (ih (stop - (row + rowLength)) (by omega) _ rfl)
    · exact done row (Nat.not_lt.mp h)

theorem dumpRows_eq (ram : Ram) (start stop : Nat) :
    ram.dumpRows start stop = ram.rowsUpTo stop (start - start % rowLength) := by
  rw [rowsUpTo, Nat.ceilDiv_eq_add_pred_div]
  rfl

theorem rowsUpTo_of_le (h : stop ≤ row) : ram.rowsUpTo stop row = [] := by
  rw [rowsUpTo, Nat.sub_eq_zero_of_le h]
  rfl

/-- The first row, and the rows from its end on. -/
theorem rowsUpTo_of_lt (h : row < stop) :
    ram.rowsUpTo stop row =
      (row, ram.slice row (min rowLength (stop - row))) :: ram.rowsUpTo stop (row + rowLength) := by
  have hcount : (stop - row) ⌈/⌉ rowLength = (stop - (row + rowLength)) ⌈/⌉ rowLength + 1 := by
    simp only [Nat.ceilDiv_eq_add_pred_div, rowLength]
    omega
  have hplace (i : Nat) : row + rowLength * (i + 1) = row + rowLength + rowLength * i := by
    rw [Nat.mul_succ]
    omega
  rw [rowsUpTo, hcount, List.range_succ_eq_map, List.map_cons, List.map_map]
  simp only [Function.comp_def, Nat.succ_eq_add_one, hplace, Nat.mul_zero, Nat.add_zero]
  rfl

/-- **The loop that makes the rows.** If memory has all bytes up to `stop`, no slice is out of
range. -/
theorem rowsFrom?_eq (h : stop ≤ ram.size) (row : Nat) :
    ram.rowsFrom? stop row = some (ram.rowsUpTo stop row) := by
  induction row using rows_induction stop with
  | done row hrow => rw [rowsFrom?, if_neg (Nat.not_lt.mpr hrow), rowsUpTo_of_le hrow]
  | next row hrow ih =>
    have hslice : ram.sliceUpTo? row (min (row + rowLength) stop) =
        some (ram.slice row (min rowLength (stop - row))) := by
      rw [sliceUpTo?, if_pos (by omega)]
      congr 2
      omega
    rw [rowsFrom?, if_pos hrow, hslice, ih, rowsUpTo_of_lt hrow]
    rfl

/-- **The rows lie end to end.** -/
theorem flatMap_rowsUpTo (ram : Ram) (stop row : Nat) :
    (ram.rowsUpTo stop row).flatMap Prod.snd = ram.slice row (stop - row) := by
  induction row using rows_induction stop with
  | done row hrow =>
    rw [rowsUpTo_of_le hrow, Nat.sub_eq_zero_of_le hrow]
    simp [slice]
  | next row hrow ih =>
    rw [rowsUpTo_of_lt hrow, List.flatMap_cons, ih]
    by_cases hlast : stop ≤ row + rowLength
    · rw [Nat.sub_eq_zero_of_le hlast, Nat.min_eq_right (by omega)]
      simp [slice]
    · have hsplit : stop - row = rowLength + (stop - (row + rowLength)) := by omega
      rw [Nat.min_eq_left (by omega), hsplit, slice_add]

theorem length_rowsUpTo (ram : Ram) (stop row : Nat) :
    (ram.rowsUpTo stop row).length = (stop - row) ⌈/⌉ rowLength := by
  rw [rowsUpTo, List.length_map, List.length_range]

/-- A row begins before the range ends. -/
theorem lt_of_lt_length_rowsUpTo {i : Nat} (h : i < (ram.rowsUpTo stop row).length) :
    row + rowLength * i < stop := by
  rw [length_rowsUpTo, Nat.ceilDiv_eq_add_pred_div, Nat.lt_div_iff_mul_lt (by decide)] at h
  simp only [rowLength] at h ⊢
  omega

/-- **A row in its place.** It shows the bytes from there on, and only the last is cut short. -/
theorem getElem_rowsUpTo (hfits : stop ≤ ram.size) {i : Nat}
    (h : i < (ram.rowsUpTo stop row).length) :
    ∃ bytes, (ram.rowsUpTo stop row)[i] = (row + rowLength * i, bytes) ∧
      bytes = ram.slice (row + rowLength * i) bytes.length ∧ 0 < bytes.length ∧
      bytes.length ≤ rowLength ∧
      (i + 1 < (ram.rowsUpTo stop row).length → bytes.length = rowLength) := by
  have hplace := lt_of_lt_length_rowsUpTo h
  have hlength : (ram.slice (row + rowLength * i)
      (min rowLength (stop - (row + rowLength * i)))).length =
        min rowLength (stop - (row + rowLength * i)) := length_slice (by omega)
  have hrow : 0 < rowLength := by decide
  refine ⟨ram.slice (row + rowLength * i) (min rowLength (stop - (row + rowLength * i))),
    by simp [rowsUpTo], by rw [hlength], ?_, ?_, ?_⟩
  · rw [hlength]
    omega
  · rw [hlength]
    exact Nat.min_le_left _ _
  · intro hnext
    have hlater := lt_of_lt_length_rowsUpTo hnext
    rw [Nat.mul_succ] at hlater
    rw [hlength]
    exact Nat.min_eq_left (by omega)

end Ram

/-! ## Rows as lines -/

/-- What stands before the bytes of a row. -/
def rowLabel (place : UInt16) : List Char := (hexWord .lower place ++ ": ").toList

/-- A row as a line. -/
def rowLine (row : Nat × List UInt8) : List Char :=
  rowLabel (UInt16.ofNat row.1) ++ (hexBytes .lower row.2).toList

theorem length_rowLabel (place : UInt16) : (rowLabel place).length = 6 := by
  rw [rowLabel, String.toList_append, List.length_append, toList_hexWord, length_fixedDigits]
  rfl

theorem toList_dumpRow (row : Nat × List UInt8) :
    (Ram.dumpRow row).toList = rowLine row ++ ['\n'] := by
  rw [Ram.dumpRow, String.toList_append, String.toList_append]
  rfl

theorem take_rowLine (row : Nat × List UInt8) :
    (rowLine row).take 6 = rowLabel (UInt16.ofNat row.1) :=
  List.take_left' (length_rowLabel _)

/-- The text behind the label spells the bytes of a row. -/
theorem spells_drop_rowLine (row : Nat × List UInt8) : Spells ((rowLine row).drop 6) row.2 := by
  rw [rowLine, List.drop_left' (length_rowLabel _)]
  exact spells_hexBytes .lower row.2

theorem newline_not_mem_rowLine (row : Nat × List UInt8) : '\n' ∉ rowLine row := by
  rw [rowLine, rowLabel, String.toList_append, toList_hexWord, List.mem_append, List.mem_append]
  rintro ((h | h) | h)
  · exact newline_not_mem_fixedDigits _ _ h
  · exact absurd h (by decide)
  · exact newline_not_mem_hexBytes _ _ h

/-- The line of column numbers. -/
def columnNumbers : List Char := "      00 01 02 03 04 05 06 07 08 09 0a 0b 0c 0d 0e 0f".toList

theorem toList_dumpHeader : Ram.dumpHeader.toList = columnNumbers ++ ['\n'] := by
  decide +kernel

/-- Texts one after the other spell their bytes one after the other. -/
theorem Spells.flatMap {α : Type} {text : α → List Char} {bytes : α → List UInt8} {parts : List α}
    (h : ∀ part ∈ parts, Spells (text part) (bytes part)) :
    Spells (parts.flatMap text) (parts.flatMap bytes) := by
  induction parts with
  | nil => exact .nil
  | cons part parts ih =>
    obtain ⟨hpart, hlater⟩ := List.forall_mem_cons.mp h
    exact hpart.append (ih hlater)

namespace Ram

variable {ram : Ram} {offset : UInt16} {length : Nat}

theorem exists_dump_eq_error_iff :
    (∃ fault, ram.dump offset length = .error fault) ↔ ram.size < offset.toNat + length := by
  constructor
  · rintro ⟨fault, h⟩
    by_contra hfits
    rw [dump, if_neg hfits] at h
    cases h
  · intro h
    exact ⟨_, if_pos h⟩

/-- **The lines of a dump.** -/
theorem textLines_dump (h : offset.toNat + length ≤ ram.size) :
    ∃ text, ram.dump offset length = .ok text ∧
      textLines text =
        columnNumbers :: (ram.dumpRows offset.toNat (offset.toNat + length)).map rowLine := by
  refine ⟨_, if_neg (Nat.not_lt.mpr h), textLines_eq ?_ ?_⟩
  · rw [String.toList_append, toList_dumpHeader, String.toList_join, List.flatMap_cons,
      List.flatMap_map, List.flatMap_map]
    simp only [toList_dumpRow]
  · rw [List.forall_mem_cons, List.forall_mem_map]
    exact ⟨by decide +kernel, fun row _ => newline_not_mem_rowLine row⟩

/-- **A dump can be read back.** It is refused if the range goes beyond the end of memory, and only
then. Otherwise rows follow the column numbers, as many as the range from the beginning of the first
row takes. Each is labelled with its address, and all but the last hold sixteen bytes. The rows
without their labels, one after the other, are read as the bytes of memory. The loop that makes the
rows asks for no byte that is not there. -/
theorem dump_read_back (ram : Ram) (offset : UInt16) (length : Nat) {first stop : Nat}
    (hfirst : first = offset.toNat - offset.toNat % 16) (hstop : stop = offset.toNat + length) :
    ((∃ fault, ram.dump offset length = .error fault) ↔ ram.size < stop) ∧
      (stop ≤ ram.size → ∃ text rows, ram.dump offset length = .ok text ∧
        textLines text =
          "      00 01 02 03 04 05 06 07 08 09 0a 0b 0c 0d 0e 0f".toList :: rows ∧
        rows.length = (stop - first) ⌈/⌉ 16 ∧
        (∀ (i : Nat) (h : i < rows.length), ∃ (place : UInt16) (bytes : List UInt8),
          place.toNat = first + 16 * i ∧
          rows[i].take 6 = (hexWord .lower place ++ ": ").toList ∧
          parseBytes (String.ofList (rows[i].drop 6)) = .ok bytes ∧
          bytes = ram.slice place.toNat bytes.length ∧ 0 < bytes.length ∧ bytes.length ≤ 16 ∧
          (i + 1 < rows.length → bytes.length = 16)) ∧
        parseBytes (String.ofList (rows.flatMap (·.drop 6))) =
          .ok (ram.slice first (stop - first)) ∧
        (ram.slice first (stop - first)).length = stop - first ∧
        ram.rowsFrom? stop first = some (ram.dumpRows offset.toNat stop)) := by
  subst hstop
  refine ⟨exists_dump_eq_error_iff, fun hfits => ?_⟩
  set stop := offset.toNat + length
  have hrows : ram.dumpRows offset.toNat stop = ram.rowsUpTo stop first := by
    rw [dumpRows_eq, hfirst]
    rfl
  obtain ⟨text, hdump, hlines⟩ := textLines_dump hfits
  rw [hrows] at hlines ⊢
  refine ⟨text, _, hdump, hlines, ?_, ?_, ?_, ?_, rowsFrom?_eq hfits first⟩
  · rw [List.length_map, length_rowsUpTo]
    rfl
  · intro i h
    rw [List.length_map] at h ⊢
    have haddress : first + rowLength * i < 2 ^ 16 :=
      Nat.lt_of_lt_of_le (lt_of_lt_length_rowsUpTo h) (hfits.trans ram.size_le)
    obtain ⟨bytes, hrow, hbytes⟩ := getElem_rowsUpTo hfits h
    have hplace := UInt16.toNat_ofNat_of_lt' haddress
    refine ⟨UInt16.ofNat (first + rowLength * i), bytes, hplace, ?_, ?_, by rwa [hplace]⟩
    · rw [List.getElem_map, hrow, take_rowLine, rowLabel]
    · rw [List.getElem_map, hrow]
      apply parseBytes_of_spells
      rw [String.toList_ofList]
      exact spells_drop_rowLine _
  · rw [List.flatMap_map]
    apply parseBytes_of_spells
    rw [String.toList_ofList, ← flatMap_rowsUpTo]
    exact Spells.flatMap fun row _ => spells_drop_rowLine row
  · exact length_slice (by omega)

/-- A range that begins inside a row and goes beyond it, up to the end of a memory whose last row is
not full. -/
theorem dump_read_back_midRow :
    let ram := (zeros 0x22 (by decide) (by decide)).put 0x20 0xA9
    0x10 = (0x1E : UInt16).toNat - (0x1E : UInt16).toNat % 16 ∧ 0x22 = (0x1E : UInt16).toNat + 4 ∧
      0x22 ≤ ram.size ∧
      ∃ text rows, ram.dump 0x1E 4 = .ok text ∧
        textLines text =
          "      00 01 02 03 04 05 06 07 08 09 0a 0b 0c 0d 0e 0f".toList :: rows ∧
        rows = ["0010: 00 00 00 00 00 00 00 00 00 00 00 00 00 00 00 00".toList,
          "0020: a9 00".toList] ∧
        parseBytes (String.ofList (rows.flatMap (·.drop 6))) =
          .ok (List.replicate 16 0x00 ++ [0xA9, 0x00]) := by
  intro ram
  have hshown : (ram.dump 0x1E 4).toOption.map textLines =
      some ["      00 01 02 03 04 05 06 07 08 09 0a 0b 0c 0d 0e 0f".toList,
        "0010: 00 00 00 00 00 00 00 00 00 00 00 00 00 00 00 00".toList,
        "0020: a9 00".toList] := by decide +kernel
  have hfirst : 0x10 = (0x1E : UInt16).toNat - (0x1E : UInt16).toNat % 16 := by decide
  have hstop : 0x22 = (0x1E : UInt16).toNat + 4 := by decide
  have hfits : 0x22 ≤ ram.size := by decide +kernel
  obtain ⟨text, rows, hdump, hlines, -, -, hbytes, -⟩ :=
    (dump_read_back ram 0x1E 4 hfirst hstop).2 hfits
  rw [hdump] at hshown
  have hrows := hlines.symm.trans (Option.some.inj hshown)
  refine ⟨hfirst, hstop, hfits, text, rows, hdump, hlines, (List.cons.inj hrows).2, ?_⟩
  rw [hbytes]
  decide +kernel

end Ram

end Nmos6502
