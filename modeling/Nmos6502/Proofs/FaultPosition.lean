import Mathlib.Data.String.Basic
import Mathlib.Tactic.Common
import Nmos6502.Proofs.AddressGrammar

/-!
# Where a fault is

A fault in a text names a character and a position, which is a number of bytes. For the bytes of a
program it counts from the beginning of the text, blanks included, so whoever has the text finds the
character there. For an address it counts from the first digit. The blanks and the mark before are
left out, and in the text the character stands so much later. The two counts are the same if the
text begins with its digits, and else another character may stand at the position.

## Main results

* `get?_of_toList` — what stands behind the first characters of a text
* `fault_positions` — where the character that is named is found
* `fault_position_misleads` — a text in which another character stands at the position
-/

namespace Nmos6502

open Text

/-- A character stands as many bytes into a text as the characters before it take. -/
theorem get?_of_toList {text : String} {before after : List Char} {c : Char}
    (h : text.toList = before ++ c :: after) :
    String.Pos.Raw.get? text ⟨String.utf8Len before⟩ = some c := by
  rw [← String.ofList_toList (s := text), h, String.get?_of_valid, List.head?_cons]

/-- The character that is named stands behind the mark and some digits. -/
theorem exists_of_invalidDigit {text : String} {position : Nat} {found : Char}
    (h : parseAddress text = .error (.invalidDigit position found)) :
    ∃ mark good after, Marked (trimBlanks text.toList) mark (good ++ found :: after) ∧
      position = String.utf8Len good := by
  obtain ⟨mark, hmarked⟩ := exists_marked (trimBlanks text.toList)
  have hsome := ne_nil_of_outcome hmarked h (by simp)
  obtain ⟨good, later, value, hdigits, -, -, hend⟩ := (parseAddress_eq_iff hmarked hsome).mp h
  rw [hdigits] at hmarked
  cases hend
  exact ⟨mark, good, _, hmarked, rfl⟩

theorem get?_of_invalidDigit {text : String} {position : Nat} {found : Char}
    (h : parseAddress text = .error (.invalidDigit position found)) :
    ∃ lead tail mark digits, Trimmed text.toList lead (trimBlanks text.toList) tail ∧
      Marked (trimBlanks text.toList) mark digits ∧
      String.Pos.Raw.get? (String.ofList digits) ⟨position⟩ = some found ∧
      String.Pos.Raw.get? text ⟨String.utf8Len (lead ++ mark) + position⟩ = some found := by
  obtain ⟨mark, good, after, hmarked, rfl⟩ := exists_of_invalidDigit h
  have htrimmed := trimmed_trimBlanks text.toList
  refine ⟨_, _, mark, _, htrimmed, hmarked, get?_of_toList String.toList_ofList, ?_⟩
  rw [← String.utf8Len_append]
  apply get?_of_toList
  conv_lhs => rw [htrimmed.eq, hmarked.eq]
  simp only [List.append_assoc, List.cons_append]
  rfl

/-- A text that does not begin with a blank has no blanks to take away at its beginning. -/
theorem Trimmed.lead_eq_nil {text lead whole tail : List Char} (h : Trimmed text lead whole tail)
    (hhead : ∀ c ∈ text.head?, isBlank c = false) : lead = [] := by
  cases lead with
  | nil => rfl
  | cons c lead =>
    have hblank := h.lead_blank c (List.mem_cons_self ..)
    have hfirst : c ∈ text.head? := by
      rw [h.eq]
      rfl
    exact absurd (hblank.symm.trans (hhead c hfirst)) Bool.noConfusion

/-- A text that begins neither with a blank nor with a mark has none of the marks once it is trimmed
either. -/
theorem Marked.mark_eq_nil {text tail whole mark digits : List Char} (h : Marked whole mark digits)
    (htrimmed : Trimmed text [] whole tail)
    (hnone : ∀ mark ∈ addressMarks, ¬ mark <+: text) : mark = [] := by
  refine h.mem.resolve_right fun hmark => hnone mark hmark ⟨digits ++ tail, ?_⟩
  rw [htrimmed.eq, h.eq, List.nil_append, List.append_assoc]

/-- **The position of a fault.** In the text of a program the character that is named stands at the
position that is named. In the text of an address it stands at that position of what follows the
blanks and the mark at the beginning, and their bytes later in the text. So it stands at the
position that is named if the text begins neither with a blank nor with a mark. -/
theorem fault_positions (text : String) (position : Nat) (found : Char) :
    (parseBytes text = .error (.invalidDigit position found) →
      String.Pos.Raw.get? text ⟨position⟩ = some found) ∧
    (parseAddress text = .error (.invalidDigit position found) →
      ∃ lead tail mark digits, Trimmed text.toList lead (trimBlanks text.toList) tail ∧
        Marked (trimBlanks text.toList) mark digits ∧
        String.Pos.Raw.get? (String.ofList digits) ⟨position⟩ = some found ∧
        String.Pos.Raw.get? text ⟨String.utf8Len (lead ++ mark) + position⟩ = some found) ∧
    ((∀ c ∈ text.toList.head?, isBlank c = false) →
      (∀ mark ∈ addressMarks, ¬ mark <+: text.toList) →
      parseAddress text = .error (.invalidDigit position found) →
      String.Pos.Raw.get? text ⟨position⟩ = some found) := by
  refine ⟨fun h => ?_, get?_of_invalidDigit, fun hblank hmark h => ?_⟩
  · obtain ⟨before, after, htext, rfl, -⟩ := parseBytes_eq_invalidDigit_iff.mp h
    exact get?_of_toList htext
  · obtain ⟨lead, tail, mark, digits, htrimmed, hmarked, -, hfound⟩ := get?_of_invalidDigit h
    obtain rfl := htrimmed.lead_eq_nil hblank
    obtain rfl := hmarked.mark_eq_nil htrimmed hmark
    rwa [List.nil_append, String.utf8Len_nil, Nat.zero_add] at hfound

/-- A letter of two bytes in three texts: behind a space of three bytes and another one in a
program, behind such a space and a mark in an address, and in an address that begins with its
digits. -/
theorem fault_positions_letter :
    (parseBytes "\u2003 é" = .error (.invalidDigit 4 'é') ∧
        String.Pos.Raw.get? "\u2003 é" ⟨4⟩ = some 'é') ∧
      (parseAddress "\u20030x1é" = .error (.invalidDigit 1 'é') ∧
        ∃ shift, String.Pos.Raw.get? "\u20030x1é" ⟨shift + 1⟩ = some 'é') ∧
      parseAddress "1é" = .error (.invalidDigit 1 'é') ∧
        String.Pos.Raw.get? "1é" ⟨1⟩ = some 'é' := by
  have hbytes : parseBytes "\u2003 é" = .error (.invalidDigit 4 'é') := by decide +kernel
  have hshifted : parseAddress "\u20030x1é" = .error (.invalidDigit 1 'é') := by decide +kernel
  have hplain : parseAddress "1é" = .error (.invalidDigit 1 'é') := by decide +kernel
  obtain ⟨hread, -, -⟩ := fault_positions "\u2003 é" 4 'é'
  obtain ⟨-, hlater, -⟩ := fault_positions "\u20030x1é" 1 'é'
  obtain ⟨-, -, hthere⟩ := fault_positions "1é" 1 'é'
  obtain ⟨_, _, _, _, -, -, -, hfound⟩ := hlater hshifted
  have hblank : ∀ c ∈ "1é".toList.head?, isBlank c = false := by
    intro c hc
    obtain rfl : '1' = c := Option.some.inj hc
    decide
  exact ⟨⟨hbytes, hread hbytes⟩, ⟨hshifted, _, hfound⟩, hplain, hthere hblank (by decide) hplain⟩

/-- **A position that misleads.** The letter is the last of four characters, and its position is
given as that of the first, which is a blank. -/
theorem fault_position_misleads :
    parseAddress " 0xg" = .error (.invalidDigit 0 'g') ∧
      String.Pos.Raw.get? " 0xg" ⟨0⟩ ≠ some 'g' ∧
      String.Pos.Raw.get? " 0xg" ⟨3⟩ = some 'g' := by
  refine ⟨?_, ?_, ?_⟩ <;> decide +kernel

end Nmos6502
