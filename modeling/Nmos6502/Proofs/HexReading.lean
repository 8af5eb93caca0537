import Mathlib.Algebra.Ring.Nat
import Mathlib.Tactic.Common
import Nmos6502.HexText
import Nmos6502.Proofs.OperandForm
import Nmos6502.Text.Numeral

/-!
# Reading back what was written

Bytes and addresses are written with a fixed number of hexadecimal digits, in either case, and read
by functions that know nothing of widths. Reading gives back what was written all the same.

For bytes this is a matter of two digits each. Blanks do not count, so it does not matter how the
pairs are set apart or filled up to columns. For an address it is a matter of the value so far: what
stands before some digits is multiplied by a power of sixteen as they are read, and the value never
exceeds the word that was written, so it stays in the address space.

## Main definitions

* `Spells` — a text that consists of the digits of some bytes and of blanks

## Main results

* `parseBytes_of_spells` — the bytes that a text spells are read from it
* `spells_hexBytes` — bytes that are written one after the other are spelled
* `parseAddress_hexWord` — a word that is written with its mark is read as an address
-/

namespace Nmos6502

open Text

/-! ## Digits -/

theorem hexDigit?_digitChar (letters : LetterCase) {n : Nat} (h : n < 16) :
    hexDigit? (digitChar letters n) = some n := by
  have hall : ∀ n < 16, hexDigit? (digitChar letters n) = some n := by
    cases letters <;> decide
  exact hall n h

/-- In a text a digit takes one byte, and it is not blank. -/
theorem digitChar_spec {letters : LetterCase} {n : Nat} (h : n < 16) :
    (digitChar letters n).utf8Size = 1 ∧ isBlank (digitChar letters n) = false := by
  have hall : ∀ n < 16, (digitChar letters n).utf8Size = 1 ∧
      isBlank (digitChar letters n) = false := by
    cases letters <;> decide
  exact hall n h

theorem isBlank_space : isBlank ' ' = true := by decide

/-- A blank is no digit. -/
theorem hexDigit?_of_isBlank {c : Char} (h : isBlank c = true) : hexDigit? c = none := by
  have hrange : c.toNat ≤ 0x20 ∨ 0x85 ≤ c.toNat := by
    simp only [isBlank, inRanges, blankRanges, List.any_cons, List.any_nil, Bool.or_eq_true,
      Bool.and_eq_true, decide_eq_true_eq, Bool.false_eq_true, or_false] at h
    omega
  have hle (a b : Char) : a ≤ b ↔ a.toNat ≤ b.toNat := by
    rw [Char.le_def, UInt32.le_iff_toNat_le]
    rfl
  have hnone (low high : Char) (hlow : 0x20 < low.toNat) (hhigh : high.toNat < 0x85) :
      ¬ (low ≤ c ∧ c ≤ high) := by
    rw [hle, hle]
    omega
  rw [hexDigit?, if_neg (hnone '0' '9' (by decide) (by decide)),
    if_neg (hnone 'a' 'f' (by decide) (by decide)), if_neg (hnone 'A' 'F' (by decide) (by decide))]

/-! ## Bytes -/

/-- The two digits of a byte, the higher one first. -/
def digitPair (byte : UInt8) : List Nat := [byte.toNat / 16, byte.toNat % 16]

/-- A text consists of blanks and of the digits of some bytes, in order. -/
structure Spells (text : List Char) (bytes : List UInt8) : Prop where
  /-- Every character is a blank or a digit. -/
  clean : ∀ c ∈ text, isBlank c ∨ (hexDigit? c).isSome
  /-- The digits are those of the bytes. -/
  digits : text.filterMap hexDigit? = bytes.flatMap digitPair

namespace Spells

variable {text more : List Char} {bytes others : List UInt8}

theorem nil : Spells [] [] := ⟨nofun, rfl⟩

theorem append (h : Spells text bytes) (h' : Spells more others) :
    Spells (text ++ more) (bytes ++ others) where
  clean c hc := (List.mem_append.mp hc).elim (h.clean c) (h'.clean c)
  digits := by rw [List.filterMap_append, List.flatMap_append, h.digits, h'.digits]

/-- Blanks spell nothing. -/
theorem of_blank (h : ∀ c ∈ text, isBlank c = true) : Spells text [] where
  clean c hc := .inl (h c hc)
  digits := List.filterMap_eq_nil_iff.mpr fun c hc => hexDigit?_of_isBlank (h c hc)

/-- A byte is spelled by its two digits. -/
theorem fixedDigits (letters : LetterCase) (byte : UInt8) :
    Spells (fixedDigits 16 letters 2 byte.toNat) [byte] := by
  have hpair : Text.fixedDigits 16 letters 2 byte.toNat =
      [digitChar letters (byte.toNat / 16 % 16), digitChar letters (byte.toNat % 16)] := rfl
  have hhigh := hexDigit?_digitChar letters (Nat.mod_lt (byte.toNat / 16) (Nat.zero_lt_succ 15))
  have hlow := hexDigit?_digitChar letters (Nat.mod_lt byte.toNat (Nat.zero_lt_succ 15))
  rw [hpair]
  constructor
  · intro c hc
    simp only [List.mem_cons, List.not_mem_nil, or_false] at hc
    rcases hc with rfl | rfl
    · exact .inr (hhigh ▸ rfl)
    · exact .inr (hlow ▸ rfl)
  · have hbyte : byte.toNat / 16 % 16 = byte.toNat / 16 :=
      Nat.mod_eq_of_lt (Nat.div_lt_of_lt_mul byte.toNat_lt)
    rw [List.filterMap_cons_some hhigh, List.filterMap_cons_some hlow, hbyte]
    rfl

/-- Texts that are joined by blanks spell their bytes one after the other. -/
theorem intercalate {separator : List Char} (hs : ∀ c ∈ separator, isBlank c = true)
    {α : Type} {text : α → List Char} {bytes : α → List UInt8} :
    ∀ parts : List α, (∀ part ∈ parts, Spells (text part) (bytes part)) →
      Spells (separator.intercalate (parts.map text)) (parts.flatMap bytes)
  | [], _ => nil
  | [part], h => by simpa using h part (List.mem_singleton_self part)
  | part :: next :: parts, h => by
    have hfirst := h part (List.mem_cons_self ..)
    have hlater := intercalate hs (next :: parts)
      fun part hp => h part (List.mem_cons_of_mem _ hp)
    have hall := hfirst.append ((of_blank hs).append hlater)
    rw [List.nil_append, ← List.append_assoc] at hall
    rwa [List.map_cons, List.map_cons, List.intercalate_cons_cons, List.flatMap_cons]

end Spells

theorem spells_hexBytes (letters : LetterCase) (bytes : List UInt8) :
    Spells (hexBytes letters bytes).toList bytes := by
  have hspace : ∀ c ∈ " ".toList, isBlank c = true := List.forall_mem_singleton.mpr isBlank_space
  have hall := Spells.intercalate hspace bytes fun byte _ => Spells.fixedDigits letters byte
  rw [List.flatMap_singleton'] at hall
  rwa [toList_hexBytes]

theorem Spells.padRight {text : String} {bytes : List UInt8} (h : Spells text.toList bytes)
    (width : Nat) : Spells (padRight width text).toList bytes := by
  have hspaces : ∀ c ∈ List.replicate (width - text.length) ' ', isBlank c = true := by
    intro c hc
    rw [(List.mem_replicate.mp hc).2, isBlank_space]
  have hall := h.append (of_blank hspaces)
  rw [List.append_nil] at hall
  rwa [Text.padRight, String.toList_append, String.toList_ofList]

/-- The digits of bytes pair up into the bytes. -/
theorem pairDigits_flatMap (bytes : List UInt8) : pairDigits (bytes.flatMap digitPair) = bytes := by
  induction bytes with
  | nil => rfl
  | cons byte bytes ih =>
    rw [List.flatMap_cons, digitPair, List.cons_append, List.singleton_append, pairDigits, ih,
      Nat.div_add_mod, UInt8.ofNat_toNat]

theorem length_flatMap_digitPair (bytes : List UInt8) :
    (bytes.flatMap digitPair).length = 2 * bytes.length := by
  induction bytes with
  | nil => rfl
  | cons byte bytes ih =>
    rw [List.flatMap_cons, List.length_append, ih, List.length_cons]
    simp only [digitPair, List.length_cons, List.length_nil]
    omega

theorem strayCharacter?_eq_none {text : List Char}
    (h : ∀ c ∈ text, isBlank c ∨ (hexDigit? c).isSome) (position : Nat) :
    strayCharacter? position text = none := by
  induction text generalizing position with
  | nil => rfl
  | cons c text ih =>
    rw [strayCharacter?, if_pos (h c (List.mem_cons_self ..))]
    exact ih (fun c hc => h c (List.mem_cons_of_mem _ hc)) _

/-- **Reading bytes.** The bytes that a text spells are read from it. -/
theorem parseBytes_of_spells {text : String} {bytes : List UInt8} (h : Spells text.toList bytes) :
    parseBytes text = .ok bytes := by
  have heven : ¬ (bytes.flatMap digitPair).length % 2 = 1 := by
    rw [length_flatMap_digitPair, Nat.mul_mod_right]
    decide
  simp only [parseBytes, strayCharacter?_eq_none h.clean, h.digits, if_neg heven,
    pairDigits_flatMap]

/-! ## Addresses -/

/-- Reading the digits of a number multiplies the value so far. -/
theorem parseDigits_fixedDigits (letters : LetterCase) (whole : String) :
    ∀ {width position value n : Nat} {rest : List Char}, n < 16 ^ width →
      value * 16 ^ width + n ≤ 0xFFFF →
      parseDigits whole position value (fixedDigits 16 letters width n ++ rest) =
        parseDigits whole (position + width) (value * 16 ^ width + n) rest
  | 0, position, value, n, rest, hn, _ => by
    obtain rfl : n = 0 := by simpa using hn
    simp [fixedDigits]
  | width + 1, position, value, n, rest, hn, hle => by
    rw [Nat.pow_succ] at hn hle ⊢
    have hdigit : n % 16 < 16 := Nat.mod_lt n (Nat.zero_lt_succ 15)
    have hvalue : 16 * (value * 16 ^ width + n / 16) + n % 16 = value * (16 ^ width * 16) + n := by
      rw [Nat.mul_add, ← Nat.mul_assoc value, Nat.mul_comm 16 (value * _)]
      omega
    rw [fixedDigits, List.append_assoc, parseDigits_fixedDigits letters whole (by omega) (by omega),
      List.singleton_append, parseDigits, hexDigit?_digitChar letters hdigit]
    simp only [hvalue, (digitChar_spec hdigit).1, if_neg (Nat.not_lt.mpr hle), Nat.add_assoc]

/-- A text without blanks has none at its ends. -/
theorem trimBlanks_eq_self {text : List Char} (h : ∀ c ∈ text, isBlank c = false) :
    trimBlanks text = text := by
  have hdrop : ∀ {text : List Char}, (∀ c ∈ text, isBlank c = false) →
      text.dropWhile isBlank = text := by
    intro text h
    cases text with
    | nil => rfl
    | cons c text => rw [List.dropWhile_cons_of_neg (by simp [h c (List.mem_cons_self ..)])]
  rw [trimBlanks, hdrop h, hdrop fun c hc => h c (List.mem_reverse.mp hc), List.reverse_reverse]

/-- **Reading an address.** A word that is written with its mark is read as it was. -/
theorem parseAddress_hexWord (letters : LetterCase) (word : UInt16) :
    parseAddress ("$" ++ hexWord letters word) = .ok word := by
  have hlt : word.toNat < 16 ^ 4 := word.toNat_lt
  have htext : ("$" ++ hexWord letters word).toList =
      '$' :: fixedDigits 16 letters 4 word.toNat := by
    rw [String.toList_append, toList_hexWord]
    rfl
  have hblank : ∀ c ∈ '$' :: fixedDigits 16 letters 4 word.toNat, isBlank c = false := by
    intro c hc
    rcases List.mem_cons.mp hc with rfl | hc
    · decide
    · obtain ⟨digit, hdigit, rfl⟩ := mem_fixedDigits (by decide) hc
      exact (digitChar_spec hdigit).2
  have hsome : ¬ (fixedDigits 16 letters 4 word.toNat).isEmpty := by
    rw [List.isEmpty_iff_length_eq_zero, length_fixedDigits]
    decide
  have hread (whole : String) : parseDigits whole 0 0 (fixedDigits 16 letters 4 word.toNat ++ []) =
      parseDigits whole (0 + 4) (0 * 16 ^ 4 + word.toNat) [] :=
    parseDigits_fixedDigits letters whole hlt (by omega)
  simp only [List.append_nil, Nat.zero_mul, Nat.zero_add] at hread
  simp only [parseAddress, htext, trimBlanks_eq_self hblank, dropMark, if_neg hsome, hread,
    parseDigits, UInt16.ofNat_toNat]

end Nmos6502
