import Mathlib.Data.List.Forall2
import Mathlib.Data.String.Basic
import Mathlib.Tactic.Common
import Nmos6502.Proofs.HexReading

/-!
# Which texts spell bytes

A text spells bytes if it consists of hexadecimal digits that pair up, blanks apart. Where the
blanks stand does not matter, nor the case of the digits. All other texts have a fault. A character
that is neither blank nor a digit comes first, even if the digits do not pair up either.

The grammar knows digits by how they are written, since every digit has a number below sixteen that
it is written for. How they are read is a matter of three ranges of characters. That the two agree
is the one fact about single characters here, and all else is about their order.

## Main definitions

* `IsDigit` — a character is the digit of a number
* `withoutBlanks` — the characters of a text that count

## Main results

* `hexDigit?_eq_some_iff` — the digits that are read are those that are written
* `strayCharacter?_eq_some_iff` — which character is found astray, and where
* `parseBytes_grammar` — for every text, what is read from it
-/

namespace Nmos6502

open Text

/-! ## Single characters -/

/-- A character is the digit of a number, in lower or in upper case. -/
def IsDigit (c : Char) (value : Nat) : Prop :=
  value < 16 ∧ ∃ letters, c = digitChar letters value

theorem char_le_iff {c d : Char} : c ≤ d ↔ c.toNat ≤ d.toNat :=
  Char.le_def.trans UInt32.le_iff_toNat_le

/-- All digits stand in the first half of ASCII. -/
theorem toNat_lt_of_hexDigit? {c : Char} {value : Nat} (h : hexDigit? c = some value) :
    c.toNat < 0x67 := by
  unfold hexDigit? at h
  split at h
  next hrange => exact Nat.lt_of_le_of_lt (char_le_iff.mp hrange.2) (by decide)
  next =>
    split at h
    next hrange => exact Nat.lt_of_le_of_lt (char_le_iff.mp hrange.2) (by decide)
    next =>
      split at h
      next hrange => exact Nat.lt_of_le_of_lt (char_le_iff.mp hrange.2) (by decide)
      next => cases h

/-- **The digits that are read are those that are written.** -/
theorem hexDigit?_eq_some_iff {c : Char} {value : Nat} :
    hexDigit? c = some value ↔ IsDigit c value := by
  constructor
  · intro h
    have hall : ∀ code < 0x67, (hexDigit? (Char.ofNat code)).all (fun value => value < 16 ∧
        (Char.ofNat code = digitChar .lower value ∨
          Char.ofNat code = digitChar .upper value)) = true := by
      decide +kernel
    have hc := hall c.toNat (toNat_lt_of_hexDigit? h)
    rw [Char.ofNat_toNat, h] at hc
    obtain ⟨hlt, hlower | hupper⟩ := of_decide_eq_true hc
    · exact ⟨hlt, .lower, hlower⟩
    · exact ⟨hlt, .upper, hupper⟩
  · rintro ⟨hlt, letters, rfl⟩
    exact hexDigit?_digitChar letters hlt

instance (c : Char) (value : Nat) : Decidable (IsDigit c value) :=
  decidable_of_iff _ hexDigit?_eq_some_iff

theorem isSome_hexDigit?_iff {c : Char} : (hexDigit? c).isSome ↔ ∃ value, IsDigit c value := by
  rw [Option.isSome_iff_exists]
  exact exists_congr fun value => hexDigit?_eq_some_iff

/-! ## The characters of a text -/

/-- The characters of a text that count. -/
def withoutBlanks (text : List Char) : List Char := text.filter fun c => !isBlank c

theorem mem_withoutBlanks {c : Char} {text : List Char} :
    c ∈ withoutBlanks text ↔ c ∈ text ∧ isBlank c = false := by
  rw [withoutBlanks, List.mem_filter, Bool.not_eq_true']

theorem withoutBlanks_cons_of_blank {c : Char} (h : isBlank c = true) (text : List Char) :
    withoutBlanks (c :: text) = withoutBlanks text :=
  List.filter_cons_of_neg (by rw [h]; decide)

theorem withoutBlanks_cons {c : Char} (h : isBlank c = false) (text : List Char) :
    withoutBlanks (c :: text) = c :: withoutBlanks text :=
  List.filter_cons_of_pos (by rw [h]; decide)

/-- Every character is blank or a digit, said of those that count. -/
theorem forall_clean_iff {text : List Char} :
    (∀ c ∈ text, isBlank c ∨ (hexDigit? c).isSome) ↔
      ∀ c ∈ withoutBlanks text, ∃ value, IsDigit c value := by
  constructor
  · intro h c hc
    obtain ⟨hmem, hblank⟩ := mem_withoutBlanks.mp hc
    rcases h c hmem with hc | hc
    · exact absurd (hblank.symm.trans hc) Bool.false_ne_true
    · exact isSome_hexDigit?_iff.mp hc
  · intro h c hc
    cases hblank : isBlank c with
    | true => exact .inl rfl
    | false => exact .inr (isSome_hexDigit?_iff.mpr (h c (mem_withoutBlanks.mpr ⟨hc, hblank⟩)))

/-- The digits of a text are given by the characters that count, one for one. -/
theorem forall₂_isDigit_iff {text : List Char} {values : List Nat} :
    List.Forall₂ IsDigit (withoutBlanks text) values ↔
      (∀ c ∈ withoutBlanks text, ∃ value, IsDigit c value) ∧
        text.filterMap hexDigit? = values := by
  induction text generalizing values with
  | nil => simp [withoutBlanks, eq_comm]
  | cons c text ih =>
    cases hblank : isBlank c with
    | true =>
      rw [withoutBlanks_cons_of_blank hblank,
        List.filterMap_cons_none (hexDigit?_of_isBlank hblank)]
      exact ih
    | false =>
      rw [withoutBlanks_cons hblank, List.forall_mem_cons]
      constructor
      · intro h
        obtain ⟨value, later, hc, hlater, rfl⟩ := List.forall₂_cons_left_iff.mp h
        obtain ⟨hclean, hvalues⟩ := ih.mp hlater
        rw [List.filterMap_cons_some (hexDigit?_eq_some_iff.mpr hc), hvalues]
        exact ⟨⟨⟨value, hc⟩, hclean⟩, rfl⟩
      · rintro ⟨⟨⟨value, hc⟩, hclean⟩, rfl⟩
        rw [List.filterMap_cons_some (hexDigit?_eq_some_iff.mpr hc)]
        exact .cons hc (ih.mpr ⟨hclean, rfl⟩)

/-- A text spells bytes if the characters that count are their digits. -/
theorem spells_iff {text : List Char} {bytes : List UInt8} :
    Spells text bytes ↔ List.Forall₂ IsDigit (withoutBlanks text) (bytes.flatMap digitPair) := by
  rw [forall₂_isDigit_iff, ← forall_clean_iff]
  exact ⟨fun h => ⟨h.clean, h.digits⟩, fun h => ⟨h.1, h.2⟩⟩

/-- If nothing is astray, there are as many digits as characters that count. -/
theorem length_filterMap_hexDigit? {text : List Char}
    (h : ∀ c ∈ withoutBlanks text, ∃ value, IsDigit c value) :
    (text.filterMap hexDigit?).length = (withoutBlanks text).length :=
  (forall₂_isDigit_iff.mpr ⟨h, rfl⟩).length_eq.symm

/-! ## The first character astray -/

/-- **The first character astray.** Before it there are only blanks and digits, and its position
counts their bytes. -/
theorem strayCharacter?_eq_some_iff {text : List Char} {start position : Nat} {found : Char} :
    strayCharacter? start text = some (position, found) ↔
      ∃ before after, text = before ++ found :: after ∧
        position = start + String.utf8Len before ∧
        (∀ c ∈ before, isBlank c ∨ (hexDigit? c).isSome) ∧
        ¬ (isBlank found ∨ (hexDigit? found).isSome) := by
  induction text generalizing start with
  | nil =>
    refine ⟨fun h => (nomatch h), ?_⟩
    rintro ⟨before, after, htext, -⟩
    exact absurd htext.symm (List.append_ne_nil_of_right_ne_nil _ (List.cons_ne_nil _ _))
  | cons c text ih =>
    rw [strayCharacter?]
    by_cases hc : isBlank c ∨ (hexDigit? c).isSome
    · rw [if_pos hc, ih]
      constructor
      · rintro ⟨before, after, rfl, rfl, hclean, hfound⟩
        refine ⟨c :: before, after, rfl, ?_, List.forall_mem_cons.mpr ⟨hc, hclean⟩, hfound⟩
        rw [String.utf8Len_cons]
        omega
      · rintro ⟨before, after, htext, rfl, hclean, hfound⟩
        cases before with
        | nil =>
          obtain ⟨rfl, -⟩ := List.cons.inj htext
          exact absurd hc hfound
        | cons d before =>
          obtain ⟨rfl, hlater⟩ := List.cons.inj htext
          refine ⟨before, after, hlater, ?_, (List.forall_mem_cons.mp hclean).2, hfound⟩
          rw [String.utf8Len_cons]
          omega
    · rw [if_neg hc]
      constructor
      · intro h
        obtain ⟨rfl, rfl⟩ := Prod.mk.inj (Option.some.inj h)
        exact ⟨[], text, rfl, rfl, List.forall_mem_nil _, hc⟩
      · rintro ⟨before, after, htext, rfl, hclean, -⟩
        cases before with
        | nil =>
          obtain ⟨rfl, -⟩ := List.cons.inj htext
          rfl
        | cons d before =>
          obtain ⟨rfl, -⟩ := List.cons.inj htext
          exact absurd (List.forall_mem_cons.mp hclean).1 hc

theorem strayCharacter?_eq_none_iff {text : List Char} {start : Nat} :
    strayCharacter? start text = none ↔ ∀ c ∈ text, isBlank c ∨ (hexDigit? c).isSome := by
  refine ⟨fun h => ?_, fun h => strayCharacter?_eq_none h start⟩
  induction text generalizing start with
  | nil => exact nofun
  | cons c text ih =>
    rw [strayCharacter?] at h
    split at h
    next hc => exact List.forall_mem_cons.mpr ⟨hc, ih h⟩
    next => cases h

/-! ## What is read from a text -/

/-- Digits that pair up are those of the bytes that they pair up to. -/
theorem flatMap_pairDigits : ∀ {digits : List Nat}, (∀ digit ∈ digits, digit < 16) →
    digits.length % 2 = 0 → (pairDigits digits).flatMap digitPair = digits
  | [], _, _ => rfl
  | [_], _, heven => absurd heven Nat.one_ne_zero
  | high :: low :: digits, hlt, heven => by
    obtain ⟨hhigh, hlow, hdigits⟩ : high < 16 ∧ low < 16 ∧ ∀ digit ∈ digits, digit < 16 := by
      simpa only [List.forall_mem_cons] using hlt
    have hlater := flatMap_pairDigits hdigits ((Nat.add_mod_right digits.length 2).symm.trans heven)
    have hbyte : (UInt8.ofNat (16 * high + low)).toNat = 16 * high + low := by
      rw [UInt8.toNat_ofNat']
      omega
    have hpair : digitPair (UInt8.ofNat (16 * high + low)) = [high, low] := by
      rw [digitPair, hbyte, show (16 * high + low) / 16 = high by omega,
        show (16 * high + low) % 16 = low by omega]
    rw [pairDigits, List.flatMap_cons, hpair, hlater, List.cons_append, List.singleton_append]

/-- A text whose digits pair up spells the bytes that they pair up to. -/
theorem spells_pairDigits {text : List Char}
    (hclean : ∀ c ∈ text, isBlank c ∨ (hexDigit? c).isSome)
    (heven : (text.filterMap hexDigit?).length % 2 = 0) :
    Spells text (pairDigits (text.filterMap hexDigit?)) where
  clean := hclean
  digits := by
    refine (flatMap_pairDigits (fun digit hd => ?_) heven).symm
    obtain ⟨c, -, hc⟩ := List.mem_filterMap.mp hd
    exact (hexDigit?_eq_some_iff.mp hc).1

section Reading

variable {text : String}

theorem parseBytes_of_stray {position : Nat} {found : Char}
    (h : strayCharacter? 0 text.toList = some (position, found)) :
    parseBytes text = .error (.invalidDigit position found) := by
  simp only [parseBytes, h]

theorem parseBytes_of_odd (hclean : ∀ c ∈ withoutBlanks text.toList, ∃ value, IsDigit c value)
    (hodd : (withoutBlanks text.toList).length % 2 = 1) :
    parseBytes text = .error (.oddLength (withoutBlanks text.toList).length) := by
  have hstray : strayCharacter? 0 text.toList = none :=
    strayCharacter?_eq_none_iff.mpr (forall_clean_iff.mpr hclean)
  simp only [parseBytes, hstray, length_filterMap_hexDigit? hclean, if_pos hodd]

/-- Bytes are spelled, or a character is astray, or there is a digit too many. -/
theorem spells_or_stray_or_odd (text : List Char) :
    (∃ bytes, Spells text bytes) ∨
      (∃ position found, strayCharacter? 0 text = some (position, found)) ∨
      (∀ c ∈ withoutBlanks text, ∃ value, IsDigit c value) ∧
        (withoutBlanks text).length % 2 = 1 := by
  cases hstray : strayCharacter? 0 text with
  | some stray => exact .inr (.inl ⟨stray.1, stray.2, rfl⟩)
  | none =>
    have hclean := strayCharacter?_eq_none_iff.mp hstray
    have hdigits := forall_clean_iff.mp hclean
    rcases Nat.mod_two_eq_zero_or_one (withoutBlanks text).length with heven | hodd
    · rw [← length_filterMap_hexDigit? hdigits] at heven
      exact .inl ⟨_, spells_pairDigits hclean heven⟩
    · exact .inr (.inr ⟨hdigits, hodd⟩)

theorem parseBytes_eq_ok_iff {bytes : List UInt8} :
    parseBytes text = .ok bytes ↔ Spells text.toList bytes := by
  refine ⟨fun h => ?_, parseBytes_of_spells⟩
  rcases spells_or_stray_or_odd text.toList with ⟨found, hspells⟩ | ⟨_, _, hstray⟩ | ⟨hclean, hodd⟩
  · rw [parseBytes_of_spells hspells] at h
    exact Except.ok.inj h ▸ hspells
  · rw [parseBytes_of_stray hstray] at h
    cases h
  · rw [parseBytes_of_odd hclean hodd] at h
    cases h

theorem parseBytes_eq_error_iff {fault : HexFault} :
    parseBytes text = .error fault ↔
      (∃ position found, strayCharacter? 0 text.toList = some (position, found) ∧
        fault = .invalidDigit position found) ∨
      (∀ c ∈ withoutBlanks text.toList, ∃ value, IsDigit c value) ∧
        (withoutBlanks text.toList).length % 2 = 1 ∧
        fault = .oddLength (withoutBlanks text.toList).length := by
  constructor
  · intro h
    rcases spells_or_stray_or_odd text.toList with ⟨_, hspells⟩ | ⟨_, _, hstray⟩ | ⟨hclean, hodd⟩
    · rw [parseBytes_of_spells hspells] at h
      cases h
    · rw [parseBytes_of_stray hstray] at h
      exact .inl ⟨_, _, hstray, (Except.error.inj h).symm⟩
    · rw [parseBytes_of_odd hclean hodd] at h
      exact .inr ⟨hclean, hodd, (Except.error.inj h).symm⟩
  · rintro (⟨_, _, hstray, rfl⟩ | ⟨hclean, hodd, rfl⟩)
    · exact parseBytes_of_stray hstray
    · exact parseBytes_of_odd hclean hodd

/-- The character that is reported is the first that is neither blank nor a digit. -/
theorem parseBytes_eq_invalidDigit_iff {position : Nat} {found : Char} :
    parseBytes text = .error (.invalidDigit position found) ↔
      ∃ before after, text.toList = before ++ found :: after ∧
        position = String.utf8Len before ∧
        (∀ c ∈ withoutBlanks before, ∃ value, IsDigit c value) ∧
        isBlank found = false ∧ ¬ ∃ value, IsDigit found value := by
  have hstray : parseBytes text = .error (.invalidDigit position found) ↔
      strayCharacter? 0 text.toList = some (position, found) := by
    rw [parseBytes_eq_error_iff]
    simp [and_comm]
  rw [hstray, strayCharacter?_eq_some_iff]
  simp only [Nat.zero_add, forall_clean_iff]
  simp only [not_or, Bool.not_eq_true, isSome_hexDigit?_iff]

end Reading

/-- **The grammar of bytes.** What is read from a text depends on the characters that count. If they
are digits, two for each byte, these bytes are read. If one of them is no digit, the first such
character is reported with the number of bytes before it in the text. If they are digits but do not
pair up, their number is reported, and nothing else can happen. So written bytes are read back
whatever blanks are put between their digits or taken away. -/
theorem parseBytes_grammar (text : String) :
    (∀ bytes, parseBytes text = .ok bytes ↔
      (withoutBlanks text.toList).length = 2 * bytes.length ∧
        List.Forall₂ IsDigit (withoutBlanks text.toList) (bytes.flatMap digitPair)) ∧
    (∀ position found, parseBytes text = .error (.invalidDigit position found) ↔
      ∃ before after, text.toList = before ++ found :: after ∧
        position = String.utf8Len before ∧
        (∀ c ∈ withoutBlanks before, ∃ value, IsDigit c value) ∧
        isBlank found = false ∧ ¬ ∃ value, IsDigit found value) ∧
    (∀ count, parseBytes text = .error (.oddLength count) ↔
      (∀ c ∈ withoutBlanks text.toList, ∃ value, IsDigit c value) ∧
        (withoutBlanks text.toList).length = count ∧ count % 2 = 1) ∧
    (∀ whole, parseBytes text ≠ .error (.addressOverflow whole)) ∧
    ∀ letters bytes, withoutBlanks text.toList = withoutBlanks (hexBytes letters bytes).toList →
      parseBytes text = .ok bytes := by
  refine ⟨fun bytes => ?_, fun position found => parseBytes_eq_invalidDigit_iff, fun count => ?_,
    fun whole h => ?_, fun letters bytes hsame => ?_⟩
  · rw [parseBytes_eq_ok_iff, spells_iff]
    refine ⟨fun h => ⟨?_, h⟩, And.right⟩
    rw [h.length_eq, length_flatMap_digitPair]
  · rw [parseBytes_eq_error_iff]
    simp only [HexFault.oddLength.injEq, reduceCtorEq, and_false, exists_false, false_or]
    constructor
    · rintro ⟨hclean, hodd, rfl⟩
      exact ⟨hclean, rfl, hodd⟩
    · rintro ⟨hclean, rfl, hodd⟩
      exact ⟨hclean, hodd, rfl⟩
  · rcases parseBytes_eq_error_iff.mp h with ⟨_, _, -, hfault⟩ | ⟨-, -, hfault⟩ <;> cases hfault
  · refine parseBytes_eq_ok_iff.mpr (spells_iff.mpr ?_)
    rw [hsame]
    exact spells_iff.mp (spells_hexBytes letters bytes)

/-- Blanks inside of both bytes, one of them a no-break space, and a letter that takes two bytes
after such a space. -/
theorem parseBytes_grammar_spaced :
    withoutBlanks "a 9\u00a00\n5".toList = withoutBlanks (hexBytes .lower [0xA9, 0x05]).toList ∧
      parseBytes "a 9\u00a00\n5" = .ok [0xA9, 0x05] ∧
      parseBytes "9\u00a0é9g" = .error (.invalidDigit 3 'é') := by
  have hsame : withoutBlanks "a 9\u00a00\n5".toList =
      withoutBlanks (hexBytes .lower [0xA9, 0x05]).toList := by decide +kernel
  have hletter : ¬ ∃ value, IsDigit 'é' value := by
    rw [← isSome_hexDigit?_iff]
    decide
  have hdigit : ∀ c ∈ withoutBlanks ['9', '\u00a0'], ∃ value, IsDigit c value :=
    forall_clean_iff.mp (List.forall_mem_cons.mpr
      ⟨by decide, List.forall_mem_singleton.mpr (by decide)⟩)
  obtain ⟨-, hfound, -, -, -⟩ := parseBytes_grammar "9\u00a0é9g"
  obtain ⟨-, -, -, -, hwritten⟩ := parseBytes_grammar "a 9\u00a00\n5"
  refine ⟨hsame, hwritten .lower _ hsame, (hfound 3 'é').mpr ?_⟩
  exact ⟨['9', '\u00a0'], ['9', 'g'], rfl, rfl, hdigit, by decide, hletter⟩

end Nmos6502
