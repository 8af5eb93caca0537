import Mathlib.Data.List.DropRight
import Mathlib.Data.Nat.Digits.Defs
import Mathlib.Tactic.Common
import Nmos6502.Proofs.HexGrammar

/-!
# Which texts spell an address

The blanks at the ends of a text do not count. What is left may begin with a mark, and after it
there are digits, as many as one likes, for a number of the address space. So leading zeros do no
harm, and a text can be read to its end only if no number on the way leaves the address space, for
numbers do not become smaller when digits are added.

If a text is not read to its end, one character has decided that, and it is the first that could. A
character decides if it is no digit, or if with it the number leaves the address space.

The number on the way is never larger than sixteen times the last address and a digit more. Reading
with 32 bits for it, where products and sums that need more are noticed, is therefore the same.

## Main definitions

* `Trimmed` — a text taken apart into the blanks at its ends and what is between
* `Marked` — a text taken apart into its mark and what follows
* `Denotes` — the number that digits stand for
* `Decides` — how reading comes to its end
* `parseAddress32?` — reading with a number of 32 bits

## Main results

* `parseDigits_eq_iff` — every outcome of reading digits
* `parseDigits32?_eq` — 32 bits are enough
* `parseAddress_grammar` — for every text, what address is read from it
-/

namespace Nmos6502

open Text

/-! ## The ends of a text -/

/-- `whole` is a text without the blanks at its ends, which are `lead` and `tail`. -/
structure Trimmed (text lead whole tail : List Char) : Prop where
  /-- These are the parts of the text. -/
  eq : text = lead ++ whole ++ tail
  /-- It begins with blanks. -/
  lead_blank : ∀ c ∈ lead, isBlank c = true
  /-- It ends with blanks. -/
  tail_blank : ∀ c ∈ tail, isBlank c = true
  /-- What is left does not begin with a blank. -/
  head : ∀ c ∈ whole.head?, isBlank c = false
  /-- What is left does not end with a blank. -/
  last : ∀ c ∈ whole.getLast?, isBlank c = false

theorem trimmed_trimBlanks (text : List Char) :
    Trimmed text (text.takeWhile isBlank) (trimBlanks text)
      ((text.dropWhile isBlank).rtakeWhile isBlank) := by
  have htrim : trimBlanks text = (text.dropWhile isBlank).rdropWhile isBlank := rfl
  refine ⟨?_, fun c => List.mem_takeWhile_imp, fun c => List.mem_rtakeWhile_imp, ?_, ?_⟩
  · rw [htrim, List.append_assoc, List.rdropWhile_append_rtakeWhile,
      List.takeWhile_append_dropWhile]
  · intro c hc
    obtain ⟨rest, hrest⟩ := List.head?_eq_some_iff.mp hc
    obtain ⟨later, hlater⟩ : trimBlanks text <+: text.dropWhile isBlank :=
      List.rdropWhile_prefix isBlank _
    have hhead := List.head?_dropWhile_not isBlank text
    rw [← hlater, hrest] at hhead
    exact hhead
  · intro c hc
    obtain ⟨hne, rfl⟩ := List.mem_getLast?_eq_getLast hc
    exact Bool.eq_false_iff.mpr (List.rdropWhile_last_not isBlank _ hne)

/-! ## The mark -/

/-- The marks that may stand before an address. -/
def addressMarks : List (List Char) := [['0', 'x'], ['0', 'X'], ['$']]

/-- `whole` begins with `mark`, if any, and `digits` follow. -/
structure Marked (whole mark digits : List Char) : Prop where
  /-- These are the parts of the text. -/
  eq : whole = mark ++ digits
  /-- There is one mark at most. -/
  mem : mark = [] ∨ mark ∈ addressMarks
  /-- There is none only if the text begins with none. -/
  unmarked : mark = [] → ∀ other ∈ addressMarks, ¬ other <+: whole

theorem exists_marked (whole : List Char) : ∃ mark, Marked whole mark (dropMark whole) := by
  unfold dropMark
  split
  next digits => exact ⟨['0', 'x'], rfl, .inr (by decide), nofun⟩
  next digits => exact ⟨['0', 'X'], rfl, .inr (by decide), nofun⟩
  next digits => exact ⟨['$'], rfl, .inr (by decide), nofun⟩
  next hx hX hdollar =>
    refine ⟨[], rfl, .inl rfl, ?_⟩
    rintro - other hother ⟨digits, rfl⟩
    simp only [addressMarks, List.mem_cons, List.not_mem_nil, or_false] at hother
    rcases hother with rfl | rfl | rfl
    · exact hx digits rfl
    · exact hX digits rfl
    · exact hdollar digits rfl

/-- There is one way to take a text apart into a mark and what follows. -/
theorem Marked.dropMark_eq {whole mark digits : List Char} (h : Marked whole mark digits) :
    dropMark whole = digits := by
  obtain ⟨rfl, hmem, hunmarked⟩ := h
  rcases hmem with rfl | hmem
  · have hnone := hunmarked rfl
    unfold dropMark
    split
    next later heq => exact absurd ⟨later, heq.symm⟩ (hnone ['0', 'x'] (by decide))
    next later heq => exact absurd ⟨later, heq.symm⟩ (hnone ['0', 'X'] (by decide))
    next later heq => exact absurd ⟨later, heq.symm⟩ (hnone ['$'] (by decide))
    next => rfl
  · simp only [addressMarks, List.mem_cons, List.not_mem_nil, or_false] at hmem
    rcases hmem with rfl | rfl | rfl <;> rfl

/-! ## Numbers -/

/-- Digits continue a number, which is `start` before them and `value` after them. -/
def Continues (start : Nat) (digits : List Char) (value : Nat) : Prop :=
  ∃ values, List.Forall₂ IsDigit digits values ∧
    values.foldl (fun number digit => 16 * number + digit) start = value

theorem continues_nil {start value : Nat} : Continues start [] value ↔ start = value := by
  constructor
  · rintro ⟨values, hdigits, rfl⟩
    cases hdigits
    rfl
  · rintro rfl
    exact ⟨[], .nil, rfl⟩

theorem continues_cons {start value : Nat} {c : Char} {digits : List Char} :
    Continues start (c :: digits) value ↔
      ∃ digit, IsDigit c digit ∧ Continues (16 * start + digit) digits value := by
  constructor
  · rintro ⟨values, hdigits, rfl⟩
    obtain ⟨digit, later, hc, hlater, rfl⟩ := List.forall₂_cons_left_iff.mp hdigits
    exact ⟨digit, hc, later, hlater, rfl⟩
  · rintro ⟨digit, hc, later, hlater, rfl⟩
    exact ⟨digit :: later, .cons hc hlater, rfl⟩

/-- A number does not become smaller when digits are added. -/
theorem Continues.le {start value : Nat} {digits : List Char} (h : Continues start digits value) :
    start ≤ value := by
  induction digits generalizing start with
  | nil => exact (continues_nil.mp h).le
  | cons c digits ih =>
    obtain ⟨digit, -, hlater⟩ := continues_cons.mp h
    have := ih hlater
    omega

/-- The number that digits stand for, the first one counting most. -/
def Denotes (digits : List Char) (value : Nat) : Prop :=
  ∃ values, List.Forall₂ IsDigit digits values ∧ value = Nat.ofDigits 16 values.reverse

theorem continues_zero_iff {digits : List Char} {value : Nat} :
    Continues 0 digits value ↔ Denotes digits value := by
  have hvalue (values : List Nat) : values.foldl (fun number digit => 16 * number + digit) 0 =
      Nat.ofDigits 16 values.reverse := by
    rw [Nat.ofDigits_eq_foldr, List.foldr_reverse]
    simp only [Nat.cast_id, Nat.add_comm]
  simp only [Continues, Denotes, hvalue, eq_comm]

theorem Denotes.exists_isDigit {digits : List Char} {value : Nat} (h : Denotes digits value) :
    ∀ c ∈ digits, ∃ digit, IsDigit c digit := by
  obtain ⟨values, hdigits, -⟩ := h
  induction hdigits with
  | nil => exact nofun
  | cons hc _ ih => exact List.forall_mem_cons.mpr ⟨⟨_, hc⟩, ih⟩

/-- Every mark has a character that is no digit, so digits begin with no mark. -/
theorem Denotes.marked {whole mark digits : List Char} {value : Nat} (h : Denotes digits value)
    (hwhole : whole = mark ++ digits) (hmem : mark = [] ∨ mark ∈ addressMarks) :
    Marked whole mark digits where
  eq := hwhole
  mem := hmem
  unmarked := by
    rintro rfl other hother hbegins
    have hall : addressMarks.all (·.any fun c => (hexDigit? c).isNone) = true := by decide
    obtain ⟨c, hc, hnone⟩ := List.any_eq_true.mp (List.all_eq_true.mp hall other hother)
    rw [hwhole, List.nil_append] at hbegins
    obtain ⟨digit, hdigit⟩ := h.exists_isDigit c (hbegins.subset hc)
    rw [hexDigit?_eq_some_iff.mpr hdigit] at hnone
    cases hnone

/-! ## Reading digits -/

/-- How reading an address comes to its end at some position, where the digits before it stand for
`value`: nothing is left, or the next character decides. -/
inductive Decides (whole : String) (position value : Nat) :
    List Char → Except HexFault UInt16 → Prop
  /-- All has been read. -/
  | finished : Decides whole position value [] (.ok (UInt16.ofNat value))
  /-- The next character is no digit. -/
  | stray {c : Char} {later : List Char} (h : ¬ ∃ digit, IsDigit c digit) :
    Decides whole position value (c :: later) (.error (.invalidDigit position c))
  /-- With the next digit the number leaves the address space. -/
  | beyond {c : Char} {later : List Char} {digit : Nat} (hdigit : IsDigit c digit)
    (h : 0xFFFF < 16 * value + digit) :
    Decides whole position value (c :: later) (.error (.addressOverflow whole))

section Reading

variable {whole : String} {position value : Nat} {text : List Char}

theorem parseDigits_cons {c : Char} {digit : Nat} (h : IsDigit c digit) :
    parseDigits whole position value (c :: text) =
      if 0xFFFF < 16 * value + digit then .error (.addressOverflow whole)
      else parseDigits whole (position + c.utf8Size) (16 * value + digit) text := by
  rw [parseDigits, hexDigit?_eq_some_iff.mpr h]

/-- Digits are read one after the other as long as the number stays in the address space. -/
theorem parseDigits_append {good later : List Char} {start : Nat} (h : Continues start good value)
    (hvalue : value ≤ 0xFFFF) :
    parseDigits whole position start (good ++ later) =
      parseDigits whole (position + String.utf8Len good) value later := by
  induction good generalizing start position with
  | nil =>
    obtain rfl := continues_nil.mp h
    rfl
  | cons c good ih =>
    obtain ⟨digit, hdigit, hlater⟩ := continues_cons.mp h
    have hfits : ¬ 0xFFFF < 16 * start + digit := Nat.not_lt.mpr (hlater.le.trans hvalue)
    rw [List.cons_append, parseDigits_cons hdigit, if_neg hfits, ih hlater, String.utf8Len_cons,
      Nat.add_right_comm, Nat.add_assoc]

theorem Decides.parseDigits_eq {outcome : Except HexFault UInt16}
    (h : Decides whole position value text outcome) :
    parseDigits whole position value text = outcome := by
  cases h with
  | finished => rfl
  | @stray c _ hc =>
    have hnone : hexDigit? c = none := by
      rw [← Option.not_isSome_iff_eq_none, isSome_hexDigit?_iff]
      exact hc
    rw [parseDigits, hnone]
  | beyond hdigit hbeyond => rw [parseDigits_cons hdigit, if_pos hbeyond]

/-- Reading comes to its end somewhere, behind the digits of a number in the address space. -/
theorem exists_decides (whole : String) (position : Nat) {start : Nat} (hstart : start ≤ 0xFFFF)
    (text : List Char) :
    ∃ good later value, text = good ++ later ∧ Continues start good value ∧ value ≤ 0xFFFF ∧
      ∃ outcome, Decides whole (position + String.utf8Len good) value later outcome := by
  induction text generalizing start position with
  | nil => exact ⟨[], [], start, rfl, continues_nil.mpr rfl, hstart, _, .finished⟩
  | cons c text ih =>
    by_cases hc : ∃ digit, IsDigit c digit
    · obtain ⟨digit, hdigit⟩ := hc
      by_cases hbeyond : 0xFFFF < 16 * start + digit
      · exact ⟨[], c :: text, start, rfl, continues_nil.mpr rfl, hstart, _, .beyond hdigit hbeyond⟩
      · obtain ⟨good, later, value, rfl, hgood, hvalue, outcome, hdecides⟩ :=
          ih (position + c.utf8Size) (Nat.not_lt.mp hbeyond)
        refine ⟨c :: good, later, value, rfl, continues_cons.mpr ⟨digit, hdigit, hgood⟩, hvalue,
          outcome, ?_⟩
        rwa [String.utf8Len_cons, Nat.add_comm (String.utf8Len good), ← Nat.add_assoc]
    · exact ⟨[], c :: text, start, rfl, continues_nil.mpr rfl, hstart, _, .stray hc⟩

/-- **Reading digits.** An outcome is that of the first character that decides. -/
theorem parseDigits_eq_iff {start : Nat} (hstart : start ≤ 0xFFFF)
    {outcome : Except HexFault UInt16} :
    parseDigits whole position start text = outcome ↔
      ∃ good later value, text = good ++ later ∧ Continues start good value ∧ value ≤ 0xFFFF ∧
        Decides whole (position + String.utf8Len good) value later outcome := by
  constructor
  · intro h
    obtain ⟨good, later, value, rfl, hgood, hvalue, other, hdecides⟩ :=
      exists_decides whole position hstart text
    rw [parseDigits_append hgood hvalue, hdecides.parseDigits_eq] at h
    exact ⟨good, later, value, rfl, hgood, hvalue, h ▸ hdecides⟩
  · rintro ⟨good, later, value, rfl, hgood, hvalue, hdecides⟩
    rw [parseDigits_append hgood hvalue, hdecides.parseDigits_eq]

end Reading

/-! ## Reading with 32 bits -/

/-- A number in 32 bits, if it does not need more. -/
def word32? (n : Nat) : Option UInt32 := if n < 2 ^ 32 then some (UInt32.ofNat n) else none

theorem exists_word32? {n : Nat} (h : n < 2 ^ 32) :
    ∃ word, word32? n = some word ∧ word.toNat = n :=
  ⟨UInt32.ofNat n, if_pos h, UInt32.toNat_ofNat_of_lt' h⟩

/-- Reads on in an address with a number of 32 bits. There is no outcome if a product or a sum needs
more. -/
def parseDigits32? (whole : String) (position : Nat) (value : UInt32) :
    List Char → Option (Except HexFault UInt16)
  | [] => some (.ok value.toUInt16)
  | c :: text =>
    match hexDigit? c with
    | none => some (.error (.invalidDigit position c))
    | some digit => do
      let product ← word32? (16 * value.toNat)
      let sum ← word32? (product.toNat + digit)
      if 0xFFFF < sum then some (.error (.addressOverflow whole))
      else parseDigits32? whole (position + c.utf8Size) sum text

/-- The address that a text spells, with a number of 32 bits. -/
def parseAddress32? (text : String) : Option (Except HexFault UInt16) :=
  let whole := trimBlanks text.toList
  let digits := dropMark whole
  if digits.isEmpty then some (.error (.oddLength 0))
  else parseDigits32? (String.ofList whole) 0 0 digits

/-- **32 bits are enough.** Before each digit the number is in the address space. -/
theorem parseDigits32?_eq (whole : String) {value : UInt32} (h : value.toNat ≤ 0xFFFF)
    (position : Nat) (text : List Char) :
    parseDigits32? whole position value text =
      some (parseDigits whole position value.toNat text) := by
  induction text generalizing position value with
  | nil => rfl
  | cons c text ih =>
    cases hc : hexDigit? c with
    | none => simp only [parseDigits32?, parseDigits, hc]
    | some digit =>
      have hdigit : digit < 16 := (hexDigit?_eq_some_iff.mp hc).1
      obtain ⟨product, hproduct, hproductNat⟩ := exists_word32? (n := 16 * value.toNat) (by omega)
      obtain ⟨sum, hsum, hsumNat⟩ := exists_word32? (n := product.toNat + digit) (by omega)
      have hbeyond : 0xFFFF < sum ↔ 0xFFFF < 16 * value.toNat + digit := by
        rw [UInt32.lt_iff_toNat_lt, hsumNat, hproductNat]
        rfl
      rw [parseDigits_cons (hexDigit?_eq_some_iff.mp hc)]
      simp only [parseDigits32?, hc, hproduct, hsum, Option.bind_eq_bind, Option.bind_some, hbeyond]
      split
      next => rfl
      next hfits => rw [ih (by omega), hsumNat, hproductNat]

/-! ## What address is read from a text -/

theorem parseAddress_of_marked {text : String} {mark digits : List Char}
    (h : Marked (trimBlanks text.toList) mark digits) :
    parseAddress text = if digits = [] then .error (.oddLength 0)
      else parseDigits (String.ofList (trimBlanks text.toList)) 0 0 digits := by
  simp only [parseAddress, h.dropMark_eq, List.isEmpty_iff]

/-- Every outcome of reading what follows the mark. -/
theorem parseAddress_eq_iff {text : String} {mark digits : List Char}
    (h : Marked (trimBlanks text.toList) mark digits) (hsome : digits ≠ [])
    {outcome : Except HexFault UInt16} :
    parseAddress text = outcome ↔
      ∃ good later value, digits = good ++ later ∧ Denotes good value ∧ value ≤ 0xFFFF ∧
        Decides (String.ofList (trimBlanks text.toList)) (String.utf8Len good) value later
          outcome := by
  rw [parseAddress_of_marked h, if_neg hsome, parseDigits_eq_iff (Nat.zero_le _)]
  simp only [continues_zero_iff, Nat.zero_add]

/-- If there is an outcome but that nothing is left, something is left. -/
theorem ne_nil_of_outcome {text : String} {mark digits : List Char}
    (h : Marked (trimBlanks text.toList) mark digits) {outcome : Except HexFault UInt16}
    (houtcome : parseAddress text = outcome) (hne : outcome ≠ .error (.oddLength 0)) :
    digits ≠ [] := by
  intro hnone
  rw [parseAddress_of_marked h, if_pos hnone] at houtcome
  exact hne houtcome.symm

theorem parseAddress32?_eq (text : String) : parseAddress32? text = some (parseAddress text) := by
  rw [parseAddress32?, parseAddress]
  split
  next => rfl
  next => exact parseDigits32?_eq _ (Nat.zero_le _) 0 _

/-- A digit string that stands for an address is read as it. -/
theorem parseAddress_of_denotes {text : String} {mark digits : List Char} {address : UInt16}
    (hmem : mark = [] ∨ mark ∈ addressMarks) (hwhole : trimBlanks text.toList = mark ++ digits)
    (hsome : digits ≠ []) (h : Denotes digits address.toNat) : parseAddress text = .ok address := by
  have hvalue : address.toNat ≤ 0xFFFF := Nat.le_of_lt_succ address.toNat_lt
  rw [parseAddress_of_marked (h.marked hwhole hmem), if_neg hsome, ← List.append_nil digits,
    parseDigits_append (continues_zero_iff.mpr h) hvalue, parseDigits, UInt16.ofNat_toNat]

/-- **The grammar of addresses.** The blanks at the ends of a text are taken away, and then the
mark, if there is one. An address is read exactly if some digits are left that stand for it. If
nothing is left, that is the fault. Otherwise the digits are read from left to right up to the first
character that decides, and the number before it is in the address space. So the number never needs
more than 32 bits. -/
theorem parseAddress_grammar (text : String) :
    ∃ lead tail mark digits, Trimmed text.toList lead (trimBlanks text.toList) tail ∧
      Marked (trimBlanks text.toList) mark digits ∧
      (∀ address, parseAddress text = .ok address ↔
        ∃ mark digits, (mark = [] ∨ mark ∈ addressMarks) ∧
          trimBlanks text.toList = mark ++ digits ∧ digits ≠ [] ∧ Denotes digits address.toNat) ∧
      (digits = [] → parseAddress text = .error (.oddLength 0)) ∧
      (digits ≠ [] → ∀ outcome, parseAddress text = outcome ↔
        ∃ good later value, digits = good ++ later ∧ Denotes good value ∧ value ≤ 0xFFFF ∧
          Decides (String.ofList (trimBlanks text.toList)) (String.utf8Len good) value later
            outcome) ∧
      parseAddress32? text = some (parseAddress text) := by
  obtain ⟨mark, hmarked⟩ := exists_marked (trimBlanks text.toList)
  refine ⟨_, _, mark, _, trimmed_trimBlanks text.toList, hmarked, fun address => ⟨?_, ?_⟩, ?_,
    fun hsome outcome => parseAddress_eq_iff hmarked hsome, parseAddress32?_eq text⟩
  · intro h
    have hsome := ne_nil_of_outcome hmarked h nofun
    obtain ⟨good, later, value, hdigits, hgood, hvalue, hend⟩ :=
      (parseAddress_eq_iff hmarked hsome).mp h
    cases hend
    refine ⟨mark, _, hmarked.mem, hmarked.eq, hsome, ?_⟩
    rwa [hdigits, List.append_nil, UInt16.toNat_ofNat_of_lt' (Nat.lt_succ_of_le hvalue)]
  · rintro ⟨mark, digits, hmem, hwhole, hsome, hdigits⟩
    exact parseAddress_of_denotes hmem hwhole hsome hdigits
  · intro hnone
    rw [parseAddress_of_marked hmarked, if_pos hnone]

/-- Blanks around leading zeros and digits of both cases, a mark with nothing behind it, and two
texts in which a letter and a fifth digit compete. The first of the two decides. -/
theorem parseAddress_grammar_marked :
    parseAddress "\u2003$0000C0de\n" = .ok 0xC0DE ∧
      parseAddress " 0X\t" = .error (.oddLength 0) ∧
      parseAddress "0x1000g0" = .error (.invalidDigit 4 'g') ∧
      parseAddress "0x10000g" = .error (.addressOverflow "0x10000g") := by
  have hthousand : Denotes ['1', '0', '0', '0'] 0x1000 :=
    ⟨[1, 0, 0, 0], by decide, rfl⟩
  have hletter : ¬ ∃ digit, IsDigit 'g' digit := by
    rw [← isSome_hexDigit?_iff]
    decide
  refine ⟨?_, ?_, ?_, ?_⟩
  · obtain ⟨_, _, _, _, -, -, hread, -⟩ := parseAddress_grammar "\u2003$0000C0de\n"
    refine (hread 0xC0DE).mpr ⟨['$'], "0000C0de".toList, .inr (by decide), by decide, by decide, ?_⟩
    exact ⟨[0, 0, 0, 0, 12, 0, 13, 14], by decide, rfl⟩
  · obtain ⟨_, _, _, _, -, hmarked, -, hnone, -⟩ := parseAddress_grammar " 0X\t"
    exact hnone (hmarked.dropMark_eq.symm.trans (by decide))
  · obtain ⟨_, _, _, digits, -, hmarked, -, -, hdecided, -⟩ := parseAddress_grammar "0x1000g0"
    obtain rfl : "1000g0".toList = digits := hmarked.dropMark_eq
    exact (hdecided (by decide) _).mpr
      ⟨['1', '0', '0', '0'], ['g', '0'], 0x1000, rfl, hthousand, by decide, .stray hletter⟩
  · obtain ⟨_, _, _, digits, -, hmarked, -, -, hdecided, -⟩ := parseAddress_grammar "0x10000g"
    obtain rfl : "10000g".toList = digits := hmarked.dropMark_eq
    have hzero : IsDigit '0' 0 := by decide
    exact (hdecided (by decide) _).mpr
      ⟨['1', '0', '0', '0'], ['0', 'g'], 0x1000, rfl, hthousand, by decide,
        .beyond hzero (by decide)⟩

end Nmos6502
