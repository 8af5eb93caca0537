/-!
# Numerals of fixed and of least width

Addresses and bytes are printed with a fixed number of digits, so that a reader can tell from the
width alone whether two or four hexadecimal digits follow. Error texts print addresses that may lie
above the address space, so theirs is a *least* width: short numbers are filled with zeros, long
ones keep all their digits.

## Main definitions

* `fixedDigits` — exactly `width` digits of a number, in any base up to sixteen
* `hexByte`, `hexWord` — two and four hexadecimal digits
* `binaryByte` — eight binary digits
* `hexAtLeast`, `decimal` — numerals that grow with the number
-/

namespace Nmos6502.Text

/-- Which letters stand for the digits ten to fifteen. -/
inductive LetterCase where
  | lower
  | upper
  deriving DecidableEq

/-- The digit for `n`, which is meant to be below sixteen. -/
def digitChar : LetterCase → Nat → Char
  | .lower, n => Nat.digitChar n
  | .upper, n => (Nat.digitChar n).toUpper

/-- The lowest `width` digits of `n` in base `base`, most significant first. -/
def fixedDigits (base : Nat) (letters : LetterCase) : (width n : Nat) → List Char
  | 0, _ => []
  | width + 1, n =>
    fixedDigits base letters width (n / base) ++ [digitChar letters (n % base)]

@[simp] theorem length_fixedDigits (base : Nat) (letters : LetterCase) :
    ∀ width n : Nat, (fixedDigits base letters width n).length = width
  | 0, _ => rfl
  | width + 1, n => by simp [fixedDigits, length_fixedDigits base letters width]

/-- A byte as two hexadecimal digits. -/
def hexByte (letters : LetterCase) (byte : UInt8) : String :=
  String.ofList (fixedDigits 16 letters 2 byte.toNat)

/-- A word as four hexadecimal digits. -/
def hexWord (letters : LetterCase) (word : UInt16) : String :=
  String.ofList (fixedDigits 16 letters 4 word.toNat)

/-- A byte as eight binary digits. -/
def binaryByte (byte : UInt8) : String :=
  String.ofList (fixedDigits 2 .lower 8 byte.toNat)

@[simp] theorem toList_hexByte (letters : LetterCase) (byte : UInt8) :
    (hexByte letters byte).toList = fixedDigits 16 letters 2 byte.toNat := by
  simp [hexByte]

@[simp] theorem toList_hexWord (letters : LetterCase) (word : UInt16) :
    (hexWord letters word).toList = fixedDigits 16 letters 4 word.toNat := by
  simp [hexWord]

/-- Upper-case hexadecimal, filled with zeros on the left up to `width` digits. -/
def hexAtLeast (width n : Nat) : String :=
  String.ofList (((Nat.toDigits 16 n).map Char.toUpper).leftpad width '0')

/-- The decimal numeral of `n`. -/
def decimal (n : Nat) : String :=
  String.ofList (Nat.toDigits 10 n)

/-- Bytes as pairs of digits with one space between. -/
def hexBytes (letters : LetterCase) (bytes : List UInt8) : String :=
  " ".intercalate (bytes.map (hexByte letters))

theorem toList_hexBytes (letters : LetterCase) (bytes : List UInt8) :
    (hexBytes letters bytes).toList =
      [' '].intercalate (bytes.map fun byte => fixedDigits 16 letters 2 byte.toNat) := by
  simp only [hexBytes, String.toList_intercalate, List.map_map, Function.comp_def, toList_hexByte]
  rfl

/-- Fills a text with spaces on the right up to `width` characters. -/
def padRight (width : Nat) (text : String) : String :=
  text ++ String.ofList (List.replicate (width - text.length) ' ')

end Nmos6502.Text
