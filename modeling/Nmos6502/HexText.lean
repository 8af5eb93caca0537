import Nmos6502.Text.Blank
import Nmos6502.Text.Quoted

/-!
# Reading hexadecimal text

Programs and addresses come in as hexadecimal text. In the text of a program blanks may stand
anywhere, even between the two digits of a byte. An address may have blanks around it and one of the
marks `0x`, `0X` and `$` before it.

A position is a count of bytes in the UTF-8 form of the text. For a program it counts from the
start of the text; for an address from the first digit, after the blanks and the mark.

## Main definitions

* `HexFault` — what can be wrong with such a text
* `hexDigit?` — the value of a digit
* `parseBytes` — the bytes of a program
* `parseAddress` — an address
-/

namespace Nmos6502

open Text

/-- What is wrong with a hexadecimal text. -/
inductive HexFault where
  /-- The digits do not pair up into bytes, or an address has none. -/
  | oddLength (digits : Nat)
  /-- A character that is no digit. -/
  | invalidDigit (position : Nat) (found : Char)
  /-- An address above the address space. -/
  | addressOverflow (text : String)
  deriving DecidableEq

/-- The wording of a fault in a hexadecimal text. -/
def HexFault.message : HexFault → String
  | .oddLength digits => "odd number of hex digits (" ++ decimal digits ++ ")"
  | .invalidDigit position found =>
    "invalid hex digit " ++ quoteChar found ++ " at position " ++ decimal position
  | .addressOverflow text => "address " ++ quote text ++ " exceeds $FFFF"

/-- The value of an ASCII hexadecimal digit of either case. -/
def hexDigit? (c : Char) : Option Nat :=
  if '0' ≤ c ∧ c ≤ '9' then some (c.toNat - '0'.toNat)
  else if 'a' ≤ c ∧ c ≤ 'f' then some (c.toNat - 'a'.toNat + 10)
  else if 'A' ≤ c ∧ c ≤ 'F' then some (c.toNat - 'A'.toNat + 10)
  else none

/-- The first character that is neither blank nor a digit, with its position, when the text
begins at `position`. -/
def strayCharacter? (position : Nat) : List Char → Option (Nat × Char)
  | [] => none
  | c :: text =>
    if isBlank c ∨ (hexDigit? c).isSome then strayCharacter? (position + c.utf8Size) text
    else some (position, c)

/-- Digits put together two by two, the higher one first; a last digit without a partner is
left out. -/
def pairDigits : List Nat → List UInt8
  | high :: low :: digits => UInt8.ofNat (16 * high + low) :: pairDigits digits
  | _ => []

/-- The bytes that a text spells. A stray character counts before an odd number of digits. -/
def parseBytes (text : String) : Except HexFault (List UInt8) :=
  match strayCharacter? 0 text.toList with
  | some (position, found) => .error (.invalidDigit position found)
  | none =>
    let digits := text.toList.filterMap hexDigit?
    if digits.length % 2 = 1 then .error (.oddLength digits.length)
    else .ok (pairDigits digits)

/-- An address without the mark before it. -/
def dropMark : List Char → List Char
  | '0' :: 'x' :: digits => digits
  | '0' :: 'X' :: digits => digits
  | '$' :: digits => digits
  | digits => digits

/-- Reads on in an address: `value` is what came before `position`. The first character that is
no digit or takes the value out of the address space decides. -/
def parseDigits (whole : String) (position value : Nat) : List Char → Except HexFault UInt16
  | [] => .ok (UInt16.ofNat value)
  | c :: text =>
    match hexDigit? c with
    | none => .error (.invalidDigit position c)
    | some digit =>
      let value := 16 * value + digit
      if 0xFFFF < value then .error (.addressOverflow whole)
      else parseDigits whole (position + c.utf8Size) value text

/-- The address that a text spells. -/
def parseAddress (text : String) : Except HexFault UInt16 :=
  let whole := trimBlanks text.toList
  let digits := dropMark whole
  if digits.isEmpty then .error (.oddLength 0)
  else parseDigits (String.ofList whole) 0 0 digits

end Nmos6502
