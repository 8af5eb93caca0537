import Nmos6502.Text.Numeral
import Nmos6502.Text.Unprintable

/-!
# Quoted text

Error texts quote the character or the text they complain about. The quote mark that surrounds the
text and the backslash take a backslash, four controls have letters of their own, and a character
that has no picture, or whose picture would join its neighbour's, is shown by its code.

The other kind of quote mark stands as it is, which is why a quoted character and a quoted text
escape differently.

## Main definitions

* `escape` — one character inside a given kind of quote mark
* `quoteChar`, `quote` — a character and a text between their quote marks
-/

namespace Nmos6502.Text

/-- The code of a character in braces: `\u`, an opening brace, hexadecimal digits without leading
zeros, and a closing brace. -/
def codeEscape (c : Char) : List Char :=
  ['\\', 'u', '\x7b'] ++ Nat.toDigits 16 c.toNat ++ ['\x7d']

/-- How a character is written between two marks `mark`. -/
def escape (mark c : Char) : List Char :=
  if c = '\x00' then ['\\', '0']
  else if c = '\t' then ['\\', 't']
  else if c = '\r' then ['\\', 'r']
  else if c = '\n' then ['\\', 'n']
  else if c = '\\' ∨ c = mark then ['\\', c]
  else if isShownByCode c then codeEscape c
  else [c]

/-- A character between single quotes. -/
def quoteChar (c : Char) : String :=
  String.ofList ('\'' :: escape '\'' c ++ ['\''])

/-- A text between double quotes. -/
def quote (text : String) : String :=
  String.ofList ('"' :: text.toList.flatMap (escape '"') ++ ['"'])

end Nmos6502.Text
