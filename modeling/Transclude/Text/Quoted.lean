import Transclude.Text.Printable

/-!
# Quoted text

A text is quoted between single quotes, or between double quotes if it holds a
single quote and no double quote. The quote itself and the backslash are written
after a backslash, tab, line feed and carriage return as `\t`, `\n` and `\r`, and
any other character that is not printable by its code point in hexadecimal, with
two, four or eight digits.

* `quoteMark`: which quote surrounds a text;
* `quoted`: the quoted text.
-/

namespace Transclude

namespace Text

/-- The number in hexadecimal, with zeros in front up to `width` digits. -/
def hexPadded (width n : Nat) : Text :=
  let digits := Nat.toDigits 16 n
  List.replicate (width - digits.length) '0' ++ digits

/-- The quote that surrounds a text: single, unless that occurs in the text and
    the double quote does not. -/
def quoteMark (t : Text) : Char :=
  if t.elem '\'' && !t.elem '"' then '"' else '\''

/-- A character as it is written between two quotes `mark`. -/
def escapeChar (mark c : Char) : Text :=
  if c = mark || c = '\\' then ['\\', c]
  else if c = '\t' then ['\\', 't']
  else if c = '\n' then ['\\', 'n']
  else if c = '\r' then ['\\', 'r']
  else if isPrintable c then [c]
  else if c.toNat < 0x100 then '\\' :: 'x' :: hexPadded 2 c.toNat
  else if c.toNat < 0x10000 then '\\' :: 'u' :: hexPadded 4 c.toNat
  else '\\' :: 'U' :: hexPadded 8 c.toNat

/-- The text between quotes. -/
def quoted (t : Text) : Text :=
  let mark := quoteMark t
  mark :: t.flatMap (escapeChar mark) ++ [mark]

end Text

end Transclude
