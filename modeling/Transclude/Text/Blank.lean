import Transclude.Text.Basic
import Transclude.Text.CodePoint

/-!
# White space

The characters that count as white space wherever words are told apart: the
separators and control characters to which Unicode 14 gives a white-space
meaning, among them the four information separators U+001C to U+001F.

* `Text.isBlank`: whether a character is white space;
* `Text.strip`: a text without the white space around it.
-/

namespace Transclude

namespace Text

/-- The ranges of code points that are white space. -/
def blankRanges : List (Nat × Nat) := [
    (0x9, 0xd), (0x1c, 0x20), (0x85, 0x85), (0xa0, 0xa0), (0x1680, 0x1680), (0x2000, 0x200a),
    (0x2028, 0x2029), (0x202f, 0x202f), (0x205f, 0x205f), (0x3000, 0x3000)]

/-- Whether a character is white space. -/
def isBlank (c : Char) : Bool :=
  CodePoint.within c.toNat blankRanges

/-- Whether a character is a space or a tab: the white space inside a line. -/
def isSpaceOrTab (c : Char) : Bool :=
  c = ' ' || c = '\t'

/-- The text without the white space at both ends. -/
def strip (t : Text) : Text :=
  trim isBlank t

end Text

end Transclude
