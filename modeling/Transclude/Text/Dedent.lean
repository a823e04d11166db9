import Transclude.Text.Blank

/-!
# Removing common indentation

The *indentation* of a line is the spaces and tabs at its start. The *margin* of
a text is the longest run of spaces and tabs with which all of its lines that
hold anything else start; a tab and a space are different characters here,
whatever their width. Dedenting takes the margin off those lines and empties the
others. Only a line feed ends a line.

* `Text.margin`: what all lines have in common;
* `Text.dedent`: the text without it.
-/

namespace Transclude

namespace Text

/-- The longest text with which both texts start. -/
def commonStart : Text → Text → Text
  | c :: s, d :: t => if c = d then c :: commonStart s t else []
  | _, _ => []

/-- Whether a line holds nothing but spaces and tabs. -/
def isBlankLine (line : Text) : Bool :=
  line.all isSpaceOrTab

/-- The indentation that the lines that are not blank have in common, if there
    are such lines. -/
def margin : List Text → Option Text
  | [] => none
  | line :: ls =>
    if isBlankLine line then margin ls
    else
      let indentation := line.takeWhile isSpaceOrTab
      match margin ls with
      | none => some indentation
      | some rest => some (commonStart indentation rest)

/-- The lines without their margin; blank lines become empty. -/
def dedentLines (ls : List Text) : List Text :=
  let width := ((margin ls).getD []).length
  ls.map fun line => if isBlankLine line then [] else line.drop width

/-- The text without the indentation common to its lines. -/
def dedent (t : Text) : Text :=
  join '\n' (dedentLines (splitAt '\n' t))

end Text

end Transclude
