import Transclude.Text.Basic
import Transclude.Text.Blank

/-!
# Lines of a Markdown document

Inside a block quote or a list item a line is read from the place where the
container's markers end. A `Markdown.Line` is a line as its innermost container
sees it: the text from that place on, the column at which its content begins and
the column from which tab stops are counted.

Columns are counted from the place where the container begins, a tab going on to
the next multiple of four as counted from the start of the line. A line that only
continues a paragraph, without the markers of the paragraph's container, has a
column below zero.

* `Line.content`: the line without the blanks at its start;
* `Line.dropColumns`: the line without blanks of a given width;
* `documentLines`: the lines of a document, before any container is entered.
-/

namespace Transclude

namespace Markdown

/-- A line as its innermost container sees it. -/
structure Line where
  /-- The number of the line in the document, counted from zero. -/
  number : Nat
  /-- The text from the place where the container begins. -/
  text : Text
  /-- The column at which the content begins. -/
  indent : Int
  /-- The column of the first character of `text`, as far as tab stops go. -/
  base : Int := 0
  /-- Whether a line break ends the line. -/
  isEnded : Bool := true
  deriving DecidableEq, Repr

/-- The column after a character that stands at `column`; `shift` is the column from
    which tab stops are counted. -/
def nextColumn (shift column : Int) (c : Char) : Int :=
  if c = '\t' then column + (4 - (column + shift) % 4) else column + 1

/-- The column at which the first character that is neither space nor tab stands. -/
def contentColumn (shift : Int) : (column : Int) → Text → Int
  | column, [] => column
  | column, c :: t =>
    if Text.isSpaceOrTab c then contentColumn shift (nextColumn shift column c) t else column

namespace Line

/-- The line without the spaces and tabs at its start. -/
def content (l : Line) : Text :=
  l.text.dropWhile Text.isSpaceOrTab

/-- Whether a line holds nothing but spaces and tabs. -/
def isEmpty (l : Line) : Bool :=
  l.content.isEmpty

end Line

/-- The text without the spaces and tabs before the column `width`. A tab that
    reaches beyond that column leaves as many spaces as it does. -/
def dropColumnsFrom (shift width : Int) : (column : Int) → Text → Text
  | column, [] => Text.spaces (column - width).toNat
  | column, c :: t =>
    if column < width && Text.isSpaceOrTab c then
      dropColumnsFrom shift width (nextColumn shift column c) t
    else Text.spaces (column - width).toNat ++ c :: t

/-- The line without the spaces and tabs before the column `width`. -/
def Line.dropColumns (l : Line) (width : Int) : Text :=
  dropColumnsFrom l.base width 0 l.text

/-- Lines of a document from their texts, numbered from `n` on. The last of them is
    not ended, unless `endLast`. -/
def numberLines (endLast : Bool) : Nat → List Text → List Line
  | _, [] => []
  | n, t :: rest =>
    { number := n, text := t, indent := contentColumn 0 0 t,
      isEnded := endLast || !rest.isEmpty } :: numberLines endLast (n + 1) rest

/-- The character that stands for NUL. -/
def replacement : Char := Char.ofNat 0xFFFD

/-- The text in which every line break is a line feed and no character is NUL. -/
def cleaned (t : Text) : Text :=
  (Text.unifyAllBreaks (Text.unifyBreaks t)).map fun c => if c = '\x00' then replacement else c

/-- The lines of a document. What comes after the last line break is a line only if
    it holds more than spaces and tabs. -/
def documentLines (t : Text) : List Line :=
  let pieces := Text.splitAt '\n' (cleaned t)
  if (pieces.getLast?.getD []).all Text.isSpaceOrTab then numberLines true 0 pieces.dropLast
  else numberLines false 0 pieces

end Markdown

end Transclude
