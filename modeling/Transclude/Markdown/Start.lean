import Transclude.Markdown.Html
import Transclude.Text.Digit

/-!
# Starts of blocks

What kind of block a line starts can be seen from the line alone: a fence, a block
quote, a thematic break, a list item, an HTML block or a heading. Most of these
also end a paragraph that goes on up to the line; a few do not, so that prose is
not broken up by accident.

* `Place.interrupts`: whether a line ends the paragraph before it;
* `Place.endsList`: whether a line starts a block that ends a list.
-/

namespace Transclude

namespace Markdown

/-- Where in the nesting of containers a line stands. -/
structure Place where
  /-- The column at which the content of the innermost list item begins. -/
  margin : Fence.Margin := 0
  /-- The margin outside of that list item, if there is one. -/
  outer : Option Int := none
  deriving DecidableEq, Repr

/-! ## Single lines -/

/-- Whether a line starts a block quote. -/
def startsQuote (margin : Fence.Margin) (l : Line) : Bool :=
  !Fence.isIndented margin l && l.content.head? = some '>'

/-- Whether a text is a thematic break: three or more of the same mark, with nothing
    but spaces and tabs in between. -/
def isBreakMarks : Text → Bool
  | [] => false
  | c :: t =>
    (c = '*' || c = '-' || c = '_') && t.all (fun d => d = c || Text.isSpaceOrTab d) &&
      2 ≤ t.count c

/-- Whether a line is a thematic break. -/
def isThematicBreak (margin : Fence.Margin) (l : Line) : Bool :=
  !Fence.isIndented margin l && isBreakMarks l.content

/-- Whether a line is a heading: one to six number signs and a space, a tab or
    nothing. -/
def isHeading (margin : Fence.Margin) (l : Line) : Bool :=
  !Fence.isIndented margin l &&
    let level := (l.content.takeWhile (· = '#')).length
    1 ≤ level && level ≤ 6 &&
      match l.content.drop level with
      | [] => true
      | c :: _ => Text.isSpaceOrTab c

/-- Whether a line underlines the paragraph before it, which makes that a heading. -/
def isUnderline (margin : Fence.Margin) (l : Line) : Bool :=
  margin ≤ l.indent &&
    match l.content with
    | [] => false
    | c :: t => (c = '-' || c = '=') && (t.dropWhile (· = c)).all Text.isSpaceOrTab

/-! ## List markers -/

/-- The marker of a list item. -/
structure ItemMarker where
  /-- The number, if the list is numbered. -/
  number : Option Nat
  /-- The character that tells lists apart: the bullet, or what follows the number. -/
  sign : Char
  /-- How many characters the marker takes. -/
  width : Nat
  /-- The text after the marker. -/
  rest : Text
  deriving DecidableEq, Repr

namespace ItemMarker

/-- Whether a text can follow a marker: it is empty or starts with a blank. -/
def canFollow : Text → Bool
  | [] => true
  | c :: _ => Text.isSpaceOrTab c

/-- The bullet at the start of a text. -/
def bullet? : Text → Option ItemMarker
  | [] => none
  | c :: t =>
    if (c = '*' || c = '-' || c = '+') && canFollow t then some ⟨none, c, 1, t⟩ else none

/-- The number at the start of a text: at most nine digits and a dot or a closing
    parenthesis. -/
def number? (t : Text) : Option ItemMarker :=
  let digits := t.takeWhile Char.isDigit
  if digits.isEmpty || 9 < digits.length then none
  else match t.drop digits.length with
    | [] => none
    | c :: rest =>
      if (c = '.' || c = ')') && canFollow rest then
        some ⟨some (Text.ofDigits (digits.map fun d => d.toNat - 48)), c, digits.length + 1, rest⟩
      else none

/-- The marker at the start of a text. -/
def ofText? (t : Text) : Option ItemMarker :=
  match number? t with
  | some marker => some marker
  | none => bullet? t

/-- The marker at the start of a text, if it continues a list with this marker. -/
def continuing? (marker : ItemMarker) (t : Text) : Option ItemMarker :=
  (if marker.number.isSome then number? t else bullet? t).filter (·.sign = marker.sign)

end ItemMarker

namespace Place

/-- The marker with which a line starts a list. A line that stands to the left of
    the innermost item but four columns into the item around it does not. -/
def listMarker? (place : Place) (l : Line) : Option ItemMarker :=
  let goesOn := match place.outer with
    | none => false
    | some outer => 4 ≤ l.indent - outer && l.indent < place.margin
  if Fence.isIndented place.margin l || goesOn then none else ItemMarker.ofText? l.content

/-- Whether a line starts a list that ends a paragraph before it: its first item is
    not empty and, if it is numbered, has the number one. A line to the left of the
    paragraph's margin may start any list. -/
def listInterrupts (place : Place) (l : Line) : Bool :=
  match place.listMarker? l with
  | none => false
  | some marker =>
    l.indent < place.margin ||
      marker.number.getD 1 = 1 && !marker.rest.all Text.isSpaceOrTab

/-- Whether a line starts an HTML block that can end a paragraph. -/
def htmlInterrupts (place : Place) (l : Line) : Bool :=
  match Html.opening? place.margin l with
  | none => false
  | some kind => kind ≠ .loneTag

/-- Whether a line starts a block that ends a list. -/
def endsList (place : Place) (l : Line) : Bool :=
  (Fence.opening? place.margin l).isSome || startsQuote place.margin l ||
    isThematicBreak place.margin l

/-- Whether a line ends the paragraph before it. -/
def interrupts (place : Place) (l : Line) : Bool :=
  place.endsList l || place.listInterrupts l || place.htmlInterrupts l ||
    isHeading place.margin l

/-- Whether a line ends the block quote or the link definition before it, of which
    it would otherwise be a continuation: here any list will do. -/
def cutsOff (place : Place) (l : Line) : Bool :=
  place.endsList l || (place.listMarker? l).isSome || place.htmlInterrupts l ||
    isHeading place.margin l

end Place

end Markdown

end Transclude
