import Transclude.Markdown.Line

/-!
# Fences

A fenced code block opens with a line of at least three backticks or tildes, the
*markup*, and an info text, which after backticks must not hold a backtick. It
closes at the first later line that holds nothing but, at less than four columns
of indentation, a run of the same character at least as long as the markup and
spaces or tabs. Without such a line the block ends with its container.

The lines in between are the body. From each of them as much indentation is taken
off as the opening line has.

* `Fence.opening?`: the markup and the info text of an opening line;
* `Fence.closes`: whether a line is a closing line;
* `Fence.bodyLines`: the body lines and whether a closing line follows them.
-/

namespace Transclude

namespace Markdown

/-- The character of one kind of fence; the other is the tilde. -/
def backtick : Char := Char.ofNat 0x60

/-- A fenced code block as it was found. -/
structure Fence where
  /-- The number of the opening line. -/
  start : Nat
  /-- The number of the line after the last one. -/
  stop : Nat
  /-- The run of fence characters that opens the block. -/
  markup : Text
  /-- The rest of the opening line. -/
  info : Text
  /-- The body lines, without the indentation of the opening line. -/
  body : List Text
  /-- Whether a closing line ends the block. -/
  isClosed : Bool
  deriving DecidableEq, Repr

namespace Fence

/-- The column at which the content of an open list item begins; the content of a
    line further to the left does not belong to the item. -/
abbrev Margin := Int

/-- Whether a line is indented so far that it can only be code. -/
def isIndented (margin : Margin) (l : Line) : Bool :=
  4 ≤ l.indent - margin

/-- The markup and the info text, if a line opens a fence. -/
def opening? (margin : Margin) (l : Line) : Option (Text × Text) :=
  if isIndented margin l then none
  else match l.content with
    | [] => none
    | c :: t =>
      let markup := c :: t.takeWhile (· = c)
      let info := t.dropWhile (· = c)
      if (c = backtick && !info.elem backtick || c = '~') && 3 ≤ markup.length then some (markup, info)
      else none

/-- Whether a line closes the fence with this markup. -/
def closes (margin : Margin) (markup : Text) (l : Line) : Bool :=
  match markup with
  | [] => false
  | c :: _ =>
    !isIndented margin l &&
      markup.length ≤ (l.content.takeWhile (· = c)).length &&
      (l.content.dropWhile (· = c)).all Text.isSpaceOrTab

/-- Whether a line ends the container of a fence: its content stands to the left of
    the container's, or it is the empty rest of a document's last line. -/
def endsContainer (margin : Margin) (l : Line) : Bool :=
  if l.isEmpty then !l.isEnded else l.indent < margin

/-- The body lines of the fence with this markup, and whether a closing line
    follows them. -/
def bodyLines (margin : Margin) (markup : Text) : List Line → List Line × Bool
  | [] => ([], false)
  | l :: ls =>
    if endsContainer margin l then ([], false)
    else if closes margin markup l then ([], true)
    else
      let (rest, isClosed) := bodyLines margin markup ls
      (l :: rest, isClosed)

/-- The fence that opens with this line, and the number of further lines that
    belong to it. -/
def ofLines (margin : Margin) (l : Line) (markup info : Text) (ls : List Line) : Fence × Nat :=
  let (lines, isClosed) := bodyLines margin markup ls
  let extra := lines.length + if isClosed then 1 else 0
  ({ start := l.number, stop := l.number + 1 + extra, markup, info,
     body := lines.map (·.dropColumns l.indent), isClosed }, extra)

end Fence

end Markdown

end Transclude
