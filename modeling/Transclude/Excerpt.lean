import Transclude.Directive
import Transclude.Template

/-!
# Excerpts

An *excerpt* is what a directive takes from the text of a file: the lines of its
span, or its template filled with the file's sections.

Lines are numbered from one. A span that is not open is its first line only. An
open span ends with its last line if it has one, and otherwise with the last line
of the file, where an empty line after a final line break counts only if it is to
be preserved. A line that the file does not have is not an error: the excerpt is
shorter. A bound below zero counts from the end of the file.

* `Excerpt.ofSpan`: the lines of a span;
* `Excerpt.ofDirective`: what a directive takes.
-/

namespace Transclude

namespace Excerpt

/-- The offset that an index means in a list of `n` elements: one below zero counts
    from the end, and one beyond either end means that end. -/
def offsetOf (n : Nat) (index : Int) : Nat :=
  if index < 0 then (index + n).toNat else min index.toNat n

/-- The elements from one index up to, but without, another. -/
def slice {α : Type} (l : List α) (start stop : Int) : List α :=
  (l.take (offsetOf l.length stop)).drop (offsetOf l.length start)

/-- A bound that is given and not zero. -/
def given? : Option Int → Option Int
  | some number => if number = 0 then none else some number
  | none => none

/-- The number of the last line of a span in a file of these lines. -/
def lastLine (span : Span) (preserve : Bool) (ls : List Text) : Int :=
  if !span.isOpen then (given? span.first).getD 1
  else match given? span.last with
    | some number => number
    | none => if ls.getLast? = some [] && !preserve then ls.length - 1 else ls.length

/-- The lines of a span. -/
def linesOfSpan (span : Span) (preserve : Bool) (ls : List Text) : List Text :=
  slice ls ((given? span.first).getD 1 - 1) (lastLine span preserve ls)

/-- The lines of a span, as one text. -/
def ofSpan (span : Span) (preserve : Bool) (content : Text) : Text :=
  Text.unlines (linesOfSpan span preserve (Text.lines content))

/-- What a directive takes from a file; `template` is the old body of its fence. -/
def ofDirective (markerToken : Text) (preserve : Bool) (d : Directive)
    (content template : Text) : Extraction :=
  match d.selection with
  | .sections =>
    Template.replay markerToken (Text.lines content) (Template.elements markerToken template)
  | .lines => { text := ofSpan d.span preserve content }

end Excerpt

end Transclude
