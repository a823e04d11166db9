import Transclude.Markdown.Definition
import Transclude.Markdown.Start

/-!
# Block structure

A document is a sequence of blocks, and block quotes and list items hold further
sequences. Of all this only the fences are kept.

A sequence is read from the lines that may belong to it (`sequence`). It reads
block after block and stops before the first line whose content stands to the left
of its margin; how many lines it took is part of the result, and the container goes
on from there. A quote hands its lines down without their markers, a list item its
first line without the marker. Quotes nest one level deep and list items two, and
content nested `nestingLimit` levels deep is skipped.

* `leaf`: the blocks that hold no others;
* `quotedLines`: the lines of a block quote, as its content sees them;
* `items`: the items of a list;
* `fences`: the fences of a document.
-/

namespace Transclude

namespace Markdown

/-- What a sequence of blocks holds: its fences, and the number of lines it took. -/
abbrev Reading := List Fence × Nat

/-! ## Blocks that hold no others -/

/-- How many of the lines are indented code, or empty lines in between. -/
def codeExtent (margin : Fence.Margin) : List Line → Nat
  | [] => 0
  | l :: ls =>
    if l.isEmpty then
      match codeExtent margin ls with
      | 0 => 0
      | n + 1 => n + 2
    else if Fence.isIndented margin l then 1 + codeExtent margin ls
    else 0

/-- Whether a line goes on with a paragraph whatever it holds: it is indented like
    code, or it lacks the markers of the paragraph's container. -/
def isLazy (margin : Fence.Margin) (l : Line) : Bool :=
  Fence.isIndented margin l || l.indent < 0

/-- How many of the lines go on with the paragraph before them. -/
def paragraphExtent (place : Place) : List Line → Nat
  | [] => 0
  | l :: ls =>
    if l.isEmpty then 0
    else if isLazy place.margin l || !place.interrupts l then 1 + paragraphExtent place ls
    else 0

/-- How many of the lines go on with the paragraph before them up to the line that
    underlines it, if there is such a line. -/
def underlinedExtent (place : Place) : List Line → Option Nat
  | [] => none
  | l :: ls =>
    if l.isEmpty then none
    else if Fence.isIndented place.margin l then (underlinedExtent place ls).map (1 + ·)
    else if isUnderline place.margin l then some 1
    else if l.indent < 0 || !place.interrupts l then (underlinedExtent place ls).map (1 + ·)
    else none

/-- The lines that could go on with the link definition before them, each with its
    line break. -/
def definitionLines (place : Place) : List Line → List Text
  | [] => []
  | l :: ls =>
    if l.isEmpty then []
    else if isLazy place.margin l || !place.cutsOff l then
      (l.content ++ if l.isEnded then ['\n'] else []) :: definitionLines place ls
    else []

/-- The number of further lines of the link definition that starts with a line, if
    one does. -/
def definitionExtent (place : Place) (l : Line) (ls : List Line) : Option Nat :=
  if l.content.head? ≠ some '[' then none
  else Definition.extent (l.content ++ if l.isEnded then ['\n'] else []) (definitionLines place ls)

/-- The block that starts with a line and holds no other blocks: its fences, none or
    one, and the number of its further lines. -/
def leaf (place : Place) (l : Line) (ls : List Line) : Reading :=
  match definitionExtent place l ls with
  | some extra => ([], extra)
  | none =>
    match Html.opening? place.margin l with
    | some kind =>
      ([], if kind.isEndedBy l.content then 0 else Html.extent place.margin kind ls)
    | none =>
      if isHeading place.margin l then ([], 0)
      else ([], (underlinedExtent place ls).getD (paragraphExtent place ls))

/-! ## Block quotes -/

/-- A line without the marker of a block quote, if it has one. One space after the
    marker belongs to it; so does a tab that is as wide as a space. -/
def withoutQuoteMarker (l : Line) : Option Line :=
  match l.content with
  | '>' :: t =>
    let column := l.indent + 1
    let unmarked (text : Text) (start : Int) (shift : Int) (taken : Int) : Line :=
      { l with text, indent := contentColumn (l.base + shift) start text - start,
               base := l.indent + 1 + taken }
    match t with
    | ' ' :: rest => some (unmarked rest (column + 1) 0 1)
    | '\t' :: rest =>
      if (l.base + column) % 4 = 3 then some (unmarked rest (column + 1) 0 1)
      else some (unmarked t column 1 1)
    | _ => some (unmarked t column 0 0)
  | _ => none

/-- The lines that belong to the block quote which is open before them, as its
    content sees them; `afterEmpty` says whether its last line was empty. A line
    without a marker belongs to it only as the continuation of a paragraph. -/
def quotedLines (place : Place) (afterEmpty : Bool) : List Line → List Line
  | [] => []
  | l :: ls =>
    if l.isEmpty then []
    else match if l.indent < place.margin then none else withoutQuoteMarker l with
      | some inner => inner :: quotedLines place inner.isEmpty ls
      | none =>
        if afterEmpty || place.cutsOff l then []
        else { l with indent := -1 } :: quotedLines place afterEmpty ls

/-- The block quote that starts with a line; `inner` reads its content. -/
def quote (inner : Place → List Line → Reading) (place : Place) (l : Line) (ls : List Line) :
    Reading :=
  match withoutQuoteMarker l with
  | none => ([], 0)
  | some first =>
    let (found, taken) := inner { place with margin := 0 }
      (first :: quotedLines place first.isEmpty ls)
    (found, taken - 1)

/-! ## Lists -/

/-- The first line of a list item without its marker, and the column at which the
    content of the item begins. Content that starts more than four columns after
    the marker is code, and content that starts on the next line stands one column
    after the marker. -/
def itemStart (l : Line) (marker : ItemMarker) : Line × Int :=
  let start := l.indent + marker.width
  let column := contentColumn l.base start marker.rest
  let content := marker.rest.dropWhile Text.isSpaceOrTab
  let gap := if content.isEmpty || 4 < column - start then 1 else column - start
  ({ l with text := content, indent := column }, start + gap)

/-- The content of a list item that starts with a line. An item that starts with two
    empty lines ends with them. -/
def itemContent (inner : Place → List Line → Reading) (place : Place) (l : Line)
    (marker : ItemMarker) (ls : List Line) : Reading :=
  let (first, margin) := itemStart l marker
  if first.isEmpty && (ls.head?.map Line.isEmpty).getD true then ([], min 2 (1 + ls.length))
  else inner { margin, outer := some place.margin } (first :: ls)

/-- The marker with which a line goes on with a list, if it does. -/
def nextMarker? (place : Place) (marker : ItemMarker) (l : Line) : Option ItemMarker :=
  if l.indent < place.margin || Fence.isIndented place.margin l || place.endsList l then none
  else marker.continuing? l.content

/-- The items of the list that starts with a line; `inner` reads the content of an
    item. The count is that of the further lines. -/
def items (inner : Place → List Line → Reading) (place : Place) (l : Line)
    (marker : ItemMarker) (ls : List Line) : Reading :=
  let (found, taken) := itemContent inner place l marker ls
  match h : ls.drop (taken - 1) with
  | [] => (found, taken - 1)
  | next :: rest =>
    match nextMarker? place marker next with
    | none => (found, taken - 1)
    | some marker =>
      let (more, extra) := items inner place next marker rest
      (found ++ more, taken - 1 + 1 + extra)
termination_by ls.length
decreasing_by
  have := congrArg List.length h
  simp only [List.length_drop, List.length_cons] at this
  omega

/-! ## Sequences -/

/-- The block that starts with a line: its fences, and the number of its further
    lines. -/
def block (inQuote inItem : Place → List Line → Reading) (place : Place) (l : Line)
    (ls : List Line) : Reading :=
  if Fence.isIndented place.margin l then ([], codeExtent place.margin ls)
  else match Fence.opening? place.margin l with
    | some (markup, info) =>
      let (fence, extra) := Fence.ofLines place.margin l markup info ls
      ([fence], extra)
    | none =>
      if startsQuote place.margin l then quote inQuote place l ls
      else if isThematicBreak place.margin l then ([], 0)
      else match place.listMarker? l with
        | some marker => items inItem place l marker ls
        | none => leaf place l ls

/-- Reads block after block. -/
def blocks (inQuote inItem : Place → List Line → Reading) (place : Place) :
    List Line → Reading
  | [] => ([], 0)
  | l :: ls =>
    if l.isEmpty then
      let (found, taken) := blocks inQuote inItem place ls
      (found, 1 + taken)
    else if l.indent < place.margin then ([], 0)
    else
      let (found, extra) := block inQuote inItem place l ls
      let (more, taken) := blocks inQuote inItem place (ls.drop extra)
      (found ++ more, 1 + extra + taken)
termination_by ls => ls.length
decreasing_by all_goals simp only [List.length_drop, List.length_cons]; omega

/-- Skips a whole sequence. -/
def skipped (place : Place) : List Line → Reading
  | [] => ([], 0)
  | l :: ls =>
    if l.isEmpty then
      let (found, taken) := skipped place ls
      (found, 1 + taken)
    else if l.indent < place.margin then ([], 0)
    else ([], 1 + ls.length)

/-- How many levels deep blocks are read. -/
def nestingLimit : Nat := 20

/-- Reads a sequence of blocks in which containers nest at most `depth` levels. -/
def sequence : (depth : Nat) → Place → List Line → Reading
  | 0 => skipped
  | 1 => blocks skipped skipped
  | depth + 2 => blocks (sequence (depth + 1)) (sequence depth)

/-- The fences of a document, in order. -/
def fences (t : Text) : List Fence :=
  (sequence nestingLimit {} (documentLines t)).1

end Markdown

end Transclude
