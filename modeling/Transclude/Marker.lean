import Transclude.Table
import Transclude.Text.Blank
import Transclude.Text.WordChar

/-!
# Markers

A *marker* is a line that holds the marker token, white space and the name of a
group. The token may occur in a line several times; the first occurrence that
white space and a name follow makes the marker.

The positions of the markers of a file are kept by group (`MarkerIndex`), and a
`MarkerCursor` hands them out in pairs: each pair delimits one section of its
group.

* `Marker.groupOf`: the group that a line marks;
* `MarkerIndex.ofLines`: the positions of all markers;
* `MarkerCursor.take?`: the next pair of a group.
-/

namespace Transclude

namespace Marker

/-- Whether a character can stand in the name of a group. -/
def isNameChar (c : Char) : Bool :=
  Text.isWordChar c || c = '_' || c = '-'

/-- The name at the start of a text, if white space and a name stand there. The
    name is as long as can be. -/
def nameAfter (t : Text) : Option Text :=
  let blanks := t.takeWhile Text.isBlank
  let name := (t.dropWhile Text.isBlank).takeWhile isNameChar
  if blanks.isEmpty || name.isEmpty then none else some name

/-- The name at the start of a text, if the token and then a name stand there. -/
def nameAt (token t : Text) : Option Text :=
  if token.isPrefixOf t then nameAfter (t.drop token.length) else none

/-- The group that a line marks, if it marks one: that of the leftmost occurrence
    of the token that a name follows. -/
def groupOf (token : Text) : Text → Option Text
  | [] => nameAt token []
  | c :: t =>
    match nameAt token (c :: t) with
    | some name => some name
    | none => groupOf token t

/-- The group that a line marks. Lines without the token are not looked at. -/
def groupOfLine (token line : Text) : Option Text :=
  if Text.occursIn token line then groupOf token line else none

end Marker

/-- The positions of the markers of a file. -/
structure MarkerIndex where
  /-- For each group the numbers of its lines, counted from zero and ascending;
      the groups stand in the order of their first markers. -/
  positions : Table (List Nat) := []
  deriving DecidableEq, Repr

namespace MarkerIndex

/-- The positions of a group's markers; a group without markers has none. -/
def get (index : MarkerIndex) (group : Text) : List Nat :=
  (Table.lookup group index.positions).getD []

/-- The index with one more marker of a group. -/
def insert (index : MarkerIndex) (group : Text) (position : Nat) : MarkerIndex :=
  ⟨Table.put group (index.get group ++ [position]) index.positions⟩

/-- The index with the markers among lines of which the first has this number. -/
def addLines (token : Text) (index : MarkerIndex) : Nat → List Text → MarkerIndex
  | _, [] => index
  | n, line :: rest =>
    match Marker.groupOfLine token line with
    | none => addLines token index (n + 1) rest
    | some group => addLines token (index.insert group n) (n + 1) rest

/-- The positions of the markers among the lines. -/
def ofLines (token : Text) (ls : List Text) : MarkerIndex :=
  addLines token {} 0 ls

end MarkerIndex

/-- How much of a marker index was handed out. -/
structure MarkerCursor where
  index : MarkerIndex
  /-- For each group how many of its positions were handed out. -/
  consumed : Table Nat := []
  deriving DecidableEq, Repr

namespace MarkerCursor

/-- How many positions of a group were handed out. -/
def count (cursor : MarkerCursor) (group : Text) : Nat :=
  (Table.lookup group cursor.consumed).getD 0

/-- The next two positions of a group and the cursor after they were handed out,
    if two are left. -/
def take? (cursor : MarkerCursor) (group : Text) : Option ((Nat × Nat) × MarkerCursor) :=
  let offset := cursor.count group
  match (cursor.index.get group).drop offset with
  | start :: stop :: _ =>
    some ((start, stop), { cursor with consumed := Table.put group (offset + 2) cursor.consumed })
  | _ => none

end MarkerCursor

end Transclude
