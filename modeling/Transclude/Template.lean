import Transclude.Marker
import Transclude.Notice

/-!
# Templates

The old body of a fence can serve as a *template*: a line that marks a group
stands for the next section of that group in the imported file, any other line
for itself. A section lies strictly between two markers of its group. A reference
that finds no two markers left contributes nothing and is reported as missing.

* `Template.elements`: the elements of a template;
* `Template.replay`: the template with sections in place of references.
-/

namespace Transclude

/-- A line of a template. -/
inductive Element where
  /-- The line stands for itself. -/
  | text (line : Text)
  /-- The line stands for the next section of a group. -/
  | reference (group : Text)
  deriving DecidableEq, Repr

/-- What a template or a line range takes from a file. -/
structure Extraction where
  text : Text
  /-- The groups of the references that found no section, in order. -/
  missing : List Text := []
  /-- What there is to say about it. -/
  notices : List Notice := []
  deriving DecidableEq, Repr

namespace Template

/-- The element that a line of a template is. -/
def element (token line : Text) : Element :=
  match Marker.groupOfLine token line with
  | none => .text line
  | some group => .reference group

/-- The elements of a template. -/
def elements (token template : Text) : List Element :=
  (Text.lines template).map (element token)

/-- The output of a replay, line by line. -/
structure Output where
  lines : List Text := []
  missing : List Text := []
  notices : List Notice := []

/-- Two outputs, one after the other. -/
def Output.append (a b : Output) : Output :=
  ⟨a.lines ++ b.lines, a.missing ++ b.missing, a.notices ++ b.notices⟩

/-- The lines strictly between two positions. -/
def between (ls : List Text) (start stop : Nat) : List Text :=
  (ls.take stop).drop (start + 1)

/-- What one element contributes, and the cursor after it. -/
def step (ls : List Text) (cursor : MarkerCursor) : Element → Output × MarkerCursor
  | .text line => (⟨[line], [], []⟩, cursor)
  | .reference group =>
    let name := String.ofList group
    match cursor.take? group with
    | none => (⟨[], [group], [.warning s!"Group {name} not found in document"]⟩, cursor)
    | some ((start, stop), cursor) =>
      let notice := .note 3 s!"Group {name}: lines {start + 1}-{stop + 1}"
      (⟨between ls start stop, [], [notice]⟩, cursor)

/-- What the elements contribute, one after the other. -/
def run (ls : List Text) (cursor : MarkerCursor) : List Element → Output
  | [] => {}
  | e :: rest =>
    let (output, cursor) := step ls cursor e
    output.append (run ls cursor rest)

/-- The template with sections of the file in place of its references. -/
def replay (token : Text) (ls : List Text) (es : List Element) : Extraction :=
  let output := run ls ⟨.ofLines token ls, []⟩ es
  ⟨Text.unlines output.lines, output.missing, output.notices⟩

end Template

end Transclude
