import Transclude.Text.Basic

/-!
# Paths

A path is a root and a list of *components*. A path that starts with exactly two
slashes keeps both; any other number of slashes at its start means the same as
one. Empty components and the component `.` mean nothing and are dropped when a
path is read; the component `..` stays until the path is *normalised*, which
collapses it against the component before it without looking at any file.

Relative paths are relative to the working directory, which is taken to be `/`.

* `Path.ofText`, `Path.toText`: reading and writing a path;
* `Path.normalize`: no `..`, except at the start of a relative path;
* `Path.relative`: the way from one directory to a path.
-/

namespace Transclude

/-- What a path starts from. -/
inductive Root where
  /-- Wherever the reader of the path stands. -/
  | relative
  /-- The root directory, written `/`. -/
  | absolute
  /-- The root directory, written `//`. -/
  | doubled
  deriving DecidableEq, Repr

/-- A path taken apart. -/
structure Path where
  /-- What the components start from. -/
  root : Root
  /-- The names between the slashes. -/
  components : List Text
  deriving DecidableEq, Repr

namespace Path

/-- The component that stands for the parent directory. -/
def parentName : Text := ['.', '.']

/-- The root that a text with this many slashes at its start has. -/
def rootOfSlashes : Nat → Root
  | 0 => .relative
  | 2 => .doubled
  | _ => .absolute

/-- The path that a text writes. -/
def ofText (t : Text) : Path where
  root := rootOfSlashes (t.takeWhile (· = '/')).length
  components := (Text.splitAt '/' t).filter fun name => name ≠ [] && name ≠ ['.']

/-- The slashes with which a path starts. -/
def rootText : Root → Text
  | .relative => []
  | .absolute => ['/']
  | .doubled => ['/', '/']

/-- The text of a path. The relative path without components is `.`. -/
def toText (p : Path) : Text :=
  if p.root = .relative && p.components.isEmpty then ['.']
  else rootText p.root ++ Text.join '/' p.components

/-- Whether a path starts at the root directory. -/
def isAbsolute (p : Path) : Bool :=
  p.root ≠ .relative

/-- Whether a path holds the character NUL, which no file name can. -/
def holdsNul (p : Path) : Bool :=
  p.components.any fun name => name.elem '\x00'

/-- The path `q` as seen from the directory `p`: an absolute path does not depend
    on where it is seen from. -/
def append (p q : Path) : Path :=
  if q.isAbsolute then q else ⟨p.root, p.components ++ q.components⟩

/-- The path as seen from the working directory, which is taken to be `/`. -/
def absolute (p : Path) : Path :=
  append ⟨.absolute, []⟩ p

/-- The path without its last component. -/
def parent (p : Path) : Path :=
  { p with components := p.components.dropLast }

/-- The last component; empty if there is none. -/
def name (p : Path) : Text :=
  p.components.getLast?.getD []

/-! ## Collapsing -/

/-- One more component after those of `seen`, which stand in reverse order and
    start at the root directory if `rooted`. The parent of the root directory is
    the root directory itself. -/
def collapseStep (rooted : Bool) (seen : List Text) (name : Text) : List Text :=
  if name ≠ parentName then name :: seen
  else match seen with
    | [] => if rooted then [] else [parentName]
    | last :: rest => if last = parentName then parentName :: seen else rest

/-- The components without those that a later `..` takes back. -/
def collapse (rooted : Bool) (names : List Text) : List Text :=
  (names.foldl (collapseStep rooted) []).reverse

/-- The path with every `..` collapsed against the component before it. -/
def normalize (p : Path) : Path :=
  { p with components := collapse p.isAbsolute p.components }

/-- The normalised path as seen from the working directory. -/
def resolved (p : Path) : Path :=
  p.absolute.normalize

/-! ## Relative paths -/

/-- The components that lead from the directory `base` to `target`, both given by
    their components: one `..` for every component of `base` that is not shared,
    then the rest of `target`. -/
def relative : (base target : List Text) → List Text
  | b :: base, t :: target =>
    if b = t then relative base target
    else (b :: base).map (fun _ => parentName) ++ t :: target
  | base, target => base.map (fun _ => parentName) ++ target

end Path

end Transclude
