import Transclude.Failure
import Transclude.Path

/-!
# The sandbox

Imports may only come from below a *root directory*. A directive's path is first
*expanded*: a root token at its start becomes the root directory, and spaces lose
their backslashes. It is then seen from the directory of its document and
normalised. Whether the result lies inside the root directory is decided by the
names alone: the way from the root directory to it, as it is written, must not
start with `..`.

* `Sandbox.expand`: the path that a directive means;
* `Sandbox.inside`: whether a path lies inside a directory;
* `Sandbox.resolve`: the path to read, or why there is none.
-/

namespace Transclude

namespace Sandbox

/-- The text without the backslashes that stand before spaces. -/
def unescapeSpaces : Text → Text
  | [] => []
  | '\\' :: ' ' :: t => ' ' :: unescapeSpaces t
  | c :: t => c :: unescapeSpaces t

/-- The text with the root directory in place of a root token at its start. -/
def substituteRoot (rootToken root path : Text) : Text :=
  if rootToken.isPrefixOf path then root ++ path.drop rootToken.length else path

/-- The path that a directive means. The root directory is put in before the
    backslashes are taken out. -/
def expand (rootToken root path : Text) : Text :=
  unescapeSpaces (substituteRoot rootToken root path)

/-- The way from the directory `root` to `path`, as it is written. -/
def way (root path : Path) : Text :=
  Path.toText ⟨.relative, Path.relative root.resolved.components path.resolved.components⟩

/-- Whether a way leads out of the directory where it begins: it is `..`, or starts with `..`
    and a slash. -/
def leadsOut (way : Text) : Bool :=
  way = Path.parentName || (Path.parentName ++ ['/']).isPrefixOf way

/-- Whether `path` lies inside the directory `root`, or is that directory. -/
def inside (root path : Path) : Bool :=
  !leadsOut (way root path) && !(Path.ofText (way root path)).isAbsolute

/-- Whether the path that a text writes lies inside the root directory. No path is
    written by the empty text. -/
def contains (root path : Text) : Bool :=
  !path.isEmpty && inside (.ofText root) (.ofText path)

/-- The path that a directive of a document in the directory `base` means. -/
def target (rootToken root : Text) (base : Path) (path : Text) : Path :=
  (base.resolved.append (.ofText (expand rootToken root path))).normalize

/-- The path to read for a directive, if it lies inside the root directory or
    `allowOutside` lifts the condition. -/
def resolve (rootToken root : Text) (allowOutside : Bool) (base : Path) (path : Text) :
    Except Failure Path :=
  let found := target rootToken root base path
  if allowOutside || inside (.ofText root) found then .ok found
  else .error (.outsideRoot found.toText root)

/-- The outcome of a resolution as it is shown to the user. -/
def describe (path : Text) (found : Path) : String :=
  s!"Resolved {String.ofList (Text.quoted path)} to {String.ofList found.toText}"

end Sandbox

end Transclude
