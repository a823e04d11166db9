import Transclude.Glob.Name
import Transclude.World

/-!
# Globs

A *glob* selects paths below a directory. It is a relative path whose names can be
patterns, and the name `**` stands for any number of directories. A glob that ends in a
slash selects directories only.

A name without a wildcard is looked up, so it may be `..` and lead out of the directory; a
pattern is compared with the names that are there.

* `Glob.ofText`: the glob that a text writes;
* `Glob.select`: the paths that it selects.
-/

namespace Transclude

/-- One name of a glob. -/
inductive GlobStep where
  /-- Any number of directories. -/
  | anyDepth
  /-- The names that a pattern matches. -/
  | pattern (p : NamePattern)
  /-- This name. -/
  | name (n : Text)
  deriving DecidableEq, Repr

/-- A glob, name by name. -/
structure Glob where
  steps : List GlobStep
  /-- Whether it ends in a slash. -/
  endsInSlash : Bool
  deriving DecidableEq, Repr

/-- Why a text is no glob, or why a glob selects nothing. -/
inductive GlobFault where
  /-- There is no text. -/
  | empty
  /-- The path is not relative. -/
  | absolute
  /-- `**` is only a part of a name. -/
  | partialDepth
  /-- There is no name. -/
  | noName
  /-- There is no name before a slash. -/
  | noNameBeforeSlash
  /-- The file system refuses a path. -/
  | refused (refusal : Refusal)
  deriving DecidableEq, Repr

/-- A fault in words. -/
def GlobFault.message : GlobFault → String
  | empty => "Unacceptable pattern: ''"
  | absolute => "Non-relative patterns are unsupported"
  | partialDepth => "Invalid pattern: '**' can only be an entire path component"
  | noName => "tuple index out of range"
  | noNameBeforeSlash => "'_TerminatingSelector' object has no attribute 'select_from'"
  | refused refusal => refusal.message

namespace Glob

/-- The name that stands for any number of directories. -/
def anyDepthName : Text := ['*', '*']

/-- What a name of a glob stands for. -/
def step (name : Text) : Except GlobFault GlobStep :=
  if name = anyDepthName then .ok .anyDepth
  else if Text.occursIn anyDepthName name then .error .partialDepth
  else if name.any fun c => c = '*' || c = '?' || c = '[' then .ok (.pattern (.ofText name))
  else .ok (.name name)

/-- The glob that a text writes. -/
def ofText (t : Text) : Except GlobFault Glob :=
  let p := Path.ofText t
  let endsInSlash := t.getLast? = some '/'
  if t.isEmpty then .error .empty
  else if p.isAbsolute then .error .absolute
  else if p.components.isEmpty then
    .error (if endsInSlash then .noNameBeforeSlash else .noName)
  else (p.components.mapM step).map fun steps => ⟨steps, endsInSlash⟩

/-- A path and one more name. -/
def child (p : Path) (name : Text) : Path :=
  { p with components := p.components ++ [name] }

/-- The directories below a path, and the path itself. -/
def directoriesBelow (w : World) (p : Path) : List Path :=
  match w.locate p with
  | .error _ => [p]
  | .ok place =>
    p :: w.entries.filterMap fun e =>
      if e.2.isDirectory && place.isPrefixOf e.1 && place.length < e.1.length then
        some { p with components := p.components ++ e.1.drop place.length }
      else none

/-- The names in the directory to which a path leads, and what they are. -/
def namesIn (w : World) (p : Path) : List (Text × Entry) :=
  match w.locate p with
  | .error _ => []
  | .ok place => w.children place

/-- The paths that the rest of a glob selects below a path. -/
def selectFrom (w : World) (endsInSlash : Bool) : List GlobStep → Path →
    Except Refusal (List Path)
  | [], p => .ok [p]
  | .name n :: rest, p => do
    let p := child p n
    let isLast := rest.isEmpty && !endsInSlash
    let found ← if isLast then (w.find? p).map Option.isSome else w.isDirectory p
    if found then selectFrom w endsInSlash rest p else return []
  | .pattern pat :: rest, p => do
    let wantsDirectory := !rest.isEmpty || endsInSlash
    let fitting := (namesIn w p).filter fun (name, entry) =>
      pat.fits name && (entry.isDirectory || !wantsDirectory)
    let found ← fitting.mapM fun (name, _) => selectFrom w endsInSlash rest (child p name)
    return found.flatten
  | .anyDepth :: rest, p => do
    let found ← (directoriesBelow w p).mapM (selectFrom w endsInSlash rest)
    return found.flatten.eraseDups

/-- The paths that a glob selects below a directory. -/
def select (w : World) (directory : Path) (g : Glob) : Except Refusal (List Path) := do
  if ← w.isDirectory directory then selectFrom w g.endsInSlash g.steps directory else return []

end Glob

end Transclude
