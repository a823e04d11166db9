import Transclude.Failure
import Transclude.Path

/-!
# The world of files

A *world* is a tree of directories and files, given by the names that lead from the
root directory to each of them. A path is looked up name by name: every name but the
last must be that of a directory, and `..` goes back to the directory above. Relative
paths start at the root directory too.

* `World.find`: what a path leads to, or why it leads nowhere;
* `World.readText`: the text of a file;
* `World.writeFile`, `World.ensureDirectory`: the world after a change.
-/

namespace Transclude

/-- What a path leads to. -/
inductive Entry where
  | directory
  | file (bytes : List UInt8)
  deriving DecidableEq, Repr

/-- Whether a path leads to a directory. -/
def Entry.isDirectory : Entry → Bool
  | directory => true
  | file _ => false

/-- A path that the file system refuses, and why. -/
structure Refusal where
  fault : FileFault
  path : Path
  deriving DecidableEq, Repr

/-- A refusal in words. -/
def Refusal.message (r : Refusal) : String :=
  r.fault.describe r.path.toText

/-- Directories and files by the names that lead to them. The root directory is not
    among them. -/
structure World where
  entries : List (List Text × Entry) := []
  deriving DecidableEq, Repr

namespace World

/-- What is at a place. -/
def entryAt? (w : World) (place : List Text) : Option Entry :=
  if place.isEmpty then some .directory
  else (w.entries.find? fun e => e.1 = place).map Prod.snd

/-- The world with an entry at a place, instead of what was there. -/
def put (w : World) (place : List Text) (entry : Entry) : World :=
  ⟨w.entries.filter (fun e => e.1 ≠ place) ++ [(place, entry)]⟩

/-- The world without what is at a place. -/
def remove (w : World) (place : List Text) : World :=
  ⟨w.entries.filter fun e => e.1 ≠ place⟩

/-- The world with an entry at a place, and with directories on the way to it. -/
def plant (w : World) (place : List Text) (entry : Entry) : World :=
  let parents := (List.range place.length).map place.take
  (parents.foldl (fun w parent =>
    if (w.entryAt? parent).isNone then w.put parent .directory else w) w).put place entry

/-! ## Looking up -/

/-- How many bytes a name may have. -/
def nameLimit : Nat := 255

/-- How many bytes a path must stay below. -/
def pathLimit : Nat := 4096

/-- Whether a name is too long. -/
def isLongName (name : Text) : Bool :=
  nameLimit < (Utf8.encode name).length

/-- Whether a path is too long. -/
def isLongPath (p : Path) : Bool :=
  pathLimit ≤ (Utf8.encode p.toText).length

/-- The place to which names lead from a place. -/
def walk (w : World) (here : List Text) : List Text → Except FileFault (List Text)
  | [] => .ok here
  | name :: rest =>
    match w.entryAt? here with
    | none => .error .notFound
    | some (.file _) => .error .notADirectory
    | some .directory =>
      if name = Path.parentName then walk w here.dropLast rest
      else if isLongName name then .error .nameTooLong
      else if (w.entryAt? (here ++ [name])).isNone then .error .notFound
      else walk w (here ++ [name]) rest

/-- The place to which a path leads. -/
def locate (w : World) (p : Path) : Except FileFault (List Text) :=
  if isLongPath p then .error .nameTooLong
  else w.walk [] p.components

/-- What a path leads to. -/
def find (w : World) (p : Path) : Except FileFault Entry :=
  match w.locate p with
  | .error fault => .error fault
  | .ok place =>
    match w.entryAt? place with
    | none => .error .notFound
    | some entry => .ok entry

/-- What a path leads to, if anything. A name that is too long is a fault even where one
    only asks. -/
def find? (w : World) (p : Path) : Except Refusal (Option Entry) :=
  match w.find p with
  | .ok entry => .ok (some entry)
  | .error .nameTooLong => .error ⟨.nameTooLong, p⟩
  | .error _ => .ok none

/-- Whether a path leads to a directory. -/
def isDirectory (w : World) (p : Path) : Except Refusal Bool :=
  (w.find? p).map fun found => (found.map Entry.isDirectory).getD false

/-- Whether a path leads to a file. -/
def isFile (w : World) (p : Path) : Except Refusal Bool :=
  (w.find? p).map fun found => (found.map fun entry => !entry.isDirectory).getD false

/-- The names in the directory at a place, and what they are. -/
def children (w : World) (place : List Text) : List (Text × Entry) :=
  w.entries.filterMap fun e =>
    match e.1.getLast? with
    | some name => if e.1.dropLast = place then some (name, e.2) else none
    | none => none

/-! ## Reading -/

/-- The bytes of a file. -/
def readBytes (w : World) (p : Path) : Except FileFault (List UInt8) :=
  match w.find p with
  | .error fault => .error fault
  | .ok .directory => .error .isADirectory
  | .ok (.file bytes) => .ok bytes

/-- The text of a file, with a line feed for every line break. -/
def readText (w : World) (p : Path) : Except ReadFault Text :=
  match w.readBytes p with
  | .error fault => .error (.refused fault)
  | .ok bytes =>
    match Utf8.decode bytes with
    | .error fault => .error (.undecodable fault)
    | .ok t => .ok (Text.unifyAllBreaks t)

/-- The text of a file for an import. -/
def read (w : World) (p : Path) : Except Failure Text :=
  if p.holdsNul then .error .nulInPath
  else (w.readText p).mapError fun fault => .unreadable p.toText fault

/-! ## Changing -/

/-- The directory and the name in it that a path means, for something new. The path may
    also lead to something that is there. -/
def slot (w : World) (p : Path) : Except FileFault (Option (List Text × Text)) :=
  match p.components.getLast? with
  | none => .ok none
  | some name =>
    if isLongPath p then .error .nameTooLong
    else match w.locate p.parent with
      | .error fault => .error fault
      | .ok place =>
        match w.entryAt? place with
        | none => .error .notFound
        | some (.file _) => .error .notADirectory
        | some .directory =>
          if name = Path.parentName then .ok none
          else if isLongName name then .error .nameTooLong
          else .ok (some (place, name))

/-- The world with a new directory, in a directory that is there. -/
def makeDirectory (w : World) (p : Path) : Except FileFault World :=
  match w.slot p with
  | .error fault => .error fault
  | .ok none => .error .alreadyExists
  | .ok (some (place, name)) =>
    if (w.entryAt? (place ++ [name])).isSome then .error .alreadyExists
    else .ok (w.put (place ++ [name]) .directory)

/-- The world with a new directory, unless there is one already. -/
def makeIfMissing (w : World) (p : Path) : Except Refusal World :=
  match w.makeDirectory p with
  | .ok w => .ok w
  | .error fault =>
    if (w.find p).toOption = some .directory then .ok w else .error ⟨fault, p⟩

/-- The world with a directory at a path that has `depth` names, and with the directories
    above it. -/
def ensureAtDepth (w : World) (root : Root) (names : List Text) : Nat → Except Refusal World
  | 0 => w.makeIfMissing ⟨root, names⟩
  | depth + 1 =>
    match w.makeDirectory ⟨root, names⟩ with
    | .error .notFound =>
      match ensureAtDepth w root names.dropLast depth with
      | .error refusal => .error refusal
      | .ok w => w.makeIfMissing ⟨root, names⟩
    | _ => w.makeIfMissing ⟨root, names⟩

/-- The world with a directory at a path, and with the directories above it. -/
def ensureDirectory (w : World) (p : Path) : Except Refusal World :=
  w.ensureAtDepth p.root p.components p.components.length

/-- The world with a file at a path, in a directory that is there. -/
def writeFile (w : World) (p : Path) (bytes : List UInt8) : Except Refusal World :=
  match w.slot p with
  | .error fault => .error ⟨fault, p⟩
  | .ok none => .error ⟨.isADirectory, p⟩
  | .ok (some (place, name)) =>
    match w.entryAt? (place ++ [name]) with
    | some .directory => .error ⟨.isADirectory, p⟩
    | _ => .ok (w.put (place ++ [name]) (.file bytes))

end World

end Transclude
