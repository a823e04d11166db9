import Transclude.Program

/-!
# The command line program

The program works on a world of files, so the files that a run can ask for are read before
it starts: the input and the output directory, the options file, and what the directives of
the documents name. What the run changed in that world is written afterwards.

* `main`: the program.
-/

namespace Transclude

namespace Shell

/-- The world with what is on the disk at a path, and below it. -/
partial def load (w : World) (p : Path) : IO World := do
  let place := (← IO.currentDir) / String.ofList p.absolute.toText
  if ← place.isDir then
    let mut w := w.plant p.components .directory
    for entry in ← place.readDir do
      w ← load w (p.append ⟨.relative, [entry.fileName.toList]⟩)
    return w
  else if ← place.pathExists then
    return w.plant p.components (.file (← IO.FS.readBinFile place).toList)
  else return w

/-- The world with the directories and files on the disk that lie on the way to a path. -/
def loadWay (w : World) (p : Path) : IO World := do
  let mut w := w
  for n in List.range p.components.length do
    let above : Path := ⟨.absolute, p.components.take n⟩
    let place := (← IO.currentDir) / String.ofList above.toText
    if ← place.isDir then
      w := w.plant above.components .directory
    else if ← place.pathExists then
      w := w.plant above.components (.file [])
  return w

/-- The world with all that is on the disk at some paths. -/
def loadAll (w : World) (paths : List Path) : IO World :=
  paths.foldlM (fun w p => do load (← loadWay w p) p) w

/-- The files that the documents of a run name. -/
def named (plan : Run.Plan) (w : World) : List Path :=
  plan.documents.flatMap fun (document, _) =>
    match w.read document with
    | .error _ => []
    | .ok text =>
      (Import.sequential plan.settings plan.settings.root (fun _ => .ok [])
        (Import.baseDirectory (some document)) text).trace.reads

/-- The world of files that a request can ask for. -/
def worldOf (base : Settings) (r : Request) : IO World := do
  let config := (Request.given? r.configFile).map Path.ofText
  let w ← loadAll {} (r.inputDir.toList ++ r.outputDir.toList ++ config.toList)
  match (Run.prepare r base w).result with
  | .ok plan => loadAll w (named plan w)
  | .error _ => return w

/-- Writes what is new in a world to the disk. -/
def save (before after : World) : IO Unit := do
  for (place, entry) in after.entries do
    if before.entryAt? place ≠ some entry then
      let path := String.ofList (Path.toText ⟨.absolute, place⟩)
      match entry with
      | .directory => IO.FS.createDirAll path
      | .file bytes => IO.FS.writeBinFile path ⟨bytes.toArray⟩

/-- Says what a report says, and gives its exit code. -/
def tell (r : Report) : IO UInt32 := do
  IO.print r.output
  IO.eprint r.errors
  for notice in r.notices do
    IO.eprintln s!"{notice.severity}: {notice.message}"
  match r.ending with
  | .exit code => return code.toUInt32
  | .breakdown b =>
    IO.eprintln b.message
    return 1

/-- The settings in the environment. -/
def environment : IO (List (Text × Text)) := do
  let found ← Field.all.mapM fun field => do
    let name := (Settings.variableStem ++ field.name).map Char.toUpper
    return (← IO.getEnv (String.ofList name)).map fun value => (name, value.toList)
  return found.filterMap id

/-- Answers a command line. -/
def run (arguments : List Text) : IO UInt32 := do
  match Settings.initial (← environment) [] with
  | .error bad =>
    IO.eprintln (BadValue.describeAll bad)
    return 1
  | .ok base =>
    match Program.requestOf base arguments with
    | .error interruption => tell (Program.interrupted {} interruption)
    | .ok request =>
      let here := Path.ofText (← IO.currentDir).toString.toList
      let request := if here.components.isEmpty then request else request.seenFrom here
      let before ← worldOf base request
      let report := Program.answer base request before
      save before report.world
      tell report

end Shell

end Transclude

/-- Imports code into the documents of a directory. -/
def main (arguments : List String) : IO UInt32 :=
  Transclude.Shell.run (arguments.map String.toList)
