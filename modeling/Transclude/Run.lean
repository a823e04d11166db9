import Transclude.Glob
import Transclude.Import
import Transclude.Request

/-!
# Runs

A run has three stages: it finds the documents and settles how to import (`prepare`), it
imports code into one document after the other and writes the results (`importAll`), and
it reports what it did (`report`). A stage may stop the run, with an exit code and a text
or because something is broken; what was written before stays written.

The documents of a run are the files that its glob selects below the input directory, in
the order of their names. The result of a document goes to the place below the output
directory that the document has below the input directory.

* `Run.documents`: the documents of a run;
* `Run.prepare`, `Run.importAll`, `Run.report`: the stages;
* `Run.run`: all of them.
-/

namespace Transclude

/-- Why a run breaks down. -/
inductive Breakdown where
  | configuration (fault : ConfigFault)
  | glob (fault : GlobFault)
  | failedImport (failure : Failure)
  | refused (refusal : Refusal)
  /-- The path of a result holds the character NUL, which no file name can. -/
  | nulInOutput
  /-- There is nowhere to put the results. -/
  | noOutputDirectory
  /-- The command line leaves a directory without a word. -/
  | wordlessDirectory
  deriving DecidableEq, Repr

/-- A breakdown in words. -/
def Breakdown.message : Breakdown → String
  | configuration fault => fault.message
  | glob fault => fault.message
  | failedImport failure => failure.message
  | refused refusal => refusal.message
  | nulInOutput => Failure.nulInPath.message
  | noOutputDirectory => "expected str, bytes or os.PathLike object, not NoneType"
  | wordlessDirectory => "not enough values to unpack (expected 1, got 0)"

/-- How a run stops early. -/
inductive Stop where
  /-- With an exit code and a text for the user. -/
  | exit (code : Nat) (text : String)
  | breakdown (b : Breakdown)
  deriving DecidableEq, Repr

/-- A part of a run: its result, or how it stopped, and what it left behind. -/
structure Stage (α : Type) where
  result : Except Stop α
  world : World
  notices : List Notice := []

namespace Stage

variable {α β : Type}

/-- Goes on with the result, if there is one, in the world that was left behind. -/
def andThen (s : Stage α) (next : World → α → Stage β) : Stage β :=
  match s.result with
  | .error stop => ⟨.error stop, s.world, s.notices⟩
  | .ok a =>
    let t := next s.world a
    ⟨t.result, t.world, s.notices ++ t.notices⟩

/-- Does something to the result, if there is one. -/
def map (f : α → β) (s : Stage α) : Stage β :=
  ⟨s.result.map f, s.world, s.notices⟩

/-- The stage after something was said. -/
def saying (notices : List Notice) (s : Stage α) : Stage α :=
  { s with notices := notices ++ s.notices }

end Stage

namespace Run

/-! ## Preparing -/

/-- The banner of the program. -/
def banner : String := "\n".intercalate [
    "",
    "                  _       _                            _",
    "   ___ ___   __| | ___ (_)_ __ ___  _ __   ___  _ __| |_",
    "  / __/ _ \\ / _\x60 |/ _ \\| | '_ \x60 _ \\| '_ \\ / _ \\| '__| __|",
    " | (_| (_) | (_| |  __/| | | | | | | |_) | (_) | |  | |_",
    "  \\___\\___/ \\__,_|\\___||_|_| |_| |_| .__/ \\___/|_|   \\__|",
    "                                   |_|",
    "  Source files into Markdown code blocks",
    ""]

/-- What a run is about to do. -/
structure Plan where
  settings : Settings
  /-- The documents, each with the path of its result. -/
  documents : List (Path × Path)
  deriving DecidableEq, Repr

/-- The path of the result of a document. -/
def outputOf (input output document : Path) : Path :=
  output.append ⟨.relative, document.components.drop input.components.length⟩

/-- Whether one path comes before another, or is the same: they are compared name by
    name. -/
def comesBefore (p q : Path) : Bool :=
  !q.components.lex p.components fun s t => s.lex t fun c d => c < d

/-- The paths that lead to files. -/
def filesAmong (w : World) (paths : List Path) : Except Refusal (List Path) :=
  paths.filterM fun p => w.isFile p

/-- The documents that a glob selects below a directory, in order. -/
def documents (w : World) (input : Path) (pattern : Text) : Except Breakdown (List Path) :=
  match Glob.ofText pattern with
  | .error fault => .error (.glob fault)
  | .ok glob =>
    match glob.select w input with
    | .error refusal => .error (.refused refusal)
    | .ok found => (filesAmong w (found.mergeSort comesBefore)).mapError .refused

/-- How a configuration that cannot be used stops a run. -/
def configurationStop (fault : ConfigFault) : Stop :=
  if fault.isConfiguration then .exit 1 s!"Configuration error: {fault.message}\n"
  else .breakdown (.configuration fault)

/-- The documents of a run and the paths of their results. -/
def plan (w : World) (r : Request) (input : Path) (settings : Settings) : Stage Plan :=
  match r.outputDir with
  | none => ⟨.error (.breakdown .noOutputDirectory), w, []⟩
  | some output =>
    match documents w input r.pattern with
    | .error b => ⟨.error (.breakdown b), w, []⟩
    | .ok found =>
      let pairs := found.map fun document => (document, outputOf input output document)
      let message := s!"Found {pairs.length} documents matching {String.ofList r.pattern}"
      ⟨.ok ⟨settings, pairs⟩, w, [.note 2 message]⟩

/-- Checks what a request asks for, and finds the documents. -/
def prepare (r : Request) (base : Settings) (w : World) : Stage Plan :=
  let opening : List Notice := [.note 2 banner, .note 2 "Checking environment..."]
  let noInput (shown : String) : Stage Plan :=
    ⟨.error (.exit 1 s!"Error: Input directory not found: {shown}\n"), w, opening⟩
  match r.inputDir with
  | none => noInput "None"
  | some input =>
    match w.isDirectory input with
    | .error refusal => ⟨.error (.breakdown (.refused refusal)), w, opening⟩
    | .ok false => noInput (String.ofList input.toText)
    | .ok true =>
      match r.settings w base with
      | .error fault => ⟨.error (configurationStop fault), w, opening⟩
      | .ok settings =>
        let root := Notice.note 2 s!"Sandbox root: {String.ofList settings.root}"
        (plan w r input settings).saying (opening ++ [root])

/-! ## Importing -/

/-- How a failed import stops a run. -/
def importStop (failure : Failure) : Stop :=
  if failure.isImportError then .exit 1 s!"Import error: {failure.message}\n"
  else .breakdown (.failedImport failure)

/-- Makes the directory for the result of a document. -/
def makeRoom (w : World) (output : Path) : Stage Unit :=
  if output.parent.holdsNul then ⟨.error (.breakdown .nulInOutput), w, []⟩
  else match w.ensureDirectory output.parent with
    | .error refusal => ⟨.error (.breakdown (.refused refusal)), w, []⟩
    | .ok w => ⟨.ok (), w, []⟩

/-- Puts the result of a document into a directory that is there. -/
def putResult (w : World) (output : Path) (text : Text) : Stage Unit :=
  if output.holdsNul then ⟨.error (.breakdown .nulInOutput), w, []⟩
  else match w.writeFile output (Utf8.encode text) with
    | .error refusal => ⟨.error (.breakdown (.refused refusal)), w, []⟩
    | .ok w => ⟨.ok (), w, []⟩

/-- Writes the result of a document. -/
def writeResult (w : World) (output : Path) (text : Text) : Stage Unit :=
  (makeRoom w output).andThen fun w () => putResult w output text

/-- Imports code into one document and writes the result. -/
def importOne (settings : Settings) (w : World) (document output : Path) : Stage Imported :=
  let o := Import.file settings settings.root w.read document
  match o.result with
  | .error failure => ⟨.error (importStop failure), w, o.trace.notices⟩
  | .ok imported =>
    let message :=
      s!"{String.ofList document.name}: {imported.count} code blocks imported"
    ((writeResult w output imported.text).andThen fun w () =>
      ⟨.ok imported, w, [.note 2 message]⟩).saying o.trace.notices

/-- Imports code into one document after the other; gives the results by the paths to
    which they were written. -/
def importEach (settings : Settings) (w : World) :
    List (Path × Path) → Stage (List (Path × Imported))
  | [] => ⟨.ok [], w, []⟩
  | (document, output) :: rest =>
    (importOne settings w document output).andThen fun w imported =>
      (importEach settings w rest).map ((output, imported) :: ·)

/-- Imports code into the documents of a plan. The root directory must be absolute. -/
def importAll (p : Plan) (w : World) : Stage (List (Path × Imported)) :=
  let imports : Stage (List (Path × Imported)) :=
    match p.settings.checkedRoot with
    | .error root =>
      ⟨.error (.exit 1 s!"Import error: {(ConfigFault.relativeRoot root).message}\n"), w, []⟩
    | .ok _ => importEach p.settings w p.documents
  imports.saying [.note 1 "Importing code into documents..."]

/-! ## Reporting -/

/-- What there is to say about the results of a run. -/
def report (results : List (Path × Imported)) : List Notice :=
  let count := results.foldl (fun count entry => count + entry.2.count) 0
  [.note 1 "\n✓ Import complete!",
   .note 1 s!"  Documents: {results.length}",
   .note 1 s!"  Code blocks: {count}"] ++
  results.flatMap fun (output, imported) =>
    imported.diagnostics.map fun message =>
      .note 1 s!"  {String.ofList output.toText}: {message}"

/-- All stages of a run. -/
def run (r : Request) (base : Settings) (w : World) : Stage Unit :=
  ((prepare r base w).andThen fun w p => importAll p w).andThen fun w results =>
    ⟨.ok (), w, report results⟩

end Run

end Transclude
