import Transclude.CommandLine
import Transclude.Run

/-!
# The program

The program reads its command line, makes sure that there are an output and an input
directory, in this order, and runs. What it answers with is a *report*: how it ended, what
it said, and the world that it left behind. Of the notices of a run it says those that the
verbosity of the command line asks for.

* `Program.run`: the report of a command line.
-/

namespace Transclude

/-- How the program ends. -/
inductive Ending where
  | exit (code : Nat)
  | breakdown (b : Breakdown)
  deriving DecidableEq, Repr

/-- What the program answers with. -/
structure Report where
  ending : Ending
  /-- What it wrote to the standard output. -/
  output : String := ""
  /-- What it wrote for the user beside its notices. -/
  errors : String := ""
  notices : List Notice := []
  /-- The world that it left behind. -/
  world : World

namespace Program

/-- The name of the program. -/
def name : String := "codeimport"

/-- The version of the program. -/
def version : String := "1.0.0"

/-- How the program is used. -/
def usage : String :=
  s!"usage: {name} [-h] [--pattern PATTERN] [--config CONFIGFILE] [--rootDir ROOTDIR] [--async]\n" ++
  "                  [--preserveTrailingNewline] [--removeRedundantIndentations]\n" ++
  "                  [--allowImportingFromOutside] [-v] [-V]\n" ++
  "                  inputdir outputdir\n"

/-- The report of a command line whose reading was interrupted. -/
def interrupted (w : World) : Interruption → Report
  | .help => { ending := .exit 0, output := usage, world := w }
  | .version => { ending := .exit 0, output := s!"{name} {version}\n", world := w }
  | .wordlessDirectory => { ending := .breakdown .wordlessDirectory, world := w }
  | .error e =>
    { ending := .exit 2, errors := usage ++ s!"{name}: error: {e.message}\n", world := w }

/-- How a path that is no directory stops the program. -/
def notADirectory (p : Path) : Stop :=
  .exit 1 s!"Not a directory: {String.ofList p.toText}\n"

/-- Makes sure that there is an output directory. -/
def ensureOutput (w : World) (p : Path) : Except Stop World :=
  match w.find? p with
  | .error refusal => .error (.breakdown (.refused refusal))
  | .ok (some .directory) => .ok w
  | .ok (some (.file _)) => .error (notADirectory p)
  | .ok none =>
    if p.holdsNul then .error (.breakdown .nulInOutput)
    else (w.ensureDirectory p).mapError fun refusal => .breakdown (.refused refusal)

/-- Makes sure that there is an input directory. -/
def checkInput (w : World) (p : Path) : Except Stop Unit :=
  match w.isDirectory p with
  | .error refusal => .error (.breakdown (.refused refusal))
  | .ok true => .ok ()
  | .ok false => .error (notADirectory p)

/-- Makes sure that there are the directories of a request. -/
def ensureDirectories (r : Request) (w : World) : Stage Unit :=
  match r.outputDir.map (ensureOutput w) with
  | some (.error stop) => ⟨.error stop, w, []⟩
  | some (.ok w) => ⟨(r.inputDir.map (checkInput w)).getD (.ok ()), w, []⟩
  | none => ⟨.ok (), w, []⟩

/-- The report of a run. -/
def reportOf (verbosity : Int) (s : Stage Unit) : Report :=
  let notices := s.notices.filter (·.isShown verbosity)
  match s.result with
  | .ok () => { ending := .exit 0, notices, world := s.world }
  | .error (.exit code errors) => { ending := .exit code, errors, notices, world := s.world }
  | .error (.breakdown b) => { ending := .breakdown b, notices, world := s.world }

/-- The report of a request. -/
def answer (base : Settings) (r : Request) (w : World) : Report :=
  reportOf r.verbosity ((ensureDirectories r w).andThen fun w () => Run.run r base w)

/-- What a command line asks for. The settings give the pattern where it gives none. -/
def requestOf (base : Settings) (arguments : List Text) : Except Interruption Request :=
  CommandLine.parse { pattern := base.documentGlob } arguments

/-- The report of a command line. -/
def run (base : Settings) (arguments : List Text) (w : World) : Report :=
  match requestOf base arguments with
  | .error interruption => interrupted w interruption
  | .ok request => answer base request w

end Program

end Transclude
