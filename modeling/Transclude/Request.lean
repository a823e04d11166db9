import Transclude.Options

/-!
# Requests

A *request* is what the command line asks of a run: where the documents are, where the
results go, and how to import. Its settings are the last layer: they lie over those of the
environment and of an options file. A flag turns a switch on and never off. Where nothing
sets a root directory, the input directory is the root directory.

* `Request.layer`: the settings under those of a request;
* `Request.settings`: the settings of a run.
-/

namespace Transclude

/-- What the command line asks of a run. -/
structure Request where
  /-- The directory of the documents. -/
  inputDir : Option Path := none
  /-- The directory of the results. -/
  outputDir : Option Path := none
  /-- How much detail is asked for. -/
  verbosity : Int := 1
  /-- The glob that the documents match. -/
  pattern : Text := ({} : Settings).documentGlob
  /-- The path of the options file. -/
  configFile : Option Text := none
  /-- The root directory. -/
  rootDir : Option Text := none
  readsTogether : Bool := false
  keepsFinalBreak : Bool := false
  dedents : Bool := false
  allowsOutside : Bool := false
  deriving DecidableEq, Repr

namespace Request

/-- The request as it is meant in a directory: relative paths are seen from there. -/
def seenFrom (directory : Path) (r : Request) : Request :=
  { r with
    inputDir := r.inputDir.map directory.append
    outputDir := r.outputDir.map directory.append
    configFile := r.configFile.map fun path => (directory.append (.ofText path)).toText }

/-- A text that is given and not empty. -/
def given? : Option Text → Option Text
  | some [] => none
  | t => t

/-- The root directory under a request: the one it asks for, or else the one that is set,
    or else the input directory. -/
def rootUnder (r : Request) (base : Settings) : Option Text :=
  match given? r.rootDir with
  | some root => some root
  | none =>
    match given? base.rootDir, r.inputDir with
    | none, some directory => some directory.absolute.toText
    | _, _ => base.rootDir

/-- The settings under those of a request. -/
def layer (r : Request) (base : Settings) : Settings :=
  { base with
    rootDir := r.rootUnder base
    readsTogether := r.readsTogether || base.readsTogether
    keepsFinalBreak := r.keepsFinalBreak || base.keepsFinalBreak
    dedents := r.dedents || base.dedents
    allowsOutside := r.allowsOutside || base.allowsOutside }

/-- The settings under the options file that a request names, if it names one. -/
def withOptions (r : Request) (w : World) (base : Settings) : Except ConfigFault Settings :=
  match given? r.configFile with
  | none => .ok base
  | some path =>
    match OptionsFile.load w (.ofText path) with
    | .error fault => .error fault
    | .ok file => file.mergeInto base

/-- The settings of a run. Their root directory is absolute. -/
def settings (r : Request) (w : World) (base : Settings) : Except ConfigFault Settings :=
  match r.withOptions w base with
  | .error fault => .error fault
  | .ok merged =>
    match (r.layer merged).checkedRoot with
    | .error root => .error (.relativeRoot root)
    | .ok _ => .ok (r.layer merged)

end Request

end Transclude
