import Transclude.Excerpt
import Transclude.Notice
import Transclude.Replacement
import Transclude.Sandbox
import Transclude.Settings
import Transclude.Text.Dedent

/-!
# Import passes

A pass over a document makes a *job* of every code block with a directive: which file to
read, and what to take from it. It reads the files, *fills* the blocks and writes them
back. The first failure ends the pass, and there is no document then.

There are two strategies. The *sequential* one handles block after block, so that a file
is read before the next directive is looked at. The *batch* makes all jobs first and then
issues all reads at once; the reads end in any order, and of those that fail the one that
ends first is the failure of the pass.

Reading is a function from paths to texts or failures. What a pass does beside its result
is its *trace*: the reads it has issued, by their paths, and notices.

* `Import.sequential`, `Import.batch`: the two strategies;
* `Import.document`: the strategy that the settings ask for.
-/

namespace Transclude

/-- What a pass does beside its result. -/
structure Trace where
  /-- The paths of the reads that were issued. -/
  reads : List Path := []
  notices : List Notice := []
  deriving DecidableEq, Repr

/-- One trace after the other. -/
def Trace.append (a b : Trace) : Trace :=
  ⟨a.reads ++ b.reads, a.notices ++ b.notices⟩

/-- A result or a failure, and what was done on the way to it. -/
structure Outcome (α : Type) where
  result : Except Failure α
  trace : Trace := {}

namespace Outcome

variable {α β : Type}

/-- The outcome after something else was done before. -/
def after (before : Trace) (o : Outcome α) : Outcome α :=
  ⟨o.result, before.append o.trace⟩

/-- Goes on with the result, if there is one. -/
def andThen (o : Outcome α) (next : α → Outcome β) : Outcome β :=
  match o.result with
  | .error failure => ⟨.error failure, o.trace⟩
  | .ok a => (next a).after o.trace

/-- Does something to the result, if there is one. -/
def map (f : α → β) (o : Outcome α) : Outcome β :=
  ⟨o.result.map f, o.trace⟩

end Outcome

/-- A request to fill a code block. -/
structure Job where
  block : CodeBlock
  directive : Directive
  /-- The file to read. -/
  path : Path
  deriving DecidableEq, Repr

/-- A code block with its new body. -/
structure Filled where
  job : Job
  value : Text
  /-- The groups that the template names and the file does not have. -/
  missing : List Text
  deriving DecidableEq, Repr

/-- The result of a pass. -/
structure Imported where
  /-- The document with its new bodies. -/
  text : Text
  /-- How many code blocks were filled. -/
  count : Nat
  /-- What the document misses. -/
  diagnostics : List String
  deriving DecidableEq, Repr

namespace Filled

/-- What a filled block misses, in words. -/
def diagnostics (f : Filled) : List String :=
  let path := String.ofList f.job.path.toText
  f.missing.map fun group =>
    s!"Group {String.ofList group} not found in {path} (line {f.job.block.startLine + 1})"

/-- The change that a filled block makes to its document. -/
def patch (f : Filled) : Patch :=
  f.job.block.patch f.value

end Filled

/-- What reads a file. -/
abbrev Reader := Path → Except Failure Text

namespace Import

/-- A note for those who ask for details. -/
def note (level : Int) (message : String) : Trace :=
  { notices := [.note level message] }

/-! ## Jobs -/

/-- The directory that the paths of a document are relative to; of a text without a
    path the working directory, which is taken to be `/`. -/
def baseDirectory : Option Path → Path
  | none => ⟨.absolute, []⟩
  | some path => path.absolute.parent

/-- The file that a directive means. -/
def resolve (settings : Settings) (root : Text) (base : Path) (d : Directive) : Outcome Path :=
  match Sandbox.resolve settings.grammar.rootToken root settings.allowsOutside base d.path with
  | .error failure => ⟨.error failure, {}⟩
  | .ok path => ⟨.ok path, note 3 (Sandbox.describe d.path path)⟩

/-- The job that a code block asks for, if it does. -/
def job? (settings : Settings) (root : Text) (base : Path) (block : CodeBlock) :
    Outcome (Option Job) :=
  match Directive.ofMetadata settings.grammar (block.metadata.getD []) with
  | .error failure => ⟨.error failure, {}⟩
  | .ok none => ⟨.ok none, {}⟩
  | .ok (some directive) =>
    ((resolve settings root base directive).map fun path =>
      some ⟨block, directive, path⟩).after (note 3 directive.describe)

/-- A block filled from the text of its file. -/
def fill (settings : Settings) (job : Job) (content : Text) : Outcome Filled :=
  let e := Excerpt.ofDirective settings.grammar.markerToken settings.keepsFinalBreak job.directive
    content job.block.value
  let value := if settings.dedents then Text.dedent e.text else e.text
  ⟨.ok ⟨job, value, e.missing⟩, { notices := e.notices }⟩

/-- Blocks filled from the texts of their files, one after the other. -/
def fillAll (settings : Settings) : List (Job × Text) → Outcome (List Filled)
  | [] => ⟨.ok [], {}⟩
  | (job, content) :: rest =>
    (fill settings job content).andThen fun filled =>
      (fillAll settings rest).map (filled :: ·)

/-- The result of a pass that has filled these blocks of a document. -/
def finish (text : Text) (filled : List Filled) : Outcome Imported :=
  ⟨(Replacement.replace text (filled.map Filled.patch)).map fun text =>
    ⟨text, filled.length, filled.flatMap Filled.diagnostics⟩, {}⟩

/-- The code blocks of a document. -/
def blocks (text : Text) : Outcome (List CodeBlock) :=
  ⟨CodeBlock.find text, {}⟩

/-- Issues the read of a file. -/
def request (read : Reader) (path : Path) : Outcome Text :=
  ⟨read path, { reads := [path] }⟩

/-! ## Strategies -/

/-- Handles code blocks one after the other: a block's file is read before the next block
    is looked at. -/
def fillInTurn (settings : Settings) (root : Text) (base : Path) (read : Reader) :
    List CodeBlock → Outcome (List Filled)
  | [] => ⟨.ok [], {}⟩
  | block :: rest =>
    (job? settings root base block).andThen fun
      | none => fillInTurn settings root base read rest
      | some job =>
        (((request read job.path).andThen (fill settings job)).after
          (note 2 s!"Importing {String.ofList job.path.toText}")).andThen fun filled =>
            (fillInTurn settings root base read rest).map (filled :: ·)

/-- A pass that handles block after block. -/
def sequential (settings : Settings) (root : Text) (read : Reader) (base : Path) (text : Text) :
    Outcome Imported :=
  ((blocks text).andThen (fillInTurn settings root base read)).andThen (finish text)

/-- The jobs of code blocks. -/
def jobs (settings : Settings) (root : Text) (base : Path) :
    List CodeBlock → Outcome (List Job)
  | [] => ⟨.ok [], {}⟩
  | block :: rest =>
    (job? settings root base block).andThen fun
      | none => jobs settings root base rest
      | some job => (jobs settings root base rest).map (job :: ·)

/-- The failure that ends first, if there is one. Reads end in the order of the numbers in
    `order`, and those that it does not name end last. -/
def firstFailure (order : List Nat) (answers : List (Except Failure Text)) : Option Failure :=
  let failureOf : Except Failure Text → Option Failure
    | .error failure => some failure
    | .ok _ => none
  (order.filterMap (answers[·]?) ++ answers).findSome? failureOf

/-- Issues all reads at once. They end in the order of the numbers in `order`; those that are
    still waiting when one fails may never start. -/
def requestAll (order : List Nat) (read : Reader) (paths : List Path) : Outcome (List Text) :=
  let answers := paths.map read
  let texts := answers.filterMap Except.toOption
  match firstFailure order answers with
  | some failure => ⟨.error failure, { reads := paths }⟩
  | none => ⟨.ok texts, { reads := paths }⟩

/-- A pass that makes all jobs before it issues all reads. The reads end in the order of
    the numbers in `order`. -/
def batch (order : List Nat) (settings : Settings) (root : Text) (read : Reader) (base : Path)
    (text : Text) : Outcome Imported :=
  (((blocks text).andThen (jobs settings root base)).andThen fun jobs =>
    ((requestAll order read (jobs.map Job.path)).andThen fun contents =>
      fillAll settings (jobs.zip contents)).after
        (note 2 s!"Reading {jobs.length} files concurrently")).andThen (finish text)

/-- A pass over a document with the strategy that the settings ask for. Reads that are
    issued at once end in the order in which they were issued. -/
def document (settings : Settings) (root : Text) (read : Reader) (path : Option Path)
    (text : Text) : Outcome Imported :=
  let base := baseDirectory path
  if settings.readsTogether then batch [] settings root read base text
  else sequential settings root read base text

/-- A pass over the document in a file. -/
def file (settings : Settings) (root : Text) (read : Reader) (path : Path) : Outcome Imported :=
  let start := note 2 s!"Processing document {String.ofList path.toText}"
  match read path with
  | .error failure => ⟨.error failure, start⟩
  | .ok text => (document settings root read (some path) text).after start

end Import

end Transclude
