import Transclude.Request
import Transclude.Text.Quoted

/-!
# The command line

The command line is a list of words. A word that starts with a hyphen is an *option*; it
may be shortened as long as it is the start of one option only, its value may follow an
equals sign or be the next word, and options of one letter may share a hyphen. The word
`--` ends the options. The other words are the input and the output directory, in this
order.

Words are read from left to right. An option that asks for the version or for help ends
the reading, and so does the first error; but a word that could be several options is an
error before any other.

* `CommandLine.classify`: what a word is;
* `CommandLine.parse`: what a command line asks for.
-/

namespace Transclude

/-- An option of the command line. -/
inductive Flag where
  | help
  | pattern
  | config
  | rootDir
  | async
  | preserveTrailingNewline
  | removeRedundantIndentations
  | allowImportingFromOutside
  | verbosity
  | version
  | saveInputMeta
  | saveOutputMeta
  deriving DecidableEq, Repr

namespace Flag

/-- The words for the options, in order. -/
def byWord : List (String × Flag) :=
  [("-h", help), ("--help", help), ("--pattern", pattern), ("--config", config),
   ("--rootDir", rootDir), ("--async", async),
   ("--preserveTrailingNewline", preserveTrailingNewline),
   ("--removeRedundantIndentations", removeRedundantIndentations),
   ("--allowImportingFromOutside", allowImportingFromOutside),
   ("-v", verbosity), ("--verbosity", verbosity), ("-V", version), ("--version", version),
   ("--saveinputmeta", saveInputMeta), ("--saveoutputmeta", saveOutputMeta)]

/-- The option that a word is in full. -/
def ofWord? (t : Text) : Option Flag :=
  byWord.lookup (String.ofList t)

/-- Whether an option has a value. -/
def takesValue : Flag → Bool
  | pattern | config | rootDir => true
  | _ => false

/-- All words for an option. -/
def title (flag : Flag) : String :=
  "/".intercalate ((byWord.filter fun entry => entry.2 = flag).map Prod.fst)

end Flag

/-- Why a command line is refused. -/
inductive UsageError where
  /-- A word is the start of several options. -/
  | ambiguous (word : Text) (candidates : List String)
  /-- An option lacks its value. -/
  | lacksValue (flag : Flag)
  /-- An option has a value that it does not take. -/
  | ignoredValue (flag : Flag) (value : Text)
  /-- Directories are missing. -/
  | missing (names : List String)
  /-- Some words mean nothing. -/
  | unrecognized (words : List Text)
  deriving DecidableEq, Repr

/-- An error in words. -/
def UsageError.message : UsageError → String
  | ambiguous word candidates =>
    let list := ", ".intercalate candidates
    s!"ambiguous option: {String.ofList word} could match {list}"
  | lacksValue flag => s!"argument {flag.title}: expected one argument"
  | ignoredValue flag value =>
    s!"argument {flag.title}: ignored explicit argument {String.ofList (Text.quoted value)}"
  | missing names =>
    let list := ", ".intercalate names
    s!"the following arguments are required: {list}"
  | unrecognized words =>
    "unrecognized arguments: " ++ String.ofList (Text.join ' ' words)

/-- How the reading of a command line ends before its end. -/
inductive Interruption where
  | error (e : UsageError)
  | help
  | version
  /-- A directory has no word but one that reads like the separator. -/
  | wordlessDirectory
  deriving DecidableEq, Repr

namespace CommandLine

/-! ## Words -/

/-- An option as it is written: its word, and a value that is joined to it, by an equals
    sign or without. -/
structure OptionWord where
  /-- The option; `none` if there is no such option. -/
  flag : Option Flag
  word : Text
  joined : Option Text := none
  byEquals : Bool := false
  deriving DecidableEq, Repr

/-- What a word is. -/
inductive Word where
  | argument (t : Text)
  | separator
  | option (raw : Text) (o : OptionWord)
  deriving DecidableEq, Repr

/-- The text before the first equals sign and the text after it. -/
def splitAtEquals (t : Text) : Text × Option Text :=
  match t.dropWhile (· ≠ '=') with
  | [] => (t, none)
  | _ :: value => (t.takeWhile (· ≠ '='), some value)

/-- The options that a word with two hyphens can be the start of. -/
def longCandidates (t : Text) : List (String × OptionWord) :=
  let (start, value) := splitAtEquals t
  (Flag.byWord.filter fun entry => start.isPrefixOf entry.1.toList).map fun (word, flag) =>
    (word, ⟨some flag, word.toList, value, value.isSome⟩)

/-- The options that a word with one hyphen can be: an option of one letter with
    something joined to it, or the start of an option. -/
def shortCandidates (t : Text) : List (String × OptionWord) :=
  Flag.byWord.filterMap fun (word, flag) =>
    if word.toList = t.take 2 then some (word, ⟨some flag, word.toList, some (t.drop 2), false⟩)
    else if t.isPrefixOf word.toList then some (word, ⟨some flag, word.toList, none, false⟩)
    else none

/-- Whether a word writes a negative number. -/
def isNegativeNumber (t : Text) : Bool :=
  let isDigit (c : Char) : Bool := (Text.decimalValue? c).isSome
  match t with
  | '-' :: rest =>
    match rest.dropWhile isDigit with
    | [] => !rest.isEmpty
    | '.' :: fraction => !fraction.isEmpty && fraction.all isDigit
    | _ => false
  | _ => false

/-- What a word before the separator is. -/
def classify (t : Text) : Except UsageError Word :=
  match t with
  | '-' :: second :: _ =>
    match Flag.ofWord? t with
    | some flag => .ok (.option t ⟨some flag, t, none, false⟩)
    | none =>
      let (word, value) := splitAtEquals t
      match value, Flag.ofWord? word with
      | some value, some flag => .ok (.option t ⟨some flag, word, some value, true⟩)
      | _, _ =>
        match if second = '-' then longCandidates t else shortCandidates t with
        | [(_, o)] => .ok (.option t o)
        | [] =>
          if isNegativeNumber t || t.elem ' ' then .ok (.argument t)
          else .ok (.option t ⟨none, t, none, false⟩)
        | many => .error (.ambiguous t (many.map Prod.fst))
  | _ => .ok (.argument t)

/-- The word that ends the options. -/
def separator : Text := ['-', '-']

/-- What the words of a command line are. -/
def words : List Text → Except UsageError (List Word)
  | [] => .ok []
  | t :: rest =>
    if t = separator then .ok (.separator :: rest.map .argument)
    else
      match classify t with
      | .error e => .error e
      | .ok word => (words rest).map (word :: ·)

/-! ## The options in a word -/

/-- What a word with an option means: the options in it with their values, the option that
    takes the next word as its value, and what is left over and means nothing. -/
structure Meaning where
  flags : List (Flag × Text)
  wantsNext : Option Flag := none
  extra : Option Text := none
  deriving DecidableEq, Repr

/-- The meaning of an option without a value joined to it. -/
def Meaning.single (flag : Flag) : Meaning :=
  if flag.takesValue then { flags := [], wantsNext := some flag } else { flags := [(flag, [])] }

/-- One more option before the others. -/
def Meaning.add (flag : Flag) (m : Meaning) : Meaning :=
  { m with flags := (flag, []) :: m.flags }

/-- The meaning of the option `flag` with the text `joined` to it. An option of one letter
    that takes no value leaves the text to further options of one letter. -/
def unfold (flag : Flag) (isShort byEquals : Bool) (joined : Text) : Except UsageError Meaning :=
  if flag.takesValue then .ok { flags := [(flag, joined)] }
  else if !isShort || byEquals || joined.head? = some '-' then .error (.ignoredValue flag joined)
  else
    match joined with
    | [] => .error (.ignoredValue flag [])
    | c :: rest =>
      match Flag.ofWord? ['-', c] with
      | none => .ok { flags := [(flag, [])], extra := some ('-' :: c :: rest) }
      | some next =>
        match rest with
        | [] => .ok ((Meaning.single next).add flag)
        | '=' :: value => (unfold next true true value).map (Meaning.add flag)
        | d :: more => (unfold next true false (d :: more)).map (Meaning.add flag)
termination_by joined.length

/-- What a word with an option means. -/
def meaning (raw : Text) (o : OptionWord) : Except UsageError Meaning :=
  match o.flag, o.joined with
  | none, _ => .ok { flags := [], extra := some raw }
  | some flag, none => .ok (.single flag)
  | some flag, some joined => unfold flag ((o.word.drop 1).head? ≠ some '-') o.byEquals joined

/-! ## Reading -/

/-- What is known while a command line is read. -/
structure State where
  request : Request := {}
  /-- The words that mean nothing. -/
  extras : List Text := []
  /-- The word whose last option takes the next word as its value, and this option. -/
  waiting : Option (Meaning × Flag) := none
  /-- Whether the word before was a directory. -/
  afterDirectory : Bool := false
  /-- Whether the word before was the separator, and belongs to the next directory. -/
  afterSeparator : Bool := false
  deriving DecidableEq, Repr

/-- The directories that are still to come. -/
def State.missing (s : State) : List String :=
  (if s.request.inputDir.isNone then ["inputdir"] else []) ++
    if s.request.outputDir.isNone then ["outputdir"] else []

/-- Takes a word as the next directory, or as one that means nothing. The first separator
    among the words of a directory is left out, also where it stands for itself. -/
def State.takeArgument (s : State) (t : Text) : Except Interruption State :=
  let next : State := { s with afterDirectory := !s.missing.isEmpty, afterSeparator := false }
  if s.missing.isEmpty then .ok { next with extras := s.extras ++ [t] }
  else if t = separator && !s.afterSeparator then .error .wordlessDirectory
  else if s.request.inputDir.isNone then
    .ok { next with request := { s.request with inputDir := some (.ofText t) } }
  else .ok { next with request := { s.request with outputDir := some (.ofText t) } }

/-- Takes the separator. It belongs to the directory before it or after it; without one it
    means nothing. -/
def State.takeSeparator (s : State) : State :=
  if s.afterDirectory then { s with afterDirectory := false }
  else if s.missing.isEmpty then { s with extras := s.extras ++ [separator] }
  else { s with afterSeparator := true }

/-- What an option does to a request. -/
def perform (r : Request) (flag : Flag) (value : Text) : Except Interruption Request :=
  match flag with
  | .help => .error .help
  | .version => .error .version
  | .pattern => .ok { r with pattern := value }
  | .config => .ok { r with configFile := some value }
  | .rootDir => .ok { r with rootDir := some value }
  | .async => .ok { r with readsTogether := true }
  | .preserveTrailingNewline => .ok { r with keepsFinalBreak := true }
  | .removeRedundantIndentations => .ok { r with dedents := true }
  | .allowImportingFromOutside => .ok { r with allowsOutside := true }
  | .verbosity => .ok { r with verbosity := r.verbosity + 1 }
  | .saveInputMeta | .saveOutputMeta => .ok r

/-- Performs the options of a word. -/
def State.perform (s : State) (m : Meaning) : Except Interruption State :=
  (m.flags.foldlM (fun r entry => CommandLine.perform r entry.1 entry.2) s.request).map
    fun request => { request, extras := s.extras ++ m.extra.toList }

/-- Reads one more word. -/
def step (s : State) (word : Word) : Except Interruption State :=
  match s.waiting, word with
  | some (m, flag), .argument value => s.perform { m with flags := m.flags ++ [(flag, value)] }
  | some (_, flag), _ => .error (.error (.lacksValue flag))
  | none, .argument t => s.takeArgument t
  | none, .separator => .ok s.takeSeparator
  | none, .option raw o =>
    match meaning raw o with
    | .error e => .error (.error e)
    | .ok m =>
      match m.wantsNext with
      | none => s.perform m
      | some flag => .ok { s with waiting := some (m, flag), afterDirectory := false }

/-- The request that was read, if nothing is missing and nothing is left over. -/
def State.finish (s : State) : Except Interruption Request :=
  match s.waiting with
  | some (_, flag) => .error (.error (.lacksValue flag))
  | none =>
    if !s.missing.isEmpty then .error (.error (.missing s.missing))
    else if !s.extras.isEmpty then .error (.error (.unrecognized s.extras))
    else .ok s.request

/-- What a command line asks for, beyond what a request `start` asks for already. -/
def parse (start : Request) (arguments : List Text) : Except Interruption Request :=
  match words arguments with
  | .error e => .error (.error e)
  | .ok words =>
    match words.foldlM step { request := start } with
    | .error i => .error i
    | .ok s => s.finish

end CommandLine

end Transclude
