import Transclude.Settings
import Transclude.World

/-!
# Options files

An *options file* is a YAML document that gives values to settings. The settings for
which there is a flag on the command line can be named as the flag is; every setting can
be named by its own name. Where one setting is named twice, the last value counts.

A file that is there can still fail to be one: its bytes are no text, its text is no
document, its document is no mapping, or a key is no option. What is wrong with the
*configuration* is told apart from what is wrong with single characters and numbers of
the file (`ConfigFault.isConfiguration`).

* `Options.ofEntries`: the layer of values that a mapping gives;
* `OptionsFile.load`: an options file;
* `OptionsFile.mergeInto`: the settings under an options file.
-/

namespace Transclude

open Yaml (Value)

/-- Why a document has no value, in words. -/
def Yaml.Fault.message : Yaml.Fault → String
  | malformed => "malformed document"
  | notAnInteger radix digits =>
    let shown := (Text.quoted digits).take 200
    s!"invalid literal for int() with base {radix}: {String.ofList shown}"
  | longInteger count => (Text.NumeralError.tooLong count).message
  | notANumber t => s!"could not convert string to float: {String.ofList (Text.quoted t)}"
  | emptyNumber => "string index out of range"
  | hugeNumber => "int too large to convert to float"
  | notATruthValue word => String.ofList (Text.quoted word)
  | notADate => "'NoneType' object has no attribute 'groupdict'"
  | mappingForDate => "expected string or bytes-like object, got 'list'"
  | noSuchDate reason => reason
  | noSuchCharacter => "chr() arg not in range(0x110000)"
  | hugeCharacter => "Python int too large to convert to C int"
  | unshowableInteger =>
    s!"Exceeds the limit ({Text.numeralLimit} digits) for integer string conversion; " ++
      "use sys.set_int_max_str_digits() to increase the limit"

/-- Why there are no settings. -/
inductive ConfigFault where
  /-- There is no options file. -/
  | missing (path : Text)
  /-- The options file cannot be read. -/
  | unloadable (name : Text) (refusal : Refusal)
  /-- The options file is no document. -/
  | unparsable (name : Text)
  /-- The options file is no mapping. -/
  | notAMapping (name : Text)
  /-- A key is no option. -/
  | unknownOption (key name : Text)
  /-- Some values do not fit. -/
  | invalidOptions (name : Text) (bad : List BadValue)
  /-- The root directory is not absolute. -/
  | relativeRoot (root : Text)
  /-- The file system refuses to look for the options file. -/
  | refused (refusal : Refusal)
  /-- The bytes of the options file are not UTF-8. -/
  | undecodable (fault : Utf8.Fault)
  /-- A scalar of the options file has no value. -/
  | meaningless (fault : Yaml.Fault)
  deriving DecidableEq, Repr

namespace ConfigFault

/-- Whether the configuration is at fault, and not a character or number in it. -/
def isConfiguration : ConfigFault → Bool
  | refused _ | undecodable _ | meaningless _ => false
  | _ => true

/-- A fault in words. -/
def message : ConfigFault → String
  | missing path => s!"Options file not found: {String.ofList path}"
  | unloadable name refusal => s!"Failed to load {String.ofList name}: {refusal.message}"
  | unparsable name => s!"Failed to parse {String.ofList name}"
  | notAMapping name => s!"{String.ofList name} must contain a mapping of options"
  | unknownOption key name => s!"Unknown option '{String.ofList key}' in {String.ofList name}"
  | invalidOptions name bad =>
    s!"Invalid option in {String.ofList name}: {BadValue.describeAll bad}"
  | relativeRoot root =>
    s!"\"rootDir\" has to be an absolute path, got \"{String.ofList root}\""
  | refused refusal => refusal.message
  | undecodable fault => fault.message
  | meaningless fault => fault.message

end ConfigFault

/-! ## Options -/

namespace Options

/-- The options that are named as their flags are. -/
def flagNames : Table Field :=
  [("async".toList, .asyncMode),
   ("preserveTrailingNewline".toList, .preserveTrailingNewline),
   ("removeRedundantIndentations".toList, .removeRedundantIndentations),
   ("rootDir".toList, .rootDir),
   ("allowImportingFromOutside".toList, .allowImportingFromOutside)]

/-- The setting that a name means, by its flag or by itself. -/
def field? (name : Text) : Option Field :=
  flagNames.lookup name <|> Field.ofName? name

/-- The setting that a key means. -/
def fieldOfKey? : Value → Option Field
  | .text name => field? name
  | _ => none

/-- The layer of values that the entries of a mapping give; or else the first key that is
    no option. -/
def addEntries (layer : Table Value) : List (Value × Value) → Except Value (Table Value)
  | [] => .ok layer
  | (key, value) :: rest =>
    match fieldOfKey? key with
    | none => .error key
    | some field => addEntries (layer.put field.name value) rest

/-- The layer of values that a mapping gives. -/
def ofEntries (entries : List (Value × Value)) : Except Value (Table Value) :=
  addEntries [] entries

/-- What is wrong with a key of the file `name` that is no option: it is named, if it can be
    shown. -/
def unknownKey (name : Text) (key : Value) : ConfigFault :=
  match key.keyText with
  | .ok shown => .unknownOption shown name
  | .error fault => .meaningless fault

/-- The layer of values that a document gives to the file `name`. A document that says
    nothing gives none. -/
def ofValue (name : Text) : Value → Except ConfigFault (Table Value)
  | .null => .ok []
  | .mapping entries => (ofEntries entries).mapError (unknownKey name)
  | _ => .error (.notAMapping name)

end Options

/-- A YAML file that gives values to settings. -/
structure OptionsFile where
  path : Path
  /-- The values by the names of the settings. -/
  options : Table Value
  deriving Repr

namespace OptionsFile

/-- A fault in a text that is read piece by piece: what is incomplete at its end is a
    piece of its own. -/
def pieceFault (fault : Utf8.Fault) : Utf8.Fault :=
  if fault.kind = .unexpectedEnd then { fault with start := 0 } else fault

/-- The options in the text of a file. -/
def parse (name text : Text) : Except ConfigFault (Table Value) :=
  match Value.ofText text with
  | .ok value => Options.ofValue name value
  | .error .malformed => .error (.unparsable name)
  | .error fault => .error (.meaningless fault)

/-- The options file at a path. -/
def load (w : World) (path : Path) : Except ConfigFault OptionsFile :=
  match w.find? path with
  | .error refusal => .error (.refused refusal)
  | .ok none => .error (.missing path.toText)
  | .ok (some _) =>
    match w.readText path with
    | .error (.refused fault) => .error (.unloadable path.name ⟨fault, path⟩)
    | .error (.undecodable fault) => .error (.undecodable (pieceFault fault))
    | .ok text => (parse path.name text).map fun options => ⟨path, options⟩

/-- The value of an option, by either name. -/
def get? (file : OptionsFile) (name : Text) : Option Value :=
  match Options.field? name with
  | some field => file.options.lookup field.name
  | none => file.options.lookup name

/-- The settings under an options file. -/
def mergeInto (base : Settings) (file : OptionsFile) : Except ConfigFault Settings :=
  (base.overlay file.options).mapError (.invalidOptions file.path.name)

/-- An options file as it is shown to the user. -/
def describe (file : OptionsFile) : Text :=
  let options := Value.mapping (file.options.map fun (name, value) => (.text name, value))
  "OptionsFile(path='".toList ++ file.path.toText ++ "', options=".toList ++ options.describe ++
    [')']

end OptionsFile

end Transclude
