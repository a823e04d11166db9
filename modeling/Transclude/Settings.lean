import Transclude.Failure
import Transclude.Grammar
import Transclude.Path
import Transclude.Table
import Transclude.Yaml.Value

/-!
# Settings

How a run behaves is laid down in ten *settings*. Each has a name, and a value that is
given for it must fit: a switch takes a truth value, zero or one, or one of a few words;
a word takes a text. Values come in layers, where a later layer lies over an earlier
one: the defaults, the environment, an options file, the command line.

* `Field.update`: what a value does to the settings, or why it does not fit;
* `Settings.overlay`: the settings under a layer of values;
* `Settings.checkedRoot`: the root directory, which must be absolute.
-/

namespace Transclude

open Yaml (Value)

/-- How a run behaves. -/
structure Settings where
  /-- Whether the files of a document are read all at once. -/
  readsTogether : Bool := false
  /-- Whether an open range keeps the empty line after a final line break. -/
  keepsFinalBreak : Bool := false
  /-- Whether an excerpt loses the indentation that all its lines share. -/
  dedents : Bool := false
  /-- The root directory, if one is set. -/
  rootDir : Option Text := none
  /-- Whether files outside the root directory may be imported. -/
  allowsOutside : Bool := false
  /-- The words of the directive language. -/
  grammar : Grammar := {}
  /-- The pattern that the documents of a run match. -/
  documentGlob : Text := "**/*.md".toList
  deriving DecidableEq, Repr

/-- The name of a setting. -/
inductive Field where
  | asyncMode
  | preserveTrailingNewline
  | removeRedundantIndentations
  | rootDir
  | allowImportingFromOutside
  | fileKey
  | inlineFlag
  | rootToken
  | markerToken
  | documentGlob
  deriving DecidableEq, Repr

/-- Why a value does not fit. -/
inductive Misfit where
  /-- It should be a truth value, and it is a text or a number that writes none. -/
  | unreadableSwitch
  /-- It should be a truth value, and it is something else. -/
  | notASwitch
  /-- It should be a text. -/
  | notAText
  /-- There is no setting of this name. -/
  | unknownName
  deriving DecidableEq, Repr

/-- The word for a misfit. -/
def Misfit.word : Misfit → String
  | unreadableSwitch => "bool_parsing"
  | notASwitch => "bool_type"
  | notAText => "string_type"
  | unknownName => "extra_forbidden"

/-- A value that does not fit, by its name. -/
structure BadValue where
  name : Text
  misfit : Misfit
  deriving DecidableEq, Repr

/-- Bad values in words. -/
def BadValue.describeAll (bad : List BadValue) : String :=
  "; ".intercalate (bad.map fun b => s!"{String.ofList b.name} {b.misfit.word}")

/-! ## Values that fit -/

/-- The words that turn a switch off. -/
def offWords : List String := ["0", "off", "f", "false", "n", "no"]

/-- The words that turn a switch on. -/
def onWords : List String := ["1", "on", "t", "true", "y", "yes"]

/-- The switch that a text sets. -/
def switchOfText (t : Text) : Except Misfit Bool :=
  let word := String.ofList (t.map Char.toLower)
  if offWords.elem word then .ok false
  else if onWords.elem word then .ok true
  else .error .unreadableSwitch

/-- The switch that a number sets. -/
def switchOfInt (n : Int) : Except Misfit Bool :=
  if n = 0 then .ok false else if n = 1 then .ok true else .error .unreadableSwitch

/-- The integer that a binary number of 64 bits is, if it is one and its size is below
    two to the power of sixty-three. -/
def integerOf? (bits : UInt64) : Option Int :=
  match Binary.ofBits bits with
  | .finite isNegative m e _ =>
    let size : Nat := if 0 ≤ e then m * Nat.pow 2 e.toNat else m / Nat.pow 2 (-e).toNat
    let isWhole := 0 ≤ e || m % Nat.pow 2 (-e).toNat = 0
    if isWhole && size < Nat.pow 2 63 then some (if isNegative then -size else size) else none
  | _ => none

/-- The switch that a value sets. -/
def switchOf : Value → Except Misfit Bool
  | .truth b => .ok b
  | .integer n => switchOfInt n
  | .number bits =>
    match integerOf? bits with
    | some n => switchOfInt n
    | none => .error .notASwitch
  | .text t => switchOfText t
  | _ => .error .notASwitch

/-- The text that a value is. -/
def textOf : Value → Except Misfit Text
  | .text t => .ok t
  | _ => .error .notAText

/-- The text that a value is, if it says something. -/
def optionalTextOf : Value → Except Misfit (Option Text)
  | .null => .ok none
  | value => (textOf value).map some

namespace Field

/-- All settings, in order. -/
def all : List Field :=
  [asyncMode, preserveTrailingNewline, removeRedundantIndentations, rootDir,
   allowImportingFromOutside, fileKey, inlineFlag, rootToken, markerToken, documentGlob]

/-- The name of a setting in writing. -/
def name : Field → Text
  | asyncMode => "async_mode".toList
  | preserveTrailingNewline => "preserve_trailing_newline".toList
  | removeRedundantIndentations => "remove_redundant_indentations".toList
  | rootDir => "root_dir".toList
  | allowImportingFromOutside => "allow_importing_from_outside".toList
  | fileKey => "file_key".toList
  | inlineFlag => "inline_flag".toList
  | rootToken => "root_token".toList
  | markerToken => "marker_token".toList
  | documentGlob => "document_glob".toList

/-- The setting with a name. -/
def ofName? (t : Text) : Option Field :=
  all.find? fun field => field.name = t

/-- What a value for a setting does to the settings, or why it does not fit. -/
def update (field : Field) (value : Value) : Except Misfit (Settings → Settings) :=
  match field with
  | asyncMode => (switchOf value).map fun b s => { s with readsTogether := b }
  | preserveTrailingNewline => (switchOf value).map fun b s => { s with keepsFinalBreak := b }
  | removeRedundantIndentations => (switchOf value).map fun b s => { s with dedents := b }
  | rootDir => (optionalTextOf value).map fun t s => { s with rootDir := t }
  | allowImportingFromOutside => (switchOf value).map fun b s => { s with allowsOutside := b }
  | fileKey => (textOf value).map fun t s => { s with grammar := { s.grammar with fileKey := t } }
  | inlineFlag =>
    (textOf value).map fun t s => { s with grammar := { s.grammar with inlineFlag := t } }
  | rootToken =>
    (textOf value).map fun t s => { s with grammar := { s.grammar with rootToken := t } }
  | markerToken =>
    (textOf value).map fun t s => { s with grammar := { s.grammar with markerToken := t } }
  | documentGlob => (textOf value).map fun t s => { s with documentGlob := t }

/-- The value of a setting. -/
def value (s : Settings) : Field → Value
  | asyncMode => .truth s.readsTogether
  | preserveTrailingNewline => .truth s.keepsFinalBreak
  | removeRedundantIndentations => .truth s.dedents
  | rootDir => (s.rootDir.map Value.text).getD .null
  | allowImportingFromOutside => .truth s.allowsOutside
  | fileKey => .text s.grammar.fileKey
  | inlineFlag => .text s.grammar.inlineFlag
  | rootToken => .text s.grammar.rootToken
  | markerToken => .text s.grammar.markerToken
  | documentGlob => .text s.documentGlob

end Field

namespace Settings

/-- The value that is given for a setting does this to the settings; nothing, if none is
    given. -/
def layerField (given : Table Value) (field : Field) : Except BadValue (Settings → Settings) :=
  match given.lookup field.name with
  | none => .ok id
  | some value => (field.update value).mapError fun misfit => ⟨field.name, misfit⟩

/-- All values of a layer that do not fit: those of the settings first, in their order,
    then the names that no setting has. -/
def badValues (given : Table Value) : List BadValue :=
  (Field.all.filterMap fun field =>
    match layerField given field with
    | .ok _ => none
    | .error bad => some bad) ++
  (given.names.filter fun name => (Field.ofName? name).isNone).map fun name =>
    ⟨name, .unknownName⟩

/-- The settings under a layer of values that all fit. -/
def overlay (given : Table Value) (base : Settings) : Except (List BadValue) Settings :=
  if (badValues given).isEmpty then
    .ok (Field.all.foldl (fun s field =>
      match layerField given field with
      | .ok f => f s
      | .error _ => s) base)
  else .error (badValues given)

/-! ## The environment -/

/-- What the variables of the environment that are settings start with. -/
def variableStem : Text := "codeimport_".toList

/-- The layer of the environment: of the variables that name a setting, in any case, the
    last one counts. -/
def ofEnvironment (entries : List (Text × Text)) : Table Value :=
  entries.foldl (fun layer entry =>
    let lower := entry.1.map Char.toLower
    if variableStem.isPrefixOf lower then
      let name := lower.drop variableStem.length
      if (Field.ofName? name).isSome then layer.put name (.text entry.2) else layer
    else layer) []

/-- The settings that come from an environment and from values that are given. -/
def initial (entries : List (Text × Text)) (given : Table Value) :
    Except (List BadValue) Settings :=
  overlay (given.foldl (fun layer entry => layer.put entry.1 entry.2) (ofEnvironment entries)) {}

/-! ## The root directory -/

/-- The root directory: the one that is set, or else the working directory, which is taken to
    be `/`. -/
def root (s : Settings) : Text :=
  match s.rootDir with
  | none | some [] => ['/']
  | some root => root

/-- The root directory, if it is absolute. -/
def checkedRoot (s : Settings) : Except Text Text :=
  if (Path.ofText s.root).isAbsolute then .ok s.root else .error s.root

end Settings

end Transclude
