import Transclude.Failure
import Transclude.Grammar
import Transclude.LineRange
import Transclude.Metadata

/-!
# Directives

A *directive* asks for a part of a file. It is written as one token of a fence's
metadata, `file=<path>#<range>`, and a second token can turn the selection by
lines into a selection by markers.

The text after the last `#` of the token is the range, if the whole of it is one.
If it is not, the `#` belongs to the path, and all lines are meant. A range
without a first line is open: it begins with the first line and goes on to its
last line or the end of the file.

* `Directive.ofToken`: the directive that a token writes;
* `Directive.ofMetadata`: the directive in a fence's metadata, if there is one.
-/

namespace Transclude

/-- How a directive selects from the file. -/
inductive Selection where
  /-- The lines of a range. -/
  | lines
  /-- The sections that the old body of the fence names. -/
  | sections
  deriving DecidableEq, Repr

/-- The word for a way to select. -/
def Selection.word : Selection → String
  | lines => "classic"
  | sections => "group"

/-- Which lines of a file are meant. A bound that is absent or zero does not
    bound. -/
structure Span where
  /-- The number of the first line. -/
  first : Option Int := none
  /-- Whether the span goes on after its first line. -/
  isOpen : Bool := true
  /-- The number of the last line of an open span. -/
  last : Option Int := none
  deriving DecidableEq, Repr

/-- The lines that a range means. Without a first line the range is open, dash or
    no dash. -/
def Span.ofRange (range : LineRange) : Span where
  first := range.first.map Int.ofNat
  isOpen := range.dash || range.first.isNone
  last := range.last.map Int.ofNat

/-- A request for a part of a file. -/
structure Directive where
  /-- The path as written, with a backslash before each of its spaces. -/
  path : Text
  /-- The lines that are meant. -/
  span : Span := {}
  /-- How the part is selected. -/
  selection : Selection := .lines
  /-- The token that writes the directive. -/
  token : Text := []
  deriving DecidableEq, Repr

namespace Directive

/-- The text before the last `#` and the text after it, if there is a `#`. -/
def splitAtLastHash : Text → Option (Text × Text)
  | [] => none
  | c :: t =>
    match splitAtLastHash t with
    | some (before, after) => some (c :: before, after)
    | none => if c = '#' then some ([], t) else none

/-- The path and the lines that the body of a token means. -/
def bodyParts (body : Text) : Except Text.NumeralError (Text × Span) :=
  match splitAtLastHash body with
  | none => .ok (body, {})
  | some (before, after) =>
    match (LineRange.scan after).outcome with
    | .error error => .error error
    | .ok none => .ok (body, {})
    | .ok (some range) => .ok (before, Span.ofRange range)

/-- The path and the lines that a token means: its body is what comes after its
    key, of which only the length counts. -/
def tokenParts (key token : Text) : Except Failure (Text × Span) :=
  match bodyParts (token.drop key.length) with
  | .error error => .error (.badNumeral error)
  | .ok (path, span) =>
    if path.isEmpty then .error (.emptyPath token key.length) else .ok (path, span)

/-- The directive that a token writes. -/
def ofToken (key token : Text) (selection : Selection) : Except Failure Directive :=
  match tokenParts key token with
  | .error failure => .error failure
  | .ok (path, span) => .ok { path, span, selection, token }

/-- The directive in the metadata of a fence: the first token that starts with the
    file key. The flag may stand anywhere. -/
def ofMetadata (grammar : Grammar) (metadata : Text) : Except Failure (Option Directive) :=
  let tokens := Metadata.tokens metadata
  match tokens.find? (grammar.fileKey.isPrefixOf ·) with
  | none => .ok none
  | some token =>
    let selection := if grammar.inlineFlag ∈ tokens then .sections else .lines
    match ofToken grammar.fileKey token selection with
    | .error failure => .error failure
    | .ok directive => .ok (some directive)

/-- A bound as it is shown to the user. -/
def showBound : Option Int → String
  | none => "None"
  | some number => toString number

/-- A directive as it is shown to the user. -/
def describe (d : Directive) : String :=
  let token := String.ofList (Text.quoted d.token)
  let path := String.ofList (Text.quoted d.path)
  s!"Directive {token}: path={path} from={showBound d.span.first} " ++
    s!"to={showBound d.span.last} mode={d.selection.word}"

end Directive

end Transclude
