import Transclude.Text.Digit

/-!
# Line ranges

A *line range* is written `L3-L9`: an optional first line, an optional dash and an
optional last line, a line being the letter `L` and its number. A text is a line
range only as a whole.

Reading a range stops at the first place where the text cannot go on as one, and
the rest of the text from there on is kept beside the result.

* `LineRange.scan`: reads a text as a line range;
* `LineRange.render`: writes one.
-/

namespace Transclude

/-- A line range as it is written. -/
structure LineRange where
  /-- The number of the first line, if there is one. -/
  first : Option Nat
  /-- Whether a dash is written. -/
  dash : Bool
  /-- The number of the last line, if there is one. -/
  last : Option Nat
  deriving DecidableEq, Repr

namespace LineRange

/-- What stands where a line may be written. -/
inductive Bound where
  /-- No `L`. -/
  | absent
  /-- An `L` without a digit after it. -/
  | malformed
  /-- An `L` and digits that are no numeral. -/
  | invalid (error : Text.NumeralError)
  /-- An `L` and a number. -/
  | line (number : Nat)
  deriving DecidableEq, Repr

/-- The number of a line that is there. -/
def Bound.number? : Bound → Option Nat
  | line number => some number
  | _ => none

/-- Reads a line, if one is written at the start of the text. -/
def bound : Text → Bound × Text
  | 'L' :: t =>
    let digits := t.takeWhile Text.isDigit
    let rest := t.dropWhile Text.isDigit
    if digits.isEmpty then (.malformed, t)
    else match Text.numeral digits with
      | .error error => (.invalid error, rest)
      | .ok number => (.line number, rest)
  | t => (.absent, t)

/-- Reads a dash, if the text starts with one. -/
def dash? : Text → Bool × Text
  | '-' :: t => (true, t)
  | t => (false, t)

/-- What a text is, read as a line range: a range, no range or a text with digits
    that are no numeral; and the part of the text that was not read. -/
structure Scan where
  /-- The outcome; `none` stands for a text that is no range. -/
  outcome : Except Text.NumeralError (Option LineRange)
  /-- The text from the place on where reading stopped. -/
  rest : Text

/-- Reads a text as a line range. -/
def scan (t : Text) : Scan :=
  match bound t with
  | (.malformed, rest) => ⟨.ok none, rest⟩
  | (.invalid error, rest) => ⟨.error error, rest⟩
  | (first, rest) =>
    let (dash, rest) := dash? rest
    match bound rest with
    | (.malformed, rest) => ⟨.ok none, rest⟩
    | (.invalid error, rest) => ⟨.error error, rest⟩
    | (last, rest) =>
      if rest.isEmpty then ⟨.ok (some ⟨first.number?, dash, last.number?⟩), rest⟩
      else ⟨.ok none, rest⟩

/-- A line as it is written. -/
def renderBound : Option Nat → Text
  | none => []
  | some number => 'L' :: Text.ofNat number

/-- A line range as it is written. -/
def render (range : LineRange) : Text :=
  renderBound range.first ++ (if range.dash then ['-'] else []) ++ renderBound range.last

end LineRange

end Transclude
