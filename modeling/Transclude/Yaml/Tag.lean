import Transclude.Yaml.Moment
import Transclude.Yaml.Scalar

/-!
# Tags

Every node of a document has a *tag* that says what it means. A tag may be written;
the tag of a plain scalar otherwise follows from its text, by a grammar for each kind
of value.

* `Tag.ofText`: the tag that a text writes;
* `Tag.ofPlain`: the tag of a plain scalar.
-/

namespace Transclude

namespace Yaml

/-- What a node means. -/
inductive Tag where
  | null
  | truth
  | integer
  | number
  | date
  | text
  | sequence
  | mapping
  /-- The key whose value is merged into its mapping. -/
  | merge
  /-- The key that stands for the value of its mapping. -/
  | standIn
  /-- A meaning that is not plain data. -/
  | other
  deriving DecidableEq, Repr

namespace Tag

/-- What all tags of plain data start with. -/
def stem : Text := "tag:yaml.org,2002:".toList

/-- The tags of plain data by the rest of their text. -/
def byName : List (String × Tag) :=
  [("null", null), ("bool", truth), ("int", integer), ("float", number), ("timestamp", date),
   ("str", text), ("seq", sequence), ("map", mapping), ("merge", merge), ("value", standIn)]

/-- The tag that a text writes. -/
def ofText (t : Text) : Tag :=
  if stem.isPrefixOf t then (byName.lookup (String.ofList (t.drop stem.length))).getD other
  else other

/-! ## Plain scalars -/

/-- The ways in which a truth value can be written, and its values. -/
def truthNames : List (String × Bool) :=
  [("yes", true), ("no", false), ("true", true), ("false", false), ("on", true), ("off", false)]

/-- A word in small letters, with a capital letter, and in capital letters. -/
def casings (word : String) : List Text :=
  let letters := word.toList
  [letters, (letters.head?.map Char.toUpper).toList ++ letters.drop 1, letters.map Char.toUpper]

/-- Whether a text writes a truth value. -/
def isTruth (t : Text) : Bool :=
  truthNames.any fun entry => (casings entry.1).elem t

/-- Whether a text writes the absence of a value. -/
def isNull (t : Text) : Bool :=
  t.isEmpty || t = ['~'] || (casings "null").elem t

/-- The text without a sign at its start. -/
def unsigned (t : Text) : Text :=
  match t with
  | c :: rest => if c = '+' || c = '-' then rest else t
  | [] => []

/-- Whether a text is a digit that `first` admits and then digits and underscores. -/
def isNumeral (first : Char → Bool) (t : Text) : Bool :=
  (t.head?.map first).getD false && t.all fun c => c.isDigit || c = '_'

/-- Whether a text is the part of a number after a colon: one digit, or two that are
    below sixty. -/
def isSixtieth : Text → Bool
  | [c] => c.isDigit
  | [c, d] => '0' ≤ c && c ≤ '5' && d.isDigit
  | _ => false

/-- Whether a text is a run of one or more characters of a class. -/
def isRun (p : Char → Bool) (t : Text) : Bool :=
  !t.isEmpty && t.all p

/-- Whether a text writes an integer: in base two, eight, ten or sixteen, or in base
    ten with parts in base sixty. -/
def isInteger (t : Text) : Bool :=
  match unsigned t with
  | ['0'] => true
  | '0' :: 'b' :: digits => isRun (fun c => c = '0' || c = '1' || c = '_') digits
  | '0' :: 'x' :: digits => isRun (fun c => (Scalar.hexValue? c).isSome || c = '_') digits
  | '0' :: digits => isRun (fun c => ('0' ≤ c && c ≤ '7') || c = '_') digits
  | digits =>
    match Text.splitAt ':' digits with
    | first :: parts => isNumeral (fun c => c.isDigit && c ≠ '0') first && parts.all isSixtieth
    | [] => false

/-- Whether a text is an exponent or empty. -/
def isExponent : Text → Bool
  | [] => true
  | e :: sign :: digits =>
    (e = 'e' || e = 'E') && (sign = '+' || sign = '-') && isRun Char.isDigit digits
  | _ => false

/-- Whether a text is a fraction after its point, with an exponent or without. -/
def isFraction (t : Text) : Bool :=
  isExponent (t.dropWhile fun c => c.isDigit || c = '_')

/-- Whether a text writes a number with a fraction: in base ten, or with parts in base
    sixty, or one beyond all bounds, or none. -/
def isNumber (t : Text) : Bool :=
  let digits := unsigned t
  let whole := digits.takeWhile (· ≠ '.')
  match digits.dropWhile (· ≠ '.') with
  | [] => false
  | _ :: fraction =>
    if whole.isEmpty then
      (casings "inf").elem fraction ||
        (t = digits &&
          (["nan", "NaN", "NAN"].map String.toList).elem fraction ||
          t = digits && (fraction.head?.map Char.isDigit).getD false && isFraction fraction)
    else
      match Text.splitAt ':' whole with
      | [only] => isNumeral Char.isDigit only && isFraction fraction
      | first :: parts =>
        isNumeral Char.isDigit first && parts.all isSixtieth &&
          fraction.all fun c => c.isDigit || c = '_'
      | [] => false

/-- A text without the line feed at its end, unless it is nothing else. -/
def bare (t : Text) : Text :=
  if t.getLast? = some '\n' && t ≠ ['\n'] then t.dropLast else t

/-- The tag of a plain scalar. A line feed may follow what tells it. -/
def ofPlain (t : Text) : Tag :=
  let word := bare t
  if isTruth word then truth
  else if isNumber word then number
  else if isInteger word then integer
  else if word = ['<', '<'] then merge
  else if isNull word then null
  else if isMoment word then date
  else if word = ['='] then standIn
  else if word = ['!'] || word = ['&'] || word = ['*'] then other
  else text

end Tag

end Yaml

end Transclude
