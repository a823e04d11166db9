import Transclude.Text.Blank
import Transclude.Text.Digit
import Transclude.Yaml.Cell

/-!
# Numbers in writing

An integer is written in base two, eight, ten or sixteen, as the characters at its
start tell, or in base sixty, as parts in base ten between colons. A number with a
fraction is written in base ten, with an exponent or without, or in base sixty too.
Underscores among the digits mean nothing.

A number with a fraction is rounded to the nearest binary number of 64 bits.

* `Number.integer`: the integer that a text writes;
* `Number.float`: the number that a text writes.
-/

namespace Transclude

namespace Yaml

namespace Number

/-- A text without underscores. -/
def dense (t : Text) : Text :=
  t.filter (· ≠ '_')

/-- Whether a text starts with a minus sign, and the text after its sign. -/
def signed : Text → Bool × Text
  | '-' :: rest => (true, rest)
  | '+' :: rest => (false, rest)
  | t => (false, t)

/-! ## Integers -/

/-- The value of a digit in a base, if it is one. -/
def digitValue? (radix : Nat) (c : Char) : Option Nat :=
  let value :=
    match Text.decimalValue? c with
    | some n => some n
    | none =>
      if 'a' ≤ c && c ≤ 'z' then some (c.toNat - 87)
      else if 'A' ≤ c && c ≤ 'Z' then some (c.toNat - 55)
      else none
  value.filter (· < radix)

/-- The letters that announce a base after a zero. -/
def announces (radix : Nat) (c : Char) : Bool :=
  match radix with
  | 2 => c = 'b' || c = 'B'
  | 8 => c = 'o' || c = 'O'
  | 16 => c = 'x' || c = 'X'
  | _ => false

/-- The digits after the zero and the letter that announce their base, if they are
    there. -/
def unannounced (radix : Nat) : Text → Text
  | '0' :: c :: digits => if announces radix c then digits else '0' :: c :: digits
  | digits => digits

/-- The integer that a text writes in a base. White space around it, a sign and the
    announcement of the base are allowed. -/
def ofRadix (radix : Nat) (t : Text) : Except Fault Int :=
  let (isNegative, rest) := signed (Text.strip t)
  let digits := unannounced radix rest
  let leading := digits.takeWhile fun c => (digitValue? radix c).isSome
  if radix = 10 && Text.numeralLimit < leading.length then .error (.longInteger leading.length)
  else if digits.isEmpty || leading.length < digits.length then .error (.notAnInteger radix t)
  else
    let n := (leading.filterMap (digitValue? radix)).foldl (fun n d => radix * n + d) 0
    .ok (if isNegative then -n else n)

/-- The integer that parts in base sixty make. -/
def sixtieths (parts : List Int) : Int :=
  parts.foldl (fun n part => 60 * n + part) 0

/-- The integer that a text without a sign writes. -/
def magnitude (t : Text) : Except Fault Int :=
  match t with
  | [] => .error .emptyNumber
  | ['0'] => .ok 0
  | '0' :: 'b' :: digits => ofRadix 2 digits
  | '0' :: 'x' :: digits => ofRadix 16 digits
  | '0' :: _ => ofRadix 8 t
  | _ =>
    if t.elem ':' then ((Text.splitAt ':' t).mapM (ofRadix 10)).map sixtieths
    else ofRadix 10 t

/-- The integer that a text writes. -/
def integer (t : Text) : Except Fault Int :=
  match dense t with
  | [] => .error .emptyNumber
  | digits =>
    let (isNegative, rest) := signed digits
    (magnitude rest).map fun n => if isNegative then -n else n

/-! ## Numbers with a fraction -/

/-- A number beyond all bounds. -/
def infinity : Float := 1.0 / 0.0

/-- No number at all. -/
def undefined : Float := 0.0 / 0.0

/-- The binary number nearest to `n · 10 ^ exponent`. Numbers that are far out of the
    range of binary numbers are told by their size. -/
def nearest (n : Nat) (exponent : Int) : Float :=
  let size := (Text.ofNat n).length + exponent
  if n = 0 || size < -400 then 0.0
  else if 400 < size then infinity
  else Float.ofScientific n (exponent < 0) exponent.natAbs

/-- Reads an exponent up to the end of the text. -/
def exponent? : Text → Option Int
  | [] => some 0
  | e :: rest =>
    let (isNegative, digits) := signed rest
    if (e = 'e' || e = 'E') && !digits.isEmpty && digits.all Char.isDigit then
      let n := Text.ofDigits (digits.filterMap Text.decimalValue?)
      some (if isNegative then -n else n)
    else none

/-- Reads a number in base ten without a sign up to the end of the text. -/
def decimal? (t : Text) : Option Float := do
  let whole := t.takeWhile Char.isDigit
  let rest := t.drop whole.length
  let fraction := if rest.head? = some '.' then (rest.drop 1).takeWhile Char.isDigit else []
  let rest := if rest.head? = some '.' then rest.drop (fraction.length + 1) else rest
  let exponent ← exponent? rest
  let digits := whole ++ fraction
  if digits.isEmpty then none
  else
    some (nearest (Text.ofDigits (digits.filterMap Text.decimalValue?)) (exponent - fraction.length))

/-- A decimal digit of any script as one of the ten that numbers are written with; another
    character as it is. -/
def plainDigit (c : Char) : Char :=
  ((Text.decimalValue? c).map Nat.digitChar).getD c

/-- The number that a text writes in base ten, or by a word. White space around it and
    a sign are allowed. -/
def ofDecimal (t : Text) : Except Fault Float :=
  let (isNegative, rest) := signed ((Text.strip t).map plainDigit)
  let value? :=
    if rest = "inf".toList || rest = "infinity".toList then some infinity
    else if rest = "nan".toList then some undefined
    else decimal? rest
  match value? with
  | some value => .ok (if isNegative then -value else value)
  | none => .error (.notANumber t)

/-- The number that parts in base sixty make, the last of them first, each worth sixty times
    the one before. Every part is rounded before it is added, and so is what it is worth. -/
def sixtiethsOf (worth : Nat) (sum : Float) : List Float → Except Fault Float
  | [] => .ok sum
  | part :: parts =>
    if Nat.pow 2 1024 ≤ worth then .error .hugeNumber
    else sixtiethsOf (60 * worth) (sum + part * nearest worth 0) parts

/-- The number that a text writes. -/
def float (t : Text) : Except Fault Float :=
  match (dense t).map Char.toLower with
  | [] => .error .emptyNumber
  | digits => do
    let (isNegative, rest) := signed digits
    let value ←
      if rest = ".inf".toList then .ok infinity
      else if rest = ".nan".toList then .ok undefined
      else if rest.elem ':' then do
        let parts ← (Text.splitAt ':' rest).mapM ofDecimal
        sixtiethsOf 1 0.0 parts.reverse
      else ofDecimal rest
    return if isNegative then -value else value

end Number

end Yaml

end Transclude
