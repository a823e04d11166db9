import Transclude.Text.Basic

/-!
# The shortest decimal of a binary number

A binary floating-point number of 64 bits is written with the fewest decimal digits
that read back as the same number, and of all decimals with so few digits with the
one nearest to it.

The number is `m · 2 ^ e` for natural `m`. What reads back as it is an interval
around it, with its ends if `m` is even. For one digit, two digits and so on the two
decimals next to the number are tried; seventeen digits always suffice.

* `Binary.ofBits`: the number that 64 bits stand for;
* `Shortest.decimal`: its shortest decimal;
* `Shortest.text`: the decimal in writing.
-/

namespace Transclude

/-- What 64 bits stand for. -/
inductive Binary where
  /-- The number `significand · 2 ^ exponent`, or its negative. `isLowest` says that
      the numbers below it lie closer together than those above it. -/
  | finite (isNegative : Bool) (significand : Nat) (exponent : Int) (isLowest : Bool)
  | infinity (isNegative : Bool)
  | notANumber
  deriving DecidableEq, Repr

/-- The number that 64 bits stand for. -/
def Binary.ofBits (bits : UInt64) : Binary :=
  let n := bits.toNat
  let isNegative := Nat.pow 2 63 ≤ n
  let exponent : Nat := n / Nat.pow 2 52 % Nat.pow 2 11
  let fraction : Nat := n % Nat.pow 2 52
  if exponent = 0 then .finite isNegative fraction (-1074 : Int) false
  else if exponent = 2047 then
    if fraction = 0 then .infinity isNegative else .notANumber
  else .finite isNegative (fraction + Nat.pow 2 52) ((exponent : Int) - 1075)
    (fraction = 0 && 1 < exponent)

namespace Shortest

/-- A fraction of natural numbers. -/
structure Ratio where
  num : Nat
  den : Nat

/-- The fraction `n · base ^ e`. -/
def scaled (n base : Nat) (e : Int) : Ratio :=
  if 0 ≤ e then ⟨n * base.pow e.toNat, 1⟩ else ⟨n, base.pow (-e).toNat⟩

/-- Whether one fraction is below another. -/
def Ratio.lt (a b : Ratio) : Bool :=
  a.num * b.den < b.num * a.den

/-- Whether one fraction is below another or equal to it. -/
def Ratio.le (a b : Ratio) : Bool :=
  a.num * b.den ≤ b.num * a.den

/-- The position of the decimal point of a number above zero: the number is at least
    `10 ^ (point - 1)` and below `10 ^ point`. -/
def point (r : Ratio) : Int :=
  if r.den ≤ r.num then (Nat.toDigits 10 (r.num / r.den)).length
  else
    let zeros := (List.range 400).find? fun j => r.den ≤ r.num * Nat.pow 10 j
    1 - ((zeros.getD 0 : Nat) : Int)

/-- The decimal of `n` digits that lies next to the number and reads back as it, if
    one does: the one below, the one above or, of both, the nearer one. -/
def withDigits? (value low high : Ratio) (withEnds : Bool) (n : Nat) : Option (Nat × Int) :=
  let k := point value - n
  let grid (c : Nat) : Ratio := scaled c 10 k
  let below := if 0 ≤ k then value.num / (value.den * Nat.pow 10 k.toNat)
    else value.num * Nat.pow 10 (-k).toNat / value.den
  let readsBack (c : Nat) : Bool :=
    if withEnds then low.le (grid c) && (grid c).le high else low.lt (grid c) && (grid c).lt high
  let middle : Ratio := ⟨(grid below).num * (grid (below + 1)).den +
      (grid (below + 1)).num * (grid below).den, 2 * (grid below).den * (grid (below + 1)).den⟩
  match readsBack below, readsBack (below + 1) with
  | true, true =>
    if value.lt middle || value.le middle && below % 2 = 0 then some (below, k)
    else some (below + 1, k)
  | true, false => some (below, k)
  | false, true => some (below + 1, k)
  | false, false => none

/-- The shortest decimal `c · 10 ^ k` of the number `m · 2 ^ e`, as `c` and `k`. -/
def decimal (m : Nat) (e : Int) (isLowest : Bool) : Nat × Int :=
  if m = 0 then (0, 0)
  else
    let value := scaled m 2 e
    let low := scaled (4 * m - if isLowest then 1 else 2) 2 (e - 2)
    let high := scaled (4 * m + 2) 2 (e - 2)
    ((List.range 17).findSome? fun n => withDigits? value low high (m % 2 = 0) (n + 1)).getD (m, 0)

/-- The digits of a decimal without the zeros at its end, and the position of the
    decimal point as counted from the first digit. -/
def digitsAndPoint (c : Nat) (k : Int) : Text × Int :=
  let digits := Text.ofNat c
  let trimmed := Text.trimEnd (· = '0') digits
  (if trimmed.isEmpty then ['0'] else trimmed, digits.length + k)

/-- A decimal in writing: with a point among its digits or zeros up to sixteen places
    before and four behind it, and otherwise with one digit before the point and an
    exponent of at least two digits. -/
def write (digits : Text) (point : Int) : Text :=
  let n : Int := digits.length
  if -4 < point && point ≤ 16 then
    if point ≤ 0 then '0' :: '.' :: List.replicate (-point).toNat '0' ++ digits
    else if n ≤ point then digits ++ List.replicate (point - n).toNat '0' ++ ['.', '0']
    else digits.take point.toNat ++ '.' :: digits.drop point.toNat
  else
    let exponent := point - 1
    let places := Text.ofNat exponent.natAbs
    let padded := if places.length < 2 then '0' :: places else places
    let mantissa := match digits with
      | [] => []
      | [c] => [c]
      | c :: rest => c :: '.' :: rest
    mantissa ++ 'e' :: (if exponent < 0 then '-' else '+') :: padded

/-- A binary number in writing. -/
def text : Binary → Text
  | .notANumber => "nan".toList
  | .infinity isNegative => if isNegative then "-inf".toList else "inf".toList
  | .finite isNegative m e isLowest =>
    let (c, k) := decimal m e isLowest
    let (digits, point) := digitsAndPoint c k
    (if isNegative then ['-'] else []) ++ write digits (if m = 0 then 1 else point)

end Shortest

end Transclude
