/-!
# Text

A document, a path, a token: every piece of text of the library is a list of
characters, so that each rule about text is a recursion on it. Strings occur
only where text enters or leaves the program.

A text has *lines*: the pieces between its line breaks, one more than there are
breaks, so that the last piece of a text that ends in a break is empty. A
carriage return before a line feed belongs to the break (`Text.unifyBreaks`);
one that stands alone does not break a line here.

* `Text.splitAt` and `Text.join` undo each other;
* `Text.lines` is `Text.splitAt '\n'` after `Text.unifyBreaks`.
-/

namespace Transclude

/-- A piece of text, character by character. -/
abbrev Text := List Char

namespace Text

/-! ## Pieces -/

/-- The pieces of a text between the characters `sep`. There is always at least
    one piece, and no piece contains `sep`. -/
def splitAt (sep : Char) : Text → List Text
  | [] => [[]]
  | c :: t =>
    if c = sep then [] :: splitAt sep t
    else match splitAt sep t with
      | [] => [[c]]
      | piece :: pieces => (c :: piece) :: pieces

/-- The pieces one after the other, with `sep` between any two neighbours. -/
def join (sep : Char) : List Text → Text
  | [] => []
  | [piece] => piece
  | piece :: pieces => piece ++ sep :: join sep pieces

/-- Every line break becomes one line feed: a carriage return that stands before
    a line feed is dropped, any other stays. -/
def unifyBreaks : Text → Text
  | [] => []
  | '\r' :: '\n' :: t => '\n' :: unifyBreaks t
  | c :: t => c :: unifyBreaks t

/-- Every line break becomes one line feed, a carriage return that stands alone
    being a line break too. -/
def unifyAllBreaks : Text → Text
  | [] => []
  | '\r' :: '\n' :: t => '\n' :: unifyAllBreaks t
  | '\r' :: t => '\n' :: unifyAllBreaks t
  | c :: t => c :: unifyAllBreaks t

/-- The lines of a text, without their breaks. A text that ends in a break has
    an empty last line. -/
def lines (t : Text) : List Text :=
  splitAt '\n' (unifyBreaks t)

/-- The text that has the given lines. -/
def unlines (ls : List Text) : Text :=
  join '\n' ls

/-! ## Searching -/

/-- The offset of the first occurrence of `needle`, if there is one. The empty
    needle occurs at once. -/
def offset? (needle : Text) : Text → Option Nat
  | [] => if needle.isEmpty then some 0 else none
  | c :: t =>
    if needle.isPrefixOf (c :: t) then some 0
    else (offset? needle t).map (· + 1)

/-- Whether `needle` occurs in the text. -/
def occursIn (needle t : Text) : Bool :=
  (offset? needle t).isSome

/-! ## Trimming -/

/-- The text without the characters of the class `p` at its end. -/
def trimEnd (p : Char → Bool) (t : Text) : Text :=
  (t.reverse.dropWhile p).reverse

/-- The text without the characters of the class `p` at both ends. -/
def trim (p : Char → Bool) (t : Text) : Text :=
  trimEnd p (t.dropWhile p)

/-- A text of `n` spaces. -/
def spaces (n : Nat) : Text :=
  List.replicate n ' '

/-! ## Numbers -/

/-- The decimal digits of a number. -/
def ofNat (n : Nat) : Text :=
  Nat.toDigits 10 n

end Text

end Transclude
