import Transclude.Text.Basic

/-!
# Characters with their places

What a character of an options document means depends on where it stands. A
document is therefore read from *cells*, characters that know their index, line and
column; one more cell, with the character NUL, stands for the end. Reading goes on
by dropping cells, so no position has to be carried along.

* `Cell.ofText`: the cells of a document;
* `isBreak`, `endsWord`: the classes of characters that separate.
-/

namespace Transclude

namespace Yaml

/-- Why a document has no value. -/
inductive Fault where
  /-- The document is not well-formed, or it means something else than plain data. -/
  | malformed
  /-- Digits do not write an integer in a base. -/
  | notAnInteger (radix : Nat) (digits : Text)
  /-- An integer has too many digits. -/
  | longInteger (count : Nat)
  /-- A text does not write a number. -/
  | notANumber (text : Text)
  /-- A number is asked for, and there is no text at all. -/
  | emptyNumber
  /-- A number has so many parts that the first is worth more than any number. -/
  | hugeNumber
  /-- A text does not write a truth value. -/
  | notATruthValue (text : Text)
  /-- A text does not write a date. -/
  | notADate
  /-- A date is asked for, and a mapping stands there. -/
  | mappingForDate
  /-- There is no such date or time. -/
  | noSuchDate (reason : String)
  /-- An escape stands for no character. -/
  | noSuchCharacter
  /-- An escape stands for a number that is no code point by far. -/
  | hugeCharacter
  /-- An integer has too many digits to be shown. -/
  | unshowableInteger
  deriving DecidableEq, Repr

/-- A character with its place. -/
structure Cell where
  char : Char
  index : Nat
  line : Nat
  column : Nat
  deriving DecidableEq, Repr

/-- Whether a character breaks lines. -/
def isBreak (c : Char) : Bool :=
  c = '\n' || c = '\r' || c.toNat = 0x85 || c.toNat = 0x2028 || c.toNat = 0x2029

/-- Whether a character breaks lines or ends the document. -/
def endsLine (c : Char) : Bool :=
  isBreak c || c = '\x00'

/-- Whether a character is a space, breaks lines or ends the document. -/
def endsField (c : Char) : Bool :=
  endsLine c || c = ' '

/-- Whether a character is a blank, breaks lines or ends the document. -/
def endsWord (c : Char) : Bool :=
  endsField c || c = '\t'

/-- Whether a character can stand in a document. -/
def isAllowed (c : Char) : Bool :=
  let n := c.toNat
  n = 0x09 || n = 0x0A || n = 0x0D || (0x20 ≤ n && n ≤ 0x7E) || n = 0x85 ||
    (0xA0 ≤ n && n ≤ 0xD7FF) || (0xE000 ≤ n && n ≤ 0xFFFD) || 0x10000 ≤ n

/-- The character that marks the byte order. It takes no column. -/
def byteOrderMark : Char := Char.ofNat 0xFEFF

namespace Cell

/-- The cells of a text that starts at a place. -/
def ofTextAt (index line column : Nat) : Text → List Cell
  | [] => [⟨'\x00', index, line, column⟩]
  | c :: t =>
    ⟨c, index, line, column⟩ ::
      if isBreak c && !(c = '\r' && t.head? = some '\n') then ofTextAt (index + 1) (line + 1) 0 t
      else if c = byteOrderMark then ofTextAt (index + 1) line column t
      else ofTextAt (index + 1) line (column + 1) t

/-- The cells of a document. -/
def ofText (t : Text) : List Cell :=
  ofTextAt 0 0 0 t

end Cell

/-- The character `n` cells ahead; beyond the end it is NUL. -/
def charAt (n : Nat) (cells : List Cell) : Char :=
  (cells[n]?.map Cell.char).getD '\x00'

/-- The next character. -/
def charOf (cells : List Cell) : Char :=
  charAt 0 cells

/-- The column of the next character. -/
def columnOf (cells : List Cell) : Nat :=
  (cells.head?.map Cell.column).getD 0

/-- The characters of the cells. -/
def textOf (cells : List Cell) : Text :=
  cells.map Cell.char

/-- The cells up to the first whose character is not in the class, and the rest. -/
def spanWhile (p : Char → Bool) (cells : List Cell) : Text × List Cell :=
  (textOf (cells.takeWhile fun c => p c.char), cells.dropWhile fun c => p c.char)

/-- The cells after the spaces at their start. -/
def skipSpaces (cells : List Cell) : List Cell :=
  cells.dropWhile fun c => c.char = ' '

/-- The cells after a comment, if there is one. -/
def skipComment (cells : List Cell) : List Cell :=
  if charOf cells = '#' then cells.dropWhile fun c => !endsLine c.char else cells

/-- What a line break stands for: a line feed, unless it separates lines or
    paragraphs explicitly. -/
def breakText (c : Char) : Text :=
  if c.toNat = 0x2028 || c.toNat = 0x2029 then [c] else ['\n']

/-- Reads a line break, if there is one. -/
def lineBreak? : List Cell → Option (Text × List Cell)
  | [] => none
  | c :: rest =>
    if !isBreak c.char then none
    else if c.char = '\r' && charOf rest = '\n' then some (['\n'], rest.drop 1)
    else some (breakText c.char, rest)

theorem length_lt_of_lineBreak? {cells rest : List Cell} {t : Text}
    (h : lineBreak? cells = some (t, rest)) : rest.length < cells.length := by
  unfold lineBreak? at h
  split at h
  · contradiction
  · split at h
    · contradiction
    · split at h <;> simp only [Option.some.injEq, Prod.mk.injEq] at h <;> rw [← h.2] <;>
        simp only [List.length_drop, List.length_cons] <;> omega

/-- Whether a line starts with the mark that begins or ends a document. -/
def isSeparator (cells : List Cell) : Bool :=
  let mark := textOf (cells.take 3)
  (mark = "---".toList || mark = "...".toList) && endsWord (charAt 3 cells)

/-- Whether a character can stand in the name of an anchor or a handle. -/
def isNameChar (c : Char) : Bool :=
  c.isAlphanum || c = '-' || c = '_'

end Yaml

end Transclude
