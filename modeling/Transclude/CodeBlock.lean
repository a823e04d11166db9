import Transclude.Failure
import Transclude.Markdown.Block

/-!
# Code blocks

A fenced code block of a document, as far as an import needs it: the language and
the metadata of its info text, its body, the lines it takes up and what each of its
body lines has to start with to stay inside the containers around it.

Positions count the lines of the document as `Text.lines` does. The block structure
counts a lone carriage return as a line break too, so in a document that has one a
position can lie beyond the last line; finding the blocks then fails.

* `CodeBlock.ofFence`: the code block that a fence is;
* `CodeBlock.find`: all code blocks of a document.
-/

namespace Transclude

/-- A fenced code block of a document. -/
structure CodeBlock where
  /-- The first word of the info text. -/
  lang : Option Text
  /-- What follows the first word. -/
  metadata : Option Text
  /-- The body, without the line break at its end. -/
  value : Text
  /-- The number of the opening line, counted from zero. -/
  startLine : Nat
  /-- The number of the line after the last one. -/
  endLine : Nat
  /-- What a body line starts with. -/
  lead : Text := []
  /-- Whether the last line closes the block. -/
  isClosed : Bool := true
  /-- The run of fence characters that opens the block. -/
  markup : Text := List.replicate 3 Markdown.backtick
  deriving DecidableEq, Repr

namespace CodeBlock

/-! ## The opening line -/

/-- The first word of an info text and what follows it, without the white space
    around either. -/
def splitInfo (info : Text) : Option Text × Option Text :=
  let t := Text.strip info
  let word := t.takeWhile fun c => !Text.isBlank c
  let rest := t.drop word.length
  if word.isEmpty then (none, none)
  else (some word, if rest.isEmpty then none else some (Text.strip rest))

/-- What a body line starts with, given what stands before the fence in its opening
    line: the markers of block quotes stay, those of list items become spaces. -/
def leadOf (opening : Text) : Text :=
  opening.map fun c => if c = ' ' || c = '\t' || c = '>' then c else ' '

/-- The part of a line before the first occurrence of `markup`; without one, all but
    the last character. -/
def beforeMarkup (markup line : Text) : Text :=
  match Text.offset? markup line with
  | some offset => line.take offset
  | none => line.dropLast

/-! ## The closing line -/

/-- Whether a character can stand before a fence in its line. -/
def isLeadChar (c : Char) : Bool :=
  c = ' ' || c = '\t' || c = '>'

/-- Whether a line closes the fence with this markup, as far as its text shows. The
    empty markup has no character to compare with. -/
def closes (markup line : Text) : Except Failure Bool :=
  let candidate := Text.trimEnd Text.isBlank (line.dropWhile isLeadChar)
  match markup with
  | [] => .error .noSuchCharacter
  | c :: _ => .ok (markup.isPrefixOf candidate && candidate.all (· = c))

/-! ## Finding code blocks -/

/-- A line of a document, by its number. -/
def lineAt (ls : List Text) (n : Nat) : Except Failure Text :=
  match ls[n]? with
  | some line => .ok line
  | none => .error .noSuchLine

/-- The code block that a fence is, in a document of these lines. -/
def ofFence (ls : List Text) (fence : Markdown.Fence) : Except Failure CodeBlock := do
  let opening ← lineAt ls fence.start
  let isClosed ←
    if 2 ≤ fence.stop - fence.start then do
      closes fence.markup (← lineAt ls (fence.stop - 1))
    else pure false
  let (lang, metadata) := splitInfo fence.info
  return {
    lang, metadata, isClosed
    value := Text.unlines fence.body
    startLine := fence.start
    endLine := fence.stop
    lead := leadOf (beforeMarkup fence.markup opening)
    markup := fence.markup }

/-- The code blocks of a document, in order. -/
def find (t : Text) : Except Failure (List CodeBlock) :=
  (Markdown.fences t).mapM (ofFence (Text.lines t))

end CodeBlock

end Transclude
