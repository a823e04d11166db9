import Transclude.CodeBlock
import Transclude.Excerpt

/-!
# Replacing the bodies of code blocks

A *patch* says which lines of a document a code block takes up and which body it
shall have. The lines of the new body get the lead of the block, an empty line only
as much of it as is not white space at its end, and the fence is lengthened if the
new body holds a run of the fence character that could close it. All other lines
stay as they are.

Patches are applied from the bottom up, so that the positions of those still to
come remain right. A position counts from the end of the document if it is below
zero, and a body may be put beyond the last line, but a fence to be lengthened must
be there.

* `Replacement.fit`: the fence that a body cannot close;
* `Patch.apply`: the lines of a document after one patch;
* `Replacement.replace`: the document after all of them.
-/

namespace Transclude

namespace Replacement

/-- The length of the longest run of `c` in a text that comes after `run` of them;
    `longest` is the longest run so far. -/
def longestRunFrom (c : Char) (longest run : Nat) : Text → Nat
  | [] => longest
  | d :: t =>
    let run := if d = c then run + 1 else 0
    longestRunFrom c (max longest run) run t

/-- The length of the longest run of `c` in a text. -/
def longestRun (c : Char) (t : Text) : Nat :=
  longestRunFrom c 0 0 t

/-- The fence that a body cannot close: the markup itself, or a run that is one
    longer than the longest in the body. -/
def fit (markup value : Text) : Except Failure Text :=
  match markup with
  | [] => .error .noSuchCharacter
  | c :: _ =>
    let longest := longestRun c value
    .ok (if longest < markup.length then markup else List.replicate (longest + 1) c)

/-- The opening line with the first occurrence of its markup exchanged for `fence`.
    Where the markup does not occur, the last character takes its place. -/
def reopen (markup fence line : Text) : Text :=
  match Text.offset? markup line with
  | some offset => line.take offset ++ fence ++ line.drop (offset + markup.length)
  | none => line.dropLast ++ fence ++ line.drop (markup.length - 1)

/-- The closing line up to its first fence character, and then `fence`. -/
def reclose (c : Char) (fence line : Text) : Text :=
  CodeBlock.beforeMarkup [c] line ++ fence

/-- The offset of an element that is there. -/
def position? (n : Nat) (index : Int) : Option Nat :=
  let i := if index < 0 then index + n else index
  if 0 ≤ i && i < n then some i.toNat else none

/-- The lines with the one at `index` changed. -/
def modifyLine (f : Text → Text) (ls : List Text) (index : Int) : Except Failure (List Text) :=
  match position? ls.length index with
  | some n => .ok (ls.modify n f)
  | none => .error .noSuchLine

/-- The lines with those from `start` up to, but without, `stop` exchanged for
    others. If `stop` comes before `start`, they are put in at `start`. -/
def splice (ls : List Text) (start stop : Int) (body : List Text) : List Text :=
  let i := Excerpt.offsetOf ls.length start
  let j := max i (Excerpt.offsetOf ls.length stop)
  ls.take i ++ body ++ ls.drop j

/-- The lines of a body in their containers. The empty body has no lines. -/
def bodyLines (lead value : Text) : List Text :=
  if value.isEmpty then []
  else (Text.splitAt '\n' value).map fun line =>
    if line.isEmpty then Text.trimEnd Text.isBlank lead else lead ++ line

end Replacement

/-- A new body for a code block. -/
structure Patch where
  /-- The number of the block's opening line. -/
  start : Int
  /-- The number of the line after the block. -/
  stop : Int
  /-- Whether the last line of the block closes it. -/
  isClosed : Bool
  /-- What a body line starts with. -/
  lead : Text
  /-- The run of fence characters that opens the block. -/
  markup : Text
  /-- The new body. -/
  value : Text
  deriving DecidableEq, Repr

/-- The patch that gives a code block a new body. -/
def CodeBlock.patch (b : CodeBlock) (value : Text) : Patch where
  start := b.startLine
  stop := b.endLine
  isClosed := b.isClosed
  lead := b.lead
  markup := b.markup
  value := value

namespace Patch

/-- The lines of a document with the fences of a block exchanged for `fence`. -/
def refence (p : Patch) (fence : Text) (ls : List Text) : Except Failure (List Text) := do
  let ls ← Replacement.modifyLine (Replacement.reopen p.markup fence) ls p.start
  if p.isClosed then
    match p.markup with
    | [] => .error .noSuchCharacter
    | c :: _ => Replacement.modifyLine (Replacement.reclose c fence) ls (p.stop - 1)
  else return ls

/-- The lines of a document after a patch. -/
def apply (p : Patch) (ls : List Text) : Except Failure (List Text) := do
  let fence ← Replacement.fit p.markup p.value
  let ls ← if fence = p.markup then pure ls else p.refence fence ls
  return Replacement.splice ls (p.start + 1) (if p.isClosed then p.stop - 1 else p.stop)
    (Replacement.bodyLines p.lead p.value)

end Patch

namespace Replacement

/-- The patches from the bottom of a document up; those of one line stay in
    order. -/
def bottomUp (patches : List Patch) : List Patch :=
  patches.mergeSort fun p q => q.start ≤ p.start

/-- The document after all patches. -/
def replace (t : Text) (patches : List Patch) : Except Failure Text := do
  let ls ← (bottomUp patches).foldlM (fun ls p => p.apply ls) (Text.lines t)
  return Text.unlines ls

end Replacement

end Transclude
