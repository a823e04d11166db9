import Transclude.Yaml.Cell

/-!
# Scalars in writing

A scalar is written in one of five ways: plain, between single or double quotes, or
as a block of lines that are kept or folded. In all of them a single line break
inside the text stands for a space and further ones for themselves, save that a
block keeps its breaks if it is not folded.

* `plain`: a plain scalar;
* `quoted`: a scalar between quotes;
* `block`: a scalar written as a block.
-/

namespace Transclude

namespace Yaml

namespace Scalar

/-- What a break between two lines, followed by empty lines, stands for. -/
def folded (first breaks : Text) : Text :=
  (if first ≠ ['\n'] then first else if breaks.isEmpty then [' '] else []) ++ breaks

/-! ## Plain scalars -/

/-- Whether a plain scalar ends before this character, given the one after it. -/
def endsPlain (inFlow : Bool) (c next : Char) : Bool :=
  endsWord c || (c = ':' && (endsWord next || (inFlow && ",[]\x7b\x7d".toList.elem next))) ||
    (inFlow && ",?[]\x7b\x7d".toList.elem c)

/-- The part of a plain scalar up to the next blank, and the rest. -/
def plainRun (inFlow : Bool) : List Cell → Text × List Cell
  | [] => ([], [])
  | c :: rest =>
    if endsPlain inFlow c.char (charOf rest) then ([], c :: rest)
    else
      let (run, after) := plainRun inFlow rest
      (c.char :: run, after)

/-- The empty lines after a line break inside a plain scalar; `none` if the document
    ends there. -/
def plainBreaks : List Cell → Option Text × List Cell
  | [] => (some [], [])
  | c :: rest =>
    if c.char = ' ' then plainBreaks rest
    else if isBreak c.char then
      if isSeparator rest then (none, rest)
      else
        let (breaks, after) := plainBreaks rest
        (breaks.map (breakText c.char ++ ·), after)
    else (some [], c :: rest)

/-- The blanks inside or after a plain scalar. -/
structure Gap where
  /-- What they stand for; `none` if the scalar ends before them. -/
  text : Option Text
  /-- Whether there is a line break among them. -/
  breaks : Bool
  rest : List Cell

/-- Reads the blanks after a part of a plain scalar. -/
def plainGap (cells : List Cell) : Gap :=
  let (blanks, rest) := spanWhile (· = ' ') cells
  match lineBreak? rest with
  | none => ⟨if blanks.isEmpty then none else some blanks, false, rest⟩
  | some (first, rest) =>
    if isSeparator rest then ⟨none, true, rest⟩
    else
      let (breaks, rest) := plainBreaks rest
      ⟨breaks.map (folded first), true, rest⟩

/-- A scalar as it was read: its text, whether a line break was the last thing read,
    and the rest. -/
structure Read where
  text : Text
  endsWithBreak : Bool
  rest : List Cell

/-- Reads a plain scalar that goes on after `before`, in a collection whose content
    stands at `indent`. -/
def plainFrom (inFlow : Bool) (indent : Int) (before : Text) (afterBreak : Bool)
    (cells : List Cell) : Read :=
  if charOf cells = '#' then ⟨[], afterBreak, cells⟩
  else
    let (run, rest) := plainRun inFlow cells
    if run.isEmpty then ⟨[], afterBreak, cells⟩
    else
      let gap := plainGap rest
      let ends := charOf gap.rest = '#' || (!inFlow && (columnOf gap.rest : Int) < indent)
      match gap.text, ends with
      | some blanks, false =>
        if _h : gap.rest.length < cells.length then
          let more := plainFrom inFlow indent blanks gap.breaks gap.rest
          ⟨before ++ run ++ more.text, more.endsWithBreak, more.rest⟩
        else ⟨before ++ run, gap.breaks, gap.rest⟩
      | _, _ => ⟨before ++ run, gap.breaks, gap.rest⟩
termination_by cells.length

/-- Reads a plain scalar. -/
def plain (inFlow : Bool) (indent : Int) (cells : List Cell) : Read :=
  plainFrom inFlow indent [] false cells

/-! ## Quoted scalars -/

/-- The characters that an escape of one letter stands for. -/
def escapes : List (Char × Nat) :=
  [('0', 0), ('a', 7), ('b', 8), ('t', 9), ('\t', 9), ('n', 10), ('v', 11), ('f', 12), ('r', 13),
   ('e', 27), (' ', 32), ('"', 34), ('\\', 92), ('/', 47), ('N', 0x85), ('_', 0xA0),
   ('L', 0x2028), ('P', 0x2029)]

/-- How many hexadecimal digits follow a letter after the backslash. -/
def escapeWidth? (c : Char) : Option Nat :=
  if c = 'x' then some 2 else if c = 'u' then some 4 else if c = 'U' then some 8 else none

/-- The value of a hexadecimal digit. -/
def hexValue? (c : Char) : Option Nat :=
  if c.isDigit then some (c.toNat - 48)
  else if 'a' ≤ c && c ≤ 'f' then some (c.toNat - 87)
  else if 'A' ≤ c && c ≤ 'F' then some (c.toNat - 55)
  else none

/-- The number that hexadecimal digits write. -/
def hexNumber? (digits : Text) : Option Nat :=
  (digits.mapM hexValue?).map fun values => values.foldl (fun n d => 16 * n + d) 0

/-- The cells after the spaces and tabs at their start. -/
def skipBlanks (cells : List Cell) : List Cell :=
  cells.dropWhile fun c => c.char = ' ' || c.char = '\t'

theorem length_skipBlanks_le (cells : List Cell) : (skipBlanks cells).length ≤ cells.length :=
  (List.dropWhile_suffix _).length_le

/-- The empty lines after a line break between quotes, and the blanks after them. -/
def quotedBreaks (cells : List Cell) : Except Fault (Text × List Cell) :=
  if isSeparator cells then .error .malformed
  else
    match _hread : lineBreak? (skipBlanks cells) with
    | none => .ok ([], skipBlanks cells)
    | some (first, after) =>
      match quotedBreaks after with
      | .error fault => .error fault
      | .ok (breaks, rest) => .ok (first ++ breaks, rest)
termination_by cells.length
decreasing_by
  have hbreak := length_lt_of_lineBreak? _hread
  have hskip := length_skipBlanks_le cells
  omega

/-- Reads what follows a backslash between double quotes. -/
def escape (cells : List Cell) : Except Fault (Text × List Cell) :=
  let c := charOf cells
  let rest := cells.drop 1
  match escapes.lookup c with
  | some n => .ok ([Char.ofNat n], rest)
  | none =>
    match escapeWidth? c with
    | some width =>
      match hexNumber? (textOf (rest.take width)) with
      | none => .error .malformed
      | some n =>
        if rest.length < width then .error .malformed
        else if 0x7FFFFFFF < n then .error .hugeCharacter
        else if 0x10FFFF < n then .error .noSuchCharacter
        else .ok ([if n.isValidChar then Char.ofNat n else Char.ofNat 0xFFFD], rest.drop width)
    | none =>
      match lineBreak? cells with
      | none => .error .malformed
      | some (_, rest) => quotedBreaks rest

/-- Reads blanks between quotes: spaces and tabs stand for themselves, unless a line
    break follows. -/
def quotedGap (cells : List Cell) : Except Fault (Text × List Cell) :=
  let (blanks, rest) := spanWhile (fun c => c = ' ' || c = '\t') cells
  if charOf rest = '\x00' then .error .malformed
  else match lineBreak? rest with
    | none => .ok (blanks, rest)
    | some (first, rest) =>
      match quotedBreaks rest with
      | .error fault => .error fault
      | .ok (breaks, rest) => .ok (folded first breaks, rest)

/-- What a piece of a quoted scalar is: the closing quote, or a text. -/
inductive Piece where
  | close (rest : List Cell)
  | text (t : Text) (rest : List Cell)

/-- Reads one piece of a quoted scalar. -/
def quotedPiece (isDouble : Bool) (cells : List Cell) : Except Fault Piece :=
  let c := charOf cells
  let rest := cells.drop 1
  if c = '\'' && !isDouble then
    if charOf rest = '\'' then .ok (.text ['\''] (rest.drop 1)) else .ok (.close rest)
  else if c = '"' && isDouble then .ok (.close rest)
  else if c = '\\' && isDouble then
    match escape rest with
    | .error fault => .error fault
    | .ok (t, rest) => .ok (.text t rest)
  else if endsWord c then
    match quotedGap cells with
    | .error fault => .error fault
    | .ok (t, rest) => .ok (.text t rest)
  else .ok (.text [c] rest)

/-- Reads a quoted scalar after its opening quote. -/
def quoted (isDouble : Bool) (cells : List Cell) : Except Fault (Text × List Cell) :=
  match quotedPiece isDouble cells with
  | .error fault => .error fault
  | .ok (.close rest) => .ok ([], rest)
  | .ok (.text t rest) =>
    if _h : rest.length < cells.length then
      match quoted isDouble rest with
      | .error fault => .error fault
      | .ok (more, rest) => .ok (t ++ more, rest)
    else .error .malformed
termination_by cells.length

/-! ## Blocks -/

/-- What becomes of the line breaks at the end of a block. -/
inductive Chomping where
  /-- One stays. -/
  | clip
  /-- None stays. -/
  | strip
  /-- All stay. -/
  | keep
  deriving DecidableEq, Repr

/-- Reads a chomping mark, if there is one. -/
def chomping? (cells : List Cell) : Option (Chomping × List Cell) :=
  if charOf cells = '+' then some (.keep, cells.drop 1)
  else if charOf cells = '-' then some (.strip, cells.drop 1)
  else none

/-- Reads an indentation mark, if there is one. -/
def increment? (cells : List Cell) : Option (Nat × List Cell) :=
  if (charOf cells).isDigit then some ((charOf cells).toNat - 48, cells.drop 1) else none

/-- Reads the marks of a block, in either order. -/
def blockMarks (cells : List Cell) : Chomping × Option Nat × List Cell :=
  match chomping? cells with
  | some (chomping, rest) =>
    match increment? rest with
    | some (n, rest) => (chomping, some n, rest)
    | none => (chomping, none, rest)
  | none =>
    match increment? cells with
    | none => (.clip, none, cells)
    | some (n, rest) =>
      match chomping? rest with
      | some (chomping, rest) => (chomping, some n, rest)
      | none => (.clip, some n, rest)

/-- Reads empty lines and the indentation of the next line, up to `indent` columns. -/
def blockBreaks (indent : Int) : List Cell → Text × List Cell
  | [] => ([], [])
  | c :: rest =>
    if c.char = ' ' && (c.column : Int) < indent then blockBreaks indent rest
    else if isBreak c.char then
      let (breaks, after) := blockBreaks indent rest
      (breakText c.char ++ breaks, after)
    else ([], c :: rest)

/-- Reads empty lines and the indentation of the next line, and the greatest column
    that was reached. -/
def blockStart (reached : Nat) : List Cell → Text × Nat × List Cell
  | [] => ([], reached, [])
  | c :: rest =>
    if c.char = ' ' then blockStart (max reached (c.column + 1)) rest
    else if isBreak c.char then
      let (breaks, reached, after) := blockStart reached rest
      (breakText c.char ++ breaks, reached, after)
    else ([], reached, c :: rest)

/-- Reads the lines of a block after empty lines that stand for `breaks`. -/
def blockLines (isFolded : Bool) (chomping : Chomping) (indent : Int) (last breaks : Text)
    (cells : List Cell) : Text × List Cell :=
  if (columnOf cells : Int) = indent && charOf cells ≠ '\x00' then
    let startsBlank := charOf cells = ' ' || charOf cells = '\t'
    let (line, rest) := spanWhile (fun c => !endsLine c) cells
    let (last, rest) := (lineBreak? rest).getD ([], rest)
    let (more, rest) := blockBreaks indent rest
    let goesOn := (columnOf rest : Int) = indent && charOf rest ≠ '\x00'
    if _h : goesOn ∧ rest.length < cells.length then
      let joined :=
        if isFolded && last = ['\n'] && !startsBlank && charOf rest ≠ ' ' && charOf rest ≠ '\t' then
          if more.isEmpty then [' '] else []
        else last
      let (tail, rest) := blockLines isFolded chomping indent last more rest
      (breaks ++ line ++ joined ++ tail, rest)
    else (breaks ++ line ++ blockEnd chomping last more, rest)
  else (blockEnd chomping last breaks, cells)
termination_by cells.length
decreasing_by exact _h.2
where
  /-- What stays of the line breaks at the end of a block. -/
  blockEnd : Chomping → (last breaks : Text) → Text
    | .clip, last, _ => last
    | .strip, _, _ => []
    | .keep, last, breaks => last ++ breaks

/-- Reads a block after the mark that opens it, in a collection at `indent`. -/
def block (isFolded : Bool) (indent : Int) (cells : List Cell) : Except Fault (Text × List Cell) :=
  let (chomping, increment, rest) := blockMarks cells
  if increment = some 0 || !endsField (charOf rest) then .error .malformed
  else
    let rest := skipComment (skipSpaces rest)
    if !endsLine (charOf rest) then .error .malformed
    else
      let rest := ((lineBreak? rest).map Prod.snd).getD rest
      let least := max (indent + 1) 1
      match increment with
      | none =>
        let (breaks, reached, rest) := blockStart 0 rest
        .ok (blockLines isFolded chomping (max least reached) [] breaks rest)
      | some n =>
        let margin := least + n - 1
        let (breaks, rest) := blockBreaks margin rest
        .ok (blockLines isFolded chomping margin [] breaks rest)

end Scalar

end Yaml

end Transclude
