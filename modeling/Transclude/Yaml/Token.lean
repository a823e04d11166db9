import Transclude.Text.Digit
import Transclude.Yaml.Scalar

/-!
# Tokens

A document is a list of *tokens*. Collections that are written by indentation alone
have tokens for their starts and ends too: a deeper column opens one, a shallower
column closes it.

That a scalar or a flow collection is the key of a mapping shows only when the colon
after it is read. Where a key may stand, its place is remembered (`Key`), and the
tokens that open the key, and perhaps its mapping, are put in there later. A key
must lie on one line and be at most `keyLength` characters long; a key that its
column makes necessary and that finds no colon is a fault.

* `Token.ofCells`: the tokens of a document.
-/

namespace Transclude

namespace Yaml

/-- A meaningful piece of a document. -/
inductive Token where
  /-- A directive; the value is what a tag directive declares. -/
  | directive (name : Text) (version : Option (Nat × Nat)) (handle : Option (Text × Text))
  | documentStart
  | documentEnd
  | streamEnd
  | flowSequenceStart
  | flowSequenceEnd
  | flowMappingStart
  | flowMappingEnd
  | flowEntry
  | blockSequenceStart
  | blockMappingStart
  | blockEnd
  | blockEntry
  | key
  | value
  | repetition (name : Text)
  | anchor (name : Text)
  /-- A tag: its handle, if it has one, and the rest. -/
  | tag (handle : Option Text) (suffix : Text)
  | scalar (text : Text) (isPlain : Bool)
  deriving DecidableEq, Repr

namespace Token

/-! ## Anchors, tags and directives -/

/-- Reads the name of an anchor or an alias after its mark. -/
def anchorName (cells : List Cell) : Except Fault (Text × List Cell) :=
  let (name, rest) := spanWhile isNameChar cells
  let next := charOf rest
  if name.isEmpty || !(endsWord next || "?:,]\x7d%@\x60".toList.elem next) then .error .malformed
  else .ok (name, rest)

/-- Whether a character can stand in a tag. -/
def isTagChar (c : Char) : Bool :=
  c.isAlphanum || "-;/?:@&=+$,_.!~*'()[]%".toList.elem c

/-- The bytes that escapes in a tag write, and the rest. -/
def tagBytes : List Cell → Except Fault (List UInt8 × List Cell)
  | p :: a :: b :: rest =>
    if p.char ≠ '%' then .ok ([], p :: a :: b :: rest)
    else match Scalar.hexNumber? [a.char, b.char] with
      | none => .error .malformed
      | some n =>
        match tagBytes rest with
        | .error fault => .error fault
        | .ok (bytes, rest) => .ok (n.toUInt8 :: bytes, rest)
  | cells => if charOf cells = '%' then .error .malformed else .ok ([], cells)

/-- The text of bytes that are UTF-8. -/
def decoded (bytes : List UInt8) : Except Fault Text :=
  match String.fromUTF8? ⟨bytes.toArray⟩ with
  | none => .error .malformed
  | some s => .ok s.toList

/-- Reads the characters of a tag. -/
def tagText (cells : List Cell) : Except Fault (Text × List Cell) :=
  match cells with
  | [] => .ok ([], [])
  | c :: rest =>
    if c.char = '%' then
      match tagBytes cells with
      | .error fault => .error fault
      | .ok (bytes, after) =>
        match decoded bytes with
        | .error fault => .error fault
        | .ok t =>
          if _h : after.length < rest.length + 1 then
            match tagText after with
            | .error fault => .error fault
            | .ok (more, after) => .ok (t ++ more, after)
          else .error .malformed
    else if isTagChar c.char then
      match tagText rest with
      | .error fault => .error fault
      | .ok (more, after) => .ok (c.char :: more, after)
    else .ok ([], cells)
termination_by cells.length

/-- Reads the characters of a tag, of which there is at least one. -/
def tagUri (cells : List Cell) : Except Fault (Text × List Cell) :=
  match tagText cells with
  | .error fault => .error fault
  | .ok (t, rest) => if t.isEmpty then .error .malformed else .ok (t, rest)

/-- Reads the handle of a tag: an exclamation mark, or a name between two. -/
def tagHandle (cells : List Cell) : Except Fault (Text × List Cell) :=
  if charOf cells ≠ '!' then .error .malformed
  else
    let rest := cells.drop 1
    if charOf rest = ' ' then .ok (['!'], rest)
    else
      let (name, rest) := spanWhile isNameChar rest
      if charOf rest = '!' then .ok ('!' :: name ++ ['!'], rest.drop 1) else .error .malformed

/-- Reads a tag: in angle brackets, alone, or with or without a handle of its own. -/
def tagParts (cells : List Cell) : Except Fault (Option Text × Text × List Cell) := do
  let rest := cells.drop 1
  if charOf rest = '<' then
    let (t, rest) ← tagUri (rest.drop 1)
    if charOf rest = '>' then return (none, t, rest.drop 1) else .error .malformed
  else if endsWord (charOf rest) then return (none, ['!'], rest)
  else
    let word := rest.takeWhile fun c => !endsField c.char
    if word.any fun c => c.char = '!' then
      let (handle, rest) ← tagHandle cells
      let (t, rest) ← tagUri rest
      return (some handle, t, rest)
    else
      let (t, rest) ← tagUri rest
      return (some ['!'], t, rest)

/-- Reads a tag after which a field ends. -/
def tag? (cells : List Cell) : Except Fault (Token × List Cell) := do
  let (handle, suffix, rest) ← tagParts cells
  if endsField (charOf rest) then return (tag handle suffix, rest) else .error .malformed

/-- Reads a number of a version. -/
def versionNumber (cells : List Cell) : Except Fault (Nat × List Cell) :=
  let (digits, rest) := spanWhile Char.isDigit cells
  if digits.isEmpty then .error .malformed
  else if Text.numeralLimit < digits.length then .error (.longInteger digits.length)
  else .ok (digits.foldl (fun n c => 10 * n + (c.toNat - 48)) 0, rest)

/-- Reads the rest of a directive's line, which holds nothing but a comment. -/
def directiveEnd (cells : List Cell) : Except Fault (List Cell) :=
  let rest := skipComment (skipSpaces cells)
  if endsLine (charOf rest) then .ok (((lineBreak? rest).map Prod.snd).getD rest)
  else .error .malformed

/-- Reads a directive. -/
def directive? (cells : List Cell) : Except Fault (Token × List Cell) := do
  let (name, rest) := spanWhile isNameChar (cells.drop 1)
  if name.isEmpty || !endsField (charOf rest) then .error .malformed
  else if name = "YAML".toList then
    let (major, rest) ← versionNumber (skipSpaces rest)
    if charOf rest ≠ '.' then .error .malformed
    else
      let (minor, rest) ← versionNumber (rest.drop 1)
      if endsField (charOf rest) then return (directive name (some (major, minor)) none, ← directiveEnd rest)
      else .error .malformed
  else if name = "TAG".toList then
    let (handle, rest) ← tagHandle (skipSpaces rest)
    if charOf rest ≠ ' ' then .error .malformed
    else
      let (t, rest) ← tagUri (skipSpaces rest)
      if endsField (charOf rest) then return (directive name none (some (handle, t)), ← directiveEnd rest)
      else .error .malformed
  else
    return (directive name none none,
      ← directiveEnd (rest.dropWhile fun c => !endsLine c.char))

/-! ## Keys and indentation -/

/-- How many characters a key may take. -/
def keyLength : Nat := 1024

/-- A place where a key may have started. -/
structure Key where
  /-- How many tokens there are before it. -/
  position : Nat
  /-- Whether the column leaves no other choice than a key. -/
  isRequired : Bool
  index : Nat
  line : Nat
  column : Nat
  deriving DecidableEq, Repr

/-- Whether a key that started at a place has become too long, or has left its line, where
    reading goes on. -/
def Key.isStale (line index : Nat) (place : Key) : Bool :=
  place.line ≠ line || keyLength < index - place.index

/-- What is known while tokens are read. -/
structure State where
  /-- The tokens so far. -/
  tokens : List Token := []
  /-- The column of the innermost block collection; outside of all it is `-1`. -/
  indent : Int := -1
  /-- The columns of the collections around it. -/
  indents : List Int := []
  /-- For each open flow collection and for the block around them, innermost first,
      the place where a key may have started. -/
  keys : List (Option Key) := [none]
  /-- Whether a key may start at the next token. -/
  allowsKey : Bool := true
  deriving DecidableEq, Repr

namespace State

/-- Whether a flow collection is open. -/
def inFlow (s : State) : Bool :=
  1 < s.keys.length

/-- One more token. -/
def push (s : State) (t : Token) : State :=
  { s with tokens := s.tokens ++ [t] }

/-- Closes the block collections at columns beyond `column`. -/
def unwind (column : Int) (s : State) : State :=
  if s.inFlow then s else go s.indent s.indents s.tokens
where
  /-- Closes one collection after the other. -/
  go (indent : Int) : List Int → List Token → State
    | [], tokens => { s with indent, indents := [], tokens }
    | outer :: indents, tokens =>
      if column < indent then go outer indents (tokens ++ [blockEnd])
      else { s with indent, indents := outer :: indents, tokens }

/-- Whether a column lies beyond the innermost block collection. -/
def isDeeper (s : State) (column : Int) : Bool :=
  s.indent < column

/-- Opens a block collection at a column. -/
def openAt (column : Int) (s : State) : State :=
  { s with indent := column, indents := s.indent :: s.indents }

/-- Forgets the key that may have started in the innermost collection. -/
def dropKey (s : State) : Except Fault State :=
  match s.keys with
  | some place :: keys =>
    if place.isRequired then .error .malformed else .ok { s with keys := none :: keys }
  | _ => .ok s

/-- Forgets the keys that have become too long or have left their line. -/
def dropStale (line index : Nat) (s : State) : Except Fault State := do
  let keys ← s.keys.mapM fun
    | none => pure none
    | some place =>
      if place.isStale line index then
        if place.isRequired then .error .malformed else pure none
      else pure (some place)
  return { s with keys }

/-- Remembers that a key may start here. -/
def saveKey (c : Cell) (s : State) : Except Fault State :=
  if !s.allowsKey then .ok s
  else
    match s.dropKey with
    | .error fault => .error fault
    | .ok s =>
      let isRequired := !s.inFlow && s.indent = c.column
      let place : Key := ⟨s.tokens.length, isRequired, c.index, c.line, c.column⟩
      .ok { s with keys := some place :: s.keys.drop 1 }

/-- The tokens that are passed on before the next one is read at some cells. A token that may
    still turn out to start a key is held back, and those after it are. -/
def ready (cells : List Cell) (s : State) : List Token :=
  match cells with
  | [] => s.tokens
  | c :: _ =>
    let held := s.keys.filterMap fun place? =>
      (place?.filter fun place => !place.isStale c.line c.index).map Key.position
    s.tokens.take (held.min?.getD s.tokens.length)

/-- Puts tokens in before the one at `position`. -/
def insertAt (position : Nat) (ts : List Token) (s : State) : State :=
  { s with tokens := s.tokens.take position ++ ts ++ s.tokens.drop position }

end State

/-! ## Reading tokens -/

/-- Reads the blanks, comments and line breaks before the next token. -/
def skipToNext (s : State) (cells : List Cell) : State × List Cell :=
  let rest := skipComment (skipSpaces cells)
  match lineBreak? rest with
  | none => (s, rest)
  | some (_, after) =>
    if _h : after.length < cells.length then
      skipToNext (if s.inFlow then s else { s with allowsKey := true }) after
    else (s, rest)
termination_by cells.length

/-- A mark that begins or ends a document, or a directive: it closes everything. -/
def readTopLevel (t : Token) (rest : List Cell) (s : State) : Except Fault (State × List Cell) := do
  let s ← (s.unwind (-1)).dropKey
  return ({ s with allowsKey := false }.push t, rest)

/-- The start of a flow collection. -/
def readFlowStart (t : Token) (c : Cell) (rest : List Cell) (s : State) :
    Except Fault (State × List Cell) := do
  let s ← s.saveKey c
  return ({ s with keys := none :: s.keys, allowsKey := true }.push t, rest)

/-- The end of a flow collection; one must be open. -/
def readFlowEnd (t : Token) (rest : List Cell) (s : State) : Except Fault (State × List Cell) := do
  let s ← s.dropKey
  if s.inFlow then return ({ s with keys := s.keys.drop 1, allowsKey := false }.push t, rest)
  else .error .malformed

/-- Opens a block collection with `start` if the column is deep enough. Where no key
    may start, no entry may either. -/
def openBlock (start : Token) (c : Cell) (s : State) : Except Fault State :=
  if s.inFlow then .ok s
  else if !s.allowsKey then .error .malformed
  else if s.isDeeper c.column then .ok ((s.openAt c.column).push start)
  else .ok s

/-- An entry of a block sequence. -/
def readBlockEntry (c : Cell) (rest : List Cell) (s : State) : Except Fault (State × List Cell) := do
  let s ← openBlock blockSequenceStart c s
  let s ← { s with allowsKey := true }.dropKey
  return (s.push blockEntry, rest)

/-- A key that is marked as such. -/
def readKey (c : Cell) (rest : List Cell) (s : State) : Except Fault (State × List Cell) := do
  let s ← openBlock blockMappingStart c s
  let s ← { s with allowsKey := !s.inFlow }.dropKey
  return (s.push key, rest)

/-- A value: if a key may have started before it, one did. -/
def readValue (c : Cell) (rest : List Cell) (s : State) : Except Fault (State × List Cell) := do
  match s.keys with
  | some place :: keys =>
    let s := { s with keys := none :: keys, allowsKey := false }
    let s :=
      if !s.inFlow && s.isDeeper place.column then
        (s.openAt place.column).insertAt place.position [blockMappingStart, key]
      else s.insertAt place.position [key]
    return (s.push value, rest)
  | _ =>
    let s ← openBlock blockMappingStart c s
    let s ← { s with allowsKey := !s.inFlow }.dropKey
    return (s.push value, rest)

/-- Whether a plain scalar can start with a character, given the one after it. -/
def startsPlain (inFlow : Bool) (c next : Char) : Bool :=
  !(endsWord c || "-?:,[]\x7b\x7d#&*!|>'\"%@\x60".toList.elem c) ||
    (!endsWord next && (c = '-' || (!inFlow && (c = '?' || c = ':'))))

/-- A scalar or what stands before one, at a place where a key may start. -/
def readNode (c : Cell) (s : State) (read : State → Except Fault (Token × Bool × List Cell)) :
    Except Fault (State × List Cell) := do
  let s ← s.saveKey c
  let s := { s with allowsKey := false }
  let (t, allowsKey, rest) ← read s
  return ({ s with allowsKey }.push t, rest)

/-- Reads the token that starts with a cell. -/
def readToken (c : Cell) (rest : List Cell) (s : State) : Except Fault (State × List Cell) :=
  let cells := c :: rest
  let next := charOf rest
  let separates := endsWord next
  let name (make : Text → Token) (_ : State) := (anchorName rest).map fun (n, r) => (make n, false, r)
  let quote (isDouble : Bool) (_ : State) :=
    (Scalar.quoted isDouble rest).map fun (t, r) => (scalar t false, false, r)
  let block (isFolded : Bool) : Except Fault (State × List Cell) := do
    let s ← { s with allowsKey := true }.dropKey
    let (t, rest) ← Scalar.block isFolded s.indent rest
    return (s.push (scalar t false), rest)
  if c.char = '%' && c.column = 0 then do
    let (t, rest) ← directive? cells
    readTopLevel t rest s
  else if c.column = 0 && isSeparator cells then
    readTopLevel (if c.char = '-' then documentStart else documentEnd) (cells.drop 3) s
  else if c.char = '[' then readFlowStart flowSequenceStart c rest s
  else if c.char = '\x7b' then readFlowStart flowMappingStart c rest s
  else if c.char = ']' then readFlowEnd flowSequenceEnd rest s
  else if c.char = '\x7d' then readFlowEnd flowMappingEnd rest s
  else if c.char = ',' then do
    let s ← { s with allowsKey := true }.dropKey
    return (s.push flowEntry, rest)
  else if c.char = '-' && separates then readBlockEntry c rest s
  else if c.char = '?' && (s.inFlow || separates) then readKey c rest s
  else if c.char = ':' && (s.inFlow || separates) then readValue c rest s
  else if c.char = '*' then readNode c s (name repetition)
  else if c.char = '&' then readNode c s (name anchor)
  else if c.char = '!' then readNode c s fun _ => (tag? cells).map fun (t, r) => (t, false, r)
  else if c.char = '|' && !s.inFlow then block false
  else if c.char = '>' && !s.inFlow then block true
  else if c.char = '\'' then readNode c s (quote false)
  else if c.char = '"' then readNode c s (quote true)
  else if startsPlain s.inFlow c.char next then
    readNode c s fun s =>
      let read := Scalar.plain s.inFlow (s.indent + 1) cells
      .ok (scalar read.text true, read.endsWithBreak, read.rest)
  else .error .malformed

/-- The tokens up to the end of the document, or those that are passed on before the first
    fault. -/
def readAll (s : State) (cells : List Cell) : List Token × Option Fault :=
  let failed (fault : Fault) : List Token × Option Fault := (s.ready cells, some fault)
  let (s, rest) := skipToNext s cells
  match rest with
  | [] => failed .malformed
  | c :: after =>
    match s.dropStale c.line c.index with
    | .error fault => failed fault
    | .ok s =>
      let s := s.unwind c.column
      if c.char = '\x00' then
        match (s.unwind (-1)).dropKey with
        | .error fault => failed fault
        | .ok s => ((s.push streamEnd).tokens, none)
      else match readToken c after s with
        | .error fault => failed fault
        | .ok (s, rest) =>
          if _h : rest.length < cells.length then readAll s rest else failed .malformed
termination_by cells.length

/-- The tokens of a document up to its end or its first fault. A byte order mark may
    stand at its start. -/
def ofCells (cells : List Cell) : List Token × Option Fault :=
  readAll {} (if charOf cells = byteOrderMark then cells.drop 1 else cells)

end Token

end Yaml

end Transclude
