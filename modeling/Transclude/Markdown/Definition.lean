import Transclude.Markdown.Fence

/-!
# Link reference definitions

A paragraph can begin with a *definition*: a label in brackets, a colon, a
destination and perhaps a title. It is not part of the paragraph, so what follows
it starts afresh.

A definition is read from a text that grows: it begins with one line, and where
reading comes to a line break the next line that could continue a paragraph is
added, if there is one. A backslash takes the character after it out of its role.

* `Definition.extent`: how many further lines a definition takes.
-/

namespace Transclude

namespace Markdown

namespace Definition

/-- A text that is being read, with the lines that can still be added to it. -/
structure Cursor where
  /-- What is to be read. -/
  rest : Text
  /-- The further lines, each with its line break. -/
  more : List Text
  /-- How many lines were added. -/
  added : Nat := 0
  deriving DecidableEq, Repr

namespace Cursor

/-- The cursor with the next line added at the end, if there is one. -/
def grow (cursor : Cursor) : Cursor :=
  match cursor.more with
  | [] => cursor
  | line :: more => ⟨cursor.rest ++ line, more, cursor.added + 1⟩

/-- The cursor after the characters it has to read were replaced by `rest`, and
    after a line was added if the last character read was a line break. -/
def goOn (cursor : Cursor) (last : Char) (rest : Text) : Cursor :=
  let next := { cursor with rest }
  if last = '\n' then next.grow else next

/-- How many characters there are to read at most. -/
def size (cursor : Cursor) : Nat :=
  cursor.rest.length + cursor.more.flatten.length

theorem size_grow (cursor : Cursor) : cursor.grow.size = cursor.size := by
  unfold grow size
  split
  · rfl
  · simp_all [Nat.add_assoc]

theorem size_goOn (cursor : Cursor) (last : Char) (rest : Text) :
    (cursor.goOn last rest).size = rest.length + cursor.more.flatten.length := by
  unfold goOn
  split
  · rw [size_grow]; rfl
  · rfl

end Cursor

/-! ## The parts of a definition -/

/-- Reads the rest of a label up to its closing bracket: the label and the cursor
    after the bracket. A label holds no opening bracket. -/
def label? (cursor : Cursor) : Option (Text × Cursor) :=
  match _hrest : cursor.rest with
  | [] => none
  | ']' :: t => some ([], { cursor with rest := t })
  | '[' :: _ => none
  | '\\' :: c :: t =>
    (label? (cursor.goOn c t)).map fun (label, after) => ('\\' :: c :: label, after)
  | c :: t => (label? (cursor.goOn c t)).map fun (label, after) => (c :: label, after)
termination_by cursor.size
decreasing_by
  all_goals
    rw [Cursor.size_goOn]
    simp only [Cursor.size, _hrest, List.length_cons]
    omega

/-- Skips spaces, tabs and line breaks. -/
def skipBlanks (cursor : Cursor) : Cursor :=
  match _hrest : cursor.rest with
  | [] => cursor
  | c :: t =>
    if Text.isSpaceOrTab c || c = '\n' then skipBlanks (cursor.goOn c t) else cursor
termination_by cursor.size
decreasing_by
  rw [Cursor.size_goOn]
  simp only [Cursor.size, _hrest, List.length_cons]
  omega

/-- Reads a destination after its opening angle bracket up to the closing one. -/
def bracketed? : Text → Option (Text × Text)
  | [] => none
  | '\n' :: _ => none
  | '<' :: _ => none
  | '>' :: t => some ([], t)
  | '\\' :: c :: t => (bracketed? t).map fun (read, after) => ('\\' :: c :: read, after)
  | c :: t => (bracketed? t).map fun (read, after) => (c :: read, after)

/-- Reads a destination without angle brackets, inside `depth` parentheses: up to a
    blank, a control character or a parenthesis that closes none. -/
def bare? : (depth : Nat) → Text → Option (Text × Text)
  | depth, [] => if depth = 0 then some ([], []) else none
  | depth, '\\' :: ' ' :: t => if depth = 0 then some ([], '\\' :: ' ' :: t) else none
  | depth, '\\' :: c :: t => (bare? depth t).map fun (read, after) => ('\\' :: c :: read, after)
  | depth, c :: t =>
    if c.toNat ≤ 0x20 || c.toNat = 0x7F then if depth = 0 then some ([], c :: t) else none
    else if c = '(' then
      if 32 ≤ depth then none
      else (bare? (depth + 1) t).map fun (read, after) => (c :: read, after)
    else if c = ')' then
      if depth = 0 then some ([], c :: t)
      else (bare? (depth - 1) t).map fun (read, after) => (c :: read, after)
    else (bare? depth t).map fun (read, after) => (c :: read, after)

/-- Reads a destination: what it says and the text after it. -/
def destination? : Text → Option (Text × Text)
  | '<' :: t => bracketed? t
  | t =>
    match bare? 0 t with
    | some ([], _) => none
    | found => found

/-- How reading a title from the lines so far ends. -/
inductive TitleEnd where
  /-- The title is closed; some text was in it, or none. -/
  | closed (isEmpty : Bool) (rest : Text)
  /-- This is no title. -/
  | broken
  /-- The title goes on. -/
  | open
  deriving DecidableEq, Repr

/-- Reads a title up to the closing mark. A title in parentheses holds no opening
    parenthesis. -/
def titleEnd (mark : Char) (isEmpty : Bool) : Text → TitleEnd
  | [] => .open
  | '\\' :: _ :: t => titleEnd mark false t
  | c :: t =>
    if c = mark then .closed isEmpty t
    else if c = '(' && mark = ')' then .broken
    else titleEnd mark false t

/-- Reads a title over as many lines as it takes: whether it is empty, and the
    cursor after it. -/
def titleFrom (mark : Char) (isEmpty : Bool) (read : Text) (more : List Text) (added : Nat) :
    Option (Bool × Cursor) :=
  match titleEnd mark isEmpty read with
  | .closed isEmpty rest => some (isEmpty, ⟨rest, more, added⟩)
  | .broken => none
  | .open =>
    match more with
    | [] => none
    | line :: more => titleFrom mark (isEmpty && read.isEmpty) line more (added + 1)

/-- The mark that closes a title which this mark opens. -/
def closingMark? (c : Char) : Option Char :=
  if c = '"' || c = '\'' then some c else if c = '(' then some ')' else none

/-- Reads a title: whether it is empty, and the cursor after it. -/
def title? (cursor : Cursor) : Option (Bool × Cursor) :=
  match cursor.rest with
  | [] => none
  | c :: t => (closingMark? c).bind fun mark => titleFrom mark true t cursor.more cursor.added

/-! ## Destinations that are not linked -/

/-- The values of the character references that can stand in the name of a scheme or
    before it. -/
def namedReferences : List (Text × Text) :=
  [("colon", ":"), ("Tab", "\t"), ("NewLine", "\n"), ("period", "."), ("plus", "+"),
   ("sol", "/"), ("semi", ";")].map fun (name, value) => (name.toList, value.toList)

/-- The value of a hexadecimal digit. -/
def hexValue? (c : Char) : Option Nat :=
  if c.isDigit then some (c.toNat - 48)
  else if 'a' ≤ c && c ≤ 'f' then some (c.toNat - 87)
  else if 'A' ≤ c && c ≤ 'F' then some (c.toNat - 55)
  else none

/-- The number that digits write in a base, if each is a digit and there are one to
    eight of them. -/
def codeOf? (radix : Nat) (digits : Text) : Option Nat :=
  if digits.isEmpty || 8 < digits.length then none
  else (digits.mapM hexValue?).bind fun values =>
    if values.all (· < radix) then some (values.foldl (fun n d => radix * n + d) 0) else none

/-- The value of a character reference, given by what stands between the ampersand
    and the semicolon. -/
def referenceValue? : Text → Option Text
  | '#' :: 'x' :: digits => (codeOf? 16 digits).map fun code => [Char.ofNat code]
  | '#' :: 'X' :: digits => (codeOf? 16 digits).map fun code => [Char.ofNat code]
  | '#' :: digits => (codeOf? 10 digits).map fun code => [Char.ofNat code]
  | name => (namedReferences.find? fun entry => entry.1 = name).map Prod.snd

/-- Whether a character is ASCII punctuation. -/
def isPunctuation (c : Char) : Bool :=
  (0x21 ≤ c.toNat && c.toNat ≤ 0x7E) && !c.isAlphanum

/-- The destination with escapes and character references resolved; `skip`
    characters of the text belong to a reference that was resolved. -/
def unescape : (skip : Nat) → Text → Text
  | _, [] => []
  | skip + 1, _ :: t => unescape skip t
  | 0, '\\' :: c :: t =>
    if isPunctuation c then c :: unescape 0 t else '\\' :: unescape 0 (c :: t)
  | 0, '&' :: t =>
    let name := t.takeWhile fun c => c.isAlphanum || c = '#'
    match t.drop name.length, referenceValue? name with
    | ';' :: _, some value => value ++ unescape (name.length + 1) t
    | _, _ => '&' :: unescape 0 t
  | 0, c :: t => c :: unescape 0 t

/-- Whether a destination may be linked to: schemes that run code or hold data of
    their own may not, images as data apart. -/
def isLinkable (destination : Text) : Bool :=
  let url := (Text.strip (unescape 0 destination)).map Char.toLower
  let starts (schemes : List String) := schemes.any fun scheme => scheme.toList.isPrefixOf url
  !starts ["vbscript:", "javascript:", "file:", "data:"] ||
    starts ["data:image/gif;", "data:image/png;", "data:image/jpeg;", "data:image/webp;"]

/-! ## Whole definitions -/

/-- Whether nothing but spaces and tabs is left of the line that is being read. -/
def endsLine (t : Text) : Bool :=
  match t.dropWhile Text.isSpaceOrTab with
  | [] => true
  | c :: _ => c = '\n'

/-- The cursor after the title that follows a destination, and whether the title is
    empty. Blanks must stand in between, except before a title that goes on over
    several lines. -/
def titleAfter? (cursor : Cursor) : Option (Bool × Cursor) :=
  let next := skipBlanks cursor
  let apart := next.rest.length ≠ cursor.rest.length || next.added ≠ cursor.added
  (title? next).filter fun (_, after) => apart || next.added < after.added

/-- How many lines are added for the definition whose destination was just read. A
    title that is followed by something else on its line is no title, unless it is
    empty: then there is no definition. -/
def extentAfter? (cursor : Cursor) : Option Nat :=
  let bare := if endsLine cursor.rest then some cursor.added else none
  match titleAfter? cursor with
  | none => bare
  | some (isEmpty, after) =>
    if endsLine after.rest then some after.added
    else if isEmpty then none
    else bare

/-- The number of further lines that a definition takes which starts with this text,
    if it is one; `more` are the lines that could continue a paragraph. -/
def extent (content : Text) (more : List Text) : Option Nat :=
  match content with
  | '[' :: t =>
    match label? ⟨t, more, 0⟩ with
    | none => none
    | some (label, after) =>
      match after.rest with
      | ':' :: rest =>
        let cursor := skipBlanks { after with rest }
        match destination? cursor.rest with
        | none => none
        | some (destination, rest) =>
          if !isLinkable destination || (Text.strip label).isEmpty then none
          else extentAfter? { cursor with rest }
      | _ => none
  | _ => none

end Definition

end Markdown

end Transclude
