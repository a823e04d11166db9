import Transclude.Markdown.Fence

/-!
# HTML blocks

A line whose content starts like HTML opens a block that is passed through as it
is. There are seven ways to start one, and to each belongs the way to end it: some
end with the line that holds a closing mark, the last two with an empty line. A
lone tag of any other name (the seventh way) cannot interrupt a paragraph.

* `Html.Kind`: the seven ways;
* `Html.opening?`: which of them a line is, if it is one.
-/

namespace Transclude

namespace Markdown

namespace Html

/-! ## Names without regard to case -/

/-- The small letter that a character is matched with: beside the capital letters
    this covers the dotless and dotted i, the long s and the kelvin sign. -/
def fold (c : Char) : Char :=
  if 'A' ≤ c && c ≤ 'Z' then Char.ofNat (c.toNat + 32)
  else if c.toNat = 0x130 || c.toNat = 0x131 then 'i'
  else if c.toNat = 0x17F then 's'
  else if c.toNat = 0x212A then 'k'
  else c

/-- The rest of a text after a name, whatever the case of its letters. -/
def afterName (name t : Text) : Option Text :=
  if name.isPrefixOf ((t.take name.length).map fold) then some (t.drop name.length) else none

/-- Whether some text after a position of `t` starts with one of the marks, whatever
    the case of its letters. -/
def holdsMark (marks : List Text) : Text → Bool
  | [] => marks.any (·.isEmpty)
  | c :: t => marks.any (fun mark => (afterName mark (c :: t)).isSome) || holdsMark marks t

/-! ## Tags -/

/-- Whether a character is an ASCII letter. -/
def isLetter (c : Char) : Bool :=
  c.isAlpha

/-- Whether a character can follow the first letter of a tag name. -/
def isTagChar (c : Char) : Bool :=
  c.isAlphanum || c = '-'

/-- Whether a character can start an attribute name. -/
def isAttributeStart (c : Char) : Bool :=
  c.isAlpha || c = '_' || c = ':'

/-- Whether a character can follow the first character of an attribute name. -/
def isAttributeChar (c : Char) : Bool :=
  c.isAlphanum || c = ':' || c = '.' || c = '_' || c = '-'

/-- Whether a character can stand in an attribute value without quotes. -/
def isUnquotedChar (c : Char) : Bool :=
  !(c = '"' || c = '\'' || c = '=' || c = '<' || c = '>' || c = backtick || c.toNat ≤ 0x20)

/-- The texts that can follow an unquoted value: it ends as late as possible or
    before a white-space character. -/
def afterUnquoted : Text → List Text
  | [] => [[]]
  | c :: t =>
    if isUnquotedChar c then
      if Text.isBlank c then afterUnquoted t ++ [c :: t] else afterUnquoted t
    else [c :: t]

/-- The text after the first `mark`, if there is one. -/
def afterChar (mark : Char) (t : Text) : Option Text :=
  match t.dropWhile (· ≠ mark) with
  | [] => none
  | _ :: rest => some rest

/-- The texts that can follow an attribute value. -/
def afterValue : Text → List Text
  | [] => []
  | '"' :: t => (afterChar '"' t).toList
  | '\'' :: t => (afterChar '\'' t).toList
  | c :: t => if isUnquotedChar c then afterUnquoted t else []

/-- Whether only white space follows the end of a tag. -/
def endsTag (t : Text) : Bool :=
  match t.dropWhile Text.isBlank with
  | '>' :: rest => rest.all Text.isBlank
  | '/' :: '>' :: rest => rest.all Text.isBlank
  | _ => false

/-- Whether the text is the rest of an opening tag, after its name or one of its
    attributes, and white space; `fuel` bounds the number of attributes. -/
def isTagRest : (fuel : Nat) → Text → Bool
  | 0, t => endsTag t
  | fuel + 1, t =>
    endsTag t ||
      match t with
      | [] => false
      | b :: _ =>
        match t.dropWhile Text.isBlank with
        | [] => false
        | c :: rest =>
          Text.isBlank b && isAttributeStart c &&
            let afterKey := rest.dropWhile isAttributeChar
            match afterKey.dropWhile Text.isBlank with
            | '=' :: value => (afterValue (value.dropWhile Text.isBlank)).any (isTagRest fuel)
            | _ => isTagRest fuel afterKey

/-- Whether the whole text is one opening or closing tag and white space. -/
def isLoneTag : Text → Bool
  | '<' :: '/' :: c :: t =>
    isLetter c &&
      match (t.dropWhile isTagChar).dropWhile Text.isBlank with
      | '>' :: rest => rest.all Text.isBlank
      | _ => false
  | '<' :: c :: t => isLetter c && isTagRest t.length (t.dropWhile isTagChar)
  | _ => false

/-! ## The seven ways -/

/-- The ways in which an HTML block starts. -/
inductive Kind where
  /-- A tag whose content is not markup: a script, a style sheet or plain text. -/
  | verbatim
  | comment
  | instruction
  | declaration
  | characterData
  /-- A tag that stands for a block of its own. -/
  | blockTag
  /-- Any other tag, alone on its line. -/
  | loneTag
  deriving DecidableEq, Repr

/-- The names of the tags whose content is not markup. -/
def verbatimNames : List Text :=
  ["script", "pre", "style", "textarea"].map String.toList

/-- The names of the tags that stand for a block. -/
def blockNames : List Text :=
  ["address", "article", "aside", "base", "basefont", "blockquote", "body", "caption", "center",
   "col", "colgroup", "dd", "details", "dialog", "dir", "div", "dl", "dt", "fieldset",
   "figcaption", "figure", "footer", "form", "frame", "frameset", "h1", "h2", "h3", "h4", "h5",
   "h6", "head", "header", "hr", "html", "iframe", "legend", "li", "link", "main", "menu",
   "menuitem", "nav", "noframes", "ol", "optgroup", "option", "p", "param", "search", "section",
   "summary", "table", "tbody", "td", "tfoot", "th", "thead", "title", "tr", "track",
   "ul"].map String.toList

/-- Whether a name ends here: white space, the end of the tag or the end of the line
    follows. -/
def endsName (slash : Bool) : Text → Bool
  | [] => true
  | '>' :: _ => true
  | '/' :: '>' :: _ => slash
  | c :: _ => Text.isBlank c

/-- Whether the text starts with one of the names, and the name ends there. -/
def startsWithName (names : List Text) (slash : Bool) (t : Text) : Bool :=
  names.any fun name =>
    match afterName name t with
    | some rest => endsName slash rest
    | none => false

/-- The way in which the content of a line starts an HTML block, if it does. -/
def kind? (content : Text) : Option Kind :=
  match content with
  | '<' :: t =>
    if startsWithName verbatimNames false t then some .verbatim
    else if ['!', '-', '-'].isPrefixOf t then some .comment
    else if ['?'].isPrefixOf t then some .instruction
    else if (match t with | '!' :: c :: _ => c.isUpper | _ => false) then some .declaration
    else if "![CDATA[".toList.isPrefixOf t then some .characterData
    else if startsWithName blockNames true (match t with | '/' :: r => r | r => r) then
      some .blockTag
    else if isLoneTag content then some .loneTag
    else none
  | _ => none

/-- Whether a line with this content ends a block of this kind. -/
def Kind.isEndedBy (content : Text) : Kind → Bool
  | verbatim => holdsMark (verbatimNames.map fun name => '<' :: '/' :: name ++ ['>']) content
  | comment => Text.occursIn "-->".toList content
  | instruction => Text.occursIn "?>".toList content
  | declaration => Text.occursIn ">".toList content
  | characterData => Text.occursIn "]]>".toList content
  | blockTag => content.isEmpty
  | loneTag => content.isEmpty

/-- The way in which a line starts an HTML block, if it does. -/
def opening? (margin : Fence.Margin) (l : Line) : Option Kind :=
  if Fence.isIndented margin l then none else kind? l.content

/-- The number of lines that a block of this kind goes on for after the line that
    starts it, unless that line ends it. -/
def extent (margin : Fence.Margin) (kind : Kind) : List Line → Nat
  | [] => 0
  | l :: ls =>
    if l.indent < margin then 0
    else if kind.isEndedBy l.content then if l.isEmpty then 0 else 1
    else 1 + extent margin kind ls

end Html

end Markdown

end Transclude
