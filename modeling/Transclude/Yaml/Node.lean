import Transclude.Table
import Transclude.Yaml.Tag
import Transclude.Yaml.Token

/-!
# Nodes

The tokens of a document write a *node*: a scalar, a sequence of nodes or a mapping,
which is a list of pairs of nodes, each with its tag. A node that was given a name by
an anchor is repeated by an alias. Where a node could stand and none does, the empty
scalar stands.

Block collections are delimited by tokens of their own, but for a sequence that is the
value of a mapping and stands at the mapping's own column: it ends where no entry
follows. In a flow sequence a pair stands for a mapping with this one entry.

Nodes may be nested to any depth here. That a reader which calls itself for every level gives
up on a document with too many of them is left out.

* `Node.ofText`: the node that a text writes, if it writes one.
-/

namespace Transclude

namespace Yaml

/-- A document without its writing. -/
inductive Node where
  | scalar (tag : Tag) (text : Text)
  | sequence (tag : Tag) (items : List Node)
  | mapping (tag : Tag) (entries : List (Node × Node))
  deriving Repr

namespace Node

/-- The tag of a node. -/
def tag : Node → Tag
  | scalar tag _ | sequence tag _ | mapping tag _ => tag

/-- The node that stands where none is written. -/
def empty : Node :=
  scalar .null []

/-! ## What is known while nodes are read -/

/-- The handles that every document knows. -/
def handles : Table Text :=
  [(['!'], ['!']), (['!', '!'], Tag.stem)]

/-- What is known while nodes are read. -/
structure State where
  /-- The tokens to come. -/
  tokens : List Token
  /-- What is wrong where they end. -/
  fault : Fault
  /-- What the handles of tags stand for. -/
  handles : Table Text := Node.handles
  /-- The nodes with a name; those that are still being read have no value. -/
  anchors : Table (Option Node) := []

/-- A step of reading: it may fail, and it changes what is known. -/
abbrev Reader := StateT State (Except Fault)

/-- Refuses the document. -/
def refuse {α : Type} : Reader α :=
  throw .malformed

/-- The next token. -/
def peek : Reader Token := do
  let s ← get
  match s.tokens with
  | t :: _ => return t
  | [] => throw s.fault

/-- Passes over the next token. -/
def skip : Reader Unit :=
  modify fun s => { s with tokens := s.tokens.drop 1 }

/-- Passes over the next token if it is `t`, and says whether it was. -/
def accept (t : Token) : Reader Bool := do
  if (← peek) = t then
    skip
    return true
  else return false

/-! ## Properties -/

/-- An anchor, if there is one. -/
def anchor? : Reader (Option Text) := do
  match ← peek with
  | .anchor name => do skip; return some name
  | _ => return none

/-- A tag as it is written, if there is one: its handle, if it has one, and the rest. -/
def tag? : Reader (Option (Option Text × Text)) := do
  match ← peek with
  | .tag handle suffix => do skip; return some (handle, suffix)
  | _ => return none

/-- The text of a tag. Its handle must be known. -/
def expand : Option (Option Text × Text) → Reader (Option Text)
  | none => return none
  | some (none, suffix) => return some suffix
  | some (some handle, suffix) => do
    match (← get).handles.lookup handle with
    | none => refuse
    | some stem => return some (stem ++ suffix)

/-- The properties of a node, in either order: an anchor and a tag. -/
def properties : Reader (Option Text × Option Text) := do
  match ← anchor? with
  | some name => return (some name, ← expand (← tag?))
  | none =>
    let tag ← tag?
    let name ← if tag.isSome then anchor? else pure none
    return (name, ← expand tag)

/-- Gives a name to a node whose first token is the next one. No two nodes share a name. -/
def announce (anchor : Option Text) : Reader Unit := do
  discard peek
  match anchor with
  | none => return ()
  | some name =>
    if ((← get).anchors.lookup name).isSome then refuse
    else modify fun s => { s with anchors := s.anchors.put name none }

/-- Remembers a node by its name. -/
def remember (anchor : Option Text) (node : Node) : Reader Node := do
  match anchor with
  | none => return node
  | some name =>
    modify fun s => { s with anchors := s.anchors.put name (some node) }
    return node

/-- The node with a name. It must have been read to its end. -/
def named (name : Text) : Reader Node := do
  match (← get).anchors.lookup name with
  | some (some node) => return node
  | _ => refuse

/-- The tag of a node, if the one that is written leaves it open. -/
def isOpen (tag : Option Text) : Bool :=
  tag = none || tag = some ['!']

/-- The tag of a collection that would have the tag `form` by its form. -/
def collectionTag (form : Tag) (tag : Option Text) : Tag :=
  if isOpen tag then form else (tag.map Tag.ofText).getD form

/-- The tag of a scalar. One that is not plain is a text, unless its tag asks to take
    it as if it were. -/
def scalarTag (tag : Option Text) (isPlain : Bool) (text : Text) : Tag :=
  match tag with
  | none => if isPlain then Tag.ofPlain text else .text
  | some t => if t = ['!'] then Tag.ofPlain text else Tag.ofText t

/-! ## Productions -/

/-- Where a node stands. -/
inductive Place where
  /-- In a flow collection. -/
  | flow
  /-- In a block sequence, or alone. -/
  | block
  /-- In a block mapping, where a sequence need not be indented. -/
  | entry
  deriving DecidableEq, Repr

/-- Passes over the comma before an item or an entry, and says whether it was there. None stands
    before the first. -/
def separator (isFirst : Bool) : Reader Bool :=
  if isFirst then pure true else accept .flowEntry

mutual

/-- Reads a node. -/
def node (fuel : Nat) (place : Place) : Reader Node :=
  match fuel with
  | 0 => refuse
  | fuel + 1 => do
    match ← peek with
    | .repetition name => do skip; named name
    | _ =>
      let (anchor, tag) ← properties
      announce anchor
      remember anchor (← content fuel place anchor tag)

/-- Reads a node after its properties. -/
def content (fuel : Nat) (place : Place) (anchor tag : Option Text) : Reader Node :=
  match fuel with
  | 0 => refuse
  | fuel + 1 => do
    let isBlock := place ≠ .flow
    match ← peek with
    | .scalar text isPlain => do skip; return scalar (scalarTag tag isPlain text) text
    | .flowSequenceStart => do
      skip
      return sequence (collectionTag .sequence tag) (← flowItems fuel true)
    | .flowMappingStart => do
      skip
      return mapping (collectionTag .mapping tag) (← flowEntries fuel true)
    | next =>
      if place = .entry && next = .blockEntry then
        return sequence (collectionTag .sequence tag) (← bareItems fuel)
      else if isBlock && next = .blockSequenceStart then
        skip
        return sequence (collectionTag .sequence tag) (← blockItems fuel)
      else if isBlock && next = .blockMappingStart then
        skip
        return mapping (collectionTag .mapping tag) (← blockEntries fuel)
      else if anchor.isSome || tag.isSome then return scalar (scalarTag tag true []) []
      else refuse

/-- Reads a node, unless one of the tokens `stops` shows that it is missing. -/
def nodeUnless (fuel : Nat) (stops : List Token) (place : Place) : Reader Node :=
  match fuel with
  | 0 => refuse
  | fuel + 1 => do
    if stops.elem (← peek) then return empty else node fuel place

/-- Reads the value of an entry, if there is one, unless one of `stops` follows it. -/
def valueUnless (fuel : Nat) (stops : List Token) (place : Place) : Reader Node :=
  match fuel with
  | 0 => refuse
  | fuel + 1 => do
    if ← accept .value then nodeUnless fuel stops place else return empty

/-- Reads the items of a block sequence up to its end. -/
def blockItems (fuel : Nat) : Reader (List Node) :=
  match fuel with
  | 0 => refuse
  | fuel + 1 => do
    if ← accept .blockEntry then
      let item ← nodeUnless fuel [.blockEntry, .blockEnd] .block
      return item :: (← blockItems fuel)
    else if ← accept .blockEnd then return []
    else refuse

/-- Reads the items of a sequence that is not indented. -/
def bareItems (fuel : Nat) : Reader (List Node) :=
  match fuel with
  | 0 => refuse
  | fuel + 1 => do
    if ← accept .blockEntry then
      let item ← nodeUnless fuel [.blockEntry, .key, .value, .blockEnd] .block
      return item :: (← bareItems fuel)
    else return []

/-- Reads the entries of a block mapping up to its end. -/
def blockEntries (fuel : Nat) : Reader (List (Node × Node)) :=
  match fuel with
  | 0 => refuse
  | fuel + 1 => do
    let stops : List Token := [.key, .value, .blockEnd]
    if ← accept .key then
      let key ← nodeUnless fuel stops .entry
      let value ← valueUnless fuel stops .entry
      return (key, value) :: (← blockEntries fuel)
    else if ← accept .blockEnd then return []
    else refuse

/-- Reads the items of a flow sequence up to its end. -/
def flowItems (fuel : Nat) (isFirst : Bool) : Reader (List Node) :=
  match fuel with
  | 0 => refuse
  | fuel + 1 => do
    if ← accept .flowSequenceEnd then return []
    else if !(← separator isFirst) then refuse
    else if ← accept .key then
      let key ← nodeUnless fuel [.value, .flowEntry, .flowSequenceEnd] .flow
      let value ← valueUnless fuel [.flowEntry, .flowSequenceEnd] .flow
      return mapping .mapping [(key, value)] :: (← flowItems fuel false)
    else if ← accept .flowSequenceEnd then return []
    else
      let item ← node fuel .flow
      return item :: (← flowItems fuel false)

/-- Reads the entries of a flow mapping up to its end. -/
def flowEntries (fuel : Nat) (isFirst : Bool) : Reader (List (Node × Node)) :=
  match fuel with
  | 0 => refuse
  | fuel + 1 => do
    if ← accept .flowMappingEnd then return []
    else if !(← separator isFirst) then refuse
    else if ← accept .key then
      let key ← nodeUnless fuel [.value, .flowEntry, .flowMappingEnd] .flow
      let value ← valueUnless fuel [.flowEntry, .flowMappingEnd] .flow
      return (key, value) :: (← flowEntries fuel false)
    else if ← accept .flowMappingEnd then return []
    else
      let key ← node fuel .flow
      return (key, empty) :: (← flowEntries fuel false)

end

/-! ## Documents -/

/-- Passes over the marks that end documents. -/
def skipEnds : Reader Unit :=
  modify fun s => { s with tokens := s.tokens.dropWhile (· = Token.documentEnd) }

/-- Takes in the directives before a document. There is at most one version, which is
    of the first generation, and every handle is declared at most once. -/
def declare (version : Bool) (declared : Table Text) : List Token → Reader (Table Text)
  | .directive _ number handle :: rest => do
    skip
    match number, handle with
    | some (major, _), _ =>
      if version || major ≠ 1 then refuse else declare true declared rest
    | none, some (short, stem) =>
      if (declared.lookup short).isSome then refuse
      else declare version (declared.put short stem) rest
    | none, none => declare version declared rest
  | _ => return declared

/-- Whether a token begins or ends a document. -/
def delimits : Token → Bool
  | .directive .. | .documentStart | .documentEnd | .streamEnd => true
  | _ => false

/-- Reads a document, which may start without a mark if it is `isFirst`. -/
def document? (fuel : Nat) : Reader (Option Node) := do
  match ← peek with
  | .streamEnd => return none
  | .documentStart | .directive .. =>
    let declared ← declare false [] (← get).tokens
    if ← accept .documentStart then
      let known := handles.filter fun entry => (declared.lookup entry.1).isNone
      modify fun s => { s with handles := declared ++ known }
      if delimits (← peek) then return some empty else return some (← node fuel .block)
    else refuse
  | _ => return some (← node fuel .block)

/-- Reads the one document of a text to the end of the text. -/
def only? (fuel : Nat) : Reader (Option Node) := do
  let found ← document? fuel
  if found.isSome then
    skipEnds
  if ← accept .streamEnd then return found else refuse

/-- The node that a text writes, if it writes one. -/
def ofText (t : Text) : Except Fault (Option Node) :=
  if !t.all isAllowed then .error .malformed
  else
    let (tokens, fault) := Token.ofCells (Cell.ofText t)
    (only? (4 * tokens.length + 8)).run' { tokens, fault := fault.getD .malformed }

end Node

end Yaml

end Transclude
