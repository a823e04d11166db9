import Transclude.Decimal.Shortest
import Transclude.Text.Quoted
import Transclude.Yaml.Moment
import Transclude.Yaml.Node
import Transclude.Yaml.Number

/-!
# Values

A *value* is what a document says: nothing, a truth value, a number, a moment, a text,
a list of values or a mapping between values. The keys of a mapping are no collections,
and no two of them are the same; numbers of different kinds can be the same key.

A node has a value if its tag fits its form and its text. In a mapping, the entries of
the mappings to be merged come first, so that the mapping's own entries replace them.

* `Value.ofText`: the value of a document;
* `Value.describe`: a value as it is shown among other values;
* `Value.keyText`: a key as it is shown by itself.
-/

namespace Transclude

namespace Yaml

/-- What a document says. -/
inductive Value where
  | null
  | truth (b : Bool)
  | integer (n : Int)
  /-- A number with a fraction, by the 64 bits that stand for it. -/
  | number (bits : UInt64)
  | moment (m : Moment)
  | text (t : Text)
  | list (items : List Value)
  | mapping (entries : List (Value × Value))
  deriving Repr, Inhabited

namespace Value

/-! ## Keys -/

/-- The number that a value is, as a multiple of the least positive number. -/
def scaled? : Value → Option Int
  | truth b => some (if b then Nat.pow 2 1074 else 0)
  | integer n => some (n * Nat.pow 2 1074)
  | number bits =>
    match Binary.ofBits bits with
    | .finite isNegative m e _ =>
      let n : Int := m * Nat.pow 2 (e + 1074).toNat
      some (if isNegative then -n else n)
    | _ => none
  | _ => none

/-- Whether two values are the same key. -/
def sameKey : Value → Value → Bool
  | null, null => true
  | text s, text t => s = t
  | moment m, moment n => m = n
  | number a, number b =>
    match Binary.ofBits a, Binary.ofBits b with
    | .infinity s, .infinity t => s = t
    | _, _ => (scaled? (number a)).isSome && scaled? (number a) = scaled? (number b)
  | a, b => (scaled? a).isSome && scaled? a = scaled? b

/-- The entries with `value` under `key`, at the place of the old entry with this key or
    at the end. -/
def put (key value : Value) : List (Value × Value) → List (Value × Value)
  | [] => [(key, value)]
  | (old, was) :: rest =>
    if sameKey old key then (old, value) :: rest else (old, was) :: put key value rest

/-! ## Showing -/

mutual

/-- A value as it is shown among other values. -/
def describe : Value → Text
  | null => "None".toList
  | truth b => (if b then "True" else "False").toList
  | integer n => (toString n).toList
  | number bits => Shortest.text (Binary.ofBits bits)
  | moment m => m.describe.toList
  | text t => Text.quoted t
  | list items => '[' :: describeItems items ++ [']']
  | mapping entries => '\x7b' :: describeEntries entries ++ ['\x7d']

/-- Values with commas between them. -/
def describeItems : List Value → Text
  | [] => []
  | [item] => describe item
  | item :: items => describe item ++ ',' :: ' ' :: describeItems items

/-- Entries with commas between them. -/
def describeEntries : List (Value × Value) → Text
  | [] => []
  | [(key, value)] => describe key ++ ':' :: ' ' :: describe value
  | (key, value) :: entries =>
    describe key ++ ':' :: ' ' :: describe value ++ ',' :: ' ' :: describeEntries entries

end

/-- A value as it is shown by itself. An integer must not have too many digits for that. -/
def keyText : Value → Except Fault Text
  | text t => .ok t
  | moment m => .ok (m.text ' ')
  | integer n =>
    if Text.numeralLimit < (Text.ofNat n.natAbs).length then .error .unshowableInteger
    else .ok (describe (integer n))
  | value => .ok (describe value)

/-! ## The values of nodes -/

/-- The text of a node that should be a scalar. A mapping stands for the value of its
    stand-in key. -/
def scalarText : Node → Option Text
  | .scalar _ t => some t
  | .sequence .. => none
  | .mapping _ entries => ofEntries entries
where
  /-- The text of the first value under a stand-in key. -/
  ofEntries : List (Node × Node) → Option Text
    | [] => none
    | (.scalar .standIn _, value) :: _ => scalarText value
    | _ :: entries => ofEntries entries

/-- The truth value that a text writes. -/
def truthOf (t : Text) : Except Fault Value :=
  let word := t.map Char.toLower
  match Tag.truthNames.lookup (String.ofList word) with
  | some b => .ok (truth b)
  | none => .error (.notATruthValue word)

/-- The moment that a text writes. A line feed may follow it. -/
def momentOf (t : Text) : Except Fault Value :=
  match Written.ofText? (if t.getLast? = some '\n' then t.dropLast else t) with
  | some written => (Moment.ofWritten written).map moment
  | none => .error .notADate

/-- The value of a scalar with a tag. -/
def ofScalar (tag : Tag) (t : Text) : Except Fault Value :=
  match tag with
  | .null => .ok null
  | .truth => truthOf t
  | .integer => (Number.integer t).map integer
  | .number => (Number.float t).map fun value => number value.toBits
  | .date => momentOf t
  | .text => .ok (text t)
  | _ => .error .malformed

/-- The nodes whose mappings are merged for a node under the merge key, the ones that
    count most last. -/
def mergeSources : Node → List Node
  | .sequence _ items => items.reverse
  | node => [node]

/-- A stand-in key as a text. -/
def asText : Node → Node
  | .scalar .standIn t => .scalar .text t
  | .sequence .standIn items => .sequence .text items
  | .mapping .standIn entries => .mapping .text entries
  | node => node

/-- The entries of a mapping once other mappings are merged into it: those of the others
    come first. A stand-in key among them is a text. At most `depth` mappings are nested
    in this way. -/
def flatten (depth : Nat) (entries : List (Node × Node)) : Except Fault (List (Node × Node)) :=
  match depth with
  | 0 => .error .malformed
  | depth + 1 => do
    let isMerge (entry : Node × Node) : Bool := entry.1.tag = .merge
    let merged ← (entries.filter isMerge).mapM fun entry =>
      (mergeSources entry.2).mapM fun
        | .mapping _ inner => flatten depth inner
        | _ => .error .malformed
    let own := (entries.filter fun entry => !isMerge entry).map fun (key, value) =>
      (asText key, value)
    return merged.flatten.flatten ++ own

/-- The value of a node that is no collection. -/
def ofLeaf : Node → Except Fault Value
  | .mapping .date entries =>
    .error (if (scalarText (.mapping .date entries)).isSome then .mappingForDate else .malformed)
  | node =>
    match scalarText node with
    | some t => ofScalar node.tag t
    | none => .error .malformed

/-- Whether a node stands for a list or a mapping. -/
def isCollection (node : Node) : Bool :=
  node.tag = .sequence || node.tag = .mapping

/-- Makes sure that a node has a value, unless it is a collection. -/
def checkLeaf (node : Node) : Except Fault Unit :=
  if isCollection node then .ok () else (ofLeaf node).map fun _ => ()

/-- Makes sure that what stands right inside a collection has a value, and gives the
    collections there. A key must not be one. -/
def checkInside (depth : Nat) : Node → Except Fault (List Node)
  | .sequence .sequence items => do
    items.forM checkLeaf
    return items.filter isCollection
  | .mapping .mapping entries => do
    let flat ← flatten depth entries
    flat.forM fun (key, value) => do
      checkLeaf key
      if isCollection key then throw .malformed
      checkLeaf value
    return (flat.map Prod.snd).filter isCollection
  | _ => .error .malformed

/-- Makes sure that what stands inside some collections has a value: first what stands right
    inside them, and then what stands inside the collections there. At most `depth` are
    nested. -/
def checkLevels (depth : Nat) (nodes : List Node) : Except Fault Unit :=
  match depth with
  | 0 => .error .malformed
  | depth + 1 =>
    if nodes.isEmpty then .ok ()
    else do
      let inside ← nodes.mapM (checkInside (depth + 1))
      checkLevels depth inside.flatten

/-- The value of a node in which at most `depth` nodes are nested. -/
def ofNode (depth : Nat) (node : Node) : Except Fault Value :=
  match depth with
  | 0 => .error .malformed
  | depth + 1 =>
    match node with
    | .sequence .sequence items => (items.mapM (ofNode depth)).map list
    | .mapping .mapping entries => do
      let flat ← flatten (depth + 1) entries
      let pairs ← flat.mapM fun (k, v) => do return (← ofNode depth k, ← ofNode depth v)
      return mapping (pairs.foldl (fun entries pair => put pair.1 pair.2 entries) [])
    | node => ofLeaf node

/-- The value of a document. An empty document says nothing. What is wrong in a collection counts
    only after what is wrong beside it. -/
def ofText (t : Text) : Except Fault Value := do
  match ← Node.ofText t with
  | none => return null
  | some node =>
    let depth := 4 * t.length + 8
    checkLeaf node
    checkLevels depth ([node].filter isCollection)
    ofNode depth node

end Value

end Yaml

end Transclude
