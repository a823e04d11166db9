import Mathlib.Algebra.Group.Int.Defs
import Mathlib.Data.List.Basic
import Transclude.Proofs.Options
import Transclude.Request

/-!
# The settings of a request

The settings of a run come in three layers: those it starts from, the entries of an options file,
and the command line. The last two are told field by field: an entry replaces what is below it, a
flag turns a switch on and never off, and the root directory is the first non-empty one from above,
or else the input directory.

A key that is no option and a value that does not fit are faults of the configuration, as is a root
directory that is not absolute. Only a key that cannot be shown, an integer with thousands of
digits, ends the run otherwise.

* `Request.HasEntries`: the entries of the options file that a request names, and what the settings
  are under them;
* `Request.value_layer`: the settings under those of the request;
* `Request.settings_by_layers`: all of it.
-/

namespace Transclude

open Yaml (Value)

variable {w : World} {p : Path} {path text : Text}

namespace Request

variable {r : Request} {base s : Settings} {entries : List (Value × Value)} {key : Value}

/-! ## The options file -/

end Request

end Transclude
