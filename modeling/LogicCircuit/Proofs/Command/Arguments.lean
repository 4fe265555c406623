import LogicCircuit.Command.Options
import Mathlib.Data.List.TakeWhile

/-!
The command line on which a request can be made: it is read back as it was written.
-/

namespace LogicCircuit.Command

open LogicCircuit.Text

variable {d : Draft} {name value : String} {n m : Nat}

/-! Counts. -/

/-- The text of a setting. -/
def settingText (setting : String × Bool) : String :=
  setting.1 ++ "=" ++ (if setting.2 then "1" else "0")

/-- An option that is written out, with a value in the same argument. -/
def longArgument (name value : String) : String :=
  "--" ++ name ++ "=" ++ value

namespace Draft

end Draft

namespace Options

variable {o : Options}

/-- Options that can be asked for. -/
structure WellFormed (o : Options) : Prop where
  file : o.file ≠ ""
  cycles : o.cycles < Decimal.bound
  switches : ∀ e ∈ o.switches, '=' ∉ e.1.toList

/-- The arguments that ask for options. -/
def arguments (o : Options) : List String :=
  (if o.check then ["--check"] else []) ++ longArgument "cycles" (toString o.cycles) ::
    (o.switches.map (fun e => longArgument "switch" (settingText e)) ++ ["--", o.file])

end Options

end LogicCircuit.Command
