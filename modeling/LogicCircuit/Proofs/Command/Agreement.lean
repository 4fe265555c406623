import LogicCircuit.Command.Execute
import LogicCircuit.Proofs.Circuit.Overriding
import LogicCircuit.Proofs.Command.Arguments
import LogicCircuit.Proofs.Description.Assembly
import LogicCircuit.Proofs.Description.Counting

/-!
What the command leaves behind is what compiling, setting switches and running make of its file:
the traces of a run that went through, or else nothing but a report of what went wrong.
-/

namespace LogicCircuit.Command

open LogicCircuit.Description

variable {c final : Circuit} {settings : List (String × Bool)} {options others : Options}
  {source : String} {outcome : Outcome}

/-! Switches. -/

/-- Options that differ only in settings that later ones override. -/
structure Options.Alike (options others : Options) : Prop where
  file : options.file = others.file
  check : options.check = others.check
  cycles : options.cycles = others.cycles
  switches : ∀ name, options.switches.reverse.lookup name = others.switches.reverse.lookup name

theorem Options.Alike.symm (alike : options.Alike others) : others.Alike options :=
  ⟨alike.file.symm, alike.check.symm, alike.cycles.symm, fun name => (alike.switches name).symm⟩

end LogicCircuit.Command
