import LogicCircuit.Netlist.Connect

/-!
The inputs of a netlist that nothing drives, and the low source that takes the place of a driver
for those of flip-flops.
-/

namespace LogicCircuit.Netlist

/-- The unwired inputs of the devices of some kinds. -/
def floatingOf (n : Netlist) (kinds : Kind → Bool) : List (Symbol × Symbol) :=
  (n.devices.filter fun d => kinds d.kind).flatMap fun d =>
    d.floating.map fun pin => (d.symbol, pin)

/-- Connects one output to each of several inputs, as far as that can be done. -/
def connectAll (n : Netlist) (output : Terminal) (inputs : List (Symbol × Symbol)) : Netlist :=
  inputs.foldl (fun n input => (n.connect output ⟨input.1, some input.2⟩).toOption.getD n) n

/-- Lets a switch of that name, which is added in the low setting if there is no such device,
drive all unwired inputs of flip-flops. -/
def grounded (n : Netlist) (ground : Symbol) : Netlist :=
  let powered := if (n.device? ground).isSome then n else n.addSwitch ground .low
  powered.connectAll ⟨ground, none⟩ (n.floatingOf fun kind => kind = .flipFlop)

end LogicCircuit.Netlist
