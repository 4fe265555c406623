import LogicCircuit.Monitor
import LogicCircuit.Netlist.Cycle

/-!
Circuits: a netlist with its names, its monitors and the count of completed cycles; running one,
and setting its switches by name.
-/

namespace LogicCircuit

structure Circuit where
  symbols : SymbolTable
  netlist : Netlist
  /-- The most passes that a cycle may take to settle. -/
  limit : Nat
  monitors : Monitors
  /-- How many cycles the present run has completed. -/
  cycles : Nat

/-- A run that ended, after a number of cycles, in one that did not settle. -/
structure Oscillation where
  cycle : Nat
  deriving DecidableEq, Repr

def Oscillation.text (o : Oscillation) : String :=
  "Network oscillating at cycle " ++ toString o.cycle

/-- A name that is not that of a switch. -/
structure UnknownSwitch where
  name : String
  deriving DecidableEq, Repr

def UnknownSwitch.text (u : UnknownSwitch) : String :=
  "'" ++ u.name ++ "' is not a switch"

namespace Circuit

/-- The passes that a cycle may take unless another limit is set. -/
def defaultLimit : Nat := 20

/-- A circuit without devices whose table begins with the given one. -/
def withSymbols (t : SymbolTable) (limit : Nat) : Circuit :=
  let t := t.addAll Vocabulary.words
  ⟨t, Netlist.empty t, limit, [], 0⟩

def empty (limit : Nat) : Circuit :=
  withSymbols SymbolTable.empty limit

/-- A part of a run. What was done before the run broke off stays done. -/
abbrev Run := EStateM Oscillation Circuit

/-- Completes one cycle and records it. -/
def cycle : Run Unit := fun c =>
  match c.netlist.cycle c.limit with
  | .ok _ n =>
    .ok () { c with netlist := n, monitors := c.monitors.record n, cycles := c.cycles + 1 }
  | .error _ n => .error ⟨c.cycles⟩ { c with netlist := n }

/-- Goes on for a number of cycles. -/
def resume : Nat → Run Unit
  | 0 => pure ()
  | cycles + 1 => do
    cycle
    resume cycles

/-- The circuit before the first cycle of a run. -/
def started (c : Circuit) : Circuit :=
  { c with netlist := c.netlist.started, monitors := c.monitors.reset, cycles := 0 }

/-- Starts from cold and runs for a number of cycles. -/
def run (cycles : Nat) : Run Unit := fun c =>
  resume cycles c.started

/-- Sets the switch of that name. -/
def setSwitch (c : Circuit) (name : String) (isHigh : Bool) : Except UnknownSwitch Circuit :=
  match (c.symbols.find? name).bind fun s => c.netlist.setSwitch? s (.ofBool isHigh) with
  | some n => .ok { c with netlist := n }
  | none => .error ⟨name⟩

/-- The traces of all monitors as text. -/
def draw (c : Circuit) : String :=
  c.monitors.draw c.symbols c.netlist

end Circuit

end LogicCircuit
