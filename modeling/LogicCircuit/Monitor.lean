import LogicCircuit.Netlist

/-!
Monitors: the outputs that are watched, with their levels recorded cycle by cycle, and the lists
and drawings of them.
-/

namespace LogicCircuit

/-- A watched output and the levels recorded on it so far. -/
structure Monitor where
  output : Terminal
  trace : List Level
  deriving DecidableEq, Repr

/-- Why an output was not put under watch. -/
inductive Unwatchable
  | deviceAbsent
  | notOutput
  | alreadyMonitored
  deriving DecidableEq, Repr

/-- All monitors in the order in which they were added. -/
abbrev Monitors := List Monitor

namespace Monitors

/-- The recorded levels of an output, if it is watched. -/
def trace? (ms : Monitors) (output : Terminal) : Option (List Level) :=
  (ms.find? fun m => m.output = output).map Monitor.trace

def watches (ms : Monitors) (output : Terminal) : Bool :=
  ms.any fun m => m.output = output

/-- Watches an output from now on. The cycles that are over count as blanks. -/
def watch (ms : Monitors) (n : Netlist) (output : Terminal) (cycles : Nat) :
    Except Unwatchable Monitors :=
  match n.device? output.device with
  | none => .error .deviceAbsent
  | some d =>
    if !d.outputs.contains output.pin then .error .notOutput
    else if ms.watches output then .error .alreadyMonitored
    else .ok (ms ++ [⟨output, List.replicate cycles .blank⟩])

/-- Takes an output off the watch, if it is on it. -/
def unwatch? (ms : Monitors) (output : Terminal) : Option Monitors :=
  if ms.watches output then some (ms.eraseP fun m => m.output = output) else none

/-- Adds the present level of every watched output to its trace; an output that is gone counts
as blank. -/
def record (ms : Monitors) (n : Netlist) : Monitors :=
  ms.map fun m => { m with trace := m.trace ++ [(n.level? m.output).getD .blank] }

/-- Forgets all traces. -/
def reset (ms : Monitors) : Monitors :=
  ms.map fun m => { m with trace := [] }

/-- All outputs of a netlist. -/
def outputsOf (n : Netlist) : List Terminal :=
  n.devices.flatMap fun d => d.outputs.keys.map fun pin => ⟨d.symbol, pin⟩

/-- The names of the watched outputs. -/
def watchedTexts (ms : Monitors) (t : SymbolTable) (n : Netlist) : List String :=
  ms.filterMap fun m => n.outputText? t m.output

/-- The names of the other outputs. -/
def unwatchedTexts (ms : Monitors) (t : SymbolTable) (n : Netlist) : List String :=
  ((outputsOf n).filter fun output => !ms.watches output).filterMap (n.outputText? t)

/-- The name that a monitor is drawn with. -/
def label (t : SymbolTable) (n : Netlist) (m : Monitor) : String :=
  (n.outputText? t m.output).getD (t.display m.output.device)

/-- A text with spaces after it, so that it has a number of characters. -/
def padTo (width : Nat) (text : String) : String :=
  text ++ String.ofList (List.replicate (width - text.length) ' ')

/-- One line of the drawing. -/
def drawLine (width : Nat) (label : String) (trace : List Level) : String :=
  padTo width label ++ " : " ++ String.ofList (trace.map Level.mark) ++ "\n"

/-- The width of the column of names: the bytes of the longest one. -/
def margin (labels : List String) : Nat :=
  (labels.map String.utf8ByteSize).foldl max 0

/-- All traces, one line for each monitor. -/
def draw (ms : Monitors) (t : SymbolTable) (n : Netlist) : String :=
  let width := margin (ms.map (label t n))
  String.join (ms.map fun m => drawLine width (label t n m) m.trace)

end Monitors

end LogicCircuit
