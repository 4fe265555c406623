import LogicCircuit.Netlist
import LogicCircuit.Device.Respond

/-!
One cycle of a netlist: sources step, flip-flops latch on a rising edge of their clock, and then
the devices respond to one another, pass after pass, until a pass changes no output.
-/

namespace LogicCircuit

/-- Why a cycle was not completed. -/
inductive Stall
  | unread
  | restless
  deriving DecidableEq, Repr

namespace Netlist

/-- A part of a cycle. What was done before a stall stays done. -/
abbrev Action := EStateM Stall Netlist

def stepSources (n : Netlist) : Netlist :=
  { n with devices := n.devices.map Device.stepped }

/-- Lets a flip-flop take over the level of its data input, if its clock input rises. -/
def latch (s : Symbol) : Action Unit := fun n =>
  match n.reads s n.vocabulary.flipFlop.clock with
  | none => .error .unread n
  | some .rising =>
    match n.reads s n.vocabulary.flipFlop.data with
    | none => .error .unread n
    | some level => .ok () (n.update s (Device.remembering level.settled))
  | some _ => .ok () n

/-- Lets each of several flip-flops latch. -/
def latchAll : List Symbol → Action Unit
  | [] => pure ()
  | s :: rest => do
    latch s
    latchAll rest

/-- Lets a device respond to its inputs; tells whether its outputs stayed as they were. -/
def refresh (s : Symbol) : Action Bool := fun n =>
  match n.device? s with
  | none => .error .unread n
  | some d =>
    match d.respond n.vocabulary.flipFlop n.level? with
    | none => .error .unread n
    | some d' => .ok (d'.outputs = d.outputs) (n.update s fun _ => d')

/-- One pass: lets the devices respond in turn; tells whether all outputs stayed. -/
def sweep : List Symbol → Action Bool
  | [] => pure true
  | s :: rest => do
    let still ← refresh s
    let others ← sweep rest
    return still && others

/-- Makes passes until one leaves all outputs as they are, but no more than a number of them. -/
def settle (order : List Symbol) : Nat → Action Unit
  | 0 => throw .restless
  | passes + 1 => do
    if ← sweep order then pure () else settle order passes

/-- One cycle, with a limit on the passes. -/
def cycle (limit : Nat) : Action Unit := do
  modify stepSources
  latchAll ((← get).symbolsOf .flipFlop)
  settle (← get).symbols limit

end Netlist

end LogicCircuit
