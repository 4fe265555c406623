import LogicCircuit.Netlist

/-!
Wiring an input to an output. Either of the two ends may be the output.
-/

namespace LogicCircuit

/-- Why two ends were not connected. -/
inductive Mismatch
  | deviceAbsent
  | inputToInput
  | outputToOutput
  | inputConnected
  | pinAbsent
  deriving DecidableEq, Repr

namespace Device

/-- The input that a pin names, with its driver. -/
def input? (d : Device) (pin : Option Symbol) : Option (Symbol × Option Terminal) :=
  pin.bind fun p => (d.inputs.get? p).map fun driver => (p, driver)

def hasInput (d : Device) (pin : Option Symbol) : Bool :=
  (d.input? pin).isSome

def hasOutput (d : Device) (pin : Option Symbol) : Bool :=
  d.outputs.contains pin

/-- Lets an output drive an input. -/
def wired (pin : Symbol) (output : Terminal) (d : Device) : Device :=
  { d with inputs := d.inputs.insert pin (some output) }

end Device

namespace Netlist

/-- Connects two ends, one of which is an unwired input and the other an output. -/
def connect (n : Netlist) (first second : Terminal) : Except Mismatch Netlist :=
  match n.device? first.device, n.device? second.device with
  | some d, some e =>
    match d.input? first.pin with
    | some (_, some _) => .error .inputConnected
    | some (pin, none) =>
      if e.hasInput second.pin then .error .inputToInput
      else if e.hasOutput second.pin then .ok (n.update first.device (Device.wired pin second))
      else .error .pinAbsent
    | none =>
      if d.hasOutput first.pin then
        if e.hasOutput second.pin then .error .outputToOutput
        else
          match e.input? second.pin with
          | none => .error .pinAbsent
          | some (_, some _) => .error .inputConnected
          | some (pin, none) => .ok (n.update second.device (Device.wired pin first))
      else .error .pinAbsent
  | _, _ => .error .deviceAbsent

end Netlist

end LogicCircuit
