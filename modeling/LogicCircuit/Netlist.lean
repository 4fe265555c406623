import LogicCircuit.Device.Make

/-!
Netlists: the devices of a circuit in the order of their declaration. Where several devices have
one name, the first of them is the one that is meant.
-/

namespace LogicCircuit

structure Netlist where
  vocabulary : Vocabulary
  devices : List Device
  deriving DecidableEq

namespace Netlist

/-- A netlist without devices, in the symbols of a table that holds all fixed words. -/
def empty (t : SymbolTable) : Netlist :=
  ⟨Vocabulary.ofTable t, []⟩

def device? (n : Netlist) (s : Symbol) : Option Device :=
  n.devices.find? fun d => d.symbol = s

/-- The kind of the device with that name. -/
def kindOf? (n : Netlist) (s : Symbol) : Option Kind :=
  (n.device? s).map Device.kind

/-- The names of all devices. -/
def symbols (n : Netlist) : List Symbol :=
  n.devices.map Device.symbol

/-- The names of all devices of a kind. -/
def symbolsOf (n : Netlist) (kind : Kind) : List Symbol :=
  (n.devices.filter fun d => d.kind = kind).map Device.symbol

/-- Changes the first device of that name in a list. -/
def updateFirst (s : Symbol) (f : Device → Device) : List Device → List Device
  | [] => []
  | d :: rest => if d.symbol = s then f d :: rest else d :: updateFirst s f rest

/-- Changes the device of that name. -/
def update (n : Netlist) (s : Symbol) (f : Device → Device) : Netlist :=
  { n with devices := updateFirst s f n.devices }

def add (n : Netlist) (d : Device) : Netlist :=
  { n with devices := n.devices ++ [d] }

/-- Declares a device: its name must be free and its numbers must suit its kind. -/
def declare (n : Netlist) (s : Symbol) (kind : Kind) (first second : Option Nat) :
    Except Refusal Netlist :=
  if (n.device? s).isSome then .error .nameTaken
  else (Device.make n.vocabulary s kind first second).map n.add

/-- Adds a switch without a look at the names in use. -/
def addSwitch (n : Netlist) (s : Symbol) (level : Level) : Netlist :=
  n.add (Device.newSwitch s level)

/-- Sets a switch; the level shows on its output at once. There is none, if the name is not that
of a switch. -/
def setSwitch? (n : Netlist) (s : Symbol) (level : Level) : Option Netlist :=
  if n.kindOf? s = some .switch then
    some <| n.update s fun d =>
      { d with body := .switch level.settled, outputs := d.outputs.insert none level.settled }
  else none

/-- Puts every device into the state in which a run starts. -/
def started (n : Netlist) : Netlist :=
  { n with devices := n.devices.map (Device.started n.vocabulary.flipFlop) }

/-- The level on an output. -/
def level? (n : Netlist) (t : Terminal) : Option Level :=
  (n.device? t.device).bind fun d => d.outputs.get? t.pin

/-- The output that drives an input. -/
def driver? (n : Netlist) (s pin : Symbol) : Option Terminal :=
  (n.device? s).bind fun d => d.driver? pin

/-- The level that an input reads. -/
def reads (n : Netlist) (s pin : Symbol) : Option Level :=
  (n.driver? s pin).bind n.level?

/-- Whether every input of every device is wired. -/
def isWired (n : Netlist) : Bool :=
  n.devices.all fun d => d.floating.isEmpty

/-- The name of an output as it is shown: the device, and the pin if it is a named one. -/
def outputText? (n : Netlist) (t : SymbolTable) (output : Terminal) : Option String := do
  let d ← n.device? output.device
  let device ← t.text? d.symbol
  match output.pin with
  | none => return device
  | some pin => return device ++ "." ++ (← t.text? pin)

end Netlist

end LogicCircuit
