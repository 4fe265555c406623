import LogicCircuit.PinMap
import LogicCircuit.Vocabulary

/-!
Devices: what each kind remembers, the pins, and the state in which a run finds a device.
-/

namespace LogicCircuit

/-- An output of a device. Devices with a single output leave it unnamed. -/
structure Terminal where
  device : Symbol
  pin : Option Symbol
  deriving DecidableEq, Repr

/-- What a device is and what it remembers from cycle to cycle. -/
inductive Body
  | gate (gate : Gate)
  | clock (halfPeriod counter : Nat)
  | switch (level : Level)
  | flipFlop (memory : Level)
  | generator (high low counter : Nat)
  deriving DecidableEq, Repr

def Body.kind : Body → Kind
  | gate g => .gate g
  | clock _ _ => .clock
  | switch _ => .switch
  | flipFlop _ => .flipFlop
  | generator _ _ _ => .generator

/-- A device with the driver of each input, if it is wired, and the level on each output. -/
structure Device where
  symbol : Symbol
  body : Body
  inputs : PinMap Symbol (Option Terminal)
  outputs : PinMap (Option Symbol) Level
  deriving DecidableEq

namespace Device

def kind (d : Device) : Kind :=
  d.body.kind

/-- The output that drives an input. -/
def driver? (d : Device) (pin : Symbol) : Option Terminal :=
  (d.inputs.get? pin).join

/-- The inputs that nothing drives. -/
def floating (d : Device) : List Symbol :=
  (d.inputs.entries.filter fun entry => entry.2.isNone).map Prod.fst

/-- The device as it stands when a run starts from cold. Switches keep their setting. -/
def started (pins : FlipFlopPins) (d : Device) : Device :=
  match d.body with
  | .gate _ => { d with outputs := d.outputs.insert none .low }
  | .clock halfPeriod _ =>
    { d with body := .clock halfPeriod 0, outputs := d.outputs.insert none .low }
  | .switch level => { d with outputs := d.outputs.insert none level }
  | .flipFlop _ =>
    { d with
      body := .flipFlop .low
      outputs := (d.outputs.insert (some pins.q) .low).insert (some pins.qbar) .high }
  | .generator high low _ =>
    { d with body := .generator high low 0, outputs := d.outputs.insert none .high }

/-- A new device with unwired inputs. -/
def fresh (pins : FlipFlopPins) (s : Symbol) (body : Body) (inputs : List Symbol) : Device :=
  started pins ⟨s, body, PinMap.replicate inputs none, PinMap.empty⟩

/-- A switch in the given setting, which may be any level. -/
def newSwitch (s : Symbol) (level : Level) : Device :=
  ⟨s, .switch level, PinMap.empty, PinMap.empty.insert none level⟩

end Device

end LogicCircuit
