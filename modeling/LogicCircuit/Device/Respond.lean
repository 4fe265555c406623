import LogicCircuit.Device

/-!
How a device moves on: sources step once in a cycle, flip-flops take over a level on a rising
edge, and gates and flip-flops respond to what their inputs read.
-/

namespace LogicCircuit.Device

/-- One cycle of a source. A clock toggles with an edge after every half period, a generator
alternates between its two phases, a switch shows its setting; other devices stay. -/
def stepped (d : Device) : Device :=
  match d.body with
  | .clock halfPeriod counter =>
    let current := (d.outputs.get? none).getD .low
    if halfPeriod ≤ counter + 1 then
      { d with
        body := .clock halfPeriod 0
        outputs := d.outputs.insert none (if current.isHigh then .falling else .rising) }
    else
      { d with
        body := .clock halfPeriod (counter + 1)
        outputs := d.outputs.insert none current.settled }
  | .generator high low counter =>
    let current := ((d.outputs.get? none).map Level.isHigh).getD true
    if counter < (if current then high else low) then
      { d with
        body := .generator high low (counter + 1)
        outputs := d.outputs.insert none (.ofBool current) }
    else
      { d with
        body := .generator high low 1
        outputs := d.outputs.insert none (.ofBool !current) }
  | .switch level => { d with outputs := d.outputs.insert none level }
  | .gate _ | .flipFlop _ => d

/-- A flip-flop with a new level in its memory. -/
def remembering (level : Level) (d : Device) : Device :=
  match d.body with
  | .flipFlop _ => { d with body := .flipFlop level }
  | _ => d

/-- The level on the output that drives an input. -/
def reads (level? : Terminal → Option Level) (d : Device) (pin : Symbol) : Option Level :=
  (d.driver? pin).bind level?

/-- The device with its outputs brought up to date with the levels around it. A gate combines all
its inputs; a flip-flop is set, cleared or holds its memory, and remembers the outcome. There is
no response if one of those inputs reads nothing. -/
def respond (pins : FlipFlopPins) (level? : Terminal → Option Level) (d : Device) :
    Option Device :=
  match d.body with
  | .gate g => do
    let levels ← d.inputs.keys.mapM (d.reads level?)
    return { d with outputs := d.outputs.insert none (g.combine levels) }
  | .flipFlop memory => do
    let set ← d.reads level? pins.set
    let clear ← d.reads level? pins.clear
    let q := if set.isHigh then .high else if clear.isHigh then .low else memory
    return { d with
      body := .flipFlop q
      outputs := (d.outputs.insert (some pins.q) q).insert (some pins.qbar) q.inverted }
  | .clock _ _ | .switch _ | .generator _ _ _ => some d

end LogicCircuit.Device
