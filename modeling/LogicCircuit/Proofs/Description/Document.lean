import LogicCircuit.Description.Token
import LogicCircuit.Vocabulary

/-!
What a description says, apart from the way it is written: the devices, the connections and the
monitors in their order, the tokens that stand for them, and what makes them a circuit.
-/

namespace LogicCircuit.Description

/-- A pin of a device, or the device alone. -/
structure Signal where
  device : String
  pin : Option String
  deriving DecidableEq, Repr

structure Declaration where
  name : String
  kind : Kind
  numbers : List Nat
  deriving DecidableEq, Repr

/-- A source and the one or more destinations that it drives. -/
structure Connection where
  source : Signal
  first : Signal
  others : List Signal
  deriving DecidableEq, Repr

structure Document where
  devices : List Declaration
  connections : List Connection
  monitors : List Signal
  deriving DecidableEq, Repr

def pinTokens : Option String → List Token
  | none => []
  | some pin => [.dot, .name pin]

def Signal.tokens (s : Signal) : List Token :=
  .name s.device :: pinTokens s.pin

/-- The entry that puts a signal under watch. -/
def Signal.entry (s : Signal) : List Token :=
  s.tokens ++ [.semicolon]

def Declaration.tokens (e : Declaration) : List Token :=
  .name e.name :: .equals :: .name e.kind.text ::
    (e.numbers.flatMap (fun n => [.comma, .number n]) ++ [.semicolon])

namespace Connection

def destinations (c : Connection) : List Signal :=
  c.first :: c.others

/-- The pairs of a driving and a driven end. -/
def wires (c : Connection) : List (Signal × Signal) :=
  c.destinations.map fun s => (c.source, s)

def tokens (c : Connection) : List Token :=
  c.source.tokens ++ .arrow :: (c.first.tokens ++
    (c.others.flatMap (fun s => .comma :: s.tokens) ++ [.semicolon]))

end Connection

namespace Declaration

/-- Which numbers a kind takes. -/
def accepts : Kind → Nat → Prop
  | .gate _, n => 1 ≤ n ∧ n ≤ 16
  | .clock, n | .generator, n => 1 ≤ n
  | .switch, n => n = 0 ∨ n = 1
  | .flipFlop, _ => False

/-- The names of the inputs of the declared device. -/
def inputs (e : Declaration) : List String :=
  match e.kind with
  | .gate .xor => ["I1", "I2"]
  | .gate _ => (List.range (e.numbers.headD 0)).map fun i => "I" ++ toString (i + 1)
  | .flipFlop => ["CLK", "SET", "CLEAR", "DATA"]
  | .clock | .switch | .generator => []

/-- The pins with which the outputs of the declared device are named. -/
def outputs (e : Declaration) : List (Option String) :=
  match e.kind with
  | .flipFlop => [some "Q", some "QBAR"]
  | _ => [none]

/-- The names of kinds and of the pins of flip-flops, which name no device. -/
def reserved : List String :=
  ["AND", "OR", "NAND", "NOR", "XOR", "CLOCK", "SWITCH", "DTYPE", "SIGGEN",
    "CLK", "SET", "CLEAR", "DATA", "Q", "QBAR"]

/-- The name is free for a device, and the numbers are those that the kind needs. -/
structure IsProper (e : Declaration) : Prop where
  free : e.name ∉ reserved
  count : e.numbers.length = e.kind.parameterCount
  range : ∀ n ∈ e.numbers, accepts e.kind n

end Declaration

namespace Document

def tokens (d : Document) : List Token :=
  .keyword .devices :: (d.devices.flatMap Declaration.tokens ++
    .keyword .connect :: (d.connections.flatMap Connection.tokens ++
      .keyword .monitor :: (d.monitors.flatMap Signal.entry ++ [.keyword .finish])))

def wires (d : Document) : List (Signal × Signal) :=
  d.connections.flatMap Connection.wires

/-- Some declared device has the signal as an output. -/
def IsOutput (devices : List Declaration) (s : Signal) : Prop :=
  ∃ e ∈ devices, e.name = s.device ∧ s.pin ∈ e.outputs

/-- Some declared device has the signal as an input. -/
def IsInput (devices : List Declaration) (s : Signal) : Prop :=
  ∃ e ∈ devices, e.name = s.device ∧ ∃ pin ∈ e.inputs, s.pin = some pin

/-- The description is that of a circuit. -/
structure WellFormed (d : Document) : Prop where
  nodup : (d.devices.map Declaration.name).Nodup
  devices : ∀ e ∈ d.devices, e.IsProper
  sources : ∀ w ∈ d.wires, IsOutput d.devices w.1
  destinations : ∀ w ∈ d.wires, IsInput d.devices w.2
  once : (d.wires.map Prod.snd).Nodup
  monitors : ∀ s ∈ d.monitors, IsOutput d.devices s
  watched : d.monitors.Nodup
  /-- Only the inputs of flip-flops may be left out. -/
  complete : ∀ e ∈ d.devices, e.kind ≠ .flipFlop → ∀ pin ∈ e.inputs,
    ⟨e.name, some pin⟩ ∈ d.wires.map Prod.snd

end Document

/-- The source that drives a destination. -/
def driverOf (wires : List (Signal × Signal)) (s : Signal) : Option Signal :=
  (wires.find? fun w => w.2 = s).map Prod.fst

end LogicCircuit.Description
