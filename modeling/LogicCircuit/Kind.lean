import LogicCircuit.Level

/-!
The kinds of devices, their names in a circuit description and how many numbers each takes
there, and what each gate makes of its inputs.
-/

namespace LogicCircuit

inductive Gate
  | and
  | or
  | nand
  | nor
  | xor
  deriving DecidableEq, Repr

inductive Kind
  | gate (gate : Gate)
  | clock
  | switch
  | flipFlop
  | generator
  deriving DecidableEq, Repr

namespace Gate

def text : Gate → String
  | and => "AND"
  | or => "OR"
  | nand => "NAND"
  | nor => "NOR"
  | xor => "XOR"

/-- The level that a gate puts out, given what its inputs read. -/
def combine (g : Gate) (inputs : List Level) : Level :=
  Level.ofBool <|
    match g with
    | and => inputs.all Level.isHigh
    | nand => !inputs.all Level.isHigh
    | or => inputs.any Level.isHigh
    | nor => !inputs.any Level.isHigh
    | xor => inputs.countP Level.isHigh % 2 == 1

/-- The most inputs that a gate can be declared with. -/
def maxInputs : Nat := 16

end Gate

namespace Kind

/-- All kinds, gates first. -/
def all : List Kind :=
  [gate .and, gate .or, gate .nand, gate .nor, gate .xor, clock, switch, flipFlop, generator]

/-- The name of the kind in a circuit description. -/
def text : Kind → String
  | gate g => g.text
  | clock => "CLOCK"
  | switch => "SWITCH"
  | flipFlop => "DTYPE"
  | generator => "SIGGEN"

def isGate : Kind → Bool
  | gate _ => true
  | _ => false

/-- How many numbers a declaration of the kind carries. -/
def parameterCount : Kind → Nat
  | gate .xor | flipFlop => 0
  | gate _ | clock | switch => 1
  | generator => 2

theorem mem_all (k : Kind) : k ∈ all := by
  cases k with
  | gate g => cases g <;> decide
  | _ => decide

end Kind

end LogicCircuit
