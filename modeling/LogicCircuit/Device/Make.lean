import LogicCircuit.Device

/-!
Making a device of a kind from the numbers of its declaration, and why that may be refused.
-/

namespace LogicCircuit

/-- Why no device was made. -/
inductive Refusal
  | nameTaken
  | parameterMissing
  | outOfRange (value : Nat)
  | parameterUnwanted
  deriving DecidableEq, Repr

def Refusal.text : Refusal → String
  | nameTaken => "a device with this name already exists"
  | parameterMissing => "a parameter is required"
  | outOfRange value => "parameter " ++ toString value ++ " is out of range"
  | parameterUnwanted => "no parameter is accepted"

namespace Device

/-- A gate takes the first inputs of the vocabulary. -/
def newGate (v : Vocabulary) (s : Symbol) (g : Gate) (inputs : Nat) : Device :=
  fresh v.flipFlop s (.gate g) (v.gateInputs.take inputs)

/-- Makes a device from up to two numbers: the count of inputs of a gate, the half period of a
clock, the setting of a switch, the lengths of the high and the low phase of a generator. -/
def make (v : Vocabulary) (s : Symbol) (kind : Kind) (first second : Option Nat) :
    Except Refusal Device :=
  if kind ≠ .generator ∧ second.isSome then .error .parameterUnwanted
  else
    match kind, first, second with
    | .gate .xor, none, _ => .ok (newGate v s .xor 2)
    | .gate .xor, some _, _ => .error .parameterUnwanted
    | .gate _, none, _ => .error .parameterMissing
    | .gate g, some n, _ =>
      if 1 ≤ n ∧ n ≤ Gate.maxInputs then .ok (newGate v s g n) else .error (.outOfRange n)
    | .clock, none, _ => .error .parameterMissing
    | .clock, some n, _ =>
      if n = 0 then .error (.outOfRange n) else .ok (fresh v.flipFlop s (.clock n 0) [])
    | .switch, none, _ => .error .parameterMissing
    | .switch, some n, _ =>
      if n > 1 then .error (.outOfRange n) else .ok (newSwitch s (.ofBool (n == 1)))
    | .flipFlop, none, _ => .ok (fresh v.flipFlop s (.flipFlop .low) v.flipFlop.inputs)
    | .flipFlop, some _, _ => .error .parameterUnwanted
    | .generator, some high, some low =>
      if high = 0 then .error (.outOfRange high)
      else if low = 0 then .error (.outOfRange low)
      else .ok (fresh v.flipFlop s (.generator high low 0) [])
    | .generator, _, _ => .error .parameterMissing

end Device

end LogicCircuit
