/-!
Logic levels. An edge is a level of its own during the one cycle in which it happens.
-/

namespace LogicCircuit

/-- The level on an output. A blank stands for a cycle that was not recorded. -/
inductive Level
  | low
  | high
  | rising
  | falling
  | blank
  deriving DecidableEq, Repr

namespace Level

def ofBool (isHigh : Bool) : Level :=
  if isHigh then high else low

/-- Whether the level reads as a logic one. -/
def isHigh : Level → Bool
  | high | rising => true
  | low | falling | blank => false

/-- The level on the far side of an inverter. -/
def inverted : Level → Level
  | low => high
  | high => low
  | rising => falling
  | falling => rising
  | blank => blank

/-- The level once the edge, if there is one, is over. -/
def settled : Level → Level
  | rising => high
  | falling => low
  | level => level

/-- How the level is drawn in a trace. -/
def mark : Level → Char
  | high => '-'
  | low => '_'
  | rising => '/'
  | falling => '\\'
  | blank => ' '

@[simp] theorem isHigh_ofBool (b : Bool) : (ofBool b).isHigh = b := by
  cases b <;> rfl

@[simp] theorem inverted_inverted (l : Level) : l.inverted.inverted = l := by
  cases l <;> rfl

@[simp] theorem isHigh_settled (l : Level) : l.settled.isHigh = l.isHigh := by
  cases l <;> rfl

end Level

end LogicCircuit
