/-!
Places in a text: lines and columns, both counted from zero, a column being one character.
-/

namespace LogicCircuit

structure Position where
  line : Nat
  column : Nat
  deriving DecidableEq, Repr

namespace Position

/-- Where a text begins. -/
def origin : Position := ⟨0, 0⟩

/-- The place right after a character that stands at `p`. -/
def step (p : Position) (c : Char) : Position :=
  if c = '\n' then ⟨p.line + 1, 0⟩ else ⟨p.line, p.column + 1⟩

/-- The place right after a run of characters that begins at `p`. -/
def advance (p : Position) (cs : List Char) : Position :=
  cs.foldl step p

@[simp] theorem advance_nil (p : Position) : p.advance [] = p := rfl

@[simp] theorem advance_cons (p : Position) (c : Char) (cs : List Char) :
    p.advance (c :: cs) = (p.step c).advance cs := rfl

theorem advance_append (p : Position) (cs ds : List Char) :
    p.advance (cs ++ ds) = (p.advance cs).advance ds := by
  simp only [advance, List.foldl_append]

end Position

/-- A value together with the place in the text that it belongs to. -/
structure Located (α : Type) where
  position : Position
  value : α
  deriving DecidableEq, Repr

end LogicCircuit
