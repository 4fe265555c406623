import LogicCircuit.Text.CharClass

/-!
Decimal numerals of unsigned 64-bit numbers.
-/

namespace LogicCircuit.Text.Decimal

/-- Numbers stay below this bound. -/
def bound : Nat := Nat.pow 2 64

/-- The number that a run of digits stands for. -/
def value (digits : List Char) : Nat :=
  digits.foldl (fun n c => 10 * n + (c.toNat - '0'.toNat)) 0

/-- The number that a text consisting of digits stands for, if it is below the bound. -/
def number? (digits : List Char) : Option Nat :=
  if digits ≠ [] ∧ digits.all isDigit ∧ value digits < bound then some (value digits) else none

end LogicCircuit.Text.Decimal
