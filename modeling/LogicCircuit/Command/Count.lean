import LogicCircuit.Text.Decimal

/-!
Counts as they are given on a command line: decimal digits, which a plus sign may precede.
-/

namespace LogicCircuit.Command

open LogicCircuit.Text

inductive CountFault
  | empty
  | invalidDigit
  | tooLarge
  deriving DecidableEq, Repr

def CountFault.text : CountFault → String
  | empty => "cannot parse integer from empty string"
  | invalidDigit => "invalid digit found in string"
  | tooLarge => "number too large to fit in target type"

/-- Reads digits on after those that `n` stands for. The first character that is no digit, or that
takes the count beyond its bound, decides on the fault. -/
def readDigits (n : Nat) : List Char → Except CountFault Nat
  | [] => .ok n
  | c :: rest =>
    if isDigit c then
      let m := 10 * n + (c.toNat - '0'.toNat)
      if m < Decimal.bound then readDigits m rest else .error .tooLarge
    else .error .invalidDigit

def readCount (text : String) : Except CountFault Nat :=
  match text.toList with
  | [] => .error .empty
  | ['+'] => .error .invalidDigit
  | '+' :: digits => readDigits 0 digits
  | digits => readDigits 0 digits

end LogicCircuit.Command
