import LogicCircuit.Text.Terminal

/-!
What may be wrong with the arguments of the command, and the message about it.
-/

namespace LogicCircuit.Command

open LogicCircuit.Text

/-- What takes a value. -/
inductive Slot
  | file
  | cycles
  | switch
  deriving DecidableEq, Repr

def Slot.text : Slot → String
  | file => "<CIRCUIT_FILE>"
  | cycles => "--cycles <CYCLES>"
  | switch => "--switch <NAME=STATE>"

inductive Misuse
  | unexpectedArgument (argument : String)
  | unexpectedValue (value flag : String)
  | missingValue (slot : Slot)
  | invalidValue (slot : Slot) (value reason : String)
  | repeated (option : String)
  | missingFile
  deriving DecidableEq, Repr

namespace Misuse

/-- What is wrong, with marks on the parts of the command line. A reason why a value is invalid
has no marks, even where it repeats a part of the value. -/
def text : Misuse → String
  | unexpectedArgument argument => "unexpected argument '" ++ Mark.invalid.on argument ++ "' found"
  | unexpectedValue value flag =>
    "unexpected value '" ++ Mark.invalid.on value ++ "' for '" ++ Mark.literal.on flag ++
      "' found; no more were expected"
  | missingValue slot =>
    "a value is required for '" ++ Mark.literal.on slot.text ++ "' but none was supplied"
  | invalidValue slot value reason =>
    "invalid value '" ++ Mark.invalid.on value ++ "' for '" ++ Mark.literal.on slot.text ++
      "': " ++ reason
  | repeated option =>
    "the argument '" ++ Mark.invalid.on option ++ "' cannot be used multiple times"
  | missingFile =>
    "the following required arguments were not provided:\n  " ++ Mark.valid.on Slot.file.text

/-- The message for a terminal. -/
def message (m : Misuse) : String :=
  Mark.heading.on "error:" ++ " " ++ m.text ++ "\n\nFor more information, try '" ++
    Mark.literal.on "--help" ++ "'.\n"

end Misuse

end LogicCircuit.Command
