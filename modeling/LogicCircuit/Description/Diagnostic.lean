import LogicCircuit.Description.Keyword
import LogicCircuit.Kind
import LogicCircuit.Text.Excerpt

/-!
Problems of a description that are written down while the reading goes on, each with the line of
the text that it belongs to.
-/

namespace LogicCircuit.Description

inductive Problem
  | missingKeyword (keyword : Keyword)
  | incorrectKeyword (expected : Keyword)
  | undefinedDevice (name : String)
  | deviceNotDefined (name : String)
  | notAnOutputOf (pin device : String)
  | expectedOutput
  | missingOutputPin (device : String)
  | outputToOutput
  | inputToInput
  | inputConnected
  | notAnInputOf (pin device : String)
  | inputOutOfRange (pin : String)
  | pinNotFound (device pin : String)
  | invalidPin (device : String)
  | alreadyMonitored
  | floatingInput (device pin : String)
  deriving DecidableEq, Repr

def Problem.text : Problem → String
  | missingKeyword k => "KEYWORD: " ++ k.text ++ " not found"
  | incorrectKeyword expected => "Incorrect keyword: expected " ++ expected.text
  | undefinedDevice name => name ++ " not found"
  | deviceNotDefined name => "Device not defined: " ++ name
  | notAnOutputOf pin device => pin ++ " is not an output of " ++ device
  | expectedOutput => "Expected an output"
  | missingOutputPin device => device ++ " needs an output port (Q or QBAR)"
  | outputToOutput => "Expected an input to be connected"
  | inputToInput => "Expected an output to drive this input"
  | inputConnected => "Input is already connected to another port"
  | notAnInputOf pin device => pin ++ " is not an input of " ++ device
  | inputOutOfRange pin =>
    "Incorrect input " ++ pin ++ ". Expected integer between 1 and " ++ toString Gate.maxInputs
  | pinNotFound device pin => device ++ "." ++ pin ++ " not found"
  | invalidPin device => "Invalid port for " ++ device
  | alreadyMonitored => "Selected output is already getting monitored"
  | floatingInput device pin => device ++ "'s input " ++ pin ++ " is floating"

/-- A problem with its place, if it has one, and the line of the text there, if there is one. -/
structure Diagnostic where
  position? : Option Position
  line? : Option String
  problem : Problem
  deriving DecidableEq, Repr

namespace Diagnostic

def ofProblem (source : List Char) (position? : Option Position) (problem : Problem) : Diagnostic :=
  ⟨position?, position?.bind fun p => Text.line? source p.line, problem⟩

/-- The excerpt of the text and the problem under it. -/
def text (d : Diagnostic) : String :=
  match d.position?, d.line? with
  | some p, some line => Text.excerpt p line ++ d.problem.text
  | _, _ => d.problem.text

end Diagnostic

end LogicCircuit.Description
