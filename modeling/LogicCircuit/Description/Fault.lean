import LogicCircuit.Description.Token
import LogicCircuit.Device.Make

/-!
The faults that end the reading of a description at once, and their texts.
-/

namespace LogicCircuit.Description

/-- Why the reading ended at a place of the text. -/
inductive Cause
  | lexical (fault : LexicalFault)
  | expectedName
  | expectedEquals
  | expectedSemicolon
  | expectedComma
  | expectedNumber
  | expectedConnection
  | misplacedComma
  | invalidDeviceName (name : String)
  | duplicateDevice (name : String)
  | unknownDeviceType (name : String)
  | missingParameter (kind : Kind)
  | unexpectedParameter (kind : Kind)
  | parameterOutOfRange (kind : Kind) (value : Nat)
  deriving DecidableEq, Repr

inductive Fault
  | located (position : Position) (cause : Cause)
  | deviceRefused (name : String) (reason : Refusal)
  | alreadyRead
  deriving DecidableEq, Repr

namespace Cause

/-- What the numbers of a kind must be. -/
def expectedRange : Kind → String
  | .gate _ => "expected gate input number between 1 and " ++ toString Gate.maxInputs
  | .clock => "expected a half-period greater than 0"
  | .switch => "expected initial state 0 or 1"
  | .generator => "expected a cycle count greater than 0"
  | .flipFlop => "expected no parameter"

def text (p : Position) (cause : Cause) : String :=
  let line := " (line " ++ toString p.line ++ ")"
  let place := " at line " ++ toString p.line ++ ", column " ++ toString p.column
  match cause with
  | lexical (.strayCharacter c) => "Unknown symbol '" ++ String.singleton c ++ "'" ++ place
  | lexical .bareDash => "Expected a '>' after '-'" ++ place
  | lexical (.numberTooLarge digits) => "Number " ++ digits ++ " is too large" ++ line
  | expectedName => "Expected a device name" ++ place
  | expectedEquals => "Expected '='" ++ place
  | expectedSemicolon => "Expected ';'" ++ place
  | expectedComma => "Expected ','" ++ place
  | expectedNumber => "Expected a number" ++ place
  | expectedConnection => "This is not the symbol for connection" ++ place
  | misplacedComma => "Expected only an output" ++ place
  | invalidDeviceName name => "'" ++ name ++ "' is not a valid device name" ++ line
  | duplicateDevice name => "'" ++ name ++ "' has already been used" ++ line
  | unknownDeviceType name => "'" ++ name ++ "' is not a valid device type" ++ line
  | missingParameter kind => "Expected input specifications for " ++ kind.text ++ " type" ++ line
  | unexpectedParameter kind => kind.text ++ " does not need input specification" ++ line
  | parameterOutOfRange kind value =>
    "Invalid value " ++ toString value ++ " for " ++ kind.text ++ line ++ ": " ++ expectedRange kind

/-- Whether the text holds something at that place that begins no token. -/
def isLexical : Cause → Bool
  | lexical (.strayCharacter _) | lexical .bareDash => true
  | _ => false

/-- Whether a number is the trouble. -/
def isOfValue : Cause → Bool
  | lexical (.numberTooLarge _) | parameterOutOfRange _ _ => true
  | _ => false

end Cause

namespace Fault

def ofLexical (fault : Located LexicalFault) : Fault :=
  located fault.position (.lexical fault.value)

def position? : Fault → Option Position
  | located p _ => some p
  | _ => none

def cause? : Fault → Option Cause
  | located _ cause => some cause
  | _ => none

def isLexical (fault : Fault) : Bool :=
  fault.cause?.any Cause.isLexical

def isOfValue (fault : Fault) : Bool :=
  fault.cause?.any Cause.isOfValue

def text : Fault → String
  | located p cause => cause.text p
  | deviceRefused name reason => "Could not create device '" ++ name ++ "': " ++ reason.text
  | alreadyRead => "This parser has already parsed its input"

end Fault

end LogicCircuit.Description
