import LogicCircuit.Command.Options
import LogicCircuit.Description.Compile
import LogicCircuit.Description.SourceFile

/-!
Executing the command: compile a description, set switches, run the circuit and print its traces.
-/

namespace LogicCircuit.Command

open LogicCircuit.Description

/-- What the command leaves behind, on streams that are no terminals. -/
structure Outcome where
  exitCode : Nat
  stdout : String
  stderr : String
  deriving DecidableEq, Repr

namespace Outcome

/-- A failure with its message, after what else is reported. -/
def failure (report message : String) : Outcome :=
  ⟨1, "", report ++ "error: " ++ message ++ "\n"⟩

end Outcome

/-- Sets switches one after the other. -/
def setSwitches (c : Circuit) : List (String × Bool) → Except UnknownSwitch Circuit
  | [] => .ok c
  | (name, isHigh) :: rest => do setSwitches (← c.setSwitch name isHigh) rest

/-- Sets the switches of a circuit, runs it and draws its traces. -/
def simulate (options : Options) (c : Circuit) : Outcome :=
  match setSwitches c options.switches with
  | .error unknown => .failure "" unknown.text
  | .ok c =>
    match c.run options.cycles with
    | .error oscillation _ => .failure "" oscillation.text
    | .ok _ c => ⟨0, c.draw, ""⟩

/-- The excerpt of the text that a fault belongs to. -/
def faultExcerpt (source : List Char) (fault : Fault) : String :=
  (fault.position?.map (Text.excerptOf source)).getD ""

/-- Compiles a text and goes on with the circuit, if there are no problems. -/
def executeSource (options : Options) (source : String) : Outcome :=
  match compile source with
  | .error fault => .failure (faultExcerpt source.toList fault) fault.text
  | .ok compiled =>
    if compiled.isOk then
      if options.check then ⟨0, "", ""⟩ else simulate options compiled.circuit
    else
      .failure (String.join (compiled.diagnostics.map fun d => d.text ++ "\n\n"))
        ("Compilation failed with " ++ toString compiled.errorCount ++ " error(s)")

/-- Executes the command on the content of its file. -/
def execute (options : Options) (content : Except ReadFailure ByteArray) : Outcome :=
  match sourceOf options.file content with
  | .error failure => .failure "" failure.text
  | .ok source => executeSource options source

def versionText : String := "logsim_core 0.1.0\n"

def helpText : String :=
  "Logic circuit simulator\n\n" ++
  "Usage: logsim [OPTIONS] <CIRCUIT_FILE>\n\n" ++
  "Arguments:\n" ++
  "  <CIRCUIT_FILE>  Path to the circuit definition file\n\n" ++
  "Options:\n" ++
  "      --check                Only compile the file and report errors\n" ++
  "  -c, --cycles <CYCLES>      Number of cycles to simulate [default: 10]\n" ++
  "      --switch <NAME=STATE>  Set a switch before running, as NAME=0 or NAME=1\n" ++
  "  -v, --verbose...           Increase log output (-v info, -vv debug, -vvv trace)\n" ++
  "  -h, --help                 Print help\n" ++
  "  -V, --version              Print version\n"

/-- Answers a list of arguments, given what each path holds. -/
def respond (arguments : List String) (content : String → Except ReadFailure ByteArray) :
    Outcome :=
  match Request.ofArguments arguments with
  | .run options => execute options (content options.file)
  | .help => ⟨0, helpText, ""⟩
  | .version => ⟨0, versionText, ""⟩
  | .misuse misuse => ⟨2, "", Text.plain misuse.message⟩

end LogicCircuit.Command
