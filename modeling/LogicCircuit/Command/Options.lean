import LogicCircuit.Command.Count
import LogicCircuit.Command.Misuse

/-!
The arguments of the command. An option takes its value from the same argument, after an equals
sign or right after its letter, or else from the next argument; a value that comes in an argument
of its own is looked at only when the next option or file is met, so that a fault of that one may
come first.
-/

namespace LogicCircuit.Command

structure Options where
  file : String
  check : Bool
  cycles : Nat
  switches : List (String × Bool)
  deriving DecidableEq, Repr

/-- The cycles that are run unless another number is given. -/
def defaultCycles : Nat := 10

/-- What a list of arguments asks for. -/
inductive Request
  | run (options : Options)
  | help
  | version
  | misuse (misuse : Misuse)
  deriving DecidableEq, Repr

/-- The arguments as far as they are read. The last value may still have to be looked at, and may
still have to come. -/
structure Draft where
  file : Option String := none
  fileIsGiven : Bool := false
  check : Bool := false
  cycles : Option Nat := none
  switches : List (String × Bool) := []
  pending : Option (Slot × Option String) := none
  deriving DecidableEq, Repr

/-- A reading of arguments; it may stop early with what is asked for. -/
abbrev Parsed := Except Request Draft

def misused {α : Type} (misuse : Misuse) : Except Request α :=
  .error (.misuse misuse)

/-- A switch with its setting, given as the name, an equals sign, and `0` or `1`. -/
def readSwitch (text : String) : Except String (String × Bool) :=
  let name := text.toList.takeWhile (· ≠ '=')
  match text.toList.drop name.length with
  | [] => .error ("expected NAME=STATE, got '" ++ text ++ "'")
  | _ :: state =>
    if state = ['0'] then .ok (String.ofList name, false)
    else if state = ['1'] then .ok (String.ofList name, true)
    else .error ("switch state must be 0 or 1, got '" ++ String.ofList state ++ "'")

namespace Draft

/-- Takes a value over. -/
def assign (d : Draft) (slot : Slot) (value : String) : Parsed :=
  match slot with
  | .file =>
    if value = "" then misused (.missingValue .file) else .ok { d with file := some value }
  | .cycles =>
    if d.cycles.isSome then misused (.repeated Slot.cycles.text)
    else
      match readCount value with
      | .ok n => .ok { d with cycles := some n }
      | .error fault => misused (.invalidValue .cycles value fault.text)
  | .switch =>
    match readSwitch value with
    | .ok setting => .ok { d with switches := d.switches ++ [setting] }
    | .error reason => misused (.invalidValue .switch value reason)

/-- Looks at the last value. -/
def resolve (d : Draft) : Parsed :=
  match d.pending with
  | none => .ok d
  | some (slot, none) => misused (.missingValue slot)
  | some (slot, some value) => { d with pending := none }.assign slot value

/-- Takes an option with its value, or waits for the value. -/
def option (d : Draft) (slot : Slot) (value : Option String) : Parsed := do
  let d ← d.resolve
  match value with
  | some value => d.assign slot value
  | none => return { d with pending := some (slot, none) }

/-- Takes the flag that asks for a check only. -/
def checking (d : Draft) : Parsed := do
  let d ← d.resolve
  if d.check then misused (.repeated "--check") else return { d with check := true }

/-- Stops with a request, once the last value is looked at. -/
def stop (d : Draft) (request : Request) : Parsed := do
  let _ ← d.resolve
  .error request

/-- Takes an argument that is no option. -/
def positional (d : Draft) (argument : String) : Parsed :=
  if d.fileIsGiven then misused (.unexpectedArgument argument)
  else do
    let d ← d.resolve
    return { d with fileIsGiven := true, pending := some (.file, some argument) }

/-- Takes an option that is written out, with the value after its equals sign. -/
def long (d : Draft) (name : String) (value : Option String) : Parsed :=
  match name, value with
  | "cycles", value => d.option .cycles value
  | "switch", value => d.option .switch value
  | "check", none => d.checking
  | "check", some value => misused (.unexpectedValue value "--check")
  | "verbose", none => d.resolve
  | "verbose", some value => misused (.unexpectedValue value "--verbose...")
  | "help", none => d.stop .help
  | "help", some value => misused (.unexpectedValue value "--help")
  | "version", none => d.stop .version
  | "version", some value => misused (.unexpectedValue value "--version")
  | name, _ => misused (.unexpectedArgument ("--" ++ name))

/-- The value that follows the letter of an option in the same argument. -/
def attached : List Char → Option String
  | [] => none
  | '=' :: value => some (String.ofList value)
  | value => some (String.ofList value)

/-- Takes options of one letter each; one that takes a value ends their row. -/
def short (d : Draft) : List Char → Parsed
  | [] => .ok d
  | 'v' :: rest => do (← d.resolve).short rest
  | 'c' :: rest => d.option .cycles (attached rest)
  | 'h' :: _ => d.stop .help
  | 'V' :: _ => d.stop .version
  | letter :: _ => misused (.unexpectedArgument ("-" ++ String.singleton letter))

/-- Takes an argument that may be an option. -/
def argument (d : Draft) (argument : String) : Parsed :=
  match argument.toList with
  | '-' :: '-' :: text =>
    let name := text.takeWhile (· ≠ '=')
    d.long (String.ofList name) ((text.drop name.length).tail?.map String.ofList)
  | '-' :: letter :: rest => d.short (letter :: rest)
  | _ =>
    match d.pending with
    | some (slot, none) => .ok { d with pending := some (slot, some argument) }
    | _ => d.positional argument

/-- Takes all arguments; after a double dash none of them is an option. -/
def arguments (d : Draft) : List String → Parsed
  | [] => d.resolve
  | "--" :: files => do (← files.foldlM positional d).resolve
  | argument :: rest => do (← d.argument argument).arguments rest

end Draft

/-- What the arguments ask for. -/
def Request.ofArguments (arguments : List String) : Request :=
  match ({} : Draft).arguments arguments with
  | .error request => request
  | .ok d =>
    match d.file with
    | none => .misuse .missingFile
    | some file => .run ⟨file, d.check, d.cycles.getD defaultCycles, d.switches⟩

end LogicCircuit.Command
