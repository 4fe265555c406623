import LogicCircuit.Command.Execute

/-!
The command line: reads the file that the arguments name and prints what the command leaves
behind.
-/

namespace LogicCircuit.Command

open LogicCircuit.Description

/-- The number of an error of the system, which may come with a minus sign. -/
def systemNumber (code : UInt32) : Nat :=
  min code.toNat (Nat.pow 2 32 - code.toNat)

/-- The bytes of a file. -/
def contentOf (path : String) : IO (Except ReadFailure ByteArray) := do
  try
    return .ok (← IO.FS.readBinFile path)
  catch
    | .noFileOrDirectory .. => return .error .missing
    | .inappropriateType _ code _ =>
      return .error (if systemNumber code = 20 then .notDirectory else .isDirectory)
    | .invalidArgument _ code details =>
      return .error (if systemNumber code = 36 then .nameTooLong else .other details)
    | e => return .error (.other (toString e))

/-- Answers the arguments on the standard streams. -/
def answer (arguments : List String) : IO UInt32 := do
  let content ← match Request.ofArguments arguments with
    | .run options => contentOf options.file
    | _ => pure (.error .missing)
  let outcome := respond arguments fun _ => content
  (← IO.getStdout).putStr outcome.stdout
  (← IO.getStderr).putStr outcome.stderr
  return outcome.exitCode.toUInt32

end LogicCircuit.Command

def main (arguments : List String) : IO UInt32 :=
  LogicCircuit.Command.answer arguments
