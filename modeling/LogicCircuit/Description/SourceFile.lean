/-!
The text of a file, and why there may be none.
-/

namespace LogicCircuit.Description

inductive ReadFailure
  | missing
  | notDirectory
  | isDirectory
  | nameTooLong
  | nulInName
  | notUnicode
  | other (message : String)
  deriving DecidableEq, Repr

def ReadFailure.text : ReadFailure → String
  | missing => "No such file or directory (os error 2)"
  | notDirectory => "Not a directory (os error 20)"
  | isDirectory => "Is a directory (os error 21)"
  | nameTooLong => "File name too long (os error 36)"
  | nulInName => "file name contained an unexpected NUL byte"
  | notUnicode => "stream did not contain valid UTF-8"
  | other message => message

/-- A file that could not be read. -/
structure FileFailure where
  path : String
  reason : ReadFailure
  deriving DecidableEq, Repr

def FileFailure.text (f : FileFailure) : String :=
  "Failed to read definition file '" ++ f.path ++ "': " ++ f.reason.text

/-- The text of a file with the given bytes, which must be UTF-8. -/
def sourceOf (path : String) (content : Except ReadFailure ByteArray) :
    Except FileFailure String :=
  match content with
  | .error reason => .error ⟨path, reason⟩
  | .ok bytes =>
    match String.fromUTF8? bytes with
    | some text => .ok text
    | none => .error ⟨path, .notUnicode⟩

end LogicCircuit.Description
