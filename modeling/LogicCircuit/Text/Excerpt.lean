import LogicCircuit.Text.Position

/-!
The lines of a text, and the excerpt that shows one of them with a caret under a column.
-/

namespace LogicCircuit.Text

/-- The lines of a text without their ends. A line ends at a newline, and one carriage return
before that newline belongs to the end; a newline that closes the text opens no further line. -/
def lines : List Char → List (List Char)
  | [] => []
  | '\n' :: rest => [] :: lines rest
  | '\r' :: '\n' :: rest => [] :: lines rest
  | c :: rest =>
    match lines rest with
    | [] => [[c]]
    | line :: others => (c :: line) :: others

/-- The text of the line of that number, if there is one. -/
def line? (source : List Char) (number : Nat) : Option String :=
  (lines source)[number]?.map String.ofList

/-- The number of a line, the line, and a caret under a column; a column beyond the line's end
counts as that end. -/
def excerpt (p : Position) (line : String) : String :=
  "Line " ++ toString p.line ++ ":\n" ++ line ++ "\n" ++
    String.ofList (List.replicate (min p.column line.length) ' ') ++ "^\n"

/-- The excerpt of the text at a place: nothing, if the text has no such line. -/
def excerptOf (source : List Char) (p : Position) : String :=
  ((line? source p.line).map (excerpt p)).getD ""

end LogicCircuit.Text
