import LogicCircuit.Description.Keyword
import LogicCircuit.Text.Position

/-!
The tokens of a circuit description, and the faults of a text that does not consist of tokens.
-/

namespace LogicCircuit.Description

inductive Token
  | comma
  | semicolon
  | dot
  | arrow
  | equals
  | keyword (keyword : Keyword)
  | number (value : Nat)
  | name (text : String)
  | ending
  deriving DecidableEq, Repr

/-- Why no token could be read. -/
inductive LexicalFault
  | strayCharacter (c : Char)
  | bareDash
  | numberTooLarge (digits : String)
  deriving DecidableEq, Repr

namespace Token

/-- A word is a keyword or else a name. -/
def ofWord (text : String) : Token :=
  match Keyword.ofText? text with
  | some k => keyword k
  | none => name text

def keyword? : Token → Option Keyword
  | keyword k => some k
  | _ => none

def isKeyword (t : Token) : Bool :=
  t.keyword?.isSome

/-- The text of a keyword or a name. -/
def word? : Token → Option String
  | keyword k => some k.text
  | name text => some text
  | _ => none

/-- Whether no entry of a section begins with the token: it is a keyword or the end. -/
def endsSection (t : Token) : Bool :=
  t.isKeyword || t = ending

end Token

end LogicCircuit.Description
