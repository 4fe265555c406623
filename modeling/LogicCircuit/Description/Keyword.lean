/-!
The keywords that open the sections of a circuit description, and the one that closes it.
-/

namespace LogicCircuit.Description

inductive Keyword
  | devices
  | connect
  | monitor
  | finish
  deriving DecidableEq, Repr

namespace Keyword

/-- All keywords in the order in which a description has them. -/
def all : List Keyword :=
  [devices, connect, monitor, finish]

def text : Keyword → String
  | devices => "DEVICES"
  | connect => "CONNECT"
  | monitor => "MONITOR"
  | finish => "END"

def ofText? (text : String) : Option Keyword :=
  all.find? fun k => k.text = text

theorem ofText?_text (k : Keyword) : ofText? k.text = some k := by
  cases k <;> decide +kernel

end Keyword

end LogicCircuit.Description
