import LogicCircuit.Kind
import LogicCircuit.Symbol
import LogicCircuit.Text.Decimal

/-!
The words with a fixed meaning in every circuit: the names of the kinds, of the pins of a
flip-flop and of the inputs of a gate, as symbols of the circuit's table.
-/

namespace LogicCircuit

/-- The pins of a D-type flip-flop. -/
structure FlipFlopPins where
  clock : Symbol
  set : Symbol
  clear : Symbol
  data : Symbol
  q : Symbol
  qbar : Symbol
  deriving DecidableEq, Repr

namespace FlipFlopPins

def inputs (p : FlipFlopPins) : List Symbol :=
  [p.clock, p.set, p.clear, p.data]

def outputs (p : FlipFlopPins) : List Symbol :=
  [p.q, p.qbar]

end FlipFlopPins

structure Vocabulary where
  kinds : List (Symbol × Kind)
  flipFlop : FlipFlopPins
  gateInputs : List Symbol
  deriving DecidableEq, Repr

namespace Vocabulary

/-- The name of the `n`-th input of a gate, counted from one. -/
def gateInputText (n : Nat) : String :=
  "I" ++ toString n

/-- The names of the inputs of the largest gate. -/
def gateInputTexts : List String :=
  (List.range Gate.maxInputs).map fun i => gateInputText (i + 1)

/-- The number in the name of an input of a gate, of whatever size. -/
def gateInputNumber? (text : String) : Option Nat :=
  match text.toList with
  | 'I' :: digits => Text.Decimal.number? digits
  | _ => none

/-- All fixed words, in the order in which a new circuit looks them up. -/
def words : List String :=
  Kind.all.map Kind.text ++ ["CLK", "SET", "CLEAR", "DATA", "Q", "QBAR"] ++ gateInputTexts

/-- The vocabulary in the symbols of a table that holds all fixed words. -/
def ofTable (t : SymbolTable) : Vocabulary where
  kinds := Kind.all.map fun k => (t.symbol k.text, k)
  flipFlop :=
    { clock := t.symbol "CLK"
      set := t.symbol "SET"
      clear := t.symbol "CLEAR"
      data := t.symbol "DATA"
      q := t.symbol "Q"
      qbar := t.symbol "QBAR" }
  gateInputs := gateInputTexts.map t.symbol

/-- The kind that a symbol names. -/
def kind? (v : Vocabulary) (s : Symbol) : Option Kind :=
  (v.kinds.find? fun entry => entry.1 = s).map Prod.snd

def isFlipFlopInput (v : Vocabulary) (s : Symbol) : Bool :=
  v.flipFlop.inputs.contains s

def isFlipFlopOutput (v : Vocabulary) (s : Symbol) : Bool :=
  v.flipFlop.outputs.contains s

/-- Whether a symbol names a kind or a pin of a flip-flop, and so no device. -/
def isReserved (v : Vocabulary) (s : Symbol) : Bool :=
  (v.kind? s).isSome || v.isFlipFlopInput s || v.isFlipFlopOutput s

end Vocabulary

end LogicCircuit
