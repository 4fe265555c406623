import LogicCircuit.Description.ConnectionEntry
import LogicCircuit.Description.DeviceEntry
import LogicCircuit.Description.MonitorEntry
import LogicCircuit.Description.Words

/-!
Compiling a description: the sections one after the other, and the circuit that comes of them.
-/

namespace LogicCircuit.Description

namespace Reader

/-- Reads the section of a keyword, if the token in hand is that keyword; if it is not, that is a
problem and the token stays in hand. -/
def sectionOf (keyword : Keyword) (body : Reading (Located Token)) (t : Located Token) :
    Reading (Located Token) := do
  if t.value = .keyword keyword then body
  else
    recordOnce t.position (.incorrectKeyword keyword)
    return t

/-- Writes down the keywords that are absent from the text. -/
def recordAbsent : Reading Unit :=
  modify fun r =>
    let absent := missingKeywords r.source
    { r with
      absent := absent
      diagnostics :=
        r.diagnostics ++ absent.map fun k => .ofProblem r.source none (.missingKeyword k)
      errorCount := r.errorCount + absent.length }

/-- Marks the reading as begun; it cannot be begun twice. -/
def begin : Reading Unit := do
  if (← get).isSpent then throw .alreadyRead
  else modify fun r => { r with isSpent := true }

/-- Reads all sections. The answer is the symbol of the closing keyword, if that is the token in
hand at the end and no problem was counted. -/
def sections : Reading (Option Symbol) := do
  let t ← read
  if t.value.isKeyword then
    let t ← sectionOf .devices devices t
    let t ← sectionOf .connect connections t
    let t ← sectionOf .monitor monitors t
    let t ← sectionOf .finish (pure t) t
    let r ← get
    if t.value = .keyword .finish ∧ r.errorCount = 0 then
      return some (r.circuit.symbols.symbol Keyword.finish.text)
    else return none
  else
    recordOnce t.position (.incorrectKeyword .devices)
    return none

/-- Reads a whole description. -/
def description : Reading (Option Symbol) := do
  begin
  recordAbsent
  sections

end Reader

/-- What comes of a description that was read to its end. -/
structure Compiled where
  circuit : Circuit
  diagnostics : List Diagnostic
  /-- The symbol of the closing keyword; there is none, if any problem was written down. -/
  terminator : Option Symbol

namespace Compiled

/-- Whether the description has no problems. -/
def isOk (c : Compiled) : Bool :=
  c.terminator.isSome

def errorCount (c : Compiled) : Nat :=
  c.diagnostics.length

end Compiled

/-- Compiles a description into a circuit. -/
def compileInto (source : String) (c : Circuit) : Except Fault Compiled :=
  match Reader.description (Reader.ofSource source.toList c) with
  | .ok terminator r => .ok ⟨r.circuit, r.diagnostics, terminator⟩
  | .error fault _ => .error fault

/-- Compiles a description into a new circuit. -/
def compile (source : String) : Except Fault Compiled :=
  compileInto source (Circuit.empty Circuit.defaultLimit)

end LogicCircuit.Description
