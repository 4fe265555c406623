import LogicCircuit.Description.OutputPin
import LogicCircuit.Netlist.Ground

/-!
The entries of the section of monitors, each the name of an output, and what is done at the end of
that section about inputs that nothing drives.
-/

namespace LogicCircuit.Description

/-- The problem with an output that cannot be watched. -/
def watchProblem (device : Mention) : Unwatchable → Problem
  | .deviceAbsent => .deviceNotDefined device.text
  | .notOutput => .expectedOutput
  | .alreadyMonitored => .alreadyMonitored

/-- The name of the low source; it is no name that a description can contain. -/
def groundName : String := "#GND"

namespace Reader

/-- The output that an entry names, and the token after it. A pin after the name of a device
whose output has no name is a problem; a device that is not there has its problem later. -/
def monitorOutput (kind : Option Kind) (device : Mention) :
    Reading (Option Terminal × Located Token) := do
  let t ← read
  if kind = some .flipFlop then
    outputPin device (fun _ => .expectedOutput) .expectedOutput t
  else if t.value = .dot then
    let pin ← read
    let _ ← expectName pin
    if kind.isSome then
      record (some pin.position) .expectedOutput
      return (none, ← read)
    else
      return (some ⟨device.symbol, none⟩, ← read)
  else
    return (some ⟨device.symbol, none⟩, t)

/-- Watches an output, if there is one, of the device that is named at `p`. -/
def watch (output : Option Terminal) (p : Position) (device : Mention) : Reading Unit := fun r =>
  match output with
  | none => .ok () r
  | some output =>
    match r.circuit.monitors.watch r.circuit.netlist output 0 with
    | .ok ms => .ok () { r with circuit := { r.circuit with monitors := ms } }
    | .error reason => record (some p) (watchProblem device reason) r

/-- Reads an entry that begins with the token in hand, a name. -/
def monitorEntry (t : Located Token) : Reading (Located Token) := do
  let device ← expectName t
  let kind := (← circuitNow).netlist.kindOf? device.symbol
  let (output, next) ← monitorOutput kind device
  expect .semicolon .expectedSemicolon next
  watch output t.position device
  read

theorem keeps_monitorOutput (kind : Option Kind) (device : Mention) :
    Keeps (monitorOutput kind device) := by
  refine keeps_read.bind fun t => ?_
  split
  · exact keeps_outputPin _ _ _ _
  · split
    · refine keeps_read.bind fun pin => (keeps_expectName pin).bind fun _ => ?_
      split
      · exact (keeps_record _ _).bind fun _ => keeps_read.bind fun _ => keeps_pure _
      · exact keeps_read.bind fun _ => keeps_pure _
    · exact keeps_pure _

theorem keeps_watch (output : Option Terminal) (p : Position) (device : Mention) :
    Keeps (watch output p device) := by
  intro r a r' h
  unfold watch at h
  split at h
  · obtain rfl := by simpa using h
    exact Nat.le_refl _
  · split at h
    · obtain rfl := by simpa using h
      exact Nat.le_refl _
    · exact keeps_record _ _ h

theorem yields_monitorEntry (t : Located Token) : Yields (monitorEntry t) :=
  Yields.bind (keeps_expectName t) fun _ => Yields.bind keeps_circuitNow fun _ =>
    Yields.bind (keeps_monitorOutput _ _) fun _ => Yields.bind (keeps_expect _ _ _) fun _ =>
    Yields.bind (keeps_watch _ _ _) fun _ => yields_read

/-- Whether an entry of the section begins with the token. -/
def beginsMonitor : Token → Bool
  | .name _ => true
  | _ => false

/-- Reads entries, beginning with the token in hand, and gives the token that begins none. -/
def monitorEntries (t : Located Token) (r : Reader) :
    EStateM.Result Fault Reader (Located Token) :=
  if _ : beginsMonitor t.value then
    match _ : monitorEntry t r with
    | .error fault r' => .error fault r'
    | .ok next r' => monitorEntries next r'
  else .ok t r
termination_by weight t r
decreasing_by
  have step := yields_monitorEntry t ‹_›
  have proper : t.value ≠ .ending := by
    intro ends
    simp [ends, beginsMonitor] at *
  simp only [weight, proper, if_false] at step ⊢
  omega

/-- Lets the low source drive the unwired inputs of flip-flops, if there are any. -/
def ground : Reading Unit :=
  modify fun r =>
    if (r.circuit.netlist.floatingOf fun kind => kind = .flipFlop).isEmpty then r
    else
      let (s, t) := r.circuit.symbols.intern groundName
      { r with circuit := { r.circuit with symbols := t, netlist := r.circuit.netlist.grounded s } }

/-- The problem of an unwired input, with the place where its device is declared. -/
def floatingDiagnostic (r : Reader) (input : Symbol × Symbol) : Diagnostic :=
  .ofProblem r.source (r.declared.lookup input.1)
    (.floatingInput (r.circuit.symbols.display input.1) (r.circuit.symbols.display input.2))

/-- Writes down every unwired input of a device that is no clock and no switch. -/
def recordFloating : Reading Unit :=
  modify fun r =>
    let loose := r.circuit.netlist.floatingOf fun kind => kind ≠ .clock ∧ kind ≠ .switch
    { r with
      diagnostics := r.diagnostics ++ loose.map r.floatingDiagnostic
      errorCount := r.errorCount + loose.length }

/-- Reads the section of monitors. -/
def monitors : Reading (Located Token) := do
  let t ← monitorEntries (← read)
  ground
  recordFloating
  return t

end Reader

end LogicCircuit.Description
