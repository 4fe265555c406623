import LogicCircuit.Description.Entries

/-!
The entries of the section of devices: a name, a kind, and the numbers that the kind takes.
-/

namespace LogicCircuit.Description.Reader

/-- The kind that a token names. -/
def expectKind (t : Located Token) : Reading Kind := do
  let name ← expectName t
  match (← circuitNow).netlist.vocabulary.kind? name.symbol with
  | some kind => return kind
  | none => fail t.position (.unknownDeviceType name.text)

/-- Whether a number suits a kind that takes numbers. -/
def isInRange : Kind → Nat → Bool
  | .gate _, n => 1 ≤ n && n ≤ Gate.maxInputs
  | .clock, n | .generator, n => n ≠ 0
  | .switch, n => n ≤ 1
  | .flipFlop, _ => false

/-- A number that suits the kind. -/
def expectNumber (kind : Kind) (t : Located Token) : Reading Nat :=
  match t.value with
  | .number n =>
    if kind.parameterCount = 0 then fail t.position (.unexpectedParameter kind)
    else if isInRange kind n then pure n
    else fail t.position (.parameterOutOfRange kind n)
  | _ => fail t.position .expectedNumber

/-- Reads the numbers of a kind, which is named at `p`, and the semicolon after them. -/
def numbers (p : Position) (kind : Kind) : Reading (Option Nat × Option Nat) := do
  let t ← read
  match t.value with
  | .comma =>
    let first ← expectNumber kind (← read)
    let t ← read
    if kind = .generator then
      expect .comma .expectedComma t
      let second ← expectNumber kind (← read)
      expect .semicolon .expectedSemicolon (← read)
      return (some first, some second)
    else
      expect .semicolon .expectedSemicolon t
      return (some first, none)
  | .semicolon =>
    if kind.parameterCount = 0 then return (none, none) else fail p (.missingParameter kind)
  | _ => fail t.position .expectedSemicolon

/-- Adds a device to the circuit. -/
def declare (p : Position) (name : Mention) (kind : Kind) (first second : Option Nat) :
    Reading Unit := fun r =>
  match r.circuit.netlist.declare name.symbol kind first second with
  | .error reason => .error (.deviceRefused name.text reason) r
  | .ok n =>
    .ok () { r with
      circuit := { r.circuit with netlist := n }
      declared := (name.symbol, p) :: r.declared }

/-- Reads what follows the name of a device, and declares the device. -/
def declaration (p : Position) (name : Mention) : Reading (Located Token) := do
  let t ← read
  let kind ← expectKind t
  let (first, second) ← numbers t.position kind
  declare p name kind first second
  read

/-- Reads an entry that begins with the token in hand. -/
def deviceEntry (t : Located Token) : Reading (Option (Located Token)) := do
  let name ← expectName t
  let netlist := (← circuitNow).netlist
  if netlist.vocabulary.isReserved name.symbol then
    stray .connect t.position (.invalidDeviceName name.text)
  else if (netlist.device? name.symbol).isSome then
    stray .connect t.position (.duplicateDevice name.text)
  else
    let equals ← read
    if equals.value = .equals then some <$> declaration t.position name
    else stray .connect equals.position .expectedEquals

theorem keeps_expectKind (t : Located Token) : Keeps (expectKind t) := by
  refine (keeps_expectName t).bind fun name => keeps_circuitNow.bind fun c => ?_
  split
  · exact keeps_pure _
  · exact keeps_fail _ _

theorem keeps_expectNumber (kind : Kind) (t : Located Token) : Keeps (expectNumber kind t) := by
  unfold expectNumber
  split
  · split
    · exact keeps_fail _ _
    · split
      · exact keeps_pure _
      · exact keeps_fail _ _
  · exact keeps_fail _ _

theorem keeps_numbers (p : Position) (kind : Kind) : Keeps (numbers p kind) := by
  refine keeps_read.bind fun t => ?_
  split
  · refine keeps_read.bind fun _ => (keeps_expectNumber _ _).bind fun _ => ?_
    refine keeps_read.bind fun _ => ?_
    split
    · exact (keeps_expect _ _ _).bind fun _ => keeps_read.bind fun _ =>
        (keeps_expectNumber _ _).bind fun _ => keeps_read.bind fun _ =>
        (keeps_expect _ _ _).bind fun _ => keeps_pure _
    · exact (keeps_expect _ _ _).bind fun _ => keeps_pure _
  · split
    · exact keeps_pure _
    · exact keeps_fail _ _
  · exact keeps_fail _ _

theorem keeps_declare (p : Position) (name : Mention) (kind : Kind) (first second : Option Nat) :
    Keeps (declare p name kind first second) := by
  intro r a r' h
  unfold declare at h
  split at h
  · cases h
  · obtain rfl := by simpa using h
    exact Nat.le_refl _

theorem yields_declaration (p : Position) (name : Mention) : Yields (declaration p name) :=
  Yields.bind keeps_read fun _ => Yields.bind (keeps_expectKind _) fun _ =>
    Yields.bind (keeps_numbers _ _) fun _ => Yields.bind (keeps_declare _ _ _ _ _) fun _ =>
    yields_read

theorem yieldsSome_deviceEntry (t : Located Token) : YieldsSome (deviceEntry t) := by
  refine YieldsSome.bind (keeps_expectName t) fun name => ?_
  refine YieldsSome.bind keeps_circuitNow fun c => ?_
  dsimp only
  split
  · exact yieldsSome_stray _ _ _
  · split
    · exact yieldsSome_stray _ _ _
    · refine YieldsSome.bind keeps_read fun equals => ?_
      split
      · exact (yields_declaration _ _).map_some
      · exact yieldsSome_stray _ _ _

/-- Reads the section of devices. -/
def devices : Reading (Located Token) :=
  part deviceEntry yieldsSome_deviceEntry .connect

end LogicCircuit.Description.Reader
