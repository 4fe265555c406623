import LogicCircuit.Description.Entries
import LogicCircuit.Description.OutputPin
import LogicCircuit.Netlist.Connect

/-!
The entries of the section of connections: an output and, after an arrow, the inputs that it is
to drive.
-/

namespace LogicCircuit.Description

/-- The problem with a pin that the device does not have. -/
def absentPin (v : Vocabulary) (device : Mention) : Option Mention → Problem
  | none => .invalidPin device.text
  | some pin =>
    if v.isFlipFlopInput pin.symbol then .notAnInputOf pin.text device.text
    else
      match Vocabulary.gateInputNumber? pin.text with
      | some n =>
        if 1 ≤ n ∧ n ≤ Gate.maxInputs then .pinNotFound device.text pin.text
        else .inputOutOfRange pin.text
      | none => .pinNotFound device.text pin.text

/-- The problem with an input that cannot be connected. -/
def connectProblem (v : Vocabulary) (device : Mention) (pin : Option Mention) :
    Mismatch → Problem
  | .deviceAbsent => .deviceNotDefined device.text
  | .inputToInput => .inputToInput
  | .outputToOutput => .outputToOutput
  | .inputConnected => .inputConnected
  | .pinAbsent => absentPin v device pin

namespace Reader

/-- Reads up to the next entry. -/
def skipEntry : Reading (Located Token) := do
  let t ← skipUntil fun t => t = .semicolon || t.isKeyword
  if t.value = .semicolon then read else return t

/-- Reads up to the arrow of the entry. -/
def skipToArrow : Reading Unit := do
  let t ← skipUntil fun t => t = .arrow || t = .semicolon || t.isKeyword
  expect .arrow .expectedConnection t

/-- The output that an entry begins with, and the token after it. There is no output, if a
flip-flop comes without a proper pin. -/
def connectionOutput (kind : Kind) (device : Mention) :
    Reading (Option Terminal × Located Token) := do
  let t ← read
  if kind = .flipFlop then
    outputPin device (fun pin => .notAnOutputOf pin.text device.text)
      (.missingOutputPin device.text) t
  else return (some ⟨device.symbol, none⟩, t)

/-- The problem with a pin after the name of a device whose output has no name. -/
def needlessPin (device : Mention) (t : Located Token) : Reading Problem := do
  match t.value with
  | .name _ =>
    let pin ← expectName t
    if ← isOutputPin pin then return .notAnOutputOf pin.text device.text
    else return .expectedOutput
  | _ => return .expectedOutput

/-- Passes the arrow, `t` being the token after the output. A pin after the name of a device
whose output has no name is a problem, and is skipped. -/
def arrow (kind : Kind) (device : Mention) (t : Located Token) : Reading (Option Unit) := do
  if t.value = .arrow then return some ()
  else if t.value = .comma then fail t.position .misplacedComma
  else if t.value = .dot ∧ kind ≠ .flipFlop then
    let pin ← read
    record (some pin.position) (← needlessPin device pin)
    skipToArrow
    return some ()
  else stray .monitor t.position .expectedConnection

/-- Lets an output, if there is one, drive the input that is named at `p`. -/
def attach (output : Option Terminal) (p : Position) (device : Mention) (pin : Option Mention) :
    Reading Unit := fun r =>
  match output with
  | none => .ok () r
  | some output =>
    match r.circuit.netlist.connect output ⟨device.symbol, pin.map Mention.symbol⟩ with
    | .ok n => .ok () { r with circuit := { r.circuit with netlist := n } }
    | .error mismatch =>
      record (some p) (connectProblem r.circuit.netlist.vocabulary device pin mismatch) r

/-- Reads an input that begins with the token in hand, connects it and gives the token after
it. -/
def destination (output : Option Terminal) (t : Located Token) : Reading (Located Token) := do
  let device ← expectName t
  let next ← read
  if next.value = .dot then
    let pin ← expectName (← read)
    let next ← read
    attach output t.position device (some pin)
    return next
  else
    attach output t.position device none
    return next

theorem keeps_attach (output : Option Terminal) (p : Position) (device : Mention)
    (pin : Option Mention) : Keeps (attach output p device pin) := by
  intro r a r' h
  unfold attach at h
  split at h
  · obtain rfl := by simpa using h
    exact Nat.le_refl _
  · split at h
    · obtain rfl := by simpa using h
      exact Nat.le_refl _
    · exact keeps_record _ _ h

theorem yields_of_return {m : Reading Unit} {t u : Located Token} {r r' : Reader} (hm : Keeps m)
    (h : (do m; return u) r = .ok t r') : weight t r' ≤ weight u r := by
  obtain ⟨_, s, h₁, h₂⟩ := bind_ok h
  obtain ⟨rfl, rfl⟩ := by simpa [pure, EStateM.pure] using h₂
  exact Nat.add_le_add_right (hm h₁) _

theorem yields_destination (output : Option Terminal) (t : Located Token) :
    Yields (destination output t) := by
  refine Yields.bind (keeps_expectName t) fun device => ?_
  intro r u r' h
  obtain ⟨next, s, h₁, h⟩ := bind_ok h
  split at h
  · refine Nat.le_trans ?_ (keeps_read h₁)
    obtain ⟨v, s₁, h₂, h⟩ := bind_ok h
    obtain ⟨pin, s₂, h₃, h⟩ := bind_ok h
    obtain ⟨next, s₃, h₄, h⟩ := bind_ok h
    exact Nat.le_trans (yields_of_return (keeps_attach _ _ _ _) h)
      (Nat.le_trans (yields_read h₄) (Nat.le_trans (keeps_expectName _ h₃) (keeps_read h₂)))
  · exact Nat.le_trans (yields_of_return (keeps_attach _ _ _ _) h) (yields_read h₁)

/-- Reads inputs with commas between them, beginning with the token in hand, and the semicolon
after them; gives the token after that. -/
def destinations (output : Option Terminal) (t : Located Token) (r : Reader) :
    EStateM.Result Fault Reader (Located Token) :=
  match _ : destination output t r with
  | .error fault r' => .error fault r'
  | .ok separator r' =>
    if _ : separator.value = .comma then
      match _ : read r' with
      | .error fault s => .error fault s
      | .ok next s => destinations output next s
    else
      match separator.value with
      | .semicolon => read r'
      | .name _ => fail separator.position .expectedComma r'
      | _ => fail separator.position .expectedSemicolon r'
termination_by r.tokens.length
decreasing_by
  have step := yields_destination _ _ ‹_›
  have := keeps_read ‹_›
  simp only [weight, ‹separator.value = .comma›, reduceCtorEq, if_false] at step
  omega

/-- Reads an entry that begins with the token in hand. -/
def connectionEntry (t : Located Token) : Reading (Option (Located Token)) := do
  let device ← expectName t
  match (← circuitNow).netlist.kindOf? device.symbol with
  | none =>
    record (some t.position) (.undefinedDevice device.text)
    some <$> skipEntry
  | some kind =>
    let (output, next) ← connectionOutput kind device
    match ← arrow kind device next with
    | none => return none
    | some () =>
      let first ← read
      some <$> destinations output first

theorem yields_destinations (output : Option Terminal) (t : Located Token) :
    Yields (destinations output t) := by
  intro r u r' h
  fun_induction destinations output t r with
  | case1 => cases h
  | case2 => cases h
  | case3 t r separator s eq comma next s' eq' ih =>
    exact Nat.le_trans (ih h) (Nat.le_trans (keeps_read eq') ((yields_destination _ _).keeps eq))
  | case4 t r separator s eq _ _ =>
    exact Nat.le_trans (yields_read h) ((yields_destination _ _).keeps eq)
  | case5 => cases h
  | case6 => cases h

theorem yields_skipEntry : Yields skipEntry := by
  intro r t r' h
  obtain ⟨u, s, h₁, h⟩ := bind_ok h
  split at h
  · exact Nat.le_trans (yields_read h) ((yields_skipUntil _).keeps h₁)
  · obtain ⟨rfl, rfl⟩ := by simpa [pure, EStateM.pure] using h
    exact yields_skipUntil _ h₁

theorem keeps_skipToArrow : Keeps skipToArrow :=
  (yields_skipUntil _).keeps.bind fun _ => keeps_expect _ _ _

theorem keeps_connectionOutput (kind : Kind) (device : Mention) :
    Keeps (connectionOutput kind device) := by
  refine keeps_read.bind fun t => ?_
  split
  · exact keeps_outputPin _ _ _ _
  · exact keeps_pure _

theorem keeps_needlessPin (device : Mention) (t : Located Token) :
    Keeps (needlessPin device t) := by
  unfold needlessPin
  split
  · refine (keeps_expectName t).bind fun pin => (keeps_isOutputPin pin).bind fun isOutput => ?_
    split <;> exact keeps_pure _
  · exact keeps_pure _

theorem keeps_arrow (kind : Kind) (device : Mention) (t : Located Token) :
    Keeps (arrow kind device t) := by
  unfold arrow
  split
  · exact keeps_pure _
  · split
    · exact keeps_fail _ _
    · split
      · exact keeps_read.bind fun pin => (keeps_needlessPin _ _).bind fun problem =>
          (keeps_record _ _).bind fun _ => keeps_skipToArrow.bind fun _ => keeps_pure _
      · exact keeps_stray _ _ _

theorem yieldsSome_connectionEntry (t : Located Token) : YieldsSome (connectionEntry t) := by
  refine YieldsSome.bind (keeps_expectName t) fun device => ?_
  refine YieldsSome.bind keeps_circuitNow fun c => ?_
  split
  · exact YieldsSome.bind (keeps_record _ _) fun _ => yields_skipEntry.map_some
  case h_2 kind _ =>
    refine YieldsSome.bind (keeps_connectionOutput _ _) fun out => ?_
    refine YieldsSome.bind (keeps_arrow _ _ _) fun passed => ?_
    split
    · intro r u r' h
      simp [pure, EStateM.pure] at h
    · exact YieldsSome.bind keeps_read fun first => (yields_destinations _ _).map_some

/-- Reads the section of connections. -/
def connections : Reading (Located Token) :=
  part connectionEntry yieldsSome_connectionEntry .monitor

end Reader

end LogicCircuit.Description
