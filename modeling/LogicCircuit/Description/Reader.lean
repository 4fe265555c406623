import LogicCircuit.Circuit
import LogicCircuit.Description.Cursor
import LogicCircuit.Description.Diagnostic
import LogicCircuit.Description.Fault

/-!
The reading of a description: the tokens to come, the circuit as far as it is built, and the
problems written down so far. Reading never brings a token back, which is what its loops end by.
-/

namespace LogicCircuit.Description

structure Reader where
  source : List Char
  /-- The tokens still to be read, up to the end of the text or its first lexical fault. -/
  tokens : List (Located Token)
  ending : Except (Located LexicalFault) Position
  /-- How often a token was asked for. -/
  reads : Nat
  /-- Where the last token stood. -/
  last : Position
  /-- The keywords that stand alone nowhere in the text. -/
  absent : List Keyword
  circuit : Circuit
  /-- Where the devices of this description are declared. -/
  declared : List (Symbol × Position)
  diagnostics : List Diagnostic
  /-- How many problems were counted. -/
  errorCount : Nat
  isSpent : Bool

/-- A part of a reading. What was built before a fault stays built. -/
abbrev Reading := EStateM Fault Reader

/-- A name in the text with its symbol. -/
structure Mention where
  text : String
  symbol : Symbol
  deriving DecidableEq, Repr

namespace Reader

/-- A reading that is to build into a circuit. The keywords are interned first. -/
def ofSource (source : List Char) (c : Circuit) : Reader where
  source := source
  tokens := (Cursor.ofSource source).tokens.tokens
  ending := (Cursor.ofSource source).tokens.ending
  reads := 0
  last := .origin
  absent := []
  circuit := { c with symbols := c.symbols.addAll (Keyword.all.map Keyword.text) }
  declared := []
  diagnostics := []
  errorCount := 0
  isSpent := false

/-- The reading after a name was met: its text is interned. -/
def meeting (r : Reader) (t : Token) : Reader :=
  match t with
  | .name text => { r with circuit := { r.circuit with symbols := r.circuit.symbols.add text } }
  | _ => r

/-- Takes the next token. -/
def read : Reading (Located Token) := fun r =>
  match r.tokens with
  | t :: rest =>
    .ok t { r.meeting t.value with tokens := rest, reads := r.reads + 1, last := t.position }
  | [] =>
    match r.ending with
    | .ok p => .ok ⟨p, .ending⟩ { r with reads := r.reads + 1, last := p }
    | .error fault => .error (.ofLexical fault) { r with reads := r.reads + 1 }

/-- Ends the reading at a place of the text. -/
def fail {α : Type} (p : Position) (cause : Cause) : Reading α :=
  throw (.located p cause)

/-- Writes a problem down. -/
def record (position? : Option Position) (problem : Problem) : Reading Unit :=
  modify fun r =>
    { r with
      diagnostics := r.diagnostics ++ [.ofProblem r.source position? problem]
      errorCount := r.errorCount + 1 }

/-- Writes a problem down, unless it is the same as the one written down last. -/
def recordOnce (p : Position) (problem : Problem) : Reading Unit := do
  if (← get).diagnostics.getLast?.any fun d => d.problem = problem then pure ()
  else record (some p) problem

/-- The circuit as far as it is built. -/
def circuitNow : Reading Circuit :=
  return (← get).circuit

/-- The name that a token is, with its symbol. -/
def expectName (t : Located Token) : Reading Mention := do
  match t.value with
  | .name text => return ⟨text, (← circuitNow).symbols.symbol text⟩
  | _ => fail t.position .expectedName

/-- Makes sure that a token is the one expected. -/
def expect (token : Token) (cause : Cause) (t : Located Token) : Reading Unit :=
  if t.value = token then pure () else fail t.position cause

/-- A fault that ends the reading, unless the keyword of the next section is absent from the text:
then the entry is taken for a stray part of that section, and there is no token after it. -/
def stray {α : Type} (next : Keyword) (p : Position) (cause : Cause) : Reading (Option α) := do
  if (← get).absent.contains next then return none else fail p cause

/-! What is left to read never grows. -/

/-- How much there is to come, a token in hand included. -/
def weight (t : Located Token) (r : Reader) : Nat :=
  r.tokens.length + if t.value = .ending then 0 else 1

/-- The action leaves no more tokens than it finds. -/
def Keeps {α : Type} (m : Reading α) : Prop :=
  ∀ ⦃r a r'⦄, m r = .ok a r' → r'.tokens.length ≤ r.tokens.length

/-- The token that the action ends with is among those that it finds. -/
def Yields (m : Reading (Located Token)) : Prop :=
  ∀ ⦃r t r'⦄, m r = .ok t r' → weight t r' ≤ r.tokens.length

/-- The same of an action that may end without a token. -/
def YieldsSome (m : Reading (Option (Located Token))) : Prop :=
  ∀ ⦃r t r'⦄, m r = .ok (some t) r' → weight t r' ≤ r.tokens.length

@[simp] theorem tokens_meeting (r : Reader) (t : Token) : (r.meeting t).tokens = r.tokens := by
  cases t <;> rfl

theorem yields_read : Yields read := by
  intro r t r' h
  unfold read at h
  split at h
  case h_1 u rest eq =>
    obtain ⟨rfl, rfl⟩ := by simpa using h
    simp only [weight, eq, List.length_cons]
    split <;> omega
  case h_2 eq =>
    split at h
    · obtain ⟨rfl, rfl⟩ := by simpa using h
      simp [weight, eq]
    · simp at h

theorem Yields.keeps {m : Reading (Located Token)} (h : Yields m) : Keeps m := by
  intro r t r' eq
  have := h eq
  unfold weight at this
  omega

theorem keeps_pure {α : Type} (a : α) : Keeps (pure a : Reading α) := by
  intro r b r' h
  obtain ⟨rfl, rfl⟩ := by simpa [pure, EStateM.pure] using h
  exact Nat.le_refl _

theorem keeps_fail {α : Type} (p : Position) (cause : Cause) :
    Keeps (fail p cause : Reading α) := by
  intro r b r' h
  cases h

theorem get_run (r : Reader) : (get : Reading Reader) r = .ok r r := rfl

theorem modify_run (f : Reader → Reader) (r : Reader) :
    (modify f : Reading Unit) r = .ok () (f r) := rfl

theorem keeps_get : Keeps (get : Reading Reader) := by
  intro r b r' h
  rw [get_run] at h
  obtain ⟨rfl, rfl⟩ := EStateM.Result.ok.inj h
  exact Nat.le_refl _

theorem keeps_modify {f : Reader → Reader} (h : ∀ r, (f r).tokens = r.tokens) :
    Keeps (modify f : Reading Unit) := by
  intro r b r' eq
  rw [modify_run] at eq
  obtain ⟨rfl, rfl⟩ := EStateM.Result.ok.inj eq
  exact Nat.le_of_eq (congrArg List.length (h r))

theorem bind_ok {α β : Type} {m : Reading α} {f : α → Reading β} {r r' : Reader} {b : β}
    (h : (m >>= f) r = .ok b r') : ∃ a s, m r = .ok a s ∧ f a s = .ok b r' := by
  simp only [bind, EStateM.bind] at h
  split at h
  · exact ⟨_, _, ‹_›, h⟩
  · cases h

theorem Keeps.bind {α β : Type} {m : Reading α} {f : α → Reading β} (hm : Keeps m)
    (hf : ∀ a, Keeps (f a)) : Keeps (m >>= f) := by
  intro r b r' h
  obtain ⟨a, s, h₁, h₂⟩ := bind_ok h
  exact Nat.le_trans (hf a h₂) (hm h₁)

theorem Yields.bind {α : Type} {m : Reading α} {f : α → Reading (Located Token)} (hm : Keeps m)
    (hf : ∀ a, Yields (f a)) : Yields (m >>= f) := by
  intro r b r' h
  obtain ⟨a, s, h₁, h₂⟩ := bind_ok h
  exact Nat.le_trans (hf a h₂) (hm h₁)

theorem YieldsSome.bind {α : Type} {m : Reading α} {f : α → Reading (Option (Located Token))}
    (hm : Keeps m) (hf : ∀ a, YieldsSome (f a)) : YieldsSome (m >>= f) := by
  intro r b r' h
  obtain ⟨a, s, h₁, h₂⟩ := bind_ok h
  exact Nat.le_trans (hf a h₂) (hm h₁)

theorem keeps_read : Keeps read :=
  yields_read.keeps

theorem keeps_circuitNow : Keeps circuitNow :=
  keeps_get.bind fun _ => keeps_pure _

theorem keeps_record (position? : Option Position) (problem : Problem) :
    Keeps (record position? problem) :=
  keeps_modify fun _ => rfl

theorem keeps_recordOnce (p : Position) (problem : Problem) : Keeps (recordOnce p problem) := by
  refine keeps_get.bind fun r => ?_
  split
  · exact keeps_pure _
  · exact keeps_record _ _

theorem keeps_expectName (t : Located Token) : Keeps (expectName t) := by
  unfold expectName
  split
  · exact keeps_circuitNow.bind fun _ => keeps_pure _
  · exact keeps_fail _ _

theorem keeps_expect (token : Token) (cause : Cause) (t : Located Token) :
    Keeps (expect token cause t) := by
  unfold expect
  split
  · exact keeps_pure _
  · exact keeps_fail _ _

theorem keeps_stray {α : Type} (next : Keyword) (p : Position) (cause : Cause) :
    Keeps (stray next p cause : Reading (Option α)) := by
  refine keeps_get.bind fun r => ?_
  split
  · exact keeps_pure _
  · exact keeps_fail _ _

theorem yieldsSome_stray (next : Keyword) (p : Position) (cause : Cause) :
    YieldsSome (stray next p cause) := by
  intro r t r' h
  obtain ⟨s, s', _, h⟩ := bind_ok h
  split at h
  · simp [pure, EStateM.pure] at h
  · cases h

/-- An action that always ends with a token. -/
theorem Yields.map_some {m : Reading (Located Token)} (h : Yields m) : YieldsSome (some <$> m) := by
  intro r t r' eq
  rw [map_eq_pure_bind] at eq
  obtain ⟨u, s, h₁, h₂⟩ := bind_ok eq
  obtain ⟨rfl, rfl⟩ := by simpa [pure, EStateM.pure] using h₂
  exact h h₁

/-- A token other than the end shortens what is left. -/
theorem length_read_lt {r r' : Reader} {t : Located Token} (h : read r = .ok t r')
    (proper : t.value ≠ .ending) : r'.tokens.length < r.tokens.length := by
  have := yields_read h
  simp only [weight, proper, if_false] at this
  omega

/-- Reads on until a token of some kind is met, or the end. -/
def skipUntil (stop : Token → Bool) (r : Reader) : EStateM.Result Fault Reader (Located Token) :=
  match _ : read r with
  | .error fault r' => .error fault r'
  | .ok t r' =>
    if _ : t.value = .ending then .ok t r'
    else if stop t.value then .ok t r'
    else skipUntil stop r'
termination_by r.tokens.length
decreasing_by exact length_read_lt ‹_› ‹_›

theorem yields_skipUntil (stop : Token → Bool) : Yields (skipUntil stop) := by
  intro r t r' h
  fun_induction skipUntil stop r with
  | case1 => cases h
  | case2 r u s eq ends =>
    obtain ⟨rfl, rfl⟩ := by simpa using h
    exact yields_read eq
  | case3 r u s eq proper stops =>
    obtain ⟨rfl, rfl⟩ := by simpa using h
    exact yields_read eq
  | case4 r u s eq proper goes ih => exact Nat.le_trans (ih h) (keeps_read eq)

end Reader

end LogicCircuit.Description
