import LogicCircuit.Proofs.Description.DeviceEntry
import LogicCircuit.Proofs.Description.Places

/-!
Every problem and every fault of a reading belongs to a place of the text where a token begins, or
to its end, if it has a place at all.
-/

namespace LogicCircuit.Description.Reader

open Cursor (TokenAt FaultAt)

variable {α β : Type} {source : List Char} {V : α → Prop} {W : β → Prop} {m : Reading α}
  {r : Reader} {t : Located Token} {p : Position}

/-- The problem was written down for the text, at a place of a token or at none. -/
def Noted (source : List Char) (d : Diagnostic) : Prop :=
  ∃ p?, (∀ p ∈ p?, TokenAt source p) ∧ d = .ofProblem source p? d.problem

/-- The tokens to come, the declared devices and the problems are those of places of the text. -/
structure Ahead (source : List Char) (r : Reader) : Prop where
  source_eq : r.source = source
  tokens : ∀ t ∈ r.tokens, TokenAt source t.position
  ended : ∀ p, r.ending = .ok p → TokenAt source p
  broken : ∀ fault, r.ending = .error fault → FaultAt source fault.position fault.value
  declared : ∀ e ∈ r.declared, TokenAt source e.2
  diagnostics : ∀ d ∈ r.diagnostics, Noted source d

/-- The same after the first token was read. -/
structure Placed (source : List Char) (r : Reader) : Prop extends Ahead source r where
  last : TokenAt source r.last

/-- A fault has its place where a token begins or the text ends, but for the lexical ones, which
have theirs where the lexer says. There is none without a place. -/
def Blamed (source : List Char) : Fault → Prop
  | .located p (.lexical fault) => FaultAt source p fault
  | .located p _ => TokenAt source p
  | .deviceRefused _ _ | .alreadyRead => False

def Traced (source : List Char) (V : α → Prop) : EStateM.Result Fault Reader α → Prop
  | .ok a r => Placed source r ∧ V a
  | .error fault r => Placed source r ∧ Blamed source fault

/-- From a reading at a place the action goes to one, or to a fault that has its place. -/
def Traces (source : List Char) (V : α → Prop) (m : Reading α) : Prop :=
  ∀ ⦃r⦄, Placed source r → Traced source V (m r)

/-- The token in hand stands at a place of the text. -/
def At (source : List Char) (t : Located Token) : Prop :=
  TokenAt source t.position

theorem traces_pure {a : α} (value : V a) : Traces source V (pure a : Reading α) :=
  fun _ placed => ⟨placed, value⟩

theorem traces_fail (here : TokenAt source p) {cause : Cause} (other : ∀ f, cause ≠ .lexical f) :
    Traces source V (fail p cause : Reading α) := by
  intro r placed
  refine ⟨placed, ?_⟩
  cases cause with
  | lexical f => exact absurd rfl (other f)
  | _ => exact here

/-- What comes later may build on what the first part did. -/
theorem Traced.bind {f : α → Reading β} (first : Traced source V (m r))
    (later : ∀ a s, m r = .ok a s → Placed source s → V a → Traced source W (f a s)) :
    Traced source W ((m >>= f) r) := by
  simp only [Bind.bind, EStateM.bind]
  cases h : m r with
  | ok a s =>
    rw [h] at first
    exact later a s h first.1 first.2
  | error e s =>
    rw [h] at first
    exact first

theorem Traces.bind {f : α → Reading β} (hm : Traces source V m)
    (hf : ∀ a, V a → Traces source W (f a)) : Traces source W (m >>= f) :=
  fun _ placed => (hm placed).bind fun a _ _ placed value => hf a value placed

theorem Traces.map {f : α → β} (hm : Traces source V m) (hf : ∀ a, V a → W (f a)) :
    Traces source W (f <$> m) := by
  rw [map_eq_pure_bind]
  exact hm.bind fun a value => traces_pure (hf a value)

theorem Traces.mono {V' : α → Prop} (hm : Traces source V m) (h : ∀ a, V a → V' a) :
    Traces source V' m := by
  intro r placed
  have first := hm placed
  cases eq : m r with
  | ok a s =>
    rw [eq] at first
    exact ⟨first.1, h a first.2⟩
  | error e s =>
    rw [eq] at first
    exact first

theorem traces_get_bind {f : Reader → Reading β}
    (hf : ∀ r, Placed source r → Traces source W (f r)) : Traces source W (get >>= f) :=
  fun r placed => hf r placed placed

/-! The parts that all sections share. -/

theorem Ahead.meeting (h : Ahead source r) (token : Token) : Ahead source (r.meeting token) := by
  cases token <;> exact ⟨h.source_eq, h.tokens, h.ended, h.broken, h.declared, h.diagnostics⟩

/-- Reading a token needs no token before it. -/
theorem Ahead.read (h : Ahead source r) :
    match read r with
    | .ok t s => Placed source s ∧ At source t
    | .error fault s => Ahead source s ∧ Blamed source fault ∧ s.last = r.last := by
  rw [Reader.read]
  cases tokens : r.tokens with
  | cons t rest =>
    have here : TokenAt source t.position := h.tokens t (tokens ▸ List.mem_cons_self)
    have met := h.meeting t.value
    refine ⟨⟨⟨met.source_eq, fun u hu => ?_, met.ended, met.broken, met.declared,
      met.diagnostics⟩, here⟩, here⟩
    exact h.tokens u (tokens ▸ List.mem_cons_of_mem t hu)
  | nil =>
    cases ending : r.ending with
    | ok p =>
      have here : TokenAt source p := h.ended p ending
      exact ⟨⟨⟨h.source_eq, by simp, fun q eq => h.ended q (ending.trans eq),
        fun fault eq => h.broken fault (ending.trans eq), h.declared, h.diagnostics⟩, here⟩, here⟩
    | error fault =>
      exact ⟨⟨h.source_eq, by simp, fun q eq => h.ended q (ending.trans eq),
        fun fault eq => h.broken fault (ending.trans eq), h.declared, h.diagnostics⟩,
        h.broken fault ending, rfl⟩

theorem traces_read : Traces source (At source) read := by
  intro r placed
  have first := placed.toAhead.read
  cases h : read r with
  | ok t s =>
    rw [h] at first
    exact first
  | error fault s =>
    rw [h] at first
    exact ⟨⟨first.1, first.2.2 ▸ placed.last⟩, first.2.1⟩

/-- More problems at places of tokens. -/
theorem Ahead.noting (h : Ahead source r) {ds : List Diagnostic} (noted : ∀ d ∈ ds, Noted source d)
    (errorCount : Nat) :
    Ahead source { r with diagnostics := r.diagnostics ++ ds, errorCount := errorCount } where
  source_eq := h.source_eq
  tokens := h.tokens
  ended := h.ended
  broken := h.broken
  declared := h.declared
  diagnostics d member := (List.mem_append.mp member).elim (h.diagnostics d) (noted d)

/-- What is built has no place. -/
theorem Placed.rebuilt (h : Placed source r) (c : Circuit) :
    Placed source { r with circuit := c } :=
  ⟨⟨h.source_eq, h.tokens, h.ended, h.broken, h.declared, h.diagnostics⟩, h.last⟩

theorem traces_record {p? : Option Position} (here : ∀ p ∈ p?, TokenAt source p)
    (problem : Problem) : Traces source (fun _ => True) (record p? problem) := by
  intro r placed
  refine ⟨⟨placed.toAhead.noting (fun d member => ?_) _, placed.last⟩, trivial⟩
  rw [List.mem_singleton.mp member, placed.source_eq]
  exact ⟨p?, here, rfl⟩

theorem traces_record_some (here : TokenAt source p) (problem : Problem) :
    Traces source (fun _ => True) (record (some p) problem) :=
  traces_record (fun _ member => Option.some.inj member ▸ here) problem

theorem traces_recordOnce (here : TokenAt source p) (problem : Problem) :
    Traces source (fun _ => True) (recordOnce p problem) := by
  refine traces_get_bind fun r placed => ?_
  split
  · exact traces_pure trivial
  · exact traces_record_some here problem

theorem traces_circuitNow : Traces source (fun _ => True) circuitNow :=
  fun _ placed => ⟨placed, trivial⟩

theorem traces_expectName (here : At source t) : Traces source (fun _ => True) (expectName t) := by
  rw [expectName]
  split
  · exact traces_circuitNow.bind fun _ _ => traces_pure trivial
  · exact traces_fail here (by simp)

theorem traces_expect (here : At source t) (token : Token) {cause : Cause}
    (other : ∀ f, cause ≠ .lexical f) : Traces source (fun _ => True) (expect token cause t) := by
  rw [expect]
  split
  · exact traces_pure trivial
  · exact traces_fail here other

theorem traces_stray (next : Keyword) (here : TokenAt source p) {cause : Cause}
    (other : ∀ f, cause ≠ .lexical f) :
    Traces source (fun a => ∀ u ∈ a, V u) (stray next p cause : Reading (Option α)) := by
  refine traces_get_bind fun r placed => ?_
  split
  · exact traces_pure nofun
  · exact traces_fail here other

theorem traces_skipUntil (stop : Token → Bool) : Traces source (At source) (skipUntil stop) := by
  intro r placed
  have first := traces_read placed
  fun_induction skipUntil stop r with
  | case1 r fault s eq =>
    rw [eq] at first
    exact first
  | case2 r t s eq ends =>
    rw [eq] at first
    exact first
  | case3 r t s eq proper stops =>
    rw [eq] at first
    exact first
  | case4 r t s eq proper goes ih =>
    rw [eq] at first
    exact ih first.1 (traces_read first.1)

/-- The token that an entry ends with, if it ends with one, stands at a place of the text. -/
def AtSome (source : List Char) (a : Option (Located Token)) : Prop :=
  ∀ t ∈ a, At source t

theorem traces_entries {entry : Located Token → Reading (Option (Located Token))}
    (progress : ∀ t, YieldsSome (entry t))
    (traces : ∀ t, At source t → Traces source (AtSome source) (entry t)) (here : At source t) :
    Traces source (AtSome source) (entries entry progress t) := by
  intro r placed
  fun_induction entries entry progress t r with
  | case1 t r ends => exact ⟨placed, fun u member => Option.some.inj member ▸ here⟩
  | case2 t r begins fault s eq =>
    have first := traces t here placed
    rw [eq] at first
    exact first
  | case3 t r begins s eq =>
    have first := traces t here placed
    rw [eq] at first
    exact ⟨first.1, fun u member => absurd member (Option.not_mem_none u)⟩
  | case4 t r begins next s eq ih =>
    have first := traces t here placed
    rw [eq] at first
    exact ih (first.2 next rfl) first.1

theorem traces_resume (next : Keyword) : Traces source (At source) (resume next) :=
  traces_get_bind fun _ placed => (traces_recordOnce placed.last _).bind fun _ _ =>
    traces_skipUntil _

theorem traces_part {entry : Located Token → Reading (Option (Located Token))}
    (progress : ∀ t, YieldsSome (entry t))
    (traces : ∀ t, At source t → Traces source (AtSome source) (entry t)) (next : Keyword) :
    Traces source (At source) (part entry progress next) := by
  refine traces_read.bind fun t here => ?_
  refine Traces.bind (traces_entries progress traces here) fun a value => ?_
  cases a with
  | some u => exact traces_pure (value u rfl)
  | none => exact traces_resume next

/-! Devices. -/

theorem traces_expectKind (here : At source t) : Traces source (fun _ => True) (expectKind t) := by
  refine (traces_expectName here).bind fun name _ => traces_circuitNow.bind fun c _ => ?_
  split
  · exact traces_pure trivial
  · exact traces_fail here (by simp)

theorem traces_expectNumber (kind : Kind) (here : At source t) :
    Traces source (fun _ => True) (expectNumber kind t) := by
  rw [expectNumber]
  split
  · split
    · exact traces_fail here (by simp)
    · split
      · exact traces_pure trivial
      · exact traces_fail here (by simp)
  · exact traces_fail here (by simp)

theorem traces_numbers (here : TokenAt source p) (kind : Kind) :
    Traces source (fun _ => True) (numbers p kind) := by
  refine traces_read.bind fun t at₁ => ?_
  split
  · refine traces_read.bind fun u at₂ => (traces_expectNumber kind at₂).bind fun _ _ => ?_
    refine traces_read.bind fun v at₃ => ?_
    split
    · refine (traces_expect at₃ _ (by simp)).bind fun _ _ => traces_read.bind fun w at₄ => ?_
      refine (traces_expectNumber kind at₄).bind fun _ _ => traces_read.bind fun x at₅ => ?_
      exact (traces_expect at₅ _ (by simp)).bind fun _ _ => traces_pure trivial
    · exact (traces_expect at₃ _ (by simp)).bind fun _ _ => traces_pure trivial
  · split
    · exact traces_pure trivial
    · exact traces_fail here (by simp)
  · exact traces_fail at₁ (by simp)

/-- A device of a new name, with numbers that suit its kind, is not refused. -/
theorem Placed.traced_declare (placed : Placed source r) (here : TokenAt source p) {name : Mention}
    {kind : Kind} {l : List Nat} (free : r.circuit.netlist.device? name.symbol = none)
    (suits : Declaration.Suits kind l) :
    Traced source (fun _ => True) (declare p name kind l[0]? l[1]? r) := by
  obtain ⟨d, made⟩ := Device.exists_made suits
  rw [declare, Netlist.declare_ok_iff.mpr ⟨free, d, made, rfl⟩]
  refine ⟨⟨⟨placed.source_eq, placed.tokens, placed.ended, placed.broken, fun e member => ?_,
    placed.diagnostics⟩, placed.last⟩, trivial⟩
  rcases List.mem_cons.mp member with rfl | member
  · exact here
  · exact placed.declared e member

/-- On the way to the device its name stays free, for nothing is built there. -/
theorem Placed.traced_declaration (placed : Placed source r) (here : TokenAt source p)
    {name : Mention} (free : r.circuit.netlist.device? name.symbol = none) :
    Traced source (At source) (declaration p name r) := by
  refine (traces_read placed).bind fun t s₁ took placed at₁ => ?_
  obtain ⟨_, -, rfl⟩ := read_ok_iff.mp took
  refine (traces_expectKind at₁ placed).bind fun kind s₂ named placed _ => ?_
  obtain ⟨rfl, -⟩ := expectKind_ok named
  refine (traces_numbers at₁ kind placed).bind fun a s₃ counted placed _ => ?_
  obtain ⟨l, _, _, rfl, suits, -, -, rfl⟩ := numbers_ok counted
  exact (placed.traced_declare here free suits).bind fun _ _ _ placed _ => traces_read placed

theorem at_some (u : Located Token) (here : At source u) : AtSome source (some u) :=
  fun _ member => Option.some.inj member ▸ here

theorem traces_deviceEntry (t : Located Token) (here : At source t) :
    Traces source (AtSome source) (deviceEntry t) := by
  intro r placed
  refine (traces_expectName here placed).bind fun name s _ placed _ => ?_
  rw [EStateM.bind_of_ok (circuitNow_ok s)]
  by_cases reserved : s.circuit.netlist.vocabulary.isReserved name.symbol
  · rw [if_pos reserved]
    exact traces_stray _ here (by simp) placed
  rw [if_neg reserved]
  by_cases taken : (s.circuit.netlist.device? name.symbol).isSome
  · rw [if_pos taken]
    exact traces_stray _ here (by simp) placed
  rw [if_neg taken]
  refine (traces_read placed).bind fun equals s₁ took placed at₁ => ?_
  obtain ⟨_, -, rfl⟩ := read_ok_iff.mp took
  by_cases sign : equals.value = .equals
  · rw [if_pos sign, map_eq_pure_bind]
    exact (placed.traced_declaration here (by simpa using taken)).bind fun u _ _ placed at₂ =>
      ⟨placed, at_some u at₂⟩
  · rw [if_neg sign]
    exact traces_stray _ at₁ (by simp) placed

/-! Outputs. -/

theorem traces_isOutputPin (pin : Mention) : Traces source (fun _ => True) (isOutputPin pin) :=
  traces_circuitNow.bind fun _ _ => traces_pure trivial

theorem traces_outputPin (device : Mention) (wrong : Mention → Problem) (missing : Problem)
    (here : At source t) :
    Traces source (fun a => At source a.2) (outputPin device wrong missing t) := by
  rw [outputPin]
  split
  · refine traces_read.bind fun u at₁ => (traces_expectName at₁).bind fun pin _ =>
      (traces_isOutputPin pin).bind fun isOutput _ => ?_
    split
    · exact traces_read.bind fun _ at₂ => traces_pure at₂
    · exact (traces_record_some at₁ _).bind fun _ _ => traces_read.bind fun _ at₂ => traces_pure at₂
  · exact (traces_record_some here _).bind fun _ _ => traces_pure here

/-! Connections. -/

theorem traces_connectionOutput (kind : Kind) (device : Mention) :
    Traces source (fun a => At source a.2) (connectionOutput kind device) := by
  refine traces_read.bind fun t here => ?_
  split
  · exact traces_outputPin _ _ _ here
  · exact traces_pure here

theorem traces_needlessPin (device : Mention) (here : At source t) :
    Traces source (fun _ => True) (needlessPin device t) := by
  rw [needlessPin]
  split
  · refine (traces_expectName here).bind fun pin _ => (traces_isOutputPin pin).bind fun _ _ => ?_
    split <;> exact traces_pure trivial
  · exact traces_pure trivial

theorem traces_skipToArrow : Traces source (fun _ => True) skipToArrow :=
  Traces.bind (traces_skipUntil _) fun _ here => traces_expect here _ (by simp)

theorem traces_arrow (kind : Kind) (device : Mention) (here : At source t) :
    Traces source (fun _ => True) (arrow kind device t) := by
  rw [arrow]
  split
  · exact traces_pure trivial
  · split
    · exact traces_fail here (by simp)
    · split
      · refine traces_read.bind fun pin at₁ => (traces_needlessPin _ at₁).bind fun problem _ => ?_
        refine (traces_record_some at₁ _).bind fun _ _ => traces_skipToArrow.bind fun _ _ => ?_
        exact traces_pure trivial
      · exact (traces_stray (V := fun _ => True) _ here (by simp)).mono fun _ _ => trivial

theorem traces_attach (output : Option Terminal) (here : TokenAt source p) (device : Mention)
    (pin : Option Mention) : Traces source (fun _ => True) (attach output p device pin) := by
  intro r placed
  unfold attach
  split
  · exact ⟨placed, trivial⟩
  · split
    · exact ⟨placed.rebuilt _, trivial⟩
    · exact traces_record_some here _ placed

theorem traces_destination (output : Option Terminal) (here : At source t) :
    Traces source (At source) (destination output t) := by
  refine (traces_expectName here).bind fun device _ => traces_read.bind fun next at₁ => ?_
  split
  · refine traces_read.bind fun u at₂ => (traces_expectName at₂).bind fun pin _ => ?_
    refine traces_read.bind fun v at₃ => (traces_attach _ here _ _).bind fun _ _ => ?_
    exact traces_pure at₃
  · exact (traces_attach _ here _ _).bind fun _ _ => traces_pure at₁

theorem traces_destinations (output : Option Terminal) (here : At source t) :
    Traces source (At source) (destinations output t) := by
  intro r placed
  have first := traces_destination output here placed
  fun_induction destinations output t r with
  | case1 t r fault s eq =>
    rw [eq] at first
    exact first
  | case2 t r separator s eq comma fault s' eq' =>
    rw [eq] at first
    have second := traces_read first.1
    rw [eq'] at second
    exact second
  | case3 t r separator s eq comma next s' eq' ih =>
    rw [eq] at first
    have second := traces_read first.1
    rw [eq'] at second
    exact ih second.2 second.1 (traces_destination output second.2 second.1)
  | case4 t r separator s eq _ _ =>
    rw [eq] at first
    exact traces_read first.1
  | case5 t r separator s eq _ _ _ =>
    rw [eq] at first
    exact ⟨first.1, first.2⟩
  | case6 t r separator s eq _ _ _ =>
    rw [eq] at first
    exact ⟨first.1, first.2⟩

theorem traces_skipEntry : Traces source (At source) skipEntry := by
  refine Traces.bind (traces_skipUntil _) fun t here => ?_
  split
  · exact traces_read
  · exact traces_pure here

theorem traces_connectionEntry (t : Located Token) (here : At source t) :
    Traces source (AtSome source) (connectionEntry t) := by
  refine (traces_expectName here).bind fun device _ => traces_circuitNow.bind fun c _ => ?_
  split
  · exact (traces_record_some here _).bind fun _ _ => traces_skipEntry.map at_some
  · refine (traces_connectionOutput _ _).bind fun out at₁ => ?_
    refine (traces_arrow _ _ at₁).bind fun passed _ => ?_
    cases passed with
    | none => exact traces_pure nofun
    | some _ =>
      exact traces_read.bind fun first at₂ => Traces.map (traces_destinations _ at₂) at_some

/-! Monitors. -/

theorem traces_watch (output : Option Terminal) (here : TokenAt source p) (device : Mention) :
    Traces source (fun _ => True) (watch output p device) := by
  intro r placed
  unfold watch
  split
  · exact ⟨placed, trivial⟩
  · split
    · exact ⟨placed.rebuilt _, trivial⟩
    · exact traces_record_some here _ placed

theorem traces_monitorOutput (kind : Option Kind) (device : Mention) :
    Traces source (fun a => At source a.2) (monitorOutput kind device) := by
  refine traces_read.bind fun t here => ?_
  split
  · exact traces_outputPin _ _ _ here
  · split
    · refine traces_read.bind fun pin at₁ => (traces_expectName at₁).bind fun _ _ => ?_
      split
      · exact (traces_record_some at₁ _).bind fun _ _ =>
          traces_read.bind fun _ at₂ => traces_pure at₂
      · exact traces_read.bind fun _ at₂ => traces_pure at₂
    · exact traces_pure here

theorem traces_monitorEntry (here : At source t) :
    Traces source (At source) (monitorEntry t) := by
  refine (traces_expectName here).bind fun _ _ => traces_circuitNow.bind fun _ _ => ?_
  refine (traces_monitorOutput _ _).bind fun out at₁ => ?_
  refine (traces_expect at₁ _ (by simp)).bind fun _ _ => ?_
  exact (traces_watch _ here _).bind fun _ _ => traces_read

theorem traces_monitorEntries (here : At source t) :
    Traces source (At source) (monitorEntries t) := by
  intro r placed
  fun_induction monitorEntries t r with
  | case1 t r begins fault s eq =>
    have first := traces_monitorEntry here placed
    rw [eq] at first
    exact first
  | case2 t r begins next s eq ih =>
    have first := traces_monitorEntry here placed
    rw [eq] at first
    exact ih first.2 first.1
  | case3 => exact ⟨placed, here⟩

theorem traces_ground : Traces source (fun _ => True) ground := by
  intro r placed
  change Placed source (if (r.circuit.netlist.floatingOf fun kind => kind = .flipFlop).isEmpty
    then r else _) ∧ True
  split
  · exact ⟨placed, trivial⟩
  · exact ⟨placed.rebuilt _, trivial⟩

theorem traces_recordFloating : Traces source (fun _ => True) recordFloating := by
  intro r placed
  refine ⟨⟨placed.toAhead.noting (fun d member => ?_) _, placed.last⟩, trivial⟩
  obtain ⟨input, -, rfl⟩ := List.mem_map.mp member
  rw [floatingDiagnostic, placed.source_eq]
  refine ⟨_, fun p found => ?_, rfl⟩
  obtain ⟨before, after, split, -⟩ := List.lookup_eq_some_iff.mp found
  exact placed.declared (input.1, p) (by simp [split])

theorem traces_monitors : Traces source (At source) monitors :=
  traces_read.bind fun _ here => Traces.bind (traces_monitorEntries here) fun _ last =>
    traces_ground.bind fun _ _ => traces_recordFloating.bind fun _ _ => traces_pure last

/-! The whole description. -/

theorem traces_sectionOf {body : Reading (Located Token)} (h : Traces source (At source) body)
    (keyword : Keyword) (here : At source t) :
    Traces source (At source) (sectionOf keyword body t) := by
  rw [sectionOf]
  split
  · exact h
  · exact (traces_recordOnce here _).bind fun _ _ => traces_pure here

/-- However a reading ends that begins with a token, its problems have their places, and so has its
fault. -/
def Answers (source : List Char) (result : EStateM.Result Fault Reader α) : Prop :=
  Ahead source result.state ∧ ∀ fault s, result = .error fault s → Blamed source fault

theorem Ahead.read_bind {f : Located Token → Reading α} (h : Ahead source r)
    (hf : ∀ t, At source t → Traces source V (f t)) : Answers source ((Reader.read >>= f) r) := by
  have first := h.read
  cases took : Reader.read r with
  | error fault s =>
    have same : (Reader.read >>= f) r = .error fault s := by
      simp only [Bind.bind, EStateM.bind, took]
    rw [took] at first
    rw [same]
    refine ⟨first.1, fun fault' s' eq => ?_⟩
    obtain ⟨rfl, rfl⟩ := EStateM.Result.error.inj eq
    exact first.2.1
  | ok t s =>
    rw [took] at first
    rw [EStateM.bind_of_ok took]
    have later := hf t first.2 first.1
    cases run : f t s with
    | ok a u =>
      rw [run] at later
      exact ⟨later.1.toAhead, fun fault' s' eq => by cases eq⟩
    | error fault u =>
      rw [run] at later
      refine ⟨later.1.toAhead, fun fault' s' eq => ?_⟩
      obtain ⟨rfl, rfl⟩ := EStateM.Result.error.inj eq
      exact later.2

theorem Ahead.sections (h : Ahead source r) : Answers source (Reader.sections r) := by
  refine h.read_bind (V := fun _ => True) fun t here => ?_
  split
  · refine (traces_sectionOf (traces_part _ traces_deviceEntry _) _ here).bind fun t₁ at₁ => ?_
    refine (traces_sectionOf (traces_part _ traces_connectionEntry _) _ at₁).bind fun t₂ at₂ => ?_
    refine (traces_sectionOf traces_monitors _ at₂).bind fun t₃ at₃ => ?_
    refine (traces_sectionOf (traces_pure at₃) _ at₃).bind fun t₄ at₄ => ?_
    refine traces_get_bind fun r _ => ?_
    split <;> exact traces_pure trivial
  · exact (traces_recordOnce here _).bind fun _ _ => traces_pure trivial

end LogicCircuit.Description.Reader
