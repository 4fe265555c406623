import LogicCircuit.Proofs.Circuit.Matching
import LogicCircuit.Proofs.Description.Passing

/-!
Two readings of one text into tables that held different names before. They go on side by side:
what they build is the same by name, and so is what they write down, up to the order in which the
unwired inputs of one device come.
-/

namespace LogicCircuit.Description

open SymbolTable (SameName biUnique_sameName sameName_symbol)

/-- The problems are the same in the same order, but for those of the unwired inputs of one
device. -/
inductive Shuffled : List Diagnostic → List Diagnostic → Prop
  | nil : Shuffled [] []
  | cons (d : Diagnostic) {ds ds' : List Diagnostic} : Shuffled ds ds' →
    Shuffled (d :: ds) (d :: ds')
  | swap {d e : Diagnostic} {device pin pin' : String} (ds : List Diagnostic) :
    d.problem = .floatingInput device pin → e.problem = .floatingInput device pin' →
    Shuffled (d :: e :: ds) (e :: d :: ds)
  | trans {ds ds' ds'' : List Diagnostic} : Shuffled ds ds' → Shuffled ds' ds'' → Shuffled ds ds''

namespace Shuffled

variable {ds ds' es es' : List Diagnostic}

theorem refl (ds : List Diagnostic) : Shuffled ds ds := by
  induction ds with
  | nil => exact .nil
  | cons d ds ih => exact .cons d ih

theorem append_left (ds : List Diagnostic) (h : Shuffled es es') :
    Shuffled (ds ++ es) (ds ++ es') := by
  induction ds with
  | nil => exact h
  | cons d ds ih => exact .cons d ih

theorem append_right (h : Shuffled ds ds') (es : List Diagnostic) :
    Shuffled (ds ++ es) (ds' ++ es) := by
  induction h with
  | nil => exact refl es
  | cons d _ ih => exact .cons d ih
  | swap ds first second => exact .swap _ first second
  | trans _ _ ih ih' => exact ih.trans ih'

theorem append (h : Shuffled ds ds') (h' : Shuffled es es') :
    Shuffled (ds ++ es) (ds' ++ es') :=
  (h.append_right es).trans (h'.append_left ds')

theorem of_perm (device : String) (h : ds.Perm ds')
    (floating : ∀ d ∈ ds, ∃ pin, d.problem = .floatingInput device pin) : Shuffled ds ds' := by
  induction h with
  | nil => exact .nil
  | cons d _ ih => exact .cons d (ih fun e he => floating e (List.mem_cons_of_mem d he))
  | swap d e ds =>
    obtain ⟨pin, first⟩ := floating e List.mem_cons_self
    obtain ⟨pin', second⟩ := floating d (List.mem_cons_of_mem e List.mem_cons_self)
    exact .swap ds first second
  | trans perm _ ih ih' =>
    exact (ih floating).trans (ih' fun d hd => floating d (perm.mem_iff.mpr hd))

theorem length_eq (h : Shuffled ds ds') : ds.length = ds'.length := by
  induction h with
  | nil => rfl
  | cons _ _ ih => rw [List.length_cons, List.length_cons, ih]
  | swap => rfl
  | trans _ _ ih ih' => exact ih.trans ih'

theorem isEmpty_eq (h : Shuffled ds ds') : ds.isEmpty = ds'.isEmpty := by
  induction h with
  | nil => rfl
  | cons => rfl
  | swap => rfl
  | trans _ _ ih ih' => exact ih.trans ih'

/-- The last problem is the same, unless it is that of an unwired input. -/
theorem getLast?_any (h : Shuffled ds ds') {problem : Problem}
    (other : ∀ device pin, problem ≠ .floatingInput device pin) :
    ds.getLast?.any (fun d => d.problem = problem) =
      ds'.getLast?.any fun d => d.problem = problem := by
  induction h with
  | nil => rfl
  | @cons d ds ds' h ih =>
    have empty := h.isEmpty_eq
    cases ds with
    | nil =>
      cases ds' with
      | nil => rfl
      | cons => cases empty
    | cons e ds =>
      cases ds' with
      | nil => cases empty
      | cons e' ds' => simpa only [List.getLast?_cons_cons] using ih
  | @swap d e device pin pin' ds first second =>
    cases ds with
    | nil =>
      have hd : ¬ d.problem = problem := fun eq => other _ _ (eq ▸ first)
      have he : ¬ e.problem = problem := fun eq => other _ _ (eq ▸ second)
      simp [hd, he]
    | cons f ds => simp only [List.getLast?_cons_cons]
  | trans _ _ ih ih' => exact ih.trans ih'

end Shuffled

/-- The names are the same, each with its symbol in its own table. -/
def Mention.Matches (R : Symbol → Symbol → Prop) (m m' : Mention) : Prop :=
  m.text = m'.text ∧ R m.symbol m'.symbol

namespace Reader

variable {α α' β β' : Type} {r r' s s' u u' : Reader}

/-- The symbols of one name in what the two readings have built. -/
def Names (r r' : Reader) : Symbol → Symbol → Prop :=
  SameName r.circuit.symbols r'.circuit.symbols

/-- The readings are at the same place and have built the same. -/
structure Matches (r r' : Reader) : Prop where
  source : r.source = r'.source
  tokens : r.tokens = r'.tokens
  ending : r.ending = r'.ending
  last : r.last = r'.last
  absent : r.absent = r'.absent
  circuit : r.circuit.Matches r'.circuit
  declared : List.Forall₂ (fun e e' => Names r r' e.1 e'.1 ∧ e.2 = e'.2) r.declared r'.declared
  diagnostics : Shuffled r.diagnostics r'.diagnostics
  errorCount : r.errorCount = r'.errorCount
  isSpent : r.isSpent = r'.isSpent

/-- Both readings went on, and are side by side again. -/
structure Abreast (r r' s s' : Reader) : Prop where
  first : Continues r s
  second : Continues r' s'
  same : s.Matches s'

theorem Matches.abreast (h : r.Matches r') : Abreast r r' r r' :=
  ⟨.refl r, .refl r', h⟩

theorem Abreast.trans (h : Abreast r r' s s') (h' : Abreast s s' u u') : Abreast r r' u u' :=
  ⟨h.first.trans h'.first, h.second.trans h'.second, h'.same⟩

/-- What has one name keeps it. -/
theorem Abreast.names (h : Abreast r r' s s') (a a' : Symbol) (names : Names r r' a a') :
    Names s s' a a' :=
  names.mono h.first.symbols h.second.symbols

/-- The readings have come to one fault, or are side by side with answers between which `V`
holds. -/
inductive Meet (r r' : Reader) (V : Reader → Reader → α → α' → Prop) :
    EStateM.Result Fault Reader α → EStateM.Result Fault Reader α' → Prop
  | ok {a : α} {a' : α'} {s s' : Reader} : Abreast r r' s s' → V s s' a a' →
    Meet r r' V (.ok a s) (.ok a' s')
  | error (fault : Fault) (s s' : Reader) : Meet r r' V (.error fault s) (.error fault s')

/-- Carried out side by side, the actions come to the same. -/
def Parallel (r r' : Reader) (V : Reader → Reader → α → α' → Prop) (m : Reading α)
    (m' : Reading α') : Prop :=
  Meet r r' V (m r) (m' r')

variable {V : Reader → Reader → α → α' → Prop} {W : Reader → Reader → β → β' → Prop}

theorem Parallel.bind_of_eq {m : Reading α} {m' : Reading α'} {f : α → Reading β}
    {f' : α' → Reading β'} (first : Parallel r r' V m m')
    (second : ∀ {s s' a a'}, m r = .ok a s → Abreast r r' s s' → V s s' a a' →
      Parallel s s' W (f a) (f' a')) :
    Parallel r r' W (m >>= f) (m' >>= f') := by
  simp only [Parallel, Bind.bind, EStateM.bind] at first second ⊢
  generalize m r = x at first second
  generalize m' r' = x' at first
  cases first with
  | error fault s s' => exact .error fault s s'
  | @ok a a' s s' on value =>
    have later := second rfl on value
    dsimp only
    generalize f a s = y at later
    generalize f' a' s' = y' at later
    cases later with
    | error fault u u' => exact .error fault u u'
    | ok on' value' => exact .ok (on.trans on') value'

theorem Parallel.bind {m : Reading α} {m' : Reading α'} {f : α → Reading β} {f' : α' → Reading β'}
    (first : Parallel r r' V m m')
    (second : ∀ {s s' a a'}, Abreast r r' s s' → V s s' a a' → Parallel s s' W (f a) (f' a')) :
    Parallel r r' W (m >>= f) (m' >>= f') :=
  first.bind_of_eq fun _ => second

theorem Parallel.map {m : Reading α} {m' : Reading α'} {f : α → β} {f' : α' → β'}
    (first : Parallel r r' V m m')
    (second : ∀ {s s' a a'}, V s s' a a' → W s s' (f a) (f' a')) :
    Parallel r r' W (f <$> m) (f' <$> m') := by
  rw [map_eq_pure_bind, map_eq_pure_bind]
  exact first.bind fun on value => .ok on.same.abreast (second value)

/-- The same answer. -/
def Equal (_ _ : Reader) (a a' : α) : Prop := a = a'

/-- The same token, whose name both readings know. -/
def Shared (r r' : Reader) (t t' : Located Token) : Prop :=
  t = t' ∧ Held t r ∧ Held t r'

/-- The same token, or none in either reading. -/
def SharedSome (r r' : Reader) : Option (Located Token) → Option (Located Token) → Prop :=
  Option.Rel (Shared r r')

/-- The same name. -/
def Named (r r' : Reader) : Mention → Mention → Prop :=
  Mention.Matches (Names r r')

/-- The same output, or none in either reading, and the same token after it. -/
def SharedEnd (r r' : Reader) (a a' : Option Terminal × Located Token) : Prop :=
  Option.Rel (Terminal.Matches (Names r r')) a.1 a'.1 ∧ Shared r r' a.2 a'.2

theorem parallel_pure {a : α} {a' : α'} (h : r.Matches r') (value : V r r' a a') :
    Parallel r r' V (pure a) (pure a') :=
  .ok h.abreast value

theorem parallel_fail (p : Position) (cause : Cause) :
    Parallel r r' V (fail p cause : Reading α) (fail p cause : Reading α') :=
  .error _ _ _

theorem Abreast.named (h : Abreast r r' s s') {m m' : Mention} (named : Named r r' m m') :
    Named s s' m m' :=
  ⟨named.1, h.names _ _ named.2⟩

theorem Abreast.shared (h : Abreast r r' s s') {t t' : Located Token} (shared : Shared r r' t t') :
    Shared s s' t t' :=
  ⟨shared.1, shared.2.1.mono h.first, shared.2.2.mono h.second⟩

theorem Abreast.outputs (h : Abreast r r' s s') {o o' : Option Terminal}
    (outputs : Option.Rel (Terminal.Matches (Names r r')) o o') :
    Option.Rel (Terminal.Matches (Names s s')) o o' := by
  cases outputs with
  | some pair => exact .some (pair.mono h.names)
  | none => exact .none

theorem biUnique_names (r r' : Reader) : Relator.BiUnique (Names r r') :=
  biUnique_sameName _ _

/-! The parts that all sections share. -/

variable {t : Located Token}

theorem continues_rebuilt (r : Reader) {c : Circuit} (limit : c.limit = r.circuit.limit)
    (cycles : c.cycles = r.circuit.cycles)
    (grows : r.circuit.symbols.texts <+: c.symbols.texts) : Continues r { r with circuit := c } :=
  .of_tokens_eq rfl rfl limit cycles List.prefix_rfl grows rfl

/-- Both readings go on in what they build only. -/
theorem Matches.rebuilt (h : r.Matches r') {c c' : Circuit}
    (first : Continues r { r with circuit := c }) (second : Continues r' { r' with circuit := c' })
    (circuits : c.Matches c') :
    Abreast r r' { r with circuit := c } { r' with circuit := c' } where
  first := first
  second := second
  same :=
    ⟨h.source, h.tokens, h.ending, h.last, h.absent, circuits,
      h.declared.imp fun _ _ pair => ⟨pair.1.mono first.symbols second.symbols, pair.2⟩,
      h.diagnostics, h.errorCount, h.isSpent⟩

/-- A name that both readings meet has its symbol in both tables from then on. -/
theorem Matches.meeting (h : r.Matches r') (token : Token) :
    (r.meeting token).Matches (r'.meeting token) := by
  have first := continues_meeting r token
  have second := continues_meeting r' token
  cases token with
  | name text =>
    exact (h.rebuilt first second (h.circuit.extended first.symbols second.symbols)).same
  | _ => exact h

theorem parallel_read (h : r.Matches r') : Parallel r r' Shared read read := by
  change Meet r r' Shared (read r) (read r')
  have first : Continues r (read r).state := continues_read
  have second : Continues r' (read r').state := continues_read
  rw [read, ← h.tokens, ← h.ending] at second
  rw [read] at first
  rw [read, read, ← h.tokens, ← h.ending]
  cases tokens : r.tokens with
  | cons t rest =>
    simp only [tokens] at first second
    have met := h.meeting t.value
    refine .ok ⟨first, second, ?_⟩ ⟨rfl, held_meeting r t, held_meeting r' t⟩
    exact ⟨met.source, rfl, met.ending, rfl, met.absent, met.circuit, met.declared,
      met.diagnostics, met.errorCount, met.isSpent⟩
  | nil =>
    cases ending : r.ending with
    | ok p =>
      simp only [tokens, ending] at first second
      refine .ok ⟨first, second, ?_⟩ ⟨rfl, by simp [Held], by simp [Held]⟩
      exact ⟨h.source, rfl, rfl, rfl, h.absent, h.circuit, h.declared, h.diagnostics,
        h.errorCount, h.isSpent⟩
    | error fault => exact .error _ _ _

theorem parallel_record (h : r.Matches r') (p : Option Position) (problem : Problem) :
    Parallel r r' Equal (record p problem) (record p problem) := by
  have first : Continues r (record p problem r).state := continues_record p problem
  have second : Continues r' (record p problem r').state := continues_record p problem
  refine .ok ⟨first, second, ?_⟩ rfl
  refine ⟨h.source, h.tokens, h.ending, h.last, h.absent, h.circuit, h.declared, ?_,
    congrArg (· + 1) h.errorCount, h.isSpent⟩
  dsimp only
  rw [h.source]
  exact h.diagnostics.append_right _

theorem parallel_get (h : r.Matches r') :
    Parallel r r' (fun s s' a a' => a = s ∧ a' = s') get get :=
  .ok h.abreast ⟨rfl, rfl⟩

theorem parallel_circuitNow (h : r.Matches r') :
    Parallel r r' (fun s s' c c' => c = s.circuit ∧ c' = s'.circuit) circuitNow
      circuitNow :=
  .ok h.abreast ⟨rfl, rfl⟩

theorem parallel_recordOnce (h : r.Matches r') (p : Position) {problem : Problem}
    (other : ∀ device pin, problem ≠ .floatingInput device pin) :
    Parallel r r' Equal (recordOnce p problem) (recordOnce p problem) := by
  refine (parallel_get h).bind ?_
  rintro s s' _ _ on ⟨rfl, rfl⟩
  rw [on.same.diagnostics.getLast?_any other]
  split
  · exact parallel_pure on.same rfl
  · exact parallel_record on.same _ _

theorem parallel_expectName (h : r.Matches r') (held : Held t r) (held' : Held t r') :
    Parallel r r' Named (expectName t) (expectName t) := by
  rw [expectName]
  cases token : t.value with
  | name text =>
    exact .ok h.abreast ⟨rfl, sameName_symbol (held text token) (held' text token)⟩
  | _ => exact parallel_fail _ _

theorem parallel_expect (h : r.Matches r') (token : Token) (cause : Cause) (t : Located Token) :
    Parallel r r' Equal (expect token cause t) (expect token cause t) := by
  rw [expect]
  split
  · exact parallel_pure h rfl
  · exact parallel_fail _ _

theorem parallel_stray {V : Reader → Reader → Option α → Option α' → Prop} (h : r.Matches r')
    (none : ∀ s s', V s s' none none) (next : Keyword) (p : Position) (cause : Cause) :
    Parallel r r' V (stray next p cause) (stray next p cause) := by
  refine (parallel_get h).bind ?_
  rintro s s' _ _ on ⟨rfl, rfl⟩
  rw [on.same.absent]
  split
  · exact parallel_pure on.same (none _ _)
  · exact parallel_fail _ _

theorem parallel_skipUntil (h : r.Matches r') (stop : Token → Bool) :
    Parallel r r' Shared (skipUntil stop) (skipUntil stop) := by
  -- The first reading shortens what is left; the second one has the same tokens left.
  induction count : r.tokens.length using Nat.strong_induction_on generalizing r r' with
  | _ count ih =>
    change Meet r r' Shared (skipUntil stop r) (skipUntil stop r')
    rw [skipUntil_eq, skipUntil_eq]
    refine (parallel_read h).bind_of_eq ?_
    rintro s s' t _ eq on ⟨rfl, held, held'⟩
    split
    · exact parallel_pure on.same ⟨rfl, held, held'⟩
    · next proper =>
      split
      · exact parallel_pure on.same ⟨rfl, held, held'⟩
      · exact ih _ (count ▸ length_read_lt eq proper) on.same rfl

theorem parallel_entries {entry : Located Token → Reading (Option (Located Token))}
    (progress : ∀ t, YieldsSome (entry t))
    (side : ∀ {r r' t}, r.Matches r' → Held t r → Held t r' →
      Parallel r r' SharedSome (entry t) (entry t))
    (h : r.Matches r') (held : Held t r) (held' : Held t r') :
    Parallel r r' SharedSome (entries entry progress t) (entries entry progress t) := by
  induction count : weight t r using Nat.strong_induction_on generalizing r r' t with
  | _ count ih =>
    change Meet r r' SharedSome (entries entry progress t r) (entries entry progress t r')
    rw [entries_eq, entries_eq]
    split
    · exact parallel_pure h (.some ⟨rfl, held, held'⟩)
    · next goes =>
      refine (side h held held').bind_of_eq ?_
      rintro s s' a a' eq on value
      cases value with
      | none => exact parallel_pure on.same .none
      | some shared =>
        obtain ⟨rfl, known, known'⟩ := shared
        have proper : t.value ≠ .ending := fun ends => goes (by simp [ends, Token.endsSection])
        have whole : weight t r = r.tokens.length + 1 := by simp only [weight, proper, if_false]
        have step := progress t eq
        exact ih _ (by omega) on.same known known' rfl

theorem parallel_resume (h : r.Matches r') (next : Keyword) :
    Parallel r r' Shared (resume next) (resume next) := by
  refine (parallel_get h).bind ?_
  rintro s s' _ _ on ⟨rfl, rfl⟩
  rw [on.same.last]
  exact (parallel_recordOnce on.same _ (by simp)).bind fun on _ => parallel_skipUntil on.same _

theorem parallel_part {entry : Located Token → Reading (Option (Located Token))}
    (progress : ∀ t, YieldsSome (entry t))
    (side : ∀ {r r' t}, r.Matches r' → Held t r → Held t r' →
      Parallel r r' SharedSome (entry t) (entry t))
    (next : Keyword) (h : r.Matches r') :
    Parallel r r' Shared (part entry progress next) (part entry progress next) := by
  refine (parallel_read h).bind ?_
  rintro s s' t _ on ⟨rfl, held, held'⟩
  refine (parallel_entries progress side on.same held held').bind ?_
  rintro u u' a a' on value
  cases value with
  | none => exact parallel_resume on.same next
  | some shared => exact parallel_pure on.same shared

end Reader

end LogicCircuit.Description
