import LogicCircuit.Proofs.Description.Steps
import LogicCircuit.Proofs.Symbol

/-!
What a reading keeps of the state that it starts from. As problems are never taken back, all parts
of a reading that ends without one do without, and take none of the ways out.
-/

namespace LogicCircuit.Description.Reader

variable {α : Type} {m : Reading α} {r s r' : Reader} {a : α} {t : Located Token}

/-- The token was read before, so that a name in it is interned. -/
def Held (t : Located Token) (r : Reader) : Prop :=
  ∀ text, t.value = .name text → text ∈ r.circuit.symbols.texts

/-- What a reading keeps of the state that it starts from. -/
structure Continues (r r' : Reader) : Prop where
  source : r'.source = r.source
  absent : r'.absent = r.absent
  limit : r'.circuit.limit = r.circuit.limit
  cycles : r'.circuit.cycles = r.circuit.cycles
  diagnostics : r.diagnostics <+: r'.diagnostics
  symbols : r.circuit.symbols.texts <+: r'.circuit.symbols.texts
  tokens : ∃ taken, r.tokens = taken ++ r'.tokens ∧ ∀ t ∈ taken, Held t r'

theorem Continues.refl (r : Reader) : Continues r r :=
  ⟨rfl, rfl, rfl, rfl, List.prefix_rfl, List.prefix_rfl, [], rfl, by simp⟩

theorem Held.mono (h : Held t r) (continues : Continues r r') : Held t r' :=
  fun text eq => continues.symbols.subset (h text eq)

theorem Continues.trans (h : Continues r s) (h' : Continues s r') : Continues r r' := by
  refine ⟨h'.source.trans h.source, h'.absent.trans h.absent, h'.limit.trans h.limit,
    h'.cycles.trans h.cycles, h.diagnostics.trans h'.diagnostics, h.symbols.trans h'.symbols, ?_⟩
  obtain ⟨first, eq, held⟩ := h.tokens
  obtain ⟨second, eq', held'⟩ := h'.tokens
  refine ⟨first ++ second, by rw [eq, eq', List.append_assoc], fun t ht => ?_⟩
  rcases List.mem_append.mp ht with ht | ht
  · exact (held t ht).mono h'
  · exact held' t ht

/-- No token is taken. -/
theorem Continues.of_tokens_eq (source : r'.source = r.source) (absent : r'.absent = r.absent)
    (limit : r'.circuit.limit = r.circuit.limit) (cycles : r'.circuit.cycles = r.circuit.cycles)
    (diagnostics : r.diagnostics <+: r'.diagnostics)
    (symbols : r.circuit.symbols.texts <+: r'.circuit.symbols.texts)
    (tokens : r'.tokens = r.tokens) : Continues r r' :=
  ⟨source, absent, limit, cycles, diagnostics, symbols, [], tokens.symm, by simp⟩

theorem held_meeting (r : Reader) (t : Located Token) : Held t (r.meeting t.value) := by
  intro text name
  simp only [name, meeting]
  exact SymbolTable.mem_add.mpr (Or.inl rfl)

theorem continues_meeting (r : Reader) (token : Token) : Continues r (r.meeting token) := by
  cases token with
  | name text =>
    exact .of_tokens_eq rfl rfl rfl rfl List.prefix_rfl (SymbolTable.prefix_add _ _) rfl
  | _ => exact Continues.refl r

theorem continues_record (p : Option Position) (problem : Problem) :
    Continues r (record p problem r).state :=
  .of_tokens_eq rfl rfl rfl rfl (List.prefix_append _ _) List.prefix_rfl rfl

theorem continues_read : Continues r (read r).state := by
  rw [read]
  cases tokens : r.tokens with
  | cons t rest =>
    have met := continues_meeting r t.value
    refine ⟨met.source, met.absent, met.limit, met.cycles, met.diagnostics, met.symbols, [t],
      tokens, fun u hu => ?_⟩
    rw [List.mem_singleton.mp hu]
    exact held_meeting r t
  | nil =>
    cases r.ending with
    | ok p =>
      exact .of_tokens_eq rfl rfl rfl rfl List.prefix_rfl List.prefix_rfl tokens.symm
    | error fault =>
      exact .of_tokens_eq rfl rfl rfl rfl List.prefix_rfl List.prefix_rfl tokens.symm

theorem continues_of_step (h : Step r s) : Continues r s := by
  cases h with
  | read => exact continues_read
  | record p problem => exact continues_record p problem
  | declare p name kind first second =>
    rw [declare]
    split <;> exact .of_tokens_eq rfl rfl rfl rfl List.prefix_rfl List.prefix_rfl rfl
  | attach output p device pin =>
    unfold attach
    split
    · exact Continues.refl r
    · split
      · exact .of_tokens_eq rfl rfl rfl rfl List.prefix_rfl List.prefix_rfl rfl
      · exact continues_record _ _
  | watch output p device =>
    unfold watch
    split
    · exact Continues.refl r
    · split
      · exact .of_tokens_eq rfl rfl rfl rfl List.prefix_rfl List.prefix_rfl rfl
      · exact continues_record _ _
  | ground =>
    change Continues r (if (r.circuit.netlist.floatingOf fun kind => kind = .flipFlop).isEmpty
      then r else _)
    split
    · exact Continues.refl r
    · exact .of_tokens_eq rfl rfl rfl rfl List.prefix_rfl (SymbolTable.prefix_add _ _) rfl
  | recordFloating =>
    exact .of_tokens_eq rfl rfl rfl rfl (List.prefix_append _ _) List.prefix_rfl rfl

theorem continues_of_steps (steps : Relation.ReflTransGen Step r s) : Continues r s := by
  induction steps with
  | refl => exact Continues.refl r
  | tail _ step ih => exact ih.trans (continues_of_step step)

theorem Moves.steps (h : Moves Step m) (eq : m r = .ok a r') : Relation.ReflTransGen Step r r' := by
  have steps := h r
  rwa [eq] at steps

theorem Moves.continues (h : Moves Step m) (eq : m r = .ok a r') : Continues r r' :=
  continues_of_steps (h.steps eq)

/-- Every problem that was written down was counted, and nothing else. -/
def Counted (r : Reader) : Prop :=
  r.errorCount = r.diagnostics.length

theorem Counted.errorCount_eq_zero_iff (counted : r.Counted) :
    r.errorCount = 0 ↔ r.diagnostics = [] := by
  rw [counted, List.length_eq_zero_iff]

theorem Counted.record (counted : r.Counted) (p : Option Position) (problem : Problem) :
    (record p problem r).state.Counted := by
  change r.errorCount + 1 = (r.diagnostics ++ [_]).length
  rw [counted, List.length_append, List.length_singleton]

theorem counted_of_step (h : Step r s) (counted : r.Counted) : s.Counted := by
  cases h with
  | read =>
    rw [read]
    split
    · next t _ _ => cases t with
      | mk p token => cases token <;> exact counted
    · split <;> exact counted
  | record p problem => exact counted.record p problem
  | declare p name kind first second =>
    rw [declare]
    split <;> exact counted
  | attach output p device pin =>
    unfold attach
    split
    · exact counted
    · split
      · exact counted
      · exact counted.record _ _
  | watch output p device =>
    unfold watch
    split
    · exact counted
    · split
      · exact counted
      · exact counted.record _ _
  | ground =>
    change Counted (if (r.circuit.netlist.floatingOf fun kind => kind = .flipFlop).isEmpty
      then r else _)
    split <;> exact counted
  | recordFloating =>
    change r.errorCount + _ = (r.diagnostics ++ _).length
    rw [counted, List.length_append, List.length_map]

theorem Moves.counted_state (h : Moves Step m) (counted : r.Counted) : (m r).state.Counted := by
  have all (s : Reader) (steps : Relation.ReflTransGen Step r s) : s.Counted := by
    induction steps with
    | refl => exact counted
    | tail _ step ih => exact counted_of_step step ih
  exact all _ (h r)

theorem Moves.counted (h : Moves Step m) (eq : m r = .ok a r') (counted : r.Counted) :
    r'.Counted := by
  have state := h.counted_state counted
  rwa [eq] at state

/-- No problem was written down, and no keyword is absent, which would give a second chance. -/
def Clear (r : Reader) : Prop :=
  r.diagnostics = [] ∧ r.absent = []

theorem Continues.clear (h : Continues r r') (clear : r'.Clear) : r.Clear := by
  refine ⟨?_, h.absent ▸ clear.2⟩
  have := h.diagnostics
  rw [clear.1] at this
  exact List.prefix_nil.mp this

theorem Moves.clear (h : Moves Step m) (eq : m r = .ok a r') (clear : r'.Clear) : r.Clear :=
  (h.continues eq).clear clear

theorem not_clear_record {p : Option Position} {problem : Problem} {a : Unit}
    (h : record p problem r = .ok a s) : ¬ s.Clear := by
  intro clear
  rw [record, modify_run] at h
  obtain ⟨-, rfl⟩ := EStateM.Result.ok.inj h
  simp [Clear] at clear

theorem not_clear_recordOnce {p : Position} {problem : Problem} {a : Unit}
    (other : problem.isFloating = false) (h : recordOnce p problem r = .ok a s) : ¬ s.Clear := by
  intro clear
  have before := (moves_recordOnce p other).clear h clear
  have same : recordOnce p problem r = record (some p) problem r := by
    rw [recordOnce, EStateM.bind_of_ok (get_run r), before.1]
    rfl
  exact not_clear_record (same ▸ h) clear

theorem stray_of_clear (clear : r.Clear) (next : Keyword) (p : Position) (cause : Cause) :
    (stray next p cause : Reading (Option α)) r = .error (.located p cause) r := by
  rw [stray, EStateM.bind_of_ok (get_run r), clear.2]
  rfl

theorem map_ok {α β : Type} {f : α → β} {m : Reading α} {b : β} (run : (f <$> m) r = .ok b s) :
    ∃ a, m r = .ok a s ∧ b = f a := by
  rw [map_eq_pure_bind] at run
  obtain ⟨a, _, first, run⟩ := bind_ok run
  obtain ⟨eq, rfl⟩ := EStateM.pure_ok_iff.mp run
  exact ⟨a, first, eq.symm⟩

theorem map_of_ok {α β : Type} {f : α → β} {m : Reading α} {a : α} (run : m r = .ok a s) :
    (f <$> m) r = .ok (f a) s := by
  rw [map_eq_pure_bind, EStateM.bind_of_ok run]
  rfl

@[simp] theorem fail_eq_ok_iff {p : Position} {cause : Cause} :
    (fail p cause : Reading α) r = .ok a s ↔ False := by
  constructor
  · intro h
    cases h
  · exact False.elim

theorem circuitNow_ok (r : Reader) : circuitNow r = .ok r.circuit r := rfl

theorem expectName_ok_iff {name : Mention} : expectName t r = .ok name s ↔
    r = s ∧ ∃ text, t.value = .name text ∧ name = ⟨text, r.circuit.symbols.symbol text⟩ := by
  rw [expectName]
  cases token : t.value with
  | name text =>
    dsimp only
    rw [EStateM.bind_of_ok (circuitNow_ok r), EStateM.pure_ok_iff]
    simp only [Token.name.injEq, exists_eq_left', and_comm, eq_comm (a := name)]
  | _ => simp

theorem expect_ok_iff {token : Token} {cause : Cause} {a : Unit} :
    expect token cause t r = .ok a s ↔ r = s ∧ t.value = token := by
  rw [expect]
  by_cases same : t.value = token
  · rw [if_pos same, EStateM.pure_ok_iff]
    simp [same]
  · rw [if_neg same]
    simp [same]

theorem expect_ok {token : Token} {cause : Cause} (value : t.value = token) :
    expect token cause t r = .ok () r :=
  expect_ok_iff.mpr ⟨rfl, value⟩

end LogicCircuit.Description.Reader
