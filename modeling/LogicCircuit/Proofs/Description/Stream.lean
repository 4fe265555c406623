import LogicCircuit.Proofs.Description.Coming
import LogicCircuit.Proofs.Description.Drawing

/-!
The tokens to come, and a circuit that stands as far as the tokens so far describe it.
-/

namespace LogicCircuit.Description

namespace Reader

variable {α β : Type} {r s r' : Reader} {t u : Located Token} {table : SymbolTable}
  {es : List Declaration} {ws : List (Signal × Signal)} {ss : List Signal} {a : Token}
  {rest : List Token} {text : String}

/-- The tokens to come, with the end after them. -/
def stream (r : Reader) : List Token :=
  r.tokens.map Located.value ++ [.ending]

/-- The tokens to come, the one in hand included. -/
def ahead (t : Located Token) (r : Reader) : List Token :=
  if t.value = .ending then [.ending] else t.value :: r.stream

/-- The circuit is drawn as far as the lists tell, in symbols of the table that holds the names to
come as well. -/
structure Stands (table : SymbolTable) (es : List Declaration) (ws : List (Signal × Signal))
    (ss : List Signal) (r : Reader) : Prop where
  clear : r.Clear
  scope : r.circuit.symbols.addAll (r.tokens.filterMap fun t => t.value.name?) = table
  proper : ∀ t ∈ r.tokens, t.value ≠ .ending
  drawn : Drawn table es ws r.circuit.netlist
  monitors : r.circuit.monitors = monitorsOf table ss

theorem ahead_of_ne (h : t.value ≠ .ending) : ahead t r = t.value :: r.stream :=
  if_neg h

theorem Stands.symbol (h : Stands table es ws ss r) (known : text ∈ r.circuit.symbols.texts) :
    r.circuit.symbols.symbol text = table.symbol text ∧ text ∈ table.texts := by
  rw [← h.scope, SymbolTable.symbol_addAll known]
  exact ⟨rfl, SymbolTable.mem_addAll.mpr (Or.inr known)⟩

theorem Stands.after_read (h : Stands table es ws ss r) (run : read r = .ok t s) :
    Stands table es ws ss s ∧ Held t s ∧ ahead t s = r.stream := by
  have clear := h.clear
  rw [read] at run
  cases tokens : r.tokens with
  | cons u rest =>
    simp only [tokens, EStateM.Result.ok.injEq] at run
    obtain ⟨rfl, rfl⟩ := run
    have proper := h.proper u (by simp [tokens])
    have scope := h.scope
    rw [tokens] at scope
    refine ⟨⟨?_, ?_, ?_, ?_, ?_⟩, ?_, ?_⟩
    · cases value : u.value with
      | _ => simpa [Clear, meeting, value] using clear
    · cases value : u.value with
      | name text => simpa [value, meeting, Token.name?, SymbolTable.addAll] using scope
      | _ => simpa [value, meeting, Token.name?] using scope
    · exact fun t ht => h.proper t (by simp [tokens, ht])
    · cases value : u.value with
      | _ => simpa [meeting, value] using h.drawn
    · cases value : u.value with
      | _ => simpa [meeting, value] using h.monitors
    · exact held_meeting r u
    · rw [ahead_of_ne proper, stream, stream, tokens]
      rfl
  | nil =>
    simp only [tokens] at run
    cases ending : r.ending with
    | error fault => simp [ending] at run
    | ok p =>
      simp only [ending, EStateM.Result.ok.injEq] at run
      obtain ⟨rfl, rfl⟩ := run
      refine ⟨⟨clear, ?_, by simp, h.drawn, h.monitors⟩, ?_, ?_⟩
      · have scope := h.scope
        rwa [tokens] at scope
      · intro text name
        cases name
      · rw [stream, tokens]
        rfl

theorem ahead_of_value (value : t.value = a) (proper : a ≠ .ending) :
    ahead t r = a :: r.stream := by
  rw [ahead_of_ne (value ▸ proper), value]

theorem ahead_eq_cons (eq : ahead t r = a :: rest) (proper : a ≠ .ending) :
    t.value = a ∧ r.stream = rest := by
  by_cases ends : t.value = .ending
  · rw [ahead, if_pos ends] at eq
    exact absurd (List.cons.inj eq).1.symm proper
  · rw [ahead_of_ne ends] at eq
    exact List.cons.inj eq

/-- Entries that begin with names, and a token after them, begin with a token. -/
theorem exists_flatMap_eq_cons {f : α → List Token} (l : List α) (rest : List Token)
    (names : ∀ x, ∃ text more, f x = .name text :: more) (proper : a ≠ .ending) :
    ∃ b more, l.flatMap f ++ a :: rest = b :: more ∧ b ≠ .ending := by
  cases l with
  | nil => exact ⟨a, rest, rfl, proper⟩
  | cons x l =>
    obtain ⟨text, more, eq⟩ := names x
    refine ⟨.name text, more ++ l.flatMap f ++ a :: rest, ?_, by simp⟩
    rw [List.flatMap_cons, eq]
    rfl

theorem Stands.take (h : Stands table es ws ss r) {f : Located Token → Reading β} {b : β}
    (run : (read >>= f) r = .ok b r') :
    ∃ t s, Stands table es ws ss s ∧ Held t s ∧ ahead t s = r.stream ∧ f t s = .ok b r' := by
  obtain ⟨t, s, took, run⟩ := bind_ok run
  obtain ⟨stands, held, eq⟩ := h.after_read took
  exact ⟨t, s, stands, held, eq, run⟩

/-- A token other than the end that is to come can be taken. -/
theorem Stands.exists_take (h : Stands table es ws ss r) (eq : r.stream = a :: rest)
    (proper : a ≠ .ending) : ∃ t s, read r = .ok t s ∧ t.value = a ∧ s.stream = rest ∧
      Stands table es ws ss s ∧ Held t s := by
  cases tokens : r.tokens with
  | nil =>
    rw [stream, tokens] at eq
    simp only [List.map_nil, List.nil_append, List.cons.injEq] at eq
    exact absurd eq.1.symm proper
  | cons u others =>
    have run : ∃ s, read r = .ok u s := by
      rw [read]
      rw [tokens]
      exact ⟨_, rfl⟩
    obtain ⟨s, run⟩ := run
    obtain ⟨stands, held, same⟩ := h.after_read run
    have first : u.value = a := by
      rw [stream, tokens] at eq
      exact (List.cons.inj eq).1
    rw [ahead_of_value first proper, eq] at same
    exact ⟨u, s, run, first, (List.cons.inj same).2, stands, held⟩

/-- A circuit still stands when tokens were passed. -/
theorem Stands.after_passed (h : Stands table es ws ss r) {ts others : List (Located Token)}
    (ahead : r.coming = ts ++ others) (proper : ∀ t ∈ ts, t.value ≠ .ending) :
    Stands table es ws ss (r.passed ts r.circuit.netlist []) ∧
      r.stream = ts.map Located.value ++ (r.passed ts r.circuit.netlist []).stream := by
  induction ts generalizing r with
  | nil =>
    rw [passed_nil]
    exact ⟨h, rfl⟩
  | cons t ts ih =>
    obtain ⟨here, proper⟩ := List.forall_mem_cons.mp proper
    obtain ⟨stands, -, eq⟩ := h.after_read (read_of_coming ahead)
    have later := ih stands (coming_passed_one ahead here _ _) proper
    rw [netlist_passed, passed_passed] at later
    refine ⟨later.1, ?_⟩
    rw [← eq, ahead_of_ne here, later.2]
    rfl

/-- Tokens of the stream, without the end, are tokens to come. -/
theorem exists_coming {as : List Token} (eq : r.stream = as ++ rest) (proper : .ending ∉ as) :
    ∃ ts others, r.coming = ts ++ others ∧ ts.map Located.value = as := by
  have within : ∃ more, r.tokens.map Located.value = as ++ more := by
    obtain ⟨last, eq', ends⟩ | ⟨more, eq', -⟩ := List.append_eq_append_iff.mp eq
    · cases last with
      | nil => exact ⟨[], by rw [eq', List.append_nil, List.append_nil]⟩
      | cons a last =>
        obtain ⟨rfl, -⟩ := List.cons.inj ends
        exact absurd (eq' ▸ List.mem_append_right _ List.mem_cons_self) proper
    · exact ⟨more, eq'⟩
  obtain ⟨more, split⟩ := within
  obtain ⟨ts, others, tokens, values, -⟩ := List.map_eq_append_iff.mp split
  exact ⟨ts, _, by rw [coming, tokens, List.append_assoc], values⟩

theorem Stands.after_expectName (h : Stands table es ws ss r) (held : Held t r) {name : Mention}
    (run : expectName t r = .ok name s) : r = s ∧ ∃ text, t.value = .name text ∧
      name = ⟨text, table.symbol text⟩ ∧ text ∈ table.texts := by
  obtain ⟨same, text, value, eq⟩ := expectName_ok_iff.mp run
  obtain ⟨symbol, known⟩ := h.symbol (held text value)
  exact ⟨same, text, value, symbol ▸ eq, known⟩

theorem Stands.expectName_ok (h : Stands table es ws ss r) (held : Held t r)
    (value : t.value = .name text) : expectName t r = .ok ⟨text, table.symbol text⟩ r := by
  refine expectName_ok_iff.mpr ⟨rfl, text, value, ?_⟩
  rw [(h.symbol (held text value)).1]

end Reader

end LogicCircuit.Description
