import LogicCircuit.Proofs.Description.Passing

/-!
The tokens to come with their places, and the state of a reading that has passed some of them, with
problems written down and the wiring changed on the way.
-/

namespace LogicCircuit.Description

def Token.name? : Token → Option String
  | .name text => some text
  | _ => none

/-- The names among tokens, in their order. -/
def names (ts : List (Located Token)) : List String :=
  ts.filterMap fun t => t.value.name?

@[simp] theorem names_nil : names [] = [] := rfl

@[simp] theorem names_append (ts us : List (Located Token)) :
    names (ts ++ us) = names ts ++ names us := List.filterMap_append

theorem mem_names {ts : List (Located Token)} {t : Located Token} {text : String} (ht : t ∈ ts)
    (value : t.value = .name text) : text ∈ names ts :=
  List.mem_filterMap.mpr ⟨t, ht, by rw [value]; rfl⟩

theorem Token.endsSection_eq_false_iff {a : Token} :
    a.endsSection = false ↔ a ≠ .ending ∧ a.isKeyword = false := by
  simp only [endsSection, Bool.or_eq_false_iff, decide_eq_false_iff_not]
  tauto

/-- The token is the first one of its kind among the tokens. -/
structure FirstOf (stop : Token → Bool) (ts skipped : List (Located Token)) (v : Located Token)
    (rest : List (Located Token)) : Prop where
  split : ts = skipped ++ v :: rest
  inner : ∀ w ∈ skipped, stop w.value = false
  last : stop v.value = true

/-- A token of another kind does not count. -/
theorem FirstOf.of_cons {stop : Token → Bool} {ts skipped rest : List (Located Token)}
    {u v : Located Token} (h : FirstOf stop (u :: ts) skipped v rest)
    (goes : stop u.value = false) : ∃ skipped, FirstOf stop ts skipped v rest := by
  cases skipped with
  | nil =>
    obtain ⟨rfl, -⟩ := List.cons.inj h.split
    exact absurd h.last (by simp [goes])
  | cons w skipped =>
    obtain ⟨-, split⟩ := List.cons.inj h.split
    exact ⟨skipped, split, fun w hw => h.inner w (List.mem_cons_of_mem _ hw), h.last⟩

namespace Reader

variable {r : Reader} {t u : Located Token} {ts us skipped rest : List (Located Token)}
  {n m : Netlist} {ps qs : List (Located Problem)} {stop : Token → Bool} {p : Position}
  {problem : Problem} {text : String}

/-- The tokens to come, and behind them the end, if no lexical fault comes before it. -/
def coming (r : Reader) : List (Located Token) :=
  r.tokens ++
    match r.ending with
    | .ok p => [⟨p, .ending⟩]
    | .error _ => []

/-- The reading behind tokens that were to come, with another wiring and more problems. -/
def passed (r : Reader) (ts : List (Located Token)) (n : Netlist) (ps : List (Located Problem)) :
    Reader :=
  { r with
    tokens := r.tokens.drop ts.length
    reads := r.reads + ts.length
    last := (ts.getLast?.map Located.position).getD r.last
    circuit := { r.circuit with
      symbols := r.circuit.symbols.addAll (names ts)
      netlist := n }
    diagnostics := r.diagnostics ++ ps.map fun q => .ofProblem r.source (some q.position) q.value
    errorCount := r.errorCount + ps.length }

@[simp] theorem netlist_passed (r : Reader) (ts : List (Located Token)) (n : Netlist)
    (ps : List (Located Problem)) : (r.passed ts n ps).circuit.netlist = n := rfl

@[simp] theorem symbols_passed (r : Reader) (ts : List (Located Token)) (n : Netlist)
    (ps : List (Located Problem)) :
    (r.passed ts n ps).circuit.symbols = r.circuit.symbols.addAll (names ts) := rfl

theorem passed_nil (r : Reader) : r.passed [] r.circuit.netlist [] = r := by
  simp [passed, SymbolTable.addAll]

theorem passed_passed (r : Reader) (ts us : List (Located Token)) (n m : Netlist)
    (ps qs : List (Located Problem)) :
    (r.passed ts n ps).passed us m qs = r.passed (ts ++ us) m (ps ++ qs) := by
  simp only [passed, names_append, SymbolTable.addAll_append, List.drop_drop, List.length_append,
    List.map_append, List.append_assoc, Nat.add_assoc, List.getLast?_append]
  cases us.getLast? <;> simp

theorem prefix_passed (r : Reader) (ts us : List (Located Token)) (n : Netlist)
    (ps : List (Located Problem)) : (r.passed ts n ps).circuit.symbols.texts <+:
      (r.circuit.symbols.addAll (names (ts ++ us))).texts := by
  rw [names_append, SymbolTable.addAll_append]
  exact SymbolTable.prefix_addAll _ _

/-- A token that was passed is held. -/
theorem held_passed (ht : t ∈ ts) (n : Netlist) (ps : List (Located Problem)) :
    Held t (r.passed ts n ps) :=
  fun _ value => SymbolTable.mem_addAll.mpr (.inl (mem_names ht value))

/-- The end is all that can follow the tokens. -/
theorem coming_cases (r : Reader) : r.coming = r.tokens ∧ (∃ fault, r.ending = .error fault) ∨
    ∃ p, r.ending = .ok p ∧ r.coming = r.tokens ++ [⟨p, .ending⟩] := by
  cases ending : r.ending with
  | error fault => exact .inl ⟨by rw [coming, ending, List.append_nil], fault, rfl⟩
  | ok p => exact .inr ⟨p, rfl, by rw [coming, ending]⟩

/-- Tokens to come are tokens that are left, but for the end. -/
theorem exists_tokens (ahead : r.coming = ts ++ rest) (proper : ∀ t ∈ ts, t.value ≠ .ending) :
    ∃ others, r.tokens = ts ++ others := by
  obtain ⟨eq, -⟩ | ⟨p, -, eq⟩ := r.coming_cases
  · exact ⟨rest, eq.symm.trans ahead⟩
  · rw [eq] at ahead
    obtain ⟨last, eq', ends⟩ | ⟨others, eq', -⟩ := List.append_eq_append_iff.mp ahead
    · -- the end is not among the tokens
      cases last with
      | nil => exact ⟨[], by rw [eq']; simp⟩
      | cons u more =>
        obtain ⟨rfl, -⟩ := List.cons.inj ends
        exact absurd rfl (proper ⟨p, .ending⟩ (eq' ▸ by simp))
    · exact ⟨others, eq'⟩

theorem coming_passed (ts : List (Located Token)) (ahead : r.coming = ts ++ rest)
    (proper : ∀ t ∈ ts, t.value ≠ .ending) (n : Netlist) (ps : List (Located Problem)) :
    (r.passed ts n ps).coming = rest := by
  obtain ⟨others, split⟩ := exists_tokens ahead proper
  have dropped : (r.passed ts n ps).tokens = others := by
    rw [passed, split, List.drop_left]
  have same : rest = others ++ match r.ending with
      | .ok p => [⟨p, .ending⟩]
      | .error _ => [] := by
    refine (List.append_right_inj ts).mp ?_
    rw [← ahead, coming, split, List.append_assoc]
  rw [coming, dropped, same]
  rfl

theorem coming_passed_one (ahead : r.coming = t :: rest) (proper : t.value ≠ .ending) (n : Netlist)
    (ps : List (Located Problem)) : (r.passed [t] n ps).coming = rest :=
  coming_passed [t] ahead (by simpa using proper) n ps

theorem read_of_coming (ahead : r.coming = t :: rest) :
    read r = .ok t (r.passed [t] r.circuit.netlist []) := by
  rw [read]
  cases tokens : r.tokens with
  | cons u others =>
    rw [coming, tokens] at ahead
    obtain ⟨rfl, -⟩ := List.cons.inj ahead
    obtain ⟨q, token⟩ := u
    cases token <;> simp [meeting, passed, tokens, names, Token.name?, SymbolTable.addAll]
  | nil =>
    rw [coming, tokens, List.nil_append] at ahead
    cases ending : r.ending with
    | error fault =>
      rw [ending] at ahead
      cases ahead
    | ok q =>
      rw [ending] at ahead
      obtain ⟨rfl, -⟩ := List.cons.inj ahead
      simp [passed, tokens, names, Token.name?, SymbolTable.addAll, ending]

theorem read_of_broken (broken : r.coming = []) : ∃ fault, r.ending = .error fault ∧
    read r = .error (.ofLexical fault) { r with reads := r.reads + 1 } := by
  obtain ⟨tokens, ends⟩ := List.append_eq_nil_iff.mp broken
  cases ending : r.ending with
  | ok p =>
    rw [ending] at ends
    cases ends
  | error fault =>
    refine ⟨fault, rfl, ?_⟩
    rw [read, tokens]
    simp only [ending]

/-- A token that is read is the next one to come. -/
theorem read_ok_iff {s : Reader} : read r = .ok t s ↔
    ∃ rest, r.coming = t :: rest ∧ s = r.passed [t] r.circuit.netlist [] := by
  constructor
  · intro took
    cases ahead : r.coming with
    | nil =>
      obtain ⟨_, -, broken⟩ := read_of_broken ahead
      rw [broken] at took
      cases took
    | cons u rest =>
      rw [read_of_coming ahead] at took
      obtain ⟨rfl, rfl⟩ := EStateM.Result.ok.inj took
      exact ⟨rest, rfl, rfl⟩
  · rintro ⟨rest, ahead, rfl⟩
    exact read_of_coming ahead

/-- The next token is taken behind those that were passed. -/
theorem take_iff {α : Type} {f : Located Token → Reading α} {a : α} {s : Reader}
    (ahead : r.coming = ts ++ us) (proper : ∀ t ∈ ts, t.value ≠ .ending) :
    (read >>= f) (r.passed ts r.circuit.netlist []) = .ok a s ↔
      ∃ t rest, us = t :: rest ∧ f t (r.passed (ts ++ [t]) r.circuit.netlist []) = .ok a s := by
  have behind := coming_passed ts ahead proper r.circuit.netlist []
  constructor
  · intro run
    obtain ⟨t, _, took, run⟩ := bind_ok run
    obtain ⟨rest, eq, rfl⟩ := read_ok_iff.mp took
    rw [netlist_passed, passed_passed] at run
    exact ⟨t, rest, behind.symm.trans eq, run⟩
  · rintro ⟨t, rest, rfl, run⟩
    rw [EStateM.bind_of_ok (read_of_coming behind), netlist_passed, passed_passed]
    exact run

theorem record_eq (r : Reader) (p : Position) (problem : Problem) :
    record (some p) problem r = .ok () (r.passed [] r.circuit.netlist [⟨p, problem⟩]) := by
  rw [record, modify_run]
  simp [passed, SymbolTable.addAll]

theorem skipUntil_of_read {s : Reader} (took : read r = .ok t s) : skipUntil stop r =
    if t.value = .ending then .ok t s else if stop t.value then .ok t s else skipUntil stop s :=
  (skipUntil_eq stop r).trans (EStateM.bind_of_ok took)

/-- Behind the end there is nothing but the end. -/
theorem coming_at_end (proper : ∀ t ∈ r.tokens, t.value ≠ .ending) (ahead : r.coming = t :: rest)
    (ends : t.value = .ending) (n : Netlist) (ps : List (Located Problem)) :
    rest = [] ∧ (r.passed [t] n ps).coming = [t] := by
  cases tokens : r.tokens with
  | cons u others =>
    rw [coming, tokens] at ahead
    obtain ⟨rfl, -⟩ := List.cons.inj ahead
    exact absurd ends (proper u (by simp [tokens]))
  | nil =>
    have same : (r.passed [t] n ps).coming = r.coming := by
      rw [coming, coming, passed, tokens]
      rfl
    rw [coming, tokens, List.nil_append] at ahead
    cases ending : r.ending with
    | error fault =>
      rw [ending] at ahead
      cases ahead
    | ok p =>
      rw [ending] at ahead
      obtain ⟨rfl, rfl⟩ := List.cons.inj ahead
      exact ⟨rfl, by rw [same, coming, tokens, ending]; rfl⟩

/-- A reading that goes on to a token passes those before it. -/
theorem skipUntil_of_coming (stop : Token → Bool) (ahead : r.coming = skipped ++ t :: rest)
    (goes : ∀ u ∈ skipped, u.value ≠ .ending ∧ stop u.value = false)
    (stops : t.value = .ending ∨ stop t.value = true) :
    skipUntil stop r = .ok t (r.passed (skipped ++ [t]) r.circuit.netlist []) := by
  induction skipped generalizing r with
  | nil =>
    rw [skipUntil_of_read (read_of_coming ahead)]
    by_cases ends : t.value = .ending
    · rw [if_pos ends]
      rfl
    · rw [if_neg ends, if_pos (stops.resolve_left ends)]
      rfl
  | cons u skipped ih =>
    obtain ⟨proper, goes'⟩ := goes u List.mem_cons_self
    have behind := coming_passed_one ahead proper r.circuit.netlist []
    rw [skipUntil_of_read (read_of_coming ahead), if_neg proper, goes', if_neg Bool.false_ne_true,
      ih behind fun w hw => goes w (List.mem_cons_of_mem _ hw), netlist_passed, passed_passed]
    rfl

section First

variable {ends : Token → Bool} (splits : ∀ {a}, ends a = false ↔ a ≠ .ending ∧ stop a = false)
  (first : FirstOf ends r.coming skipped t rest)
include splits first

/-- A reading that seeks a token of a kind or the end goes on at the first of them. -/
theorem skipUntil_of_first :
    skipUntil stop r = .ok t (r.passed (skipped ++ [t]) r.circuit.netlist []) := by
  refine skipUntil_of_coming stop first.split (fun u hu => splits.mp (first.inner u hu)) ?_
  by_contra neither
  rw [not_or, Bool.not_eq_true] at neither
  exact absurd (splits.mpr neither) (by simp [first.last])

theorem coming_passed_first (proper : t.value ≠ .ending) (n : Netlist)
    (ps : List (Located Problem)) : (r.passed (skipped ++ [t]) n ps).coming = rest :=
  coming_passed _ (by simpa using first.split)
    (List.forall_mem_append.mpr ⟨fun u hu => (splits.mp (first.inner u hu)).1,
      List.forall_mem_singleton.mpr proper⟩) n ps

end First

/-- A reading that meets no such token breaks off where the text does. -/
theorem skipUntil_of_broken (stop : Token → Bool)
    (goes : ∀ u ∈ r.coming, u.value ≠ .ending ∧ stop u.value = false) :
    ∃ fault s, r.ending = .error fault ∧ skipUntil stop r = .error (.ofLexical fault) s ∧
      s.circuit.netlist = r.circuit.netlist := by
  generalize all : r.coming = ts at goes
  induction ts generalizing r with
  | nil =>
    obtain ⟨fault, ending, run⟩ := read_of_broken all
    refine ⟨fault, { r with reads := r.reads + 1 }, ending, ?_, rfl⟩
    rw [skipUntil_eq]
    simp only [Bind.bind, EStateM.bind, run]
  | cons u others ih =>
    obtain ⟨proper, goes'⟩ := goes u List.mem_cons_self
    have behind := coming_passed_one all proper r.circuit.netlist []
    obtain ⟨fault, s, ending, run, same⟩ :=
      ih behind fun w hw => goes w (List.mem_cons_of_mem _ hw)
    refine ⟨fault, s, ending, ?_, same⟩
    rw [skipUntil_of_read (read_of_coming all), if_neg proper, goes', if_neg Bool.false_ne_true,
      run]

end Reader

end LogicCircuit.Description
