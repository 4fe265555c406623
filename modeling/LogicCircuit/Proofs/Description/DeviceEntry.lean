import LogicCircuit.Proofs.Description.Stream

/-!
The entries of the section of devices: those that go through are the declarations, and each adds
the declared device.
-/

namespace LogicCircuit.Description.Reader

open Declaration (accepts Suits)

variable {r s : Reader} {t : Located Token} {table : SymbolTable} {es : List Declaration}
  {ws : List (Signal × Signal)} {ss : List Signal} {rest : List Token} {kind : Kind}
  {p : Position} {n : Nat} {e : Declaration}

theorem expectKind_ok (run : expectKind t r = .ok kind s) : r = s ∧ ∃ text,
    t.value = .name text ∧
      r.circuit.netlist.vocabulary.kind? (r.circuit.symbols.symbol text) = some kind := by
  obtain ⟨name, _, named, run⟩ := bind_ok run
  obtain ⟨rfl, text, value, rfl⟩ := expectName_ok_iff.mp named
  rw [EStateM.bind_of_ok (circuitNow_ok r)] at run
  cases found : r.circuit.netlist.vocabulary.kind? (r.circuit.symbols.symbol text) with
  | some k =>
    simp only [found] at run
    obtain ⟨rfl, same⟩ := EStateM.pure_ok_iff.mp run
    exact ⟨same, text, value, found⟩
  | none => simp [found] at run

theorem Stands.after_expectKind (h : Stands table es ws ss r) (held : Held t r)
    (run : expectKind t r = .ok kind s) : r = s ∧ t.value = .name kind.text := by
  obtain ⟨same, text, value, found⟩ := expectKind_ok run
  rw [h.drawn.vocabulary, (h.symbol (held text value)).1] at found
  exact ⟨same, (Vocabulary.kind?_symbol_iff h.drawn.words).mp found ▸ value⟩

theorem Stands.expectKind_ok (h : Stands table es ws ss r) (held : Held t r)
    (value : t.value = .name kind.text) : expectKind t r = .ok kind r := by
  have found := (Vocabulary.kind?_symbol_iff (t := table) h.drawn.words).mpr (Eq.refl kind.text)
  rw [expectKind, EStateM.bind_of_ok (h.expectName_ok held value),
    EStateM.bind_of_ok (circuitNow_ok r), h.drawn.vocabulary]
  simp only [found]
  rfl

theorem isInRange_iff : isInRange kind n = true ↔ accepts kind n := by
  cases kind with
  | gate g =>
    simp only [isInRange, Bool.and_eq_true, decide_eq_true_eq]
    exact Iff.rfl
  | clock => simp [isInRange, accepts, Nat.one_le_iff_ne_zero]
  | generator => simp [isInRange, accepts, Nat.one_le_iff_ne_zero]
  | switch => simp [isInRange, accepts, Nat.le_one_iff_eq_zero_or_eq_one]
  | flipFlop => simp [isInRange, accepts]

theorem expectNumber_ok_iff : expectNumber kind t r = .ok n s ↔
    r = s ∧ t.value = .number n ∧ kind.parameterCount ≠ 0 ∧ accepts kind n := by
  rw [← isInRange_iff]
  rw [expectNumber]
  cases value : t.value with
  | number k =>
    by_cases unwanted : kind.parameterCount = 0
    · simp [unwanted]
    · by_cases fits : isInRange kind k = true
      · simp only [unwanted, fits, if_false, if_true, EStateM.pure_ok_iff, Token.number.injEq]
        constructor
        · intro h
          obtain ⟨rfl, rfl⟩ := h
          exact ⟨rfl, rfl, unwanted, fits⟩
        · intro h
          exact ⟨h.2.1, h.1⟩
      · have apart : ¬ (k = n ∧ isInRange kind n = true) := by
          intro both
          exact fits (both.1 ▸ both.2)
        simp only [unwanted, if_false, Token.number.injEq]
        rw [if_neg fits, fail_eq_ok_iff, false_iff]
        intro h
        exact apart ⟨h.2.1, h.2.2.2⟩
  | _ => simp

/-- The tokens of the numbers in a declaration. -/
abbrev numberTokens (l : List Nat) : List Token :=
  l.flatMap fun n => [.comma, .number n]

theorem parameterCount_of_ne (other : kind ≠ .generator) (some : kind.parameterCount ≠ 0) :
    kind.parameterCount = 1 := by
  cases kind with
  | gate g => cases g <;> simp_all [Kind.parameterCount]
  | _ => simp_all [Kind.parameterCount]

theorem ne_ending_of_numbers {l : List Nat} {ts : List (Located Token)}
    (values : ts.map Located.value = numberTokens l ++ [.semicolon]) :
    ∀ t ∈ ts, t.value ≠ .ending := by
  intro t member ends
  have among : Token.ending ∈ numberTokens l ++ [.semicolon] :=
    values ▸ List.mem_map.mpr ⟨t, member, ends⟩
  simp at among

/-- The numbers that the reading lets through suit the kind, and a semicolon is behind them. -/
theorem numbers_ok {a : Option Nat × Option Nat} (run : numbers p kind r = .ok a s) :
    ∃ l ts rest, a = (l[0]?, l[1]?) ∧ Suits kind l ∧ r.coming = ts ++ rest ∧
      ts.map Located.value = numberTokens l ++ [.semicolon] ∧
      s = r.passed ts r.circuit.netlist [] := by
  rw [numbers, ← passed_nil r] at run
  obtain ⟨t, rest, ahead₁, run⟩ := (take_iff (List.nil_append _).symm nofun).mp run
  cases value₁ : t.value with
  | comma =>
    simp only [value₁] at run
    obtain ⟨u, rest, rfl, run⟩ := (take_iff ahead₁ (by simp [value₁])).mp run
    obtain ⟨first, _, number, run⟩ := bind_ok run
    obtain ⟨rfl, value₂, wanted, fits⟩ := expectNumber_ok_iff.mp number
    have ahead₂ : r.coming = [t, u] ++ rest := ahead₁
    obtain ⟨v, rest, rfl, run⟩ := (take_iff ahead₂ (by simp [value₁, value₂])).mp run
    have ahead₃ : r.coming = [t, u, v] ++ rest := ahead₁
    by_cases generator : kind = .generator
    · rw [if_pos generator] at run
      obtain ⟨_, _, comma, run⟩ := bind_ok run
      obtain ⟨rfl, value₃⟩ := expect_ok_iff.mp comma
      obtain ⟨w, rest, rfl, run⟩ := (take_iff ahead₃ (by simp [value₁, value₂, value₃])).mp run
      obtain ⟨second, _, number, run⟩ := bind_ok run
      obtain ⟨rfl, value₄, -, fits'⟩ := expectNumber_ok_iff.mp number
      have ahead₄ : r.coming = [t, u, v, w] ++ rest := ahead₁
      obtain ⟨x, rest, rfl, run⟩ :=
        (take_iff ahead₄ (by simp [value₁, value₂, value₃, value₄])).mp run
      obtain ⟨_, _, semicolon, run⟩ := bind_ok run
      obtain ⟨rfl, value₅⟩ := expect_ok_iff.mp semicolon
      obtain ⟨rfl, rfl⟩ := EStateM.pure_ok_iff.mp run
      exact ⟨[first, second], [t, u, v, w, x], rest, rfl,
        ⟨by rw [generator]; rfl, by simp [fits, fits']⟩, ahead₁,
        by simp [value₁, value₂, value₃, value₄, value₅], rfl⟩
    · rw [if_neg generator] at run
      obtain ⟨_, _, semicolon, run⟩ := bind_ok run
      obtain ⟨rfl, value₃⟩ := expect_ok_iff.mp semicolon
      obtain ⟨rfl, rfl⟩ := EStateM.pure_ok_iff.mp run
      exact ⟨[first], [t, u, v], rest, rfl,
        ⟨(parameterCount_of_ne generator wanted).symm, by simp [fits]⟩, ahead₁,
        by simp [value₁, value₂, value₃], rfl⟩
  | semicolon =>
    simp only [value₁] at run
    by_cases none : kind.parameterCount = 0
    · rw [if_pos none] at run
      obtain ⟨rfl, rfl⟩ := EStateM.pure_ok_iff.mp run
      exact ⟨[], [t], rest, rfl, ⟨none.symm, nofun⟩, ahead₁, by simp [value₁], rfl⟩
    · rw [if_neg none] at run
      cases run
  | _ => simp [value₁] at run

/-- Numbers that suit the kind are let through. -/
theorem numbers_of_suits {l : List Nat} {ts others : List (Located Token)} (suits : Suits kind l)
    (ahead : r.coming = ts ++ others)
    (values : ts.map Located.value = numberTokens l ++ [.semicolon]) :
    numbers p kind r = .ok (l[0]?, l[1]?) (r.passed ts r.circuit.netlist []) := by
  obtain ⟨count, range⟩ := suits
  rw [numbers]
  cases l with
  | nil =>
    obtain ⟨t, rfl, value⟩ := List.map_eq_singleton_iff.mp values
    rw [EStateM.bind_of_ok (read_of_coming ahead)]
    simp only [value, ← count, List.length_nil, if_true]
    rfl
  | cons a l =>
    have wanted : kind.parameterCount ≠ 0 := by simp [← count]
    obtain ⟨t, ts, rfl, value₁, values⟩ := List.map_eq_cons_iff.mp values
    obtain ⟨u, ts, rfl, value₂, values⟩ := List.map_eq_cons_iff.mp values
    have first (s : Reader) : expectNumber kind u s = .ok a s :=
      expectNumber_ok_iff.mpr ⟨rfl, value₂, wanted, range a List.mem_cons_self⟩
    rw [EStateM.bind_of_ok (read_of_coming ahead)]
    simp only [value₁]
    have ahead₁ : r.coming = [t] ++ (u :: ts ++ others) := ahead
    refine (take_iff ahead₁ (by simp [value₁])).mpr ⟨u, _, rfl, ?_⟩
    rw [EStateM.bind_of_ok (first _)]
    by_cases generator : kind = .generator
    · have two : l.length = 1 := by
        rw [generator, List.length_cons] at count
        exact Nat.succ.inj count
      obtain ⟨b, rfl⟩ := List.length_eq_one_iff.mp two
      obtain ⟨v, ts, rfl, value₃, values⟩ := List.map_eq_cons_iff.mp values
      obtain ⟨w, ts, rfl, value₄, values⟩ := List.map_eq_cons_iff.mp values
      obtain ⟨x, rfl, value₅⟩ := List.map_eq_singleton_iff.mp values
      have second (s : Reader) : expectNumber kind w s = .ok b s :=
        expectNumber_ok_iff.mpr ⟨rfl, value₄, wanted, range b (by simp)⟩
      have ahead₂ : r.coming = [t, u] ++ (v :: w :: x :: others) := ahead
      have ahead₃ : r.coming = [t, u, v] ++ (w :: x :: others) := ahead
      have ahead₄ : r.coming = [t, u, v, w] ++ (x :: others) := ahead
      refine (take_iff ahead₂ (by simp [value₁, value₂])).mpr ⟨v, _, rfl, ?_⟩
      rw [if_pos generator, EStateM.bind_of_ok (expect_ok value₃)]
      refine (take_iff ahead₃ (by simp [value₁, value₂, value₃])).mpr ⟨w, _, rfl, ?_⟩
      rw [EStateM.bind_of_ok (second _)]
      refine (take_iff ahead₄ (by simp [value₁, value₂, value₃, value₄])).mpr ⟨x, _, rfl, ?_⟩
      rw [EStateM.bind_of_ok (expect_ok value₅)]
      rfl
    · have one : l = [] := by
        rw [parameterCount_of_ne generator wanted, List.length_cons] at count
        exact List.length_eq_zero_iff.mp (Nat.succ.inj count)
      subst one
      obtain ⟨v, rfl, value₃⟩ := List.map_eq_singleton_iff.mp values
      have ahead₂ : r.coming = [t, u] ++ (v :: others) := ahead
      refine (take_iff ahead₂ (by simp [value₁, value₂])).mpr ⟨v, _, rfl, ?_⟩
      rw [if_neg generator, EStateM.bind_of_ok (expect_ok value₃)]
      rfl

theorem Stands.after_numbers (h : Stands table es ws ss r) {a : Option Nat × Option Nat}
    (run : numbers p kind r = .ok a s) : Stands table es ws ss s ∧ ∃ l : List Nat,
      a = (l[0]?, l[1]?) ∧ l.length = kind.parameterCount ∧ (∀ n ∈ l, accepts kind n) ∧
        r.stream = numberTokens l ++ .semicolon :: s.stream := by
  obtain ⟨l, ts, rest, rfl, ⟨count, range⟩, ahead, values, rfl⟩ := numbers_ok run
  obtain ⟨stands, eq⟩ := h.after_passed ahead (ne_ending_of_numbers values)
  refine ⟨stands, l, rfl, count, range, ?_⟩
  rw [eq, values, List.append_assoc]
  rfl

theorem Stands.exists_numbers (h : Stands table es ws ss r) {l : List Nat}
    (count : l.length = kind.parameterCount) (range : ∀ n ∈ l, accepts kind n)
    (eq : r.stream = numberTokens l ++ .semicolon :: rest) :
    ∃ s, numbers p kind r = .ok (l[0]?, l[1]?) s ∧ s.stream = rest ∧
      Stands table es ws ss s := by
  rw [List.append_cons] at eq
  obtain ⟨ts, others, ahead, values⟩ := exists_coming eq (by simp)
  obtain ⟨stands, split⟩ := h.after_passed ahead (ne_ending_of_numbers values)
  refine ⟨_, numbers_of_suits ⟨count, range⟩ ahead values, ?_, stands⟩
  rw [eq, values] at split
  exact (List.append_cancel_left split).symm

theorem Stands.after_declare (h : Stands table es ws ss r) (known : e.name ∈ table.texts)
    (run : declare p ⟨e.name, table.symbol e.name⟩ e.kind e.numbers[0]? e.numbers[1]? r =
      .ok () s) :
    e.name ∉ es.map Declaration.name ∧ Stands table (es ++ [e]) ws ss s ∧
      s.stream = r.stream := by
  rw [declare] at run
  cases step : r.circuit.netlist.declare (table.symbol e.name) e.kind e.numbers[0]?
      e.numbers[1]? with
  | error _ => simp [step] at run
  | ok n =>
    simp only [step, EStateM.Result.ok.injEq, true_and] at run
    obtain ⟨new, drawn⟩ := h.drawn.declare known step
    rw [← run]
    exact ⟨new, ⟨h.clear, h.scope, h.proper, drawn, h.monitors⟩, rfl⟩

theorem Stands.exists_declare (h : Stands table es ws ss r) (known : e.name ∈ table.texts)
    (new : e.name ∉ es.map Declaration.name) (proper : e.IsProper) :
    ∃ s, declare p ⟨e.name, table.symbol e.name⟩ e.kind e.numbers[0]? e.numbers[1]? r =
      .ok () s ∧ Stands table (es ++ [e]) ws ss s ∧ s.stream = r.stream := by
  obtain ⟨n, step⟩ := h.drawn.exists_declare new proper.count proper.range
  have run : ∃ s, declare p ⟨e.name, table.symbol e.name⟩ e.kind e.numbers[0]? e.numbers[1]? r =
      .ok () s := by
    rw [declare]
    simp only [step]
    exact ⟨_, rfl⟩
  obtain ⟨s, run⟩ := run
  exact ⟨s, run, (h.after_declare known run).2⟩

theorem declaration_tokens_append (e : Declaration) (rest : List Token) :
    e.tokens ++ rest = .name e.name :: .equals :: .name e.kind.text ::
      (numberTokens e.numbers ++ .semicolon :: rest) := by
  simp [Declaration.tokens]

/-- An entry that goes through is a declaration, and the device is added. -/
theorem Stands.after_deviceEntry (h : Stands table es ws ss r) (held : Held t r)
    {a : Option (Located Token)} (run : deviceEntry t r = .ok a s) :
    ∃ next e, a = some next ∧ e.IsProper ∧ Stands table (es ++ [e]) ws ss s ∧ Held next s ∧
      ahead t r = e.tokens ++ ahead next s := by
  obtain ⟨_, _, named, run⟩ := bind_ok run
  obtain ⟨rfl, text, value, rfl, known⟩ := h.after_expectName held named
  rw [EStateM.bind_of_ok (circuitNow_ok r), h.drawn.vocabulary] at run
  dsimp only at run
  by_cases taken : (Vocabulary.ofTable table).isReserved (table.symbol text) = true
  · rw [if_pos taken, stray_of_clear h.clear] at run
    cases run
  · rw [if_neg taken] at run
    by_cases again : (r.circuit.netlist.device? (table.symbol text)).isSome = true
    · rw [if_pos again, stray_of_clear h.clear] at run
      cases run
    · rw [if_neg again] at run
      obtain ⟨equals, s₁, h₁, -, eq₁, run⟩ := h.take run
      by_cases sign : equals.value = .equals
      · rw [if_pos sign, map_eq_pure_bind] at run
        obtain ⟨next, _, body, run⟩ := bind_ok run
        obtain ⟨rfl, rfl⟩ := EStateM.pure_ok_iff.mp run
        obtain ⟨u, s₂, h₂, held₂, eq₂, body⟩ := h₁.take body
        obtain ⟨kind, _, kinds, body⟩ := bind_ok body
        obtain ⟨rfl, value₂⟩ := h₂.after_expectKind held₂ kinds
        obtain ⟨nums, s₃, counts, body⟩ := bind_ok body
        obtain ⟨h₃, l, rfl, count, range, eq₃⟩ := h₂.after_numbers counts
        obtain ⟨_, s₄, declares, body⟩ := bind_ok body
        let e : Declaration := ⟨text, kind, l⟩
        obtain ⟨new, h₄, eq₄⟩ := h₃.after_declare (e := e) known declares
        obtain ⟨h₅, held₅, eq₅⟩ := h₄.after_read body
        have free : text ∉ Declaration.reserved := by
          rw [← Vocabulary.isReserved_symbol_iff h.drawn.words]
          exact taken
        refine ⟨next, e, rfl, ⟨free, count, range⟩, h₅, held₅, ?_⟩
        rw [ahead_of_value value (by simp), ← eq₁, ahead_of_value sign (by simp), ← eq₂,
          ahead_of_value value₂ (by simp), eq₃, eq₅, eq₄, declaration_tokens_append]
      · rw [if_neg sign, stray_of_clear h₁.clear] at run
        cases run

/-- Every proper declaration of a new name goes through. -/
theorem Stands.exists_deviceEntry (h : Stands table es ws ss r) (held : Held t r) {a : Token}
    (eq : ahead t r = e.tokens ++ a :: rest) (more : a ≠ .ending) (proper : e.IsProper)
    (new : e.name ∉ es.map Declaration.name) :
    ∃ next s, deviceEntry t r = .ok (some next) s ∧ Stands table (es ++ [e]) ws ss s ∧
      Held next s ∧ ahead next s = a :: rest := by
  rw [declaration_tokens_append] at eq
  obtain ⟨value, eq⟩ := ahead_eq_cons eq (by simp)
  have known := (h.symbol (held _ value)).2
  have free : (Vocabulary.ofTable table).isReserved (table.symbol e.name) = false := by
    rw [Bool.eq_false_iff, Ne, Vocabulary.isReserved_symbol_iff h.drawn.words]
    exact proper.free
  have absent : (r.circuit.netlist.device? (table.symbol e.name)).isSome = false := by
    rw [Bool.eq_false_iff, Ne, Netlist.device?_isSome_iff, h.drawn.mem_symbols_iff]
    exact new
  obtain ⟨u, s₁, run₁, value₁, eq₁, h₁, -⟩ := h.exists_take eq (by simp)
  obtain ⟨v, s₂, run₂, value₂, eq₂, h₂, held₂⟩ := h₁.exists_take eq₁ (by simp)
  obtain ⟨s₃, run₃, eq₃, h₃⟩ := h₂.exists_numbers (p := v.position) proper.count proper.range eq₂
  obtain ⟨s₄, run₄, h₄, eq₄⟩ := h₃.exists_declare (p := t.position) known new proper
  obtain ⟨next, s₅, run₅, value₅, eq₅, h₅, held₅⟩ := h₄.exists_take (eq₄.trans eq₃) more
  refine ⟨next, s₅, ?_, h₅, held₅, ?_⟩
  · rw [deviceEntry, EStateM.bind_of_ok (h.expectName_ok held value),
      EStateM.bind_of_ok (circuitNow_ok r), h.drawn.vocabulary]
    dsimp only
    rw [free, absent]
    simp only [Bool.false_eq_true, if_false]
    rw [EStateM.bind_of_ok run₁, if_pos value₁, map_eq_pure_bind, declaration, bind_assoc,
      EStateM.bind_of_ok run₂, bind_assoc, EStateM.bind_of_ok (h₂.expectKind_ok held₂ value₂),
      bind_assoc, EStateM.bind_of_ok run₃, bind_assoc, EStateM.bind_of_ok run₄,
      EStateM.bind_of_ok run₅]
    rfl
  · rw [ahead_of_value value₅ more, eq₅]

end LogicCircuit.Description.Reader
