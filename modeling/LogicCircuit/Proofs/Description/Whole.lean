import LogicCircuit.Proofs.Description.Closing

/-!
Whole descriptions: what goes through from the first keyword to the last is a document that makes
sense, and every such document goes through.
-/

namespace LogicCircuit.Description.Reader

variable {r s r' : Reader} {t next : Located Token} {table : SymbolTable} {d : Document}
  {rest : List Token} {keyword : Keyword} {body : Reading (Located Token)} {sym : Symbol}

theorem after_sectionOf (clear : s.Clear) (run : sectionOf keyword body t r = .ok next s) :
    t.value = .keyword keyword ∧ body r = .ok next s := by
  rw [sectionOf] at run
  by_cases here : t.value = .keyword keyword
  · rw [if_pos here] at run
    exact ⟨here, run⟩
  · rw [if_neg here] at run
    obtain ⟨_, s₁, recorded, run⟩ := bind_ok run
    exact absurd ((moves_pure t).clear run clear) (not_clear_recordOnce rfl recorded)

theorem sectionOf_of_keyword (here : t.value = .keyword keyword) :
    sectionOf keyword body t r = body r := by
  rw [sectionOf, if_pos here]

/-- The names in the tokens of a document are interned when they are read. -/
theorem Continues.known (h : Continues r r')
    (words : ∀ w ∈ Vocabulary.words, w ∈ r.circuit.symbols.texts)
    (eq : r.stream = d.tokens ++ r'.stream) :
    ∀ w, w ∈ Vocabulary.words ∨ w ∈ d.devices.map Declaration.name →
      w ∈ r'.circuit.symbols.texts := by
  intro w hw
  rcases hw with word | name
  · exact h.symbols.subset (words w word)
  · obtain ⟨taken, split, held⟩ := h.tokens
    rw [stream, stream, split, List.map_append, List.append_assoc] at eq
    have taken_eq := List.append_cancel_right eq
    obtain ⟨e, he, rfl⟩ := List.mem_map.mp name
    have member : Token.name e.name ∈ d.tokens := by
      have first : Token.name e.name ∈ d.devices.flatMap Declaration.tokens :=
        List.mem_flatMap.mpr ⟨e, he, List.mem_cons_self⟩
      simp [Document.tokens, first]
    rw [← taken_eq] at member
    obtain ⟨t, ht, value⟩ := List.mem_map.mp member
    exact held t ht e.name value

/-- All that the reading of the sections can come to: it turns away at the first token, or reads
one section after the other and answers by the last token and the count of problems. -/
theorem sections_cases {answer : Option Symbol} (run : sections r = .ok answer s) :
    (answer = none ∧ ∃ t s₁ a, recordOnce t (.incorrectKeyword .devices) s₁ = .ok a s) ∨
      ∃ t₁ t₂ t₃ t₄ t₅ s₁ s₂ s₃ s₄,
        read r = .ok t₁ s₁ ∧ sectionOf .devices devices t₁ s₁ = .ok t₂ s₂ ∧
          sectionOf .connect connections t₂ s₂ = .ok t₃ s₃ ∧
          sectionOf .monitor monitors t₃ s₃ = .ok t₄ s₄ ∧
          sectionOf .finish (pure t₄) t₄ s₄ = .ok t₅ s ∧
          answer = if t₅.value = .keyword .finish ∧ s.errorCount = 0 then
            some (s.circuit.symbols.symbol Keyword.finish.text) else none := by
  obtain ⟨t₁, s₁, took, run⟩ := bind_ok run
  by_cases keyword : t₁.value.isKeyword = true
  · rw [if_pos keyword] at run
    obtain ⟨t₂, s₂, run₁, run⟩ := bind_ok run
    obtain ⟨t₃, s₃, run₂, run⟩ := bind_ok run
    obtain ⟨t₄, s₄, run₃, run⟩ := bind_ok run
    obtain ⟨t₅, s₅, run₄, run⟩ := bind_ok run
    obtain ⟨u, s₆, got, run⟩ := bind_ok run
    rw [get_run] at got
    obtain ⟨rfl, rfl⟩ := EStateM.Result.ok.inj got
    have last : answer = (if t₅.value = .keyword .finish ∧ s₅.errorCount = 0 then
        some (s₅.circuit.symbols.symbol Keyword.finish.text) else none) ∧ s₅ = s := by
      split at run
      case isTrue accepts =>
        rw [if_pos accepts]
        exact (EStateM.pure_ok_iff.mp run).imp_left Eq.symm
      case isFalse refuses =>
        rw [if_neg refuses]
        exact (EStateM.pure_ok_iff.mp run).imp_left Eq.symm
    obtain ⟨rfl, rfl⟩ := last
    exact .inr ⟨t₁, t₂, t₃, t₄, t₅, s₁, s₂, s₃, s₄, took, run₁, run₂, run₃, run₄, rfl⟩
  · rw [if_neg keyword] at run
    obtain ⟨a, s₂, recorded, run⟩ := bind_ok run
    obtain ⟨rfl, rfl⟩ := EStateM.pure_ok_iff.mp run
    exact .inl ⟨rfl, t₁.position, s₁, a, recorded⟩

theorem sections_ok (run : sections r = .ok (some sym) s) : ∃ t₁ t₂ t₃ t₄ t₅ s₁ s₂ s₃ s₄,
    read r = .ok t₁ s₁ ∧ sectionOf .devices devices t₁ s₁ = .ok t₂ s₂ ∧
      sectionOf .connect connections t₂ s₂ = .ok t₃ s₃ ∧
      sectionOf .monitor monitors t₃ s₃ = .ok t₄ s₄ ∧
      sectionOf .finish (pure t₄) t₄ s₄ = .ok t₅ s ∧ s.errorCount = 0 := by
  rcases sections_cases run with ⟨none, -⟩ | ⟨t₁, t₂, t₃, t₄, t₅, s₁, s₂, s₃, s₄, took, run₁, run₂,
    run₃, run₄, answer⟩
  · cases none
  · refine ⟨t₁, t₂, t₃, t₄, t₅, s₁, s₂, s₃, s₄, took, run₁, run₂, run₃, run₄, ?_⟩
    split at answer
    case isTrue accepts => exact accepts.2
    case isFalse => cases answer

/-- A description that goes through is a document that makes sense, and the circuit is the one
that it means. -/
theorem Stands.after_sections (h : Stands table [] [] [] r)
    (words : ∀ w ∈ Vocabulary.words, w ∈ r.circuit.symbols.texts)
    (absent : groundName ∉ table.texts) (cycles : r.circuit.cycles = 0) (clear : s.Clear)
    (run : sections r = .ok (some sym) s) :
    ∃ d : Document, d.WellFormed ∧ d.tokens <+: r.stream ∧ Realises d s.circuit := by
  obtain ⟨t₁, t₂, t₃, t₄, t₅, s₁, s₂, s₃, s₄, took, run₁, run₂, run₃, run₄, -⟩ := sections_ok run
  obtain ⟨value₄, same⟩ := after_sectionOf clear run₄
  obtain ⟨-, rfl⟩ := EStateM.pure_ok_iff.mp same
  have clear₃ := (moves_sectionOf moves_monitors _ _).clear run₃ clear
  have clear₂ := (moves_sectionOf moves_connections _ _).clear run₂ clear₃
  obtain ⟨value₁, run₁⟩ := after_sectionOf clear₂ run₁
  obtain ⟨value₂, run₂⟩ := after_sectionOf clear₃ run₂
  obtain ⟨value₃, run₃⟩ := after_sectionOf clear run₃
  obtain ⟨h₁, -, eq₁⟩ := h.after_read took
  obtain ⟨es, proper, h₂, -, eq₂⟩ := h₁.after_devices clear₂ run₁
  obtain ⟨ds, h₃, -, eq₃⟩ := h₂.after_connections clear₃ run₂
  obtain ⟨ss, r', h₄, outputs, nodup, continues, eq₄, final⟩ := h₃.after_monitors clear run₃
  let d : Document := ⟨es, ds, ss⟩
  -- each section ends with the keyword in hand that the next one begins with
  have all : r.stream = d.tokens ++ r'.stream := by
    rw [ahead_of_value value₁ (by simp), eq₂, ahead_of_value value₂ (by simp), eq₃,
      ahead_of_value value₃ (by simp), eq₄, ahead_of_value value₄ (by simp)] at eq₁
    rw [← eq₁]
    simp [Document.tokens, d]
  have total : Continues r r' := (moves_read.continues took).trans
    ((moves_devices.continues run₁).trans ((moves_connections.continues run₂).trans continues))
  obtain ⟨realises, closed⟩ := Stands.after_ground (d := d) h₄ outputs (total.known words all)
    absent (total.cycles.trans cycles)
  rw [final] at clear
  have wired := ((recordFloating_clear_iff _).mp clear).2
  refine ⟨d, ⟨h₄.drawn.nodup, proper, h₄.drawn.sources, h₄.drawn.targets, h₄.drawn.once, outputs,
    nodup, closed.mp wired⟩, ⟨_, all.symm⟩, ?_⟩
  rw [final]
  exact realises

/-- Every document that makes sense goes through. -/
theorem Stands.exists_sections (h : Stands table [] [] [] r)
    (words : ∀ w ∈ Vocabulary.words, w ∈ r.circuit.symbols.texts)
    (absent : groundName ∉ table.texts) (cycles : r.circuit.cycles = 0) (counted : r.Counted)
    (wf : d.WellFormed) (eq : r.stream = d.tokens ++ rest) :
    ∃ sym s, sections r = .ok (some sym) s := by
  obtain ⟨es, ds, ss⟩ := d
  have split : r.stream = .keyword .devices :: (es.flatMap Declaration.tokens ++
      .keyword .connect :: (ds.flatMap Connection.tokens ++
        .keyword .monitor :: (ss.flatMap Signal.entry ++ .keyword .finish :: rest))) := by
    rw [eq]
    simp [Document.tokens]
  obtain ⟨t₁, s₁, took, value₁, eq₁, h₁, -⟩ := h.exists_take split (by simp)
  obtain ⟨t₂, s₂, run₁, h₂, -, eq₂⟩ := h₁.exists_devices wf.devices wf.nodup eq₁
  obtain ⟨value₂, eq₂⟩ := ahead_eq_cons eq₂ (by simp)
  obtain ⟨t₃, s₃, run₂, h₃, -, eq₃⟩ :=
    h₂.exists_connections wf.sources wf.destinations wf.once eq₂
  obtain ⟨value₃, eq₃⟩ := ahead_eq_cons eq₃ (by simp)
  obtain ⟨t₄, r', run₃, value₄, continues, h₄, eq₄⟩ :=
    h₃.exists_monitors wf.monitors wf.watched eq₃
  have all : r.stream = (⟨es, ds, ss⟩ : Document).tokens ++ r'.stream := by
    rw [split, ← eq₃, eq₄, ahead_of_value value₄ (by simp)]
    simp [Document.tokens]
  have total : Continues r r' := (moves_read.continues took).trans
    ((moves_devices.continues run₁).trans ((moves_connections.continues run₂).trans continues))
  obtain ⟨-, closed⟩ := Stands.after_ground (d := ⟨es, ds, ss⟩) h₄ wf.monitors
    (total.known words all) absent (total.cycles.trans cycles)
  have clear := (recordFloating_clear_iff _).mpr ⟨clear_ground h₄.clear, closed.mpr wf.complete⟩
  have keyword : t₁.value.isKeyword = true := by
    rw [value₁]
    rfl
  have counted := moves_monitors.counted run₃ (moves_connections.counted run₂
    (moves_devices.counted run₁ (moves_read.counted took counted)))
  generalize (recordFloating (ground r').state).state = s at run₃ clear counted
  have last : sectionOf .finish (pure t₄) t₄ s = .ok t₄ s := sectionOf_of_keyword value₄
  rw [sections, EStateM.bind_of_ok took, if_pos keyword,
    EStateM.bind_of_ok ((sectionOf_of_keyword value₁).trans run₁),
    EStateM.bind_of_ok ((sectionOf_of_keyword value₂).trans run₂),
    EStateM.bind_of_ok ((sectionOf_of_keyword value₃).trans run₃), EStateM.bind_of_ok last]
  refine ⟨s.circuit.symbols.symbol Keyword.finish.text, s, ?_⟩
  rw [EStateM.bind_of_ok (get_run s), if_pos ⟨value₄, counted.errorCount_eq_zero_iff.mpr clear.1⟩]
  rfl

end LogicCircuit.Description.Reader
