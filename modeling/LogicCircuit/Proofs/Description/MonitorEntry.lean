import LogicCircuit.Proofs.Description.OutputPin

/-!
The entries of the section of monitors: those that go through are the outputs that are not watched
yet, and each is put under watch.
-/

namespace LogicCircuit.Description.Reader

variable {r s : Reader} {t next : Located Token} {table : SymbolTable} {es : List Declaration}
  {ws : List (Signal × Signal)} {ss : List Signal} {rest : List Token} {c : Token}
  {device : Mention} {kind : Option Kind} {out : Option Terminal} {p : Position} {a : Signal}

/-- The output that an entry names. That of a device which is not there is refused later. -/
theorem Stands.after_monitorOutput (h : Stands table es ws ss r) (clear : s.Clear)
    (run : monitorOutput kind device r = .ok (out, next) s) :
    ∃ pin, out = some ⟨device.symbol, pin.map table.symbol⟩ ∧ Stands table es ws ss s ∧
      Held next s ∧ (kind.isSome → r.stream = pinTokens pin ++ ahead next s) := by
  obtain ⟨t, s₁, h₁, held₁, eq₁, run⟩ := h.take run
  by_cases flipFlop : kind = some .flipFlop
  · rw [if_pos flipFlop] at run
    obtain ⟨text, -, rfl, h₂, held₂, eq₂⟩ := h₁.after_outputPin clear run
    refine ⟨some text, rfl, h₂, held₂, fun _ => ?_⟩
    rw [← eq₁, eq₂]
    rfl
  · rw [if_neg flipFlop] at run
    by_cases dot : t.value = .dot
    · rw [if_pos dot] at run
      obtain ⟨pin, s₂, h₂, held₂, -, run⟩ := h₁.take run
      obtain ⟨_, _, named, run⟩ := bind_ok run
      obtain ⟨rfl, -⟩ := h₂.after_expectName held₂ named
      by_cases declared : kind.isSome = true
      · rw [if_pos declared] at run
        obtain ⟨_, s₃, recorded, run⟩ := bind_ok run
        have moves : Moves Step (do return ((none : Option Terminal), ← read)) :=
          moves_read.bind fun _ => moves_pure _
        exact absurd (moves.clear run clear) (not_clear_record recorded)
      · rw [if_neg declared] at run
        -- the pin is lost here, but so is the device
        obtain ⟨u, s₃, h₃, held₃, -, run⟩ := h₂.take run
        obtain ⟨eq, rfl⟩ := EStateM.pure_ok_iff.mp run
        obtain ⟨rfl, rfl⟩ := Prod.mk.inj eq
        exact ⟨none, rfl, h₃, held₃, fun some => absurd some declared⟩
    · rw [if_neg dot] at run
      obtain ⟨eq, rfl⟩ := EStateM.pure_ok_iff.mp run
      obtain ⟨rfl, rfl⟩ := Prod.mk.inj eq
      exact ⟨none, rfl, h₁, held₁, fun _ => eq₁.symm⟩

theorem Stands.exists_monitorOutput (h : Stands table es ws ss r) (device : Mention)
    {e : Declaration} {pin : Option String} (output : pin ∈ e.outputs) (other : c ≠ .dot)
    (more : c ≠ .ending)
    (eq : r.stream = pinTokens pin ++ c :: rest) :
    ∃ next s, monitorOutput (some e.kind) device r =
        .ok (some ⟨device.symbol, pin.map table.symbol⟩, next) s ∧
      Stands table es ws ss s ∧ ahead next s = c :: rest := by
  rw [mem_outputs_iff] at output
  by_cases flipFlop : e.kind = .flipFlop
  · rw [if_pos flipFlop] at output
    obtain ⟨text, rfl, named⟩ := exists_output_text output
    obtain ⟨t, s₁, run₁, value₁, eq₁, h₁, -⟩ := h.exists_take eq (by simp)
    have start : ahead t s₁ = .dot :: .name text :: c :: rest := by
      rw [ahead_of_value value₁ (by simp), eq₁]
      rfl
    obtain ⟨next, s₂, run₂, h₂, -, eq₂⟩ := h₁.exists_outputPin start more named
    refine ⟨next, s₂, ?_, h₂, eq₂⟩
    rw [monitorOutput, EStateM.bind_of_ok run₁, if_pos (congrArg some flipFlop), run₂]
    rfl
  · rw [if_neg flipFlop] at output
    subst output
    obtain ⟨t, s₁, run₁, value₁, eq₁, h₁, -⟩ := h.exists_take eq more
    refine ⟨t, s₁, ?_, h₁, by rw [ahead_of_value value₁ more, eq₁]⟩
    have plain : ¬ some e.kind = some .flipFlop := fun same => flipFlop (Option.some.inj same)
    rw [monitorOutput, EStateM.bind_of_ok run₁, if_neg plain, if_neg (value₁ ▸ other)]
    rfl

theorem Stands.after_watch (h : Stands table es ws ss r)
    (outputs : ∀ s ∈ ss, Document.IsOutput es s) (clear : s.Clear)
    (run : watch (some (a.terminal table)) p device r = .ok () s) :
    Document.IsOutput es a ∧ a ∉ ss ∧ Stands table es ws (ss ++ [a]) s ∧
      s.stream = r.stream := by
  rw [watch] at run
  cases step : r.circuit.monitors.watch r.circuit.netlist (a.terminal table) 0 with
  | error _ =>
    simp only [step] at run
    exact absurd clear (not_clear_record run)
  | ok ms =>
    simp only [step, EStateM.Result.ok.injEq, true_and] at run
    rw [h.monitors, h.drawn.watch_ok_iff outputs] at step
    obtain ⟨output, fresh, rfl⟩ := step
    rw [← run]
    exact ⟨output, fresh, ⟨h.clear, h.scope, h.proper, h.drawn, rfl⟩, rfl⟩

theorem Stands.exists_watch (h : Stands table es ws ss r)
    (outputs : ∀ s ∈ ss, Document.IsOutput es s) (output : Document.IsOutput es a)
    (fresh : a ∉ ss) (p : Position) (device : Mention) :
    ∃ s, watch (some (a.terminal table)) p device r = .ok () s ∧
      Stands table es ws (ss ++ [a]) s ∧ s.stream = r.stream := by
  have step := (h.drawn.watch_ok_iff outputs).mpr ⟨output, fresh, rfl⟩
  rw [← h.monitors] at step
  refine ⟨{ r with circuit := { r.circuit with monitors := monitorsOf table (ss ++ [a]) } }, ?_,
    ⟨h.clear, h.scope, h.proper, h.drawn, rfl⟩, rfl⟩
  rw [watch]
  simp only [step]

theorem entry_append (a : Signal) (rest : List Token) :
    a.entry ++ rest = .name a.device :: (pinTokens a.pin ++ .semicolon :: rest) := by
  simp only [Signal.entry, Signal.tokens, List.cons_append, List.append_assoc, List.nil_append]

/-- An entry that goes through names an output, and it is put under watch. -/
theorem Stands.after_monitorEntry (h : Stands table es ws ss r) (held : Held t r)
    (outputs : ∀ s ∈ ss, Document.IsOutput es s) (clear : s.Clear)
    (run : monitorEntry t r = .ok next s) :
    ∃ a, Document.IsOutput es a ∧ a ∉ ss ∧ Stands table es ws (ss ++ [a]) s ∧ Held next s ∧
      ahead t r = a.entry ++ ahead next s := by
  obtain ⟨_, _, named, run⟩ := bind_ok run
  obtain ⟨rfl, text, value, rfl, -⟩ := h.after_expectName held named
  rw [EStateM.bind_of_ok (circuitNow_ok r)] at run
  obtain ⟨⟨out, u⟩, s₁, first, run⟩ := bind_ok run
  obtain ⟨_, s₂, ended, run⟩ := bind_ok run
  obtain ⟨rfl, semicolon⟩ := expect_ok_iff.mp ended
  obtain ⟨_, s₃, watched, last⟩ := bind_ok run
  have clear₃ := moves_read.clear last clear
  have clear₁ := (moves_watch _ _ _).clear watched clear₃
  obtain ⟨pin, rfl, h₁, -, eq₁⟩ := h.after_monitorOutput clear₁ first
  obtain ⟨output, fresh, h₃, eq₃⟩ :=
    h₁.after_watch (a := ⟨text, pin⟩) outputs clear₃ watched
  obtain ⟨h₄, held₄, eq₄⟩ := h₃.after_read last
  have declared : (r.circuit.netlist.kindOf? (table.symbol text)).isSome = true := by
    obtain ⟨e, he, name, -⟩ := output
    rw [h.kindOf?_eq_some_iff.mpr ⟨e, he, name, rfl⟩]
    rfl
  refine ⟨⟨text, pin⟩, output, fresh, h₄, held₄, ?_⟩
  rw [ahead_of_value value (by simp), eq₁ declared, ahead_of_value semicolon (by simp),
    ← eq₃, ← eq₄, entry_append]

/-- Every output that is not watched yet goes through. -/
theorem Stands.exists_monitorEntry (h : Stands table es ws ss r) (held : Held t r)
    (outputs : ∀ s ∈ ss, Document.IsOutput es s) (output : Document.IsOutput es a)
    (fresh : a ∉ ss) (more : c ≠ .ending) (eq : ahead t r = a.entry ++ c :: rest) :
    ∃ next s, monitorEntry t r = .ok next s ∧ Stands table es ws (ss ++ [a]) s ∧
      Held next s ∧ ahead next s = c :: rest := by
  obtain ⟨text, pin⟩ := a
  rw [entry_append] at eq
  obtain ⟨value, eq⟩ := ahead_eq_cons eq (by simp)
  obtain ⟨e, he, name, shown⟩ := output
  have found := h.kindOf?_eq_some_iff.mpr ⟨e, he, name, rfl⟩
  obtain ⟨u, s₁, run₁, h₁, eq₁⟩ := h.exists_monitorOutput ⟨text, table.symbol text⟩
    shown (by simp) (by simp) eq
  obtain ⟨semicolon, eq₁⟩ := ahead_eq_cons eq₁ (by simp)
  obtain ⟨s₂, run₂, h₂, eq₂⟩ := h₁.exists_watch (a := ⟨text, pin⟩) outputs
    ⟨e, he, name, shown⟩ fresh t.position ⟨text, table.symbol text⟩
  obtain ⟨v, s₃, run₃, value₃, eq₃, h₃, held₃⟩ := h₂.exists_take (eq₂.trans eq₁) more
  refine ⟨v, s₃, ?_, h₃, held₃, by rw [ahead_of_value value₃ more, eq₃]⟩
  rw [monitorEntry, EStateM.bind_of_ok (h.expectName_ok held value),
    EStateM.bind_of_ok (circuitNow_ok r)]
  simp only [found]
  rw [EStateM.bind_of_ok run₁]
  simp only
  rw [EStateM.bind_of_ok (expect_ok semicolon)]
  exact (EStateM.bind_of_ok run₂).trans run₃

theorem Stands.after_monitorEntries (h : Stands table es ws ss r) (held : Held t r)
    (outputs : ∀ s ∈ ss, Document.IsOutput es s) (nodup : ss.Nodup) (clear : s.Clear)
    (run : monitorEntries t r = .ok next s) :
    ∃ more, Stands table es ws (ss ++ more) s ∧ Held next s ∧
      (∀ s ∈ ss ++ more, Document.IsOutput es s) ∧ (ss ++ more).Nodup ∧
      ahead t r = more.flatMap Signal.entry ++ ahead next s := by
  fun_induction monitorEntries t r generalizing ss with
  | case1 => cases run
  | case2 t r begins u s₁ eq ih =>
    have clear₁ := Moves.clear (moves_monitorEntries u) run clear
    obtain ⟨a, output, fresh, h₁, held₁, eq₁⟩ := h.after_monitorEntry held outputs clear₁ eq
    have outputs₁ := forall_mem_concat outputs output
    have nodup₁ : (ss ++ [a]).Nodup := by
      rw [← List.concat_eq_append]
      exact nodup.concat fresh
    obtain ⟨more, h₂, held₂, outputs₂, nodup₂, eq₂⟩ := ih h₁ held₁ outputs₁ nodup₁ run
    rw [List.append_assoc] at h₂ outputs₂ nodup₂
    refine ⟨a :: more, h₂, held₂, outputs₂, nodup₂, ?_⟩
    rw [eq₁, eq₂, List.flatMap_cons, List.append_assoc]
  | case3 t r begins =>
    obtain ⟨rfl, rfl⟩ := by simpa using run
    exact ⟨[], by simpa using h, held, by simpa using outputs, by simpa using nodup, rfl⟩

theorem monitorEntries_of_entry {u : Located Token} {s' : Reader} {text : String}
    (value : t.value = .name text) (run : monitorEntry t r = .ok u s') :
    monitorEntries t r = monitorEntries u s' := by
  rw [monitorEntries_eq, if_pos (by rw [value]; rfl)]
  exact EStateM.bind_of_ok run

theorem Stands.exists_monitorEntries (h : Stands table es ws ss r) (held : Held t r)
    {more : List Signal} (outputs : ∀ s ∈ ss ++ more, Document.IsOutput es s)
    (nodup : (ss ++ more).Nodup) (proper : c ≠ .ending) (ends : beginsMonitor c = false)
    (eq : ahead t r = more.flatMap Signal.entry ++ c :: rest) :
    ∃ next s, monitorEntries t r = .ok next s ∧ Stands table es ws (ss ++ more) s ∧
      ahead next s = c :: rest := by
  induction more generalizing ss t r with
  | nil =>
    obtain ⟨value, -⟩ := ahead_eq_cons eq proper
    refine ⟨t, r, ?_, by simpa using h, eq⟩
    rw [monitorEntries]
    rw [dif_neg (by rw [value, ends]; simp)]
  | cons a more ih =>
    rw [List.append_cons] at outputs nodup
    rw [List.flatMap_cons, List.append_assoc] at eq
    have before := List.nodup_append.mp (List.nodup_append.mp nodup).1
    have fresh : a ∉ ss := fun old => before.2.2 a old a (by simp) rfl
    obtain ⟨value, -⟩ := ahead_eq_cons ((eq.trans (entry_append _ _))) (by simp)
    obtain ⟨d, l, start, next⟩ := exists_flatMap_eq_cons more rest
      (fun b => ⟨b.device, _, rfl⟩ : ∀ b : Signal, ∃ text l, b.entry = .name text :: l) proper
    obtain ⟨u, s₁, run₁, h₁, held₁, eq₁⟩ := h.exists_monitorEntry held
      (fun s hs => outputs s (by simp [hs])) (outputs a (by simp)) fresh next (start ▸ eq)
    obtain ⟨v, s₂, run₂, h₂, eq₂⟩ := ih h₁ held₁ outputs nodup (eq₁.trans start.symm)
    refine ⟨v, s₂, (monitorEntries_of_entry value run₁).trans run₂, ?_, eq₂⟩
    rwa [List.append_cons]

end LogicCircuit.Description.Reader
