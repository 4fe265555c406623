import LogicCircuit.Proofs.Description.OutputPin

/-!
The entries of the section of connections: those that go through are the connections from an output
to inputs that nothing drives yet, and each adds its wires.
-/

namespace LogicCircuit.Description.Reader

variable {r s : Reader} {t next : Located Token} {table : SymbolTable} {es : List Declaration}
  {ws : List (Signal × Signal)} {ss : List Signal} {rest : List Token} {c : Token}
  {device : Mention} {text : String} {kind : Kind} {out : Option Terminal} {p : Position}
  {a b : Signal} {e : Declaration}

theorem Stands.after_connectionOutput (h : Stands table es ws ss r) (he : e.kind = kind)
    (clear : s.Clear) (run : connectionOutput kind device r = .ok (out, next) s) :
    ∃ pin ∈ e.outputs, out = some ⟨device.symbol, pin.map table.symbol⟩ ∧
      Stands table es ws ss s ∧ Held next s ∧ r.stream = pinTokens pin ++ ahead next s := by
  obtain ⟨t, s₁, h₁, held₁, eq₁, run⟩ := h.take run
  by_cases flipFlop : kind = .flipFlop
  · rw [if_pos flipFlop] at run
    obtain ⟨text, output, rfl, h₂, held₂, eq₂⟩ := h₁.after_outputPin clear run
    refine ⟨some text, ?_, rfl, h₂, held₂, ?_⟩
    · rw [mem_outputs_iff, if_pos (he.trans flipFlop)]
      simpa using output
    · rw [← eq₁, eq₂]
      rfl
  · rw [if_neg flipFlop] at run
    obtain ⟨eq, rfl⟩ := EStateM.pure_ok_iff.mp run
    obtain ⟨rfl, rfl⟩ := Prod.mk.inj eq
    refine ⟨none, ?_, rfl, h₁, held₁, eq₁.symm⟩
    rw [mem_outputs_iff, if_neg (he ▸ flipFlop)]

theorem Stands.exists_connectionOutput (h : Stands table es ws ss r) (he : e.kind = kind)
    {pin : Option String} (output : pin ∈ e.outputs) (more : c ≠ .ending)
    (eq : r.stream = pinTokens pin ++ c :: rest) :
    ∃ next s, connectionOutput kind device r =
        .ok (some ⟨device.symbol, pin.map table.symbol⟩, next) s ∧
      Stands table es ws ss s ∧ Held next s ∧ ahead next s = c :: rest := by
  rw [mem_outputs_iff] at output
  by_cases flipFlop : kind = .flipFlop
  · rw [if_pos (he.trans flipFlop)] at output
    obtain ⟨text, rfl, named⟩ := exists_output_text output
    obtain ⟨t, s₁, run₁, value₁, eq₁, h₁, -⟩ := h.exists_take eq (by simp)
    have start : ahead t s₁ = .dot :: .name text :: c :: rest := by
      rw [ahead_of_value value₁ (by simp), eq₁]
      rfl
    obtain ⟨next, s₂, run₂, found⟩ := h₁.exists_outputPin start more named
    refine ⟨next, s₂, ?_, found⟩
    rw [connectionOutput, EStateM.bind_of_ok run₁, if_pos flipFlop, run₂]
    rfl
  · rw [if_neg (he ▸ flipFlop)] at output
    subst output
    obtain ⟨t, s₁, run₁, value₁, eq₁, h₁, held₁⟩ := h.exists_take eq more
    refine ⟨t, s₁, ?_, h₁, held₁, by rw [ahead_of_value value₁ more, eq₁]⟩
    rw [connectionOutput, EStateM.bind_of_ok run₁, if_neg flipFlop]
    rfl

theorem arrow_ok_of_clear (clear : r.Clear) (clear' : s.Clear) {x : Option Unit}
    (run : arrow kind device t r = .ok x s) : x = some () ∧ r = s ∧ t.value = .arrow := by
  rw [arrow] at run
  by_cases sign : t.value = .arrow
  · rw [if_pos sign] at run
    obtain ⟨rfl, rfl⟩ := EStateM.pure_ok_iff.mp run
    exact ⟨rfl, rfl, sign⟩
  · rw [if_neg sign] at run
    by_cases comma : t.value = .comma
    · rw [if_pos comma] at run
      cases run
    · rw [if_neg comma] at run
      by_cases dot : t.value = .dot ∧ kind ≠ .flipFlop
      · rw [if_pos dot] at run
        obtain ⟨pin, s₁, -, run⟩ := bind_ok run
        obtain ⟨problem, s₂, -, run⟩ := bind_ok run
        obtain ⟨_, s₃, recorded, run⟩ := bind_ok run
        have moves : Moves Step (do skipToArrow; return some ()) :=
          ((moves_skipUntil _).bind fun _ => moves_expect _ _ _).bind fun _ => moves_pure _
        exact absurd (moves.clear run clear') (not_clear_record recorded)
      · rw [if_neg dot, stray_of_clear clear] at run
        cases run

/-- A wire that goes through leads from the output to an input, which it is the first to drive. -/
theorem Stands.after_attach (h : Stands table es ws ss r) (source : Document.IsOutput es a)
    {pin : Option Mention} (ends : ⟨device.symbol, pin.map Mention.symbol⟩ = b.terminal table)
    (clear : s.Clear) (run : attach (some (a.terminal table)) p device pin r = .ok () s) :
    Stands table es (ws ++ [(a, b)]) ss s ∧ s.stream = r.stream := by
  rw [attach] at run
  simp only [ends] at run
  cases step : r.circuit.netlist.connect (a.terminal table) (b.terminal table) with
  | error _ =>
    simp only [step] at run
    exact absurd clear (not_clear_record run)
  | ok n =>
    simp only [step, EStateM.Result.ok.injEq, true_and] at run
    obtain ⟨-, -, drawn⟩ := h.drawn.connect source step
    rw [← run]
    exact ⟨⟨h.clear, h.scope, h.proper, drawn, h.monitors⟩, rfl⟩

theorem Stands.exists_attach (h : Stands table es ws ss r) (source : Document.IsOutput es a)
    (p : Position) (device : Mention) (pin : Option Mention)
    (ends : ⟨device.symbol, pin.map Mention.symbol⟩ = b.terminal table)
    (target : Document.IsInput es b) (fresh : b ∉ ws.map Prod.snd) :
    ∃ s, attach (some (a.terminal table)) p device pin r = .ok () s ∧
      Stands table es (ws ++ [(a, b)]) ss s ∧ s.stream = r.stream ∧
      s.circuit.symbols = r.circuit.symbols := by
  obtain ⟨n, step⟩ := h.drawn.exists_connect source target fresh
  refine ⟨{ r with circuit := { r.circuit with netlist := n } }, ?_, ⟨h.clear, h.scope, h.proper,
    (h.drawn.connect source step).2.2, h.monitors⟩, rfl, rfl⟩
  rw [attach]
  simp only [ends, step]

theorem Stands.after_destination (h : Stands table es ws ss r) (held : Held t r)
    (source : Document.IsOutput es a) (clear : s.Clear)
    (run : destination (some (a.terminal table)) t r = .ok next s) :
    ∃ b, Stands table es (ws ++ [(a, b)]) ss s ∧ Held next s ∧
      ahead t r = b.tokens ++ ahead next s := by
  obtain ⟨_, _, named, run⟩ := bind_ok run
  obtain ⟨rfl, text, value, rfl, -⟩ := h.after_expectName held named
  obtain ⟨u, s₁, h₁, held₁, eq₁, run⟩ := h.take run
  rw [ahead_of_value value (by simp), ← eq₁]
  by_cases dot : u.value = .dot
  · rw [if_pos dot] at run
    obtain ⟨v, s₂, h₂, held₂, eq₂, run⟩ := h₁.take run
    obtain ⟨_, _, named', run⟩ := bind_ok run
    obtain ⟨rfl, pin, value₂, rfl, -⟩ := h₂.after_expectName held₂ named'
    obtain ⟨w, s₃, h₃, held₃, eq₃, run⟩ := h₂.take run
    obtain ⟨_, s₄, attached, run⟩ := bind_ok run
    obtain ⟨rfl, rfl⟩ := EStateM.pure_ok_iff.mp run
    obtain ⟨h₄, eq₄⟩ := h₃.after_attach (b := ⟨text, some pin⟩) source rfl clear attached
    refine ⟨⟨text, some pin⟩, h₄, held₃.mono ((moves_attach _ _ _ _).continues attached), ?_⟩
    rw [ahead_of_value dot (by simp), ← eq₂, ahead_of_value value₂ (by simp), ← eq₃, ahead, ahead,
      eq₄]
    rfl
  · rw [if_neg dot] at run
    obtain ⟨_, s₂, attached, run⟩ := bind_ok run
    obtain ⟨rfl, rfl⟩ := EStateM.pure_ok_iff.mp run
    obtain ⟨h₂, eq₂⟩ := h₁.after_attach (b := ⟨text, none⟩) source rfl clear attached
    refine ⟨⟨text, none⟩, h₂, held₁.mono ((moves_attach _ _ _ _).continues attached), ?_⟩
    rw [ahead, ahead, eq₂]
    rfl

theorem Stands.exists_destination (h : Stands table es ws ss r) (held : Held t r)
    (source : Document.IsOutput es a) (target : Document.IsInput es b)
    (fresh : b ∉ ws.map Prod.snd) (more : c ≠ .ending) (eq : ahead t r = b.tokens ++ c :: rest) :
    ∃ next s, destination (some (a.terminal table)) t r = .ok next s ∧
      Stands table es (ws ++ [(a, b)]) ss s ∧ Held next s ∧ ahead next s = c :: rest := by
  obtain ⟨e, he, name, pin, hp, pinned⟩ := target
  obtain ⟨device, pin'⟩ := b
  simp only at pinned
  subst pinned
  obtain ⟨value, eq⟩ := ahead_eq_cons eq (by simp)
  obtain ⟨u, s₁, run₁, value₁, eq₁, h₁, -⟩ := h.exists_take eq (by simp)
  obtain ⟨v, s₂, run₂, value₂, eq₂, h₂, held₂⟩ := h₁.exists_take eq₁ (by simp)
  obtain ⟨w, s₃, run₃, value₃, eq₃, h₃, held₃⟩ := h₂.exists_take eq₂ more
  obtain ⟨s₄, run₄, h₄, eq₄, same⟩ := h₃.exists_attach source t.position
    ⟨device, table.symbol device⟩ (some ⟨pin, table.symbol pin⟩) rfl
    ⟨e, he, name, pin, hp, rfl⟩ fresh
  refine ⟨w, s₄, ?_, h₄, ?_, by rw [ahead_of_value value₃ more, eq₄, eq₃]⟩
  · rw [destination, EStateM.bind_of_ok (h.expectName_ok held value), EStateM.bind_of_ok run₁,
      if_pos value₁, EStateM.bind_of_ok run₂,
      EStateM.bind_of_ok (h₂.expectName_ok held₂ value₂), EStateM.bind_of_ok run₃,
      EStateM.bind_of_ok run₄]
    rfl
  · intro text eq
    rw [same]
    exact held₃ text eq

/-- The tokens of the destinations after the first one. -/
abbrev otherTokens (others : List Signal) : List Token :=
  others.flatMap fun s => .comma :: s.tokens

theorem connection_tokens_append {pin : Option String} {others : List Signal} :
    (⟨⟨text, pin⟩, a, others⟩ : Connection).tokens ++ rest = .name text :: (pinTokens pin ++
      .arrow :: (a.tokens ++ (otherTokens others ++ .semicolon :: rest))) := by
  simp only [Connection.tokens, List.cons_append, List.append_assoc, List.nil_append]
  rfl

theorem Stands.after_destinations (h : Stands table es ws ss r) (held : Held t r)
    (source : Document.IsOutput es a) (clear : s.Clear)
    (run : destinations (some (a.terminal table)) t r = .ok next s) :
    ∃ first others, Stands table es (ws ++ (first :: others).map fun b => (a, b)) ss s ∧
      Held next s ∧
      ahead t r = first.tokens ++ (otherTokens others ++ .semicolon :: ahead next s) := by
  fun_induction destinations (some (a.terminal table)) t r generalizing ws with
  | case1 => cases run
  | case2 => cases run
  | case3 t r separator s₁ eq comma u s₂ eq' ih =>
    have clear₂ := Moves.clear (moves_destinations _ u) run clear
    have clear₁ := moves_read.clear eq' clear₂
    obtain ⟨b, h₁, held₁, tokens₁⟩ := h.after_destination held source clear₁ eq
    obtain ⟨h₂, held₂, tokens₂⟩ := h₁.after_read eq'
    obtain ⟨first, others, h₃, held₃, tokens₃⟩ := ih h₂ held₂ run
    refine ⟨b, first :: others, ?_, held₃, ?_⟩
    · simpa using h₃
    · rw [tokens₁, ahead_of_value comma (by simp), ← tokens₂, tokens₃]
      simp
  | case4 t r separator s₁ eq comma semicolon =>
    have clear₁ := moves_read.clear run clear
    obtain ⟨b, h₁, held₁, tokens₁⟩ := h.after_destination held source clear₁ eq
    obtain ⟨h₂, held₂, tokens₂⟩ := h₁.after_read run
    refine ⟨b, [], h₂, held₂, ?_⟩
    rw [tokens₁, ahead_of_value semicolon (by simp), tokens₂]
    rfl
  | case5 => cases run
  | case6 => cases run

theorem destinations_of_comma {s' : Reader} {u : Located Token}
    (run : destination out t r = .ok u s) (comma : u.value = .comma)
    (took : read s = .ok next s') : destinations out t r = destinations out next s' := by
  rw [destinations_eq, EStateM.bind_of_ok run, if_pos comma]
  exact EStateM.bind_of_ok took

theorem destinations_of_semicolon {u : Located Token} (run : destination out t r = .ok u s)
    (semicolon : u.value = .semicolon) : destinations out t r = read s := by
  rw [destinations_eq, EStateM.bind_of_ok run, semicolon]
  rfl

theorem Stands.exists_destinations (h : Stands table es ws ss r) (held : Held t r)
    (source : Document.IsOutput es a) {first : Signal} {others : List Signal}
    (targets : ∀ b ∈ first :: others, Document.IsInput es b)
    (fresh : ∀ b ∈ first :: others, b ∉ ws.map Prod.snd) (once : (first :: others).Nodup)
    (more : c ≠ .ending)
    (eq : ahead t r = first.tokens ++ (otherTokens others ++ .semicolon :: c :: rest)) :
    ∃ next s, destinations (some (a.terminal table)) t r = .ok next s ∧
      Stands table es (ws ++ (first :: others).map fun b => (a, b)) ss s ∧ Held next s ∧
      ahead next s = c :: rest := by
  have target := targets first List.mem_cons_self
  have new := fresh first List.mem_cons_self
  induction others generalizing ws t r first with
  | nil =>
    obtain ⟨u, s₁, run₁, h₁, -, eq₁⟩ := h.exists_destination held source target new (by simp) eq
    obtain ⟨value₁, eq₁⟩ := ahead_eq_cons eq₁ (by simp)
    obtain ⟨v, s₂, run₂, value₂, eq₂, h₂, held₂⟩ := h₁.exists_take eq₁ more
    refine ⟨v, s₂, ?_, h₂, held₂, by rw [ahead_of_value value₂ more, eq₂]⟩
    rw [destinations_of_semicolon run₁ value₁, run₂]
  | cons second others ih =>
    have flat : otherTokens (second :: others) ++ .semicolon :: c :: rest =
        .comma :: .name second.device :: (pinTokens second.pin ++
          (otherTokens others ++ .semicolon :: c :: rest)) := by
      rw [otherTokens, List.flatMap_cons, Signal.tokens]
      simp
    rw [flat] at eq
    obtain ⟨u, s₁, run₁, h₁, -, eq₁⟩ := h.exists_destination held source target new (by simp) eq
    obtain ⟨value₁, eq₁⟩ := ahead_eq_cons eq₁ (by simp)
    obtain ⟨v, s₂, run₂, value₂, eq₂, h₂, held₂⟩ := h₁.exists_take eq₁ (by simp)
    obtain ⟨apart, once⟩ := List.nodup_cons.mp once
    have later : ∀ b ∈ second :: others, b ∉ (ws ++ [(a, first)]).map Prod.snd := by
      intro b hb member
      rw [List.map_append, List.mem_append] at member
      rcases member with old | this
      · exact fresh b (List.mem_cons_of_mem _ hb) old
      · have same : b = first := by simpa using this
        exact apart (same ▸ hb)
    obtain ⟨next, s₃, run₃, h₃, held₃, eq₃⟩ := ih h₂ held₂
      (fun b hb => targets b (List.mem_cons_of_mem _ hb)) later once
      (by rw [ahead_of_value value₂ (by simp), eq₂]; rfl)
      (targets second (by simp)) (later second (by simp))
    refine ⟨next, s₃, ?_, ?_, held₃, eq₃⟩
    · rw [destinations_of_comma run₁ value₁ run₂, run₃]
    · simpa using h₃

/-- An entry that goes through is a connection, and its wires are added. -/
theorem Stands.after_connectionEntry (h : Stands table es ws ss r) (held : Held t r)
    (clear : s.Clear) {x : Option (Located Token)} (run : connectionEntry t r = .ok x s) :
    ∃ next, ∃ d : Connection, x = some next ∧ Stands table es (ws ++ d.wires) ss s ∧
      Held next s ∧ ahead t r = d.tokens ++ ahead next s := by
  obtain ⟨_, _, named, run⟩ := bind_ok run
  obtain ⟨rfl, text, value, rfl, -⟩ := h.after_expectName held named
  rw [EStateM.bind_of_ok (circuitNow_ok r)] at run
  cases found : r.circuit.netlist.kindOf? (table.symbol text) with
  | none =>
    simp only [found] at run
    obtain ⟨_, s₁, recorded, run⟩ := bind_ok run
    have moves : Moves Step (some <$> skipEntry) := moves_skipEntry.map
    exact absurd (moves.clear run clear) (not_clear_record recorded)
  | some kind =>
    simp only [found] at run
    obtain ⟨e, he, name, kinds⟩ := h.kindOf?_eq_some_iff.mp found
    obtain ⟨⟨out, u⟩, s₁, first, run⟩ := bind_ok run
    obtain ⟨passed, s₂, signed, run⟩ := bind_ok run
    have moves : Moves Step (do
        let first ← read
        some <$> destinations out first) :=
      moves_read.bind fun first => Moves.map (moves_destinations _ _)
    have clear₂ : s₂.Clear := by
      cases passed with
      | none => exact (moves_pure none).clear run clear
      | some _ => exact moves.clear run clear
    have clear₁ := (moves_arrow _ _ _).clear signed clear₂
    obtain ⟨pin, output, rfl, h₁, -, eq₁⟩ := h.after_connectionOutput kinds clear₁ first
    obtain ⟨rfl, rfl, sign⟩ := arrow_ok_of_clear clear₁ clear₂ signed
    obtain ⟨v, s₃, h₃, held₃, eq₃, run⟩ := h₁.take run
    obtain ⟨next, body, rfl⟩ := map_ok run
    have source : Document.IsOutput es ⟨text, pin⟩ := ⟨e, he, name, output⟩
    obtain ⟨first, others, h₄, held₄, eq₄⟩ := h₃.after_destinations held₃ source clear body
    refine ⟨next, ⟨⟨text, pin⟩, first, others⟩, rfl, h₄, held₄, ?_⟩
    rw [ahead_of_value value (by simp), eq₁, ahead_of_value sign (by simp), ← eq₃, eq₄]
    rw [connection_tokens_append]

/-- Every connection from an output to inputs that are not driven yet goes through. -/
theorem Stands.exists_connectionEntry (h : Stands table es ws ss r) (held : Held t r)
    {d : Connection} (source : Document.IsOutput es d.source)
    (targets : ∀ b ∈ d.destinations, Document.IsInput es b)
    (fresh : ∀ b ∈ d.destinations, b ∉ ws.map Prod.snd) (once : d.destinations.Nodup)
    (more : c ≠ .ending) (eq : ahead t r = d.tokens ++ c :: rest) :
    ∃ next s, connectionEntry t r = .ok (some next) s ∧
      Stands table es (ws ++ d.wires) ss s ∧ Held next s ∧ ahead next s = c :: rest := by
  obtain ⟨⟨text, pin⟩, first, others⟩ := d
  rw [connection_tokens_append] at eq
  obtain ⟨value, eq⟩ := ahead_eq_cons eq (by simp)
  obtain ⟨e, he, name, output⟩ := source
  have found := h.kindOf?_eq_some_iff.mpr ⟨e, he, name, rfl⟩
  obtain ⟨u, s₁, run₁, h₁, -, eq₁⟩ := h.exists_connectionOutput rfl output (by simp) eq
  obtain ⟨sign, eq₁⟩ := ahead_eq_cons eq₁ (by simp)
  have flat : first.tokens ++ (otherTokens others ++ .semicolon :: c :: rest) =
      .name first.device :: (pinTokens first.pin ++
        (otherTokens others ++ .semicolon :: c :: rest)) := rfl
  rw [flat] at eq₁
  obtain ⟨v, s₂, run₂, value₂, eq₂, h₂, held₂⟩ := h₁.exists_take eq₁ (by simp)
  have start : ahead v s₂ = first.tokens ++ (otherTokens others ++ .semicolon :: c :: rest) := by
    rw [ahead_of_value value₂ (by simp), eq₂]
    rfl
  obtain ⟨next, s₃, run₃, h₃, held₃, eq₃⟩ := h₂.exists_destinations held₂
    ⟨e, he, name, output⟩ targets fresh once more start
  refine ⟨next, s₃, ?_, h₃, held₃, eq₃⟩
  have passes : arrow e.kind ⟨text, table.symbol text⟩ u s₁ = .ok (some ()) s₁ := by
    rw [arrow, if_pos sign]
    rfl
  rw [connectionEntry, EStateM.bind_of_ok (h.expectName_ok held value),
    EStateM.bind_of_ok (circuitNow_ok r)]
  simp only [found]
  rw [EStateM.bind_of_ok run₁, EStateM.bind_of_ok passes]
  simp only
  rw [EStateM.bind_of_ok run₂]
  exact map_of_ok run₃

end LogicCircuit.Description.Reader
