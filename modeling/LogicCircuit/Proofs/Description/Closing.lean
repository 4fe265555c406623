import LogicCircuit.Proofs.Description.Realising
import LogicCircuit.Proofs.Description.Sections

/-!
What is done after the last entry: the low source takes its place, and inputs that are still
unwired are problems.
-/

namespace LogicCircuit.Description.Reader

variable {r s : Reader} {t next : Located Token} {table : SymbolTable} {d : Document}
  {es : List Declaration} {ws : List (Signal × Signal)} {ss : List Signal}

/-- The names that were read so far suffice to see what is drawn. -/
theorem Stands.retable (h : Stands table es ws ss r) (t' : SymbolTable)
    (outputs : ∀ s ∈ ss, Document.IsOutput es s)
    (known : ∀ w, w ∈ Vocabulary.words ∨ w ∈ es.map Declaration.name →
      w ∈ r.circuit.symbols.texts)
    (same : ∀ w ∈ r.circuit.symbols.texts,
      w ∈ t'.texts ∧ t'.symbol w = r.circuit.symbols.symbol w) :
    Drawn t' es ws r.circuit.netlist ∧ r.circuit.monitors = monitorsOf t' ss := by
  have agree : ∀ w, w ∈ Vocabulary.words ∨ w ∈ es.map Declaration.name →
      w ∈ t'.texts ∧ t'.symbol w = table.symbol w := by
    intro w hw
    obtain ⟨member, symbol⟩ := same w (known w hw)
    exact ⟨member, symbol.trans (h.symbol (known w hw)).1⟩
  refine ⟨h.drawn.retable agree, ?_⟩
  rw [h.monitors, monitorsOf, monitorsOf, List.map_inj_left]
  intro s hs
  rw [Signal.terminal_congr (outputs s hs) fun w hw => (agree w hw).2]

/-- The low source is needed just when some input of a flip-flop is loose. -/
theorem Stands.isEmpty_iff (h : Stands table es ws ss r) :
    (r.circuit.netlist.floatingOf fun kind => kind = .flipFlop).isEmpty = true ↔
      looseInputs es ws = [] := by
  obtain ⟨us, members, eq⟩ := h.drawn.exists_loose
  rw [List.isEmpty_iff, ← eq, List.map_eq_nil_iff, List.eq_nil_iff_forall_not_mem,
    List.eq_nil_iff_forall_not_mem]
  simp only [members]

theorem ground_state (r : Reader) : (ground r).state =
    if (r.circuit.netlist.floatingOf fun kind => kind = .flipFlop).isEmpty then r
    else { r with circuit := { r.circuit with
      symbols := r.circuit.symbols.add groundName
      netlist := r.circuit.netlist.grounded (r.circuit.symbols.symbol groundName) } } := rfl

theorem clear_ground (h : r.Clear) : (ground r).state.Clear := by
  rw [ground_state]
  split <;> exact h

/-- No input is unwired just if the connections list all but those of flip-flops. -/
abbrev Closed (d : Document) (n : Netlist) : Prop :=
  (n.floatingOf fun kind => kind ≠ .clock ∧ kind ≠ .switch) = [] ↔
    ∀ e ∈ d.devices, e.kind ≠ .flipFlop → ∀ pin ∈ e.inputs,
      ⟨e.name, some pin⟩ ∈ d.wires.map Prod.snd

theorem Stands.after_ground (h : Stands table d.devices d.wires d.monitors r)
    (outputs : ∀ s ∈ d.monitors, Document.IsOutput d.devices s)
    (known : ∀ w, w ∈ Vocabulary.words ∨ w ∈ d.devices.map Declaration.name →
      w ∈ r.circuit.symbols.texts)
    (absent : groundName ∉ table.texts) (cycles : r.circuit.cycles = 0) :
    Realises d (ground r).state.circuit ∧ Closed d (ground r).state.circuit.netlist := by
  by_cases none : looseInputs d.devices d.wires = []
  · rw [ground_state, if_pos (h.isEmpty_iff.mpr none)]
    obtain ⟨drawn, watches⟩ := h.retable _ outputs known fun w hw => ⟨hw, rfl⟩
    have drive : ∀ s, d.driver? s = driverOf d.wires s := by
      intro s
      rw [Document.driver?, Document.loose, none, if_neg (by simp)]
    have start : Drawn r.circuit.symbols (d.devices ++ [])
        (d.wires ++ ([] : List Signal).map fun s => (groundSignal, s)) r.circuit.netlist := by
      simpa using drawn
    refine ⟨⟨fun w hw => known w (Or.inl hw), fun some => absurd none some,
      ⟨_, drawn.devices_of_complete drive, ?_⟩, watches, cycles⟩, ?_⟩
    · rw [Document.loose, if_pos none, List.append_nil]
    · exact start.floatingOf_eq_nil_iff (by simp) fun s => by rw [none]
  · rw [ground_state, if_neg (mt h.isEmpty_iff.mp none)]
    -- names that are still to come would get the symbol of the low source, so that only the
    -- names read so far count from here on
    have grows (w : String) (hw : w ∈ r.circuit.symbols.texts) :
        w ∈ (r.circuit.symbols.add groundName).texts :=
      SymbolTable.mem_add.mpr (Or.inr hw)
    obtain ⟨drawn, watches⟩ := h.retable (r.circuit.symbols.add groundName) outputs known
      fun w hw => ⟨grows w hw, SymbolTable.symbol_add hw⟩
    have interned : groundName ∈ (r.circuit.symbols.add groundName).texts :=
      SymbolTable.mem_add.mpr (Or.inl rfl)
    have new : groundName ∉ d.devices.map Declaration.name := by
      intro member
      obtain ⟨e, he, eq⟩ := List.mem_map.mp member
      exact absent (eq ▸ h.drawn.known e he)
    obtain ⟨us, members, powered⟩ := drawn.ground interned new
    obtain ⟨declared, shows, eq⟩ := drawn.devices_of_ground interned new fun s => rfl
    rw [SymbolTable.symbol_add_self] at powered eq
    refine ⟨⟨fun w hw => grows w (known w (Or.inl hw)), fun _ => interned,
      ⟨declared, shows, ?_⟩, watches, cycles⟩, ?_⟩
    · dsimp only
      rw [Document.loose, if_neg none, SymbolTable.symbol_add_self]
      exact eq
    · refine powered.floatingOf_eq_nil_iff (fun e he => ?_) members
      rw [List.mem_singleton.mp he]
      rfl

theorem recordFloating_clear_iff (r : Reader) : (recordFloating r).state.Clear ↔
    r.Clear ∧ (r.circuit.netlist.floatingOf fun kind => kind ≠ .clock ∧ kind ≠ .switch) = [] := by
  have diagnostics : (recordFloating r).state.diagnostics = r.diagnostics ++
      (r.circuit.netlist.floatingOf fun kind => kind ≠ .clock ∧ kind ≠ .switch).map
        r.floatingDiagnostic := rfl
  have absent : (recordFloating r).state.absent = r.absent := rfl
  rw [Clear, Clear, diagnostics, absent, List.append_eq_nil_iff, List.map_eq_nil_iff]
  tauto

/-- The section of monitors that goes through is a list of outputs. -/
theorem Stands.after_monitors (h : Stands table es ws [] r) (clear : s.Clear)
    (run : Reader.monitors r = .ok next s) :
    ∃ ss r', Stands table es ws ss r' ∧ (∀ s ∈ ss, Document.IsOutput es s) ∧ ss.Nodup ∧
      Continues r r' ∧ r.stream = ss.flatMap Signal.entry ++ ahead next r' ∧
      s = (recordFloating (ground r').state).state := by
  obtain ⟨t, s₁, took, run⟩ := bind_ok run
  obtain ⟨last, r', body, run⟩ := bind_ok run
  obtain ⟨_, s₂, grounded, run⟩ := bind_ok run
  obtain ⟨_, s₃, floats, run⟩ := bind_ok run
  obtain ⟨rfl, rfl⟩ := EStateM.pure_ok_iff.mp run
  obtain rfl := EStateM.Result.ok.inj grounded |>.2
  obtain rfl := EStateM.Result.ok.inj floats |>.2
  have clear₂ := moves_recordFloating.clear floats clear
  have clear₁ := moves_ground.clear grounded clear₂
  obtain ⟨h₁, held₁, eq₁⟩ := h.after_read took
  obtain ⟨ss, h₂, -, outputs, nodup, eq₂⟩ :=
    h₁.after_monitorEntries held₁ (by simp) List.nodup_nil clear₁ body
  have continues :=
    (moves_read.continues took).trans (Moves.continues (moves_monitorEntries t) body)
  exact ⟨ss, r', h₂, outputs, nodup, continues, eq₁.symm.trans eq₂, rfl⟩

theorem Stands.exists_monitors (h : Stands table es ws [] r)
    (outputs : ∀ s ∈ ss, Document.IsOutput es s) (nodup : ss.Nodup) {rest : List Token}
    (eq : r.stream = ss.flatMap Signal.entry ++ .keyword .finish :: rest) :
    ∃ next r', Reader.monitors r = .ok next (recordFloating (ground r').state).state ∧
      next.value = .keyword .finish ∧ Continues r r' ∧ Stands table es ws ss r' ∧
      r.stream = ss.flatMap Signal.entry ++ ahead next r' := by
  have names (s : Signal) : ∃ text l, s.entry = .name text :: l := ⟨s.device, _, rfl⟩
  obtain ⟨t, s₁, took, h₁, held₁, eq₁⟩ := h.exists_start names eq
  obtain ⟨next, r', body, h₂, eq₂⟩ := h₁.exists_monitorEntries held₁ outputs nodup
    (by simp) (rfl : beginsMonitor (.keyword .finish) = false) (eq₁.trans eq)
  obtain ⟨value, -⟩ := ahead_eq_cons eq₂ (by simp)
  have continues :=
    (moves_read.continues took).trans (Moves.continues (moves_monitorEntries t) body)
  refine ⟨next, r', ?_, value, continues, h₂, by rw [eq, eq₂]⟩
  rw [Reader.monitors, EStateM.bind_of_ok took, EStateM.bind_of_ok body]
  rfl

end LogicCircuit.Description.Reader
