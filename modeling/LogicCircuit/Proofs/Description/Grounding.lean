import LogicCircuit.Proofs.Description.Meaning
import LogicCircuit.Proofs.Netlist.Progress

/-!
The low source that drives the inputs of flip-flops which no connection drives, as one more
device of the drawing, with wires of its own.
-/

namespace LogicCircuit

namespace Description

variable {t t' : SymbolTable} {es : List Declaration} {ws : List (Signal × Signal)}
  {n : Netlist} {g s : Signal} {kinds : Kind → Bool}

/-- The declaration that would make the low source. -/
def groundDeclaration : Declaration :=
  ⟨groundName, .switch, [0]⟩

namespace Drawn

theorem nodup_symbols (h : Drawn t es ws n) : n.symbols.Nodup := by
  have known : ∀ name ∈ es.map Declaration.name, name ∈ t.texts := by
    intro name member
    obtain ⟨e, he, eq⟩ := List.mem_map.mp member
    exact eq ▸ h.known e he
  have names := h.nodup
  rw [h.symbols, ← Function.comp_def t.symbol, ← List.map_map]
  refine List.Nodup.map_on (fun a ha b _ eq => ?_) names
  exact (SymbolTable.symbol_inj (known a ha)).mp eq

/-- The unwired inputs are the inputs of declared devices that no wire ends at. -/
theorem mem_floatingOf_iff (h : Drawn t es ws n) {i : Symbol × Symbol} :
    i ∈ n.floatingOf kinds ↔ ∃ e ∈ es, kinds e.kind = true ∧ ∃ pin ∈ e.inputs,
      i = (t.symbol e.name, t.symbol pin) ∧ ⟨e.name, some pin⟩ ∉ ws.map Prod.snd := by
  obtain ⟨a, b⟩ := i
  rw [Netlist.mem_floatingOf_iff h.nodup_symbols]
  constructor
  · intro floats
    obtain ⟨d, found, kind, floating⟩ := floats
    obtain ⟨known, free⟩ := Netlist.mem_floating_iff.mp floating
    have member := Netlist.mem_symbols_of_device? found
    rw [h.symbols] at member
    obtain ⟨e, he, rfl⟩ := List.mem_map.mp member
    obtain ⟨d', found', depicts⟩ := h.device e he
    obtain rfl := Option.some.inj (found'.symm.trans found)
    obtain ⟨pin, hp, rfl⟩ := depicts.mem_inputs.mp known
    rw [depicts.driver pin hp, Option.map_eq_none_iff, driverOf_eq_none_iff] at free
    exact ⟨e, he, depicts.kind ▸ kind, pin, hp, rfl, free⟩
  · intro loose
    obtain ⟨e, he, kind, pin, hp, eq, free⟩ := loose
    obtain ⟨d, found, depicts⟩ := h.device e he
    obtain ⟨rfl, rfl⟩ := Prod.mk.inj eq
    refine ⟨d, found, depicts.kind ▸ kind, Netlist.mem_floating_iff.mpr ⟨?_, ?_⟩⟩
    · exact depicts.mem_inputs.mpr ⟨pin, hp, rfl⟩
    · rw [depicts.driver pin hp, driverOf_eq_none_iff.mpr free, Option.map_none]

/-- Connecting a source to inputs goes on with the drawing as far as they are unwired. -/
theorem connectAll (h : Drawn t es ws n) (source : Document.IsOutput es g) {ss : List Signal}
    (targets : ∀ s ∈ ss, Document.IsInput es s) :
    ∃ us : List Signal, (∀ s, s ∈ us ↔ s ∈ ss ∧ s ∉ ws.map Prod.snd) ∧
      Drawn t es (ws ++ us.map fun s => (g, s)) (n.connectAll (g.terminal t)
        (ss.map fun s => (t.symbol s.device, t.symbol (s.pin.getD "")))) := by
  induction ss generalizing ws n with
  | nil => exact ⟨[], by simp, by simpa [Netlist.connectAll] using h⟩
  | cons s rest ih =>
    have target := targets s List.mem_cons_self
    have later := fun s hs => targets s (List.mem_cons_of_mem _ hs)
    have ends : (⟨t.symbol s.device, some (t.symbol (s.pin.getD ""))⟩ : Terminal) =
        s.terminal t := by
      obtain ⟨-, -, -, pin, -, hs⟩ := target
      rw [Signal.terminal, hs, Option.map_some, Option.getD_some]
    rw [List.map_cons, Netlist.connectAll, List.foldl_cons, ends]
    by_cases wired : s ∈ ws.map Prod.snd
    · have refused : (n.connect (g.terminal t) (s.terminal t)).toOption = none := by
        cases step : n.connect (g.terminal t) (s.terminal t) with
        | error _ => rfl
        | ok m => exact absurd wired (h.connect source step).2.1
      obtain ⟨us, members, drawn⟩ := ih h later
      refine ⟨us, fun s' => ?_, ?_⟩
      · rw [members, List.mem_cons]
        constructor
        · intro hs
          exact ⟨Or.inr hs.1, hs.2⟩
        · intro hs
          obtain ⟨rfl | hs, free⟩ := hs
          · exact absurd wired free
          · exact ⟨hs, free⟩
      · rw [refused, Option.getD_none]
        exact drawn
    · obtain ⟨m, step⟩ := h.exists_connect source target wired
      obtain ⟨us, members, drawn⟩ := ih (h.connect source step).2.2 later
      refine ⟨s :: us, fun s' => ?_, ?_⟩
      · rw [List.mem_cons, members, List.mem_cons, List.map_append, List.mem_append]
        by_cases same : s' = s
        · simp [same, wired]
        · simp [same]
      · rw [step, List.map_cons, List.append_cons]
        exact drawn

theorem exists_loose (h : Drawn t es ws n) :
    ∃ ss : List Signal, (∀ s, s ∈ ss ↔ s ∈ looseInputs es ws) ∧
    ss.map (fun s => (t.symbol s.device, t.symbol (s.pin.getD ""))) =
      n.floatingOf fun kind => kind = .flipFlop := by
  have each : ∀ i ∈ n.floatingOf (fun kind => kind = .flipFlop), ∃ s, s ∈ looseInputs es ws ∧
      (t.symbol s.device, t.symbol (s.pin.getD "")) = i := by
    intro i hi
    obtain ⟨e, he, kind, pin, hp, eq, free⟩ := h.mem_floatingOf_iff.mp hi
    exact ⟨⟨e.name, some pin⟩,
      mem_looseInputs.mpr ⟨e, he, of_decide_eq_true kind, pin, hp, rfl, free⟩, eq.symm⟩
  have lift (l : List (Symbol × Symbol)) (each : ∀ i ∈ l, ∃ s, s ∈ looseInputs es ws ∧
      (t.symbol s.device, t.symbol (s.pin.getD "")) = i) :
      ∃ ss : List Signal, (∀ s ∈ ss, s ∈ looseInputs es ws) ∧
        ss.map (fun s => (t.symbol s.device, t.symbol (s.pin.getD ""))) = l := by
    induction l with
    | nil => exact ⟨[], by simp, rfl⟩
    | cons i rest ih =>
      obtain ⟨s, loose, eq⟩ := each i List.mem_cons_self
      obtain ⟨ss, all, eqs⟩ := ih fun i hi => each i (List.mem_cons_of_mem _ hi)
      refine ⟨s :: ss, ?_, by rw [List.map_cons, eq, eqs]⟩
      intro s' hs
      rcases List.mem_cons.mp hs with rfl | hs
      · exact loose
      · exact all s' hs
  obtain ⟨ss, all, eq⟩ := lift _ each
  refine ⟨ss, fun s => ⟨all s, fun loose => ?_⟩, eq⟩
  obtain ⟨e, he, kind, pin, hp, rfl, free⟩ := mem_looseInputs.mp loose
  have member : (t.symbol e.name, t.symbol pin) ∈ n.floatingOf fun kind => kind = .flipFlop :=
    h.mem_floatingOf_iff.mpr ⟨e, he, decide_eq_true kind, pin, hp, rfl, free⟩
  rw [← eq] at member
  obtain ⟨s', hs, same⟩ := List.mem_map.mp member
  obtain ⟨e', he', -, pin', hp', rfl, -⟩ := mem_looseInputs.mp (all s' hs)
  obtain ⟨d, -, depicts⟩ := h.device e' he'
  have known := h.words pin' (depicts.inputs_words pin' hp')
  obtain ⟨first, second⟩ := Prod.mk.inj same
  rw [(SymbolTable.symbol_inj (h.known e' he')).mp first,
    (SymbolTable.symbol_inj known).mp second] at hs
  exact hs

/-- The low source goes on with the drawing, and drives what is loose. -/
theorem ground (h : Drawn t es ws n) (known : groundName ∈ t.texts)
    (new : groundName ∉ es.map Declaration.name) :
    ∃ us : List Signal, (∀ s, s ∈ us ↔ s ∈ looseInputs es ws) ∧
      Drawn t (es ++ [groundDeclaration]) (ws ++ us.map fun s => (groundSignal, s))
        (n.grounded (t.symbol groundName)) := by
  have makes : groundDeclaration.Makes t (Device.newSwitch (t.symbol groundName) .low) :=
    .switch 0 (by decide)
  have powered := h.add known new makes
  have source : Document.IsOutput (es ++ [groundDeclaration]) groundSignal := by
    refine ⟨groundDeclaration, by simp, rfl, ?_⟩
    simp [groundDeclaration, groundSignal, Declaration.outputs]
  obtain ⟨ss, loose, eq⟩ := h.exists_loose
  have targets : ∀ s ∈ ss, Document.IsInput (es ++ [groundDeclaration]) s := by
    intro s hs
    obtain ⟨e, he, -, pin, hp, rfl, -⟩ := mem_looseInputs.mp ((loose s).mp hs)
    exact ⟨e, List.mem_append_left _ he, rfl, pin, hp, rfl⟩
  obtain ⟨us, members, drawn⟩ := powered.connectAll source targets
  refine ⟨us, fun s => ?_, ?_⟩
  · rw [members, loose, and_iff_left_iff_imp]
    intro hs
    obtain ⟨-, -, -, -, -, -, free⟩ := mem_looseInputs.mp hs
    exact free
  · have absent : (n.device? (t.symbol groundName)).isSome = false := by
      rw [Option.isSome_eq_false_iff, Option.isNone_iff_eq_none, Netlist.device?_eq_none_iff,
        h.mem_symbols_iff]
      exact new
    rw [Netlist.grounded, absent, ← eq]
    exact drawn

end Drawn

end Description

end LogicCircuit
