import LogicCircuit.Proofs.Description.Grounding

/-!
A drawing with the low source in its place has the devices that the description means.
-/

namespace LogicCircuit.Description

open LogicCircuit (Device Netlist Circuit)

variable {t : SymbolTable} {es : List Declaration} {ws : List (Signal × Signal)}
  {us : List Signal} {n : Netlist} {g s : Signal} {d : Device} {doc : Document}

/-- New wires from one source add that source to the drivers. -/
theorem driverOf_append_map (fresh : ∀ s ∈ us, s ∉ ws.map Prod.snd) :
    driverOf (ws ++ us.map fun s => (g, s)) s = if s ∈ us then some g else driverOf ws s := by
  rw [driverOf, driverOf, List.find?_append]
  by_cases member : s ∈ us
  · have free := driverOf_eq_none_iff.mpr (fresh s member)
    rw [driverOf, Option.map_eq_none_iff] at free
    rw [free, Option.none_or, if_pos member]
    have found : ((us.map fun s => (g, s)).find? fun w => w.2 = s).isSome := by
      simpa [List.find?_isSome] using member
    obtain ⟨w, hw⟩ := Option.isSome_iff_exists.mp found
    obtain ⟨u, -, rfl⟩ := List.mem_map.mp (List.mem_of_find?_eq_some hw)
    rw [hw]
    rfl
  · have none : ((us.map fun s => (g, s)).find? fun w => w.2 = s) = none := by
      rw [List.find?_eq_none]
      intro w hw
      obtain ⟨u, hu, rfl⟩ := List.mem_map.mp hw
      have apart : u ≠ s := fun eq => member (eq ▸ hu)
      simpa using apart
    rw [none, Option.or_none, if_neg member]

/-- The devices of the netlist stand in the order of the declarations. -/
theorem Drawn.forall₂ (h : Drawn t es ws n) :
    List.Forall₂ (fun e d => d.symbol = t.symbol e.name ∧ Depicts t ws e d) es n.devices := by
  have names : n.devices.map Device.symbol = es.map fun e => t.symbol e.name := h.symbols
  have length : es.length = n.devices.length := by
    simpa using (congrArg List.length names).symm
  refine List.forall₂_iff_get.mpr ⟨length, fun i low high => ?_⟩
  have symbol : (n.devices.get ⟨i, high⟩).symbol = t.symbol (es.get ⟨i, low⟩).name := by
    have at_i := congrArg (fun l => l[i]?) names
    simpa [List.getElem?_eq_getElem low, List.getElem?_eq_getElem high] using at_i
  obtain ⟨d, found, depicts⟩ := h.device _ (List.get_mem es ⟨i, low⟩)
  have same := Netlist.device?_of_mem h.nodup_symbols (List.get_mem n.devices ⟨i, high⟩)
  rw [symbol, found] at same
  exact ⟨symbol, Option.some.inj same ▸ depicts⟩

theorem forall₂_append_left {α β : Type} {R : α → β → Prop} {l₁ l₂ : List α} {m : List β}
    (h : List.Forall₂ R (l₁ ++ l₂) m) :
    ∃ m₁ m₂, m = m₁ ++ m₂ ∧ List.Forall₂ R l₁ m₁ ∧ List.Forall₂ R l₂ m₂ := by
  induction l₁ generalizing m with
  | nil => exact ⟨[], m, rfl, .nil, h⟩
  | cons a l₁ ih =>
    cases h with
    | cons head tail =>
      obtain ⟨m₁, m₂, rfl, first, second⟩ := ih tail
      exact ⟨_ :: m₁, m₂, rfl, .cons head first, second⟩

theorem Depicts.shows {e : Declaration} (h : Depicts t ws e d) (known : e.name ∈ t.texts)
    (symbol : d.symbol = t.symbol e.name) {drives : Signal → Option Signal}
    (agree : ∀ pin ∈ e.inputs, drives ⟨e.name, some pin⟩ = driverOf ws ⟨e.name, some pin⟩) :
    Shows t drives e d := by
  obtain ⟨made, makes, body, outputs, keys⟩ := h.made
  refine ⟨?_, ⟨made, ?_, body, outputs, keys⟩, fun k => h.mem_inputs, fun pin hp => ?_⟩
  · rw [symbol]
    exact SymbolTable.text?_symbol known
  · rw [symbol]
    exact Device.make_of_made makes
  · rw [agree pin hp, h.driver pin hp]

/-- The device that depicts the low source is a switch in the low setting. -/
theorem Depicts.eq_newSwitch (h : Depicts t ws groundDeclaration d)
    (symbol : d.symbol = t.symbol groundName) :
    d = Device.newSwitch (t.symbol groundName) .low := by
  obtain ⟨made, makes, body, outputs, keys⟩ := h.made
  have known : groundDeclaration.Makes t (Device.newSwitch (t.symbol groundName) .low) :=
    .switch 0 (by decide)
  have same : made = Device.newSwitch (t.symbol groundName) .low := by
    have eq := (Device.make_of_made makes).symm.trans (Device.make_of_made known)
    exact Except.ok.inj eq
  subst same
  obtain ⟨s, b, inputs, o⟩ := d
  have none : inputs.entries = [] := List.map_eq_nil_iff.mp keys
  simp only at symbol body outputs
  subst symbol body outputs
  obtain ⟨entries, sorted⟩ := inputs
  subst none
  rfl

/-- The netlist with the low source, if one is needed, is the one that the description means. -/
theorem Drawn.devices_of_ground (h : Drawn t es ws n) (known : groundName ∈ t.texts)
    (new : groundName ∉ es.map Declaration.name) {drives : Signal → Option Signal}
    (drive : ∀ s, drives s =
      if s ∈ looseInputs es ws then some groundSignal else driverOf ws s) :
    ∃ declared, List.Forall₂ (Shows t drives) es declared ∧
      (n.grounded (t.symbol groundName)).devices =
        declared ++ [Device.newSwitch (t.symbol groundName) .low] := by
  obtain ⟨us, members, drawn⟩ := h.ground known new
  have fresh : ∀ s ∈ us, s ∉ ws.map Prod.snd := by
    intro s hs
    obtain ⟨-, -, -, -, -, -, free⟩ := mem_looseInputs.mp ((members s).mp hs)
    exact free
  obtain ⟨declared, low, eq, first, second⟩ := forall₂_append_left drawn.forall₂
  obtain ⟨x, rest, ⟨symbol, depicts⟩, none, rfl⟩ := List.forall₂_cons_left_iff.mp second
  obtain rfl := List.forall₂_nil_left_iff.mp none
  refine ⟨declared, ?_, by rw [eq, depicts.eq_newSwitch symbol]⟩
  have all : List.Forall₂ (fun e d => e ∈ es ∧ d.symbol = t.symbol e.name ∧
      Depicts t (ws ++ us.map fun s => (groundSignal, s)) e d) es declared :=
    (List.forall₂_and_left _ _).mpr ⟨fun e he => he, first⟩
  refine all.imp fun e d here => ?_
  obtain ⟨he, symbol, depicts⟩ := here
  refine depicts.shows (h.known e he) symbol fun pin _ => ?_
  rw [drive, driverOf_append_map fresh]
  simp only [members]

theorem Drawn.devices_of_complete (h : Drawn t es ws n) {drives : Signal → Option Signal}
    (drive : ∀ s, drives s = driverOf ws s) :
    List.Forall₂ (Shows t drives) es n.devices := by
  have all : List.Forall₂ (fun e d => e ∈ es ∧ d.symbol = t.symbol e.name ∧
      Depicts t ws e d) es n.devices :=
    (List.forall₂_and_left _ _).mpr ⟨fun e he => he, h.forall₂⟩
  refine all.imp fun e d here => ?_
  obtain ⟨he, symbol, depicts⟩ := here
  exact depicts.shows (h.known e he) symbol fun pin _ => drive _

/-- After that no input is left unwired, unless one of another kind was left out. -/
theorem Drawn.floatingOf_eq_nil_iff {ls : List Declaration}
    (h : Drawn t (es ++ ls) (ws ++ us.map fun s => (g, s)) n)
    (switches : ∀ e ∈ ls, e.kind = .switch) (members : ∀ s, s ∈ us ↔ s ∈ looseInputs es ws) :
    (n.floatingOf fun kind => kind ≠ .clock ∧ kind ≠ .switch) = [] ↔
      ∀ e ∈ es, e.kind ≠ .flipFlop → ∀ pin ∈ e.inputs, ⟨e.name, some pin⟩ ∈ ws.map Prod.snd := by
  have wired (s : Signal) : s ∈ (ws ++ us.map fun s => (g, s)).map Prod.snd ↔
      s ∈ ws.map Prod.snd ∨ s ∈ looseInputs es ws := by
    rw [List.map_append, List.mem_append, List.map_map, ← members]
    simp
  have apart : (es.map Declaration.name).Nodup := by
    have names := h.nodup
    rw [List.map_append] at names
    exact (List.nodup_append.mp names).1
  rw [List.eq_nil_iff_forall_not_mem]
  constructor
  · intro none e he other pin hp
    by_contra free
    have kinds : e.kind ≠ .clock ∧ e.kind ≠ .switch := by
      constructor
      · intro clock
        simp [Declaration.inputs, clock] at hp
      · intro switch
        simp [Declaration.inputs, switch] at hp
    refine none (t.symbol e.name, t.symbol pin) (h.mem_floatingOf_iff.mpr
      ⟨e, List.mem_append_left _ he, decide_eq_true kinds, pin, hp, rfl, ?_⟩)
    rw [wired]
    intro driven
    rcases driven with driven | loose
    · exact free driven
    · obtain ⟨e', he', kind, pin', -, eq, -⟩ := mem_looseInputs.mp loose
      have same : e = e' := List.inj_on_of_nodup_map apart he he' (congrArg Signal.device eq)
      exact other (same ▸ kind)
  · intro complete i floats
    obtain ⟨e, he, kinds, pin, hp, -, free⟩ := h.mem_floatingOf_iff.mp floats
    rw [wired, not_or] at free
    rcases List.mem_append.mp he with he | low
    · by_cases kind : e.kind = .flipFlop
      · exact free.2 (mem_looseInputs.mpr ⟨e, he, kind, pin, hp, rfl, free.1⟩)
      · exact free.1 (complete e he kind pin hp)
    · exact (of_decide_eq_true kinds).2 (switches e low)

end LogicCircuit.Description
