import LogicCircuit.Proofs.Netlist.Assembly
import LogicCircuit.Proofs.Netlist.FixedPoint

/-!
Where every input is wired, an input reads a level, and the passes of a cycle go through and keep
the layout.
-/

namespace LogicCircuit

namespace Device

variable {v : Vocabulary} {lv : Terminal → Option Level} {d d' : Device}

theorem layout_congr_outputs {body : Body} {outputs : PinMap (Option Symbol) Level}
    (kind : body.kind = d.kind) (keys : outputs.keys = d.outputs.keys) :
    ({ d with body := body, outputs := outputs } : Device).layout = d.layout := by
  simp only [layout, Device.kind] at kind ⊢
  rw [kind, keys]

theorem layout_respond (pins : d.HasPins v) (h : d.respond v.flipFlop lv = some d') :
    d'.layout = d.layout := by
  obtain ⟨g, levels, body, -, eq⟩ | ⟨memory, set, clear, body, -, -, eq⟩ | eq := respond_cases h
  · have known : none ∈ d.outputs.keys := pins.unnamed (by simp [kind, body, Body.kind])
    rw [eq]
    exact layout_congr_outputs rfl (PinMap.keys_insert_of_mem _ known)
  · have known := (pins.flipFlop (by simp [kind, body, Body.kind])).2
    have q := known v.flipFlop.q (by simp [FlipFlopPins.outputs])
    have qbar := known v.flipFlop.qbar (by simp [FlipFlopPins.outputs])
    rw [eq]
    refine layout_congr_outputs (by simp [kind, body, Body.kind]) ?_
    rw [PinMap.keys_insert_of_mem _ (PinMap.mem_keys_insert.mpr (Or.inr qbar)),
      PinMap.keys_insert_of_mem _ q]
  · rw [eq]

theorem layout_stepped (pins : d.HasPins v) : d.stepped.layout = d.layout := by
  have unnamed (body : Body) (level : Level) (other : d.kind ≠ .flipFlop)
      (kind : body.kind = d.kind) :
      ({ d with body := body, outputs := d.outputs.insert none level } : Device).layout =
        d.layout :=
    layout_congr_outputs kind (PinMap.keys_insert_of_mem _ (pins.unnamed other))
  rw [stepped]
  cases body : d.body with
  | gate _ | flipFlop _ => rfl
  | switch level =>
    have kind : d.kind = .switch := by simp [Device.kind, body, Body.kind]
    simpa only [body] using unnamed d.body level (by simp [kind]) rfl
  | clock halfPeriod counter =>
    have kind : d.kind = .clock := by simp [Device.kind, body, Body.kind]
    dsimp only
    split
    · exact unnamed (.clock halfPeriod 0) _ (by simp [kind]) kind.symm
    · exact unnamed (.clock halfPeriod (counter + 1)) _ (by simp [kind]) kind.symm
  | generator high low counter =>
    have kind : d.kind = .generator := by simp [Device.kind, body, Body.kind]
    dsimp only
    generalize ((d.outputs.get? none).map Level.isHigh).getD true = current
    by_cases more : counter < (if current then high else low)
    · rw [if_pos more]
      exact unnamed (.generator high low (counter + 1)) _ (by simp [kind]) kind.symm
    · rw [if_neg more]
      exact unnamed (.generator high low 1) _ (by simp [kind]) kind.symm

theorem layout_remembering (level : Level) (d : Device) :
    (d.remembering level).layout = d.layout := by
  rw [remembering]
  cases body : d.body <;> simp [layout, kind, body, Body.kind]

theorem heeded_of_kind {pins : FlipFlopPins} {e : Device} (kind : d.kind = e.kind)
    (inputs : d.inputs = e.inputs) : d.heeded pins = e.heeded pins := by
  have by_kind (d : Device) : d.heeded pins = match d.kind with
      | .gate _ => d.inputs.keys
      | .flipFlop => [pins.set, pins.clear]
      | .clock | .switch | .generator => [] := by
    unfold heeded Device.kind
    cases d.body <;> rfl
  rw [by_kind, by_kind, kind, inputs]

theorem heeded_congr {pins : FlipFlopPins} {e : Device} (h : d.layout = e.layout) :
    d.heeded pins = e.heeded pins :=
  heeded_of_kind (kind_congr h) (inputs_congr h)

theorem HasPins.mem_keys_of_heeded {pin : Symbol} (pins : d.HasPins v)
    (heeded : pin ∈ d.heeded v.flipFlop) : pin ∈ d.inputs.keys := by
  rw [Device.heeded] at heeded
  cases body : d.body with
  | gate g => simpa only [body] using heeded
  | flipFlop memory =>
    have known := (pins.flipFlop (by simp [kind, body, Body.kind])).1
    simp only [body, List.mem_cons, List.not_mem_nil, or_false] at heeded
    exact known pin (by simp only [FlipFlopPins.inputs, List.mem_cons]; tauto)
  | clock _ _ | switch _ | generator _ _ _ => simp [body] at heeded

end Device

namespace Netlist

variable {n m : Netlist} {s : Symbol} {d : Device} {pin : Symbol} {order : List Symbol}

theorem mem_floating_iff :
    pin ∈ d.floating ↔ pin ∈ d.inputs.keys ∧ d.driver? pin = none := by
  rw [Device.mem_floating, PinMap.mem_keys_iff, Device.driver?]
  cases d.inputs.get? pin <;> simp

theorem mem_floatingOf_iff {kinds : Kind → Bool} (nodup : n.symbols.Nodup) :
    (s, pin) ∈ n.floatingOf kinds ↔
      ∃ d, n.device? s = some d ∧ kinds d.kind = true ∧ pin ∈ d.floating := by
  simp only [floatingOf, List.mem_flatMap, List.mem_filter, List.mem_map, Prod.mk.injEq]
  constructor
  · intro h
    obtain ⟨d, ⟨member, kind⟩, p, floats, name, rfl⟩ := h
    exact ⟨d, name ▸ device?_of_mem nodup member, kind, floats⟩
  · intro h
    obtain ⟨d, found, kind, floats⟩ := h
    exact ⟨d, ⟨mem_of_device? found, kind⟩, pin, floats, symbol_of_device? found, rfl⟩

theorem isWired_iff : n.isWired = true ↔
    ∀ d ∈ n.devices, ∀ pin ∈ d.inputs.keys, ∃ output, d.driver? pin = some output := by
  have floating (d : Device) : d.floating.isEmpty = true ↔
      ∀ pin ∈ d.inputs.keys, ∃ output, d.driver? pin = some output := by
    simp only [List.isEmpty_iff, List.eq_nil_iff_forall_not_mem, mem_floating_iff, not_and,
      ← Option.ne_none_iff_exists', ne_eq]
  simp only [isWired, List.all_eq_true, floating]

theorem SameLayout.isWired (h : n.SameLayout m) (wired : n.isWired = true) :
    m.isWired = true := by
  have layouts (n : Netlist) : n.isWired = true ↔ ∀ l ∈ n.devices.map Device.layout,
      ∀ pin ∈ l.inputs.keys, ∃ output, (l.inputs.get? pin).join = some output := by
    rw [isWired_iff, List.forall_mem_map]
    rfl
  rw [layouts, ← h.2, ← layouts]
  exact wired

theorem exists_driver {lv : Terminal → Option Level} (h : ∃ level, d.reads lv pin = some level) :
    ∃ output, d.driver? pin = some output := by
  obtain ⟨level, read⟩ := h
  obtain ⟨output, drives, -⟩ := Option.bind_eq_some_iff.mp read
  exact ⟨output, drives⟩

/-- An input reads a level exactly if it is wired. -/
theorem exists_reads_iff (proper : n.Proper) (found : n.device? s = some d) :
    (∃ level, d.reads n.level? pin = some level) ↔ ∃ output, d.driver? pin = some output := by
  refine ⟨exists_driver, fun h => ?_⟩
  obtain ⟨output, drives⟩ := h
  obtain ⟨e, source, known⟩ := proper.drivers s d found pin output drives
  obtain ⟨level, shown⟩ := Option.isSome_iff_exists.mp (PinMap.mem_keys_iff.mp known)
  refine ⟨level, ?_⟩
  rw [Device.reads, drives, Option.bind_some, level?, source, Option.bind_some, shown]

theorem exists_reads (proper : n.Proper) (wired : n.isWired = true)
    (found : n.device? s = some d) (known : pin ∈ d.inputs.keys) :
    ∃ level, d.reads n.level? pin = some level :=
  (exists_reads_iff proper found).mpr (isWired_iff.mp wired d (mem_of_device? found) pin known)

/-! Only the inputs that are heeded have to be wired for a pass. -/

/-- Every input to which some device responds is wired. -/
def Fed (n : Netlist) : Prop :=
  ∀ s d, n.device? s = some d → ∀ pin ∈ d.heeded n.vocabulary.flipFlop,
    ∃ output, d.driver? pin = some output

theorem fed_of_isWired (proper : n.Proper) (wired : n.isWired = true) : n.Fed :=
  fun s d found pin heeded => isWired_iff.mp wired d (mem_of_device? found) pin
    ((proper.pins s d found).mem_keys_of_heeded heeded)

theorem SameLayout.fed (h : n.SameLayout m) (fed : n.Fed) : m.Fed := by
  intro s e found pin heeded
  obtain ⟨d, found', same⟩ := h.symm.device? found
  rw [Device.driver?_congr same]
  rw [← h.1, Device.heeded_congr same] at heeded
  exact fed s d found' pin heeded

theorem exists_refresh (proper : n.Proper) (fed : n.Fed) (hs : s ∈ n.symbols) :
    ∃ still m, refresh s n = .ok still m ∧ n.SameLayout m := by
  obtain ⟨d, found⟩ := exists_device? hs
  obtain ⟨d', answer⟩ := Device.exists_respond_iff.mpr fun pin heeded =>
    (exists_reads_iff proper found).mpr (fed s d found pin heeded)
  refine ⟨_, _, refresh_ok_iff.mpr ⟨d, d', found, answer, rfl, rfl⟩, ?_⟩
  exact sameLayout_update found (Device.layout_respond (proper.pins s d found) answer)

theorem exists_sweep (proper : n.Proper) (fed : n.Fed) (known : ∀ s ∈ order, s ∈ n.symbols) :
    ∃ still m, sweep order n = .ok still m ∧ n.SameLayout m := by
  induction order generalizing n with
  | nil => exact ⟨true, n, rfl, SameLayout.refl n⟩
  | cons s rest ih =>
    obtain ⟨first, k, head, same⟩ := exists_refresh proper fed (known s List.mem_cons_self)
    have known' : ∀ t ∈ rest, t ∈ k.symbols := fun t ht =>
      same.symbols ▸ known t (List.mem_cons_of_mem s ht)
    obtain ⟨others, m, tail, same'⟩ := ih (same.proper proper) (same.fed fed) known'
    exact ⟨_, m, sweep_cons_ok_iff.mpr ⟨first, k, others, head, tail, rfl⟩, same.trans same'⟩

theorem sameLayout_stepSources (proper : n.Proper) : n.SameLayout n.stepSources :=
  sameLayout_map fun d hd =>
    Device.layout_stepped (proper.pins d.symbol d (device?_of_mem proper.nodup hd))

theorem exists_device?_of_mem_symbolsOf {kind : Kind} (nodup : n.symbols.Nodup)
    (h : s ∈ n.symbolsOf kind) : ∃ d, n.device? s = some d ∧ d.kind = kind := by
  obtain ⟨d, hd, name⟩ := List.mem_map.mp h
  obtain ⟨member, same⟩ := List.mem_filter.mp hd
  exact ⟨d, name ▸ device?_of_mem nodup member, of_decide_eq_true same⟩

end Netlist

end LogicCircuit
