import LogicCircuit.Netlist.Ground
import LogicCircuit.Proofs.Netlist.Connect
import LogicCircuit.Proofs.Vocabulary

/-!
Netlists that are put together by declaring and connecting devices, in whatever state, and what
their layout promises.
-/

namespace LogicCircuit

/-- What of a device no run changes. -/
structure Layout where
  symbol : Symbol
  kind : Kind
  inputs : PinMap Symbol (Option Terminal)
  outputs : List (Option Symbol)

namespace Device

variable {v : Vocabulary} {d e : Device}

def layout (d : Device) : Layout :=
  ⟨d.symbol, d.kind, d.inputs, d.outputs.keys⟩

theorem kind_congr (h : d.layout = e.layout) : d.kind = e.kind :=
  congrArg Layout.kind h

theorem inputs_congr (h : d.layout = e.layout) : d.inputs = e.inputs :=
  congrArg Layout.inputs h

theorem driver?_congr (h : d.layout = e.layout) (pin : Symbol) : d.driver? pin = e.driver? pin := by
  rw [driver?, driver?, inputs_congr h]

/-- The device has the pins with which one of its kind is made. -/
def HasPins (v : Vocabulary) (d : Device) : Prop :=
  ∃ first second made, Made v d.symbol d.kind first second made ∧
    d.inputs.keys = made.inputs.keys ∧ d.outputs.keys = made.outputs.keys

theorem hasPins_congr (h : d.layout = e.layout) : d.HasPins v ↔ e.HasPins v := by
  simp only [layout, Layout.mk.injEq] at h
  unfold HasPins
  rw [h.1, h.2.1, h.2.2.1, h.2.2.2]

theorem Made.hasPins {s : Symbol} {k : Kind} {first second : Option Nat}
    (h : Made v s k first second d) : d.HasPins v := by
  refine ⟨first, second, d, ?_, rfl, rfl⟩
  rw [h.symbol, h.kind]
  exact h

theorem HasPins.flipFlop (h : d.HasPins v) (kind : d.kind = .flipFlop) :
    (∀ pin ∈ v.flipFlop.inputs, pin ∈ d.inputs.keys) ∧
      ∀ pin ∈ v.flipFlop.outputs, some pin ∈ d.outputs.keys := by
  obtain ⟨first, second, made, how, inputs, outputs⟩ := h
  rw [kind] at how
  cases how
  rw [inputs, outputs]
  constructor
  · intro pin h
    exact PinMap.mem_keys_replicate.mpr h
  · intro pin h
    simp only [FlipFlopPins.outputs, List.mem_cons, List.not_mem_nil, or_false] at h
    refine PinMap.mem_keys_insert.mpr ?_
    obtain q | qbar := h
    · exact Or.inr (PinMap.mem_keys_insert.mpr (Or.inl (congrArg some q)))
    · exact Or.inl (congrArg some qbar)

theorem HasPins.unnamed (h : d.HasPins v) (kind : d.kind ≠ .flipFlop) :
    none ∈ d.outputs.keys := by
  obtain ⟨first, second, made, how, -, outputs⟩ := h
  rw [outputs]
  generalize d.kind = k at how kind
  cases how with
  | flipFlop => exact absurd rfl kind
  | _ => exact PinMap.mem_keys_insert.mpr (Or.inl rfl)

theorem HasPins.eq_none {pin : Option Symbol} (h : d.HasPins v) (kind : d.kind ≠ .flipFlop)
    (known : pin ∈ d.outputs.keys) : pin = none := by
  obtain ⟨first, second, made, how, -, outputs⟩ := h
  rw [outputs] at known
  generalize d.kind = k at how kind
  cases how with
  | flipFlop => exact absurd rfl kind
  | _ => simpa [PinMap.mem_keys_iff] using PinMap.mem_keys_insert.mp known

end Device

namespace Netlist

variable {n m k : Netlist} {s t : Symbol} {d e : Device} {f : Device → Device}

/-- Both netlists have the same devices in the same wiring; only their state may differ. -/
def SameLayout (n m : Netlist) : Prop :=
  n.vocabulary = m.vocabulary ∧ n.devices.map Device.layout = m.devices.map Device.layout

theorem SameLayout.refl (n : Netlist) : n.SameLayout n := ⟨rfl, rfl⟩

theorem SameLayout.symm (h : n.SameLayout m) : m.SameLayout n := ⟨h.1.symm, h.2.symm⟩

theorem SameLayout.trans (h : n.SameLayout m) (h' : m.SameLayout k) : n.SameLayout k :=
  ⟨h.1.trans h'.1, h.2.trans h'.2⟩

theorem SameLayout.symbols (h : n.SameLayout m) : n.symbols = m.symbols := by
  have names := congrArg (List.map Layout.symbol) h.2
  rw [List.map_map, List.map_map] at names
  exact names

/-- Devices that agree in some respect, name included, are found under the same names. -/
theorem exists_device?_of_map_eq {α : Type} {g : Device → α} (name : α → Symbol)
    (names : ∀ d, name (g d) = d.symbol) (same : n.devices.map g = m.devices.map g)
    (found : n.device? s = some d) : ∃ e, m.device? s = some e ∧ g d = g e := by
  have find (n : Netlist) : (n.device? s).map g = (n.devices.map g).find? fun a => name a = s := by
    rw [Netlist.device?, List.find?_map]
    simp only [Function.comp_def, names]
  have same := (find n).trans ((congrArg _ same).trans (find m).symm)
  rw [found, Option.map_some] at same
  obtain ⟨e, found', eq⟩ := Option.map_eq_some_iff.mp same.symm
  exact ⟨e, found', eq.symm⟩

theorem SameLayout.device? (h : n.SameLayout m) (found : n.device? s = some d) :
    ∃ e, m.device? s = some e ∧ d.layout = e.layout :=
  exists_device?_of_map_eq Layout.symbol (fun _ => rfl) h.2 found

theorem SameLayout.exists_mem (h : n.SameLayout m) (hd : d ∈ n.devices) :
    ∃ e ∈ m.devices, d.layout = e.layout := by
  have member : d.layout ∈ m.devices.map Device.layout := h.2 ▸ List.mem_map_of_mem hd
  obtain ⟨e, he, same⟩ := List.mem_map.mp member
  exact ⟨e, he, same.symm⟩

theorem SameLayout.kindOf? (h : n.SameLayout m) : n.kindOf? = m.kindOf? := by
  funext s
  cases found : n.device? s with
  | none =>
    rw [Netlist.kindOf?, Netlist.kindOf?, found, eq_none_of_symbols h.symbols found]
  | some d =>
    obtain ⟨e, found', same⟩ := h.device? found
    rw [Netlist.kindOf?, Netlist.kindOf?, found, found', Option.map_some, Option.map_some,
      Device.kind_congr same]

theorem SameLayout.driver? (h : n.SameLayout m) : n.driver? = m.driver? := by
  funext s pin
  cases found : n.device? s with
  | none =>
    rw [Netlist.driver?, Netlist.driver?, found, eq_none_of_symbols h.symbols found]
  | some d =>
    obtain ⟨e, found', same⟩ := h.device? found
    rw [Netlist.driver?, Netlist.driver?, found, found', Option.bind_some, Option.bind_some,
      Device.driver?_congr same]

theorem sameLayout_map {n : Netlist} (h : ∀ d ∈ n.devices, (f d).layout = d.layout) :
    n.SameLayout { n with devices := n.devices.map f } := by
  refine ⟨rfl, ?_⟩
  rw [List.map_map]
  exact (List.map_congr_left h).symm

/-- What a change of one device leaves as it is of that device, it leaves of all. -/
theorem map_update {α : Type} {g : Device → α} (found : n.device? s = some d)
    (h : g (f d) = g d) : (n.update s f).devices.map g = n.devices.map g := by
  obtain ⟨v, ds⟩ := n
  simp only [device?, update] at found ⊢
  induction ds with
  | nil => rfl
  | cons e rest ih =>
    by_cases hit : e.symbol = s
    · simp only [List.find?_cons, hit, decide_true, Option.some.injEq] at found
      subst found
      rw [updateFirst, if_pos hit, List.map_cons, List.map_cons, h]
    · simp only [List.find?_cons, hit, decide_false] at found
      simp [updateFirst, hit, ih found]

/-- A change of one device and one of all devices, neither of which gets in the way of the other. -/
theorem map_update_comm {g : Device → Device} (names : ∀ e, (g e).symbol = e.symbol)
    (found : n.device? s = some d) (h : g (f d) = f (g d)) :
    (n.update s f).devices.map g = updateFirst s f (n.devices.map g) := by
  obtain ⟨v, ds⟩ := n
  simp only [device?, update] at found ⊢
  induction ds with
  | nil => rfl
  | cons e rest ih =>
    by_cases hit : e.symbol = s
    · simp only [List.find?_cons, hit, decide_true, Option.some.injEq] at found
      subst found
      rw [updateFirst, if_pos hit, List.map_cons, List.map_cons, updateFirst, names, if_pos hit, h]
    · simp only [List.find?_cons, hit, decide_false] at found
      simp [updateFirst, hit, names, ih found]

theorem sameLayout_update (found : n.device? s = some d) (h : (f d).layout = d.layout) :
    n.SameLayout (n.update s f) :=
  ⟨rfl, (map_update found h).symm⟩

/-- The netlist has the output. -/
def HasOutput (n : Netlist) (out : Terminal) : Prop :=
  ∃ d, n.device? out.device = some d ∧ out.pin ∈ d.outputs.keys

theorem SameLayout.hasOutput {out : Terminal} (h : n.SameLayout m) (known : n.HasOutput out) :
    m.HasOutput out := by
  obtain ⟨d, found, shown⟩ := known
  obtain ⟨e, found', same⟩ := h.device? found
  simp only [Device.layout, Layout.mk.injEq] at same
  exact ⟨e, found', same.2.2.2 ▸ shown⟩

/-- What holds of a netlist by the way it was put together, whatever its state. -/
structure Proper (n : Netlist) : Prop where
  vocabulary : n.vocabulary.IsProper
  nodup : n.symbols.Nodup
  pins : ∀ s d, n.device? s = some d → d.HasPins n.vocabulary
  drivers : ∀ s d, n.device? s = some d → ∀ pin output, d.driver? pin = some output →
    ∃ e, n.device? output.device = some e ∧ output.pin ∈ e.outputs.keys

theorem SameLayout.proper (h : n.SameLayout m) (proper : n.Proper) : m.Proper := by
  refine ⟨h.1 ▸ proper.vocabulary, h.symbols ▸ proper.nodup, fun s d found => ?_,
    fun s d found pin output drives => ?_⟩
  · obtain ⟨e, found', same⟩ := h.symm.device? found
    rw [Device.hasPins_congr same, ← h.1]
    exact proper.pins s e found'
  · obtain ⟨e, found', same⟩ := h.symm.device? found
    simp only [Device.layout, Layout.mk.injEq] at same
    have drives' : e.driver? pin = some output := by
      rw [← drives, Device.driver?, Device.driver?, same.2.2.1]
    obtain ⟨source, source_found, output_known⟩ := proper.drivers s e found' pin output drives'
    obtain ⟨source', source_found', same'⟩ := h.device? source_found
    simp only [Device.layout, Layout.mk.injEq] at same'
    exact ⟨source', source_found', same'.2.2.2 ▸ output_known⟩

/-- A netlist that was put together from devices of all kinds, and its wires. -/
inductive Assembled : Netlist → Prop
  | empty (t : SymbolTable) (known : ∀ w ∈ Vocabulary.words, w ∈ t.texts) :
    Assembled (Netlist.empty t)
  | declare {n m : Netlist} {s : Symbol} {kind : Kind} {first second : Option Nat}
    (before : Assembled n) (step : n.declare s kind first second = .ok m) : Assembled m
  | addSwitch {n : Netlist} {s : Symbol} (before : Assembled n) (free : n.device? s = none)
    (level : Level) : Assembled (n.addSwitch s level)
  | connect {n m : Netlist} {first second : Terminal}
    (before : Assembled n) (step : n.connect first second = .ok m) : Assembled m

theorem proper_empty {t : SymbolTable} (known : ∀ w ∈ Vocabulary.words, w ∈ t.texts) :
    (Netlist.empty t).Proper := by
  refine ⟨Vocabulary.isProper_ofTable known, List.nodup_nil, ?_, ?_⟩
  all_goals
    intro s d found
    cases found

theorem proper_add (proper : n.Proper) (free : n.device? d.symbol = none)
    (pins : d.HasPins n.vocabulary) (unwired : ∀ pin, d.driver? pin = none) :
    (n.add d).Proper := by
  have cases_of {s : Symbol} {e : Device} (found : (n.add d).device? s = some e) :
      n.device? s = some e ∨ e = d := by
    simp only [device?, add, List.find?_append] at found ⊢
    cases old : n.devices.find? fun d => d.symbol = s with
    | some e' =>
      rw [old, Option.some_or] at found
      exact Or.inl found
    | none =>
      rw [old, Option.none_or] at found
      exact Or.inr (by simpa using List.mem_of_find?_eq_some found)
  refine ⟨proper.vocabulary, ?_, fun s e found => ?_, fun s e found pin output drives => ?_⟩
  · rw [symbols_add, List.nodup_append]
    refine ⟨proper.nodup, List.nodup_singleton _, fun s hs t ht eq => ?_⟩
    rw [List.mem_singleton] at ht
    exact device?_eq_none_iff.mp free (ht ▸ eq ▸ hs)
  · obtain old | new := cases_of found
    · exact proper.pins s e old
    · exact new ▸ pins
  · obtain old | new := cases_of found
    · obtain ⟨source, source_found, known⟩ := proper.drivers s e old pin output drives
      exact ⟨source, device?_add_of_device? source_found, known⟩
    · rw [new, unwired] at drives
      cases drives

theorem proper_wires {input output : Terminal} (proper : n.Proper) (h : Wires n m input output) :
    m.Proper := by
  obtain ⟨d, e, pin, hd, he, -, unwired, known, eq⟩ := h
  have name : ∀ d : Device, d.symbol = input.device → (d.wired pin output).symbol = input.device :=
    fun _ name => name
  have input_known : pin ∈ d.inputs.keys := PinMap.mem_keys_iff.mpr (by simp [unwired])
  -- the changed device has the pins that it had, and the others are the same
  have before {s : Symbol} {e : Device} (found : m.device? s = some e) :
      ∃ e', n.device? s = some e' ∧ (e = e' ∨ e' = d ∧ e = d.wired pin output) := by
    by_cases hit : s = input.device
    · rw [eq, hit, device?_update_self n name, hd, Option.map_some] at found
      exact ⟨d, hit ▸ hd, Or.inr ⟨rfl, (Option.some.inj found).symm⟩⟩
    · rw [eq, device?_update_of_ne n name hit] at found
      exact ⟨e, found, Or.inl rfl⟩
  have after {s : Symbol} {e : Device} (found : n.device? s = some e) :
      ∃ e', m.device? s = some e' ∧ e'.outputs = e.outputs := by
    by_cases hit : s = input.device
    · rw [hit, hd] at found
      rw [eq, hit, device?_update_self n name, hd, Option.map_some]
      exact ⟨_, rfl, by rw [← Option.some.inj found]; rfl⟩
    · rw [eq, device?_update_of_ne n name hit]
      exact ⟨e, found, rfl⟩
  have symbols : m.symbols = n.symbols := eq ▸ symbols_update n name
  have vocabulary : m.vocabulary = n.vocabulary := eq ▸ rfl
  refine ⟨vocabulary ▸ proper.vocabulary, symbols ▸ proper.nodup, fun s e' found => ?_,
    fun s e' found p out drives => ?_⟩
  · rw [vocabulary]
    obtain ⟨e'', found', same | ⟨same, changed⟩⟩ := before found
    · exact same ▸ proper.pins s e'' found'
    · obtain ⟨first, second, made, how, inputs, outputs⟩ := proper.pins s d (same ▸ found')
      subst changed
      exact ⟨first, second, made, how, (Device.keys_wired input_known).trans inputs, outputs⟩
  · have old : out = output ∨ ∃ e'', n.device? s = some e'' ∧ e''.driver? p = some out := by
      obtain ⟨e'', found', same | ⟨same, changed⟩⟩ := before found
      · exact Or.inr ⟨e'', found', same ▸ drives⟩
      · subst changed
        by_cases hit : p = pin
        · rw [hit, Device.driver?_wired_self] at drives
          exact Or.inl (Option.some.inj drives).symm
        · rw [Device.driver?_wired_of_ne d output hit] at drives
          exact Or.inr ⟨d, same ▸ found', drives⟩
    obtain new | ⟨e'', found', drives'⟩ := old
    · obtain ⟨source, source_found, same⟩ := after he
      rw [new]
      exact ⟨source, source_found, same ▸ PinMap.contains_iff.mp known⟩
    · obtain ⟨source, source_found, output_known⟩ := proper.drivers s e'' found' p out drives'
      obtain ⟨source', source_found', same⟩ := after source_found
      exact ⟨source', source_found', same ▸ output_known⟩

theorem proper_of_assembled (h : n.Assembled) : n.Proper := by
  induction h with
  | empty t known => exact proper_empty known
  | declare before step ih =>
    obtain ⟨free, d, made, rfl⟩ := declare_ok_iff.mp step
    exact proper_add ih (made.symbol.symm ▸ free) made.hasPins made.driver?
  | addSwitch before free level ih =>
    refine proper_add ih free ?_ fun _ => rfl
    exact ⟨some 0, none, _, Device.Made.switch 0 (by decide), rfl, rfl⟩
  | connect before step ih =>
    rcases wires_of_connect step with h | h
    · exact proper_wires ih h
    · exact proper_wires ih h

/-- Declares several devices, as far as that can be done. -/
def declareAll (n : Netlist) (devices : List (Symbol × Kind × Option Nat × Option Nat)) :
    Netlist :=
  devices.foldl (fun n d => (n.declare d.1 d.2.1 d.2.2.1 d.2.2.2).toOption.getD n) n

/-- What every way of putting a netlist together keeps. -/
structure Additive (P : Netlist → Prop) : Prop where
  declare : ∀ n m s kind first second, P n → n.declare s kind first second = .ok m → P m
  addSwitch : ∀ n s level, P n → n.device? s = none → P (n.addSwitch s level)
  connect : ∀ n m first second, P n → n.connect first second = .ok m → P m

section
variable {P : Netlist → Prop} (additive : Additive P) (h : P n)
include additive h

theorem Additive.declareAll (devices : List (Symbol × Kind × Option Nat × Option Nat)) :
    P (n.declareAll devices) := by
  induction devices generalizing n with
  | nil => exact h
  | cons d rest ih =>
    rw [Netlist.declareAll, List.foldl_cons]
    refine ih ?_
    cases step : n.declare d.1 d.2.1 d.2.2.1 d.2.2.2 with
    | error _ => exact h
    | ok m => exact additive.declare _ _ _ _ _ _ h step

theorem Additive.connectAll (output : Terminal) (inputs : List (Symbol × Symbol)) :
    P (n.connectAll output inputs) := by
  induction inputs generalizing n with
  | nil => exact h
  | cons input rest ih =>
    rw [Netlist.connectAll, List.foldl_cons]
    refine ih ?_
    cases step : n.connect output ⟨input.1, some input.2⟩ with
    | error _ => exact h
    | ok m => exact additive.connect _ _ _ _ h step

theorem Additive.grounded (ground : Symbol) : P (n.grounded ground) := by
  rw [Netlist.grounded]
  refine additive.connectAll ?_ _ _
  split
  · exact h
  · next absent => exact additive.addSwitch _ _ _ h (Option.not_isSome_iff_eq_none.mp absent)

end

theorem additive_assembled : Additive Assembled :=
  ⟨fun _ _ _ _ _ _ h step => h.declare step, fun _ _ level h free => h.addSwitch free level,
    fun _ _ _ _ h step => h.connect step⟩

theorem additive_vocabulary (v : Vocabulary) : Additive fun n => n.vocabulary = v where
  declare n m s kind first second h step := by
    obtain ⟨-, d, -, rfl⟩ := declare_ok_iff.mp step
    exact h
  addSwitch n s level h _ := h
  connect n m first second h step := by
    obtain wires | wires := wires_of_connect step
    all_goals
      obtain ⟨-, -, -, -, -, -, -, -, rfl⟩ := wires
      exact h

theorem Assembled.declareAll {devices : List (Symbol × Kind × Option Nat × Option Nat)}
    (h : n.Assembled) : (n.declareAll devices).Assembled :=
  additive_assembled.declareAll h devices

theorem Assembled.connectAll {output : Terminal} {inputs : List (Symbol × Symbol)}
    (h : n.Assembled) : (n.connectAll output inputs).Assembled :=
  additive_assembled.connectAll h output inputs

/-- A netlist in some state whose layout was put together from devices and wires. -/
def Built (n : Netlist) : Prop :=
  ∃ m : Netlist, m.Assembled ∧ m.SameLayout n

theorem Built.proper (h : n.Built) : n.Proper := by
  obtain ⟨m, assembled, same⟩ := h
  exact same.proper (proper_of_assembled assembled)

end Netlist

end LogicCircuit
