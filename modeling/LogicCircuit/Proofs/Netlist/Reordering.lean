import LogicCircuit.Proofs.Netlist.Acyclic
import LogicCircuit.Proofs.Netlist.Invariant
import LogicCircuit.Proofs.Netlist.Latching

/-!
Netlists that differ in the order of their devices only. Without cycles among the gates, and with
sources at the set and clear inputs, no cycle tells them apart.
-/

namespace LogicCircuit

namespace Device

variable {v : Vocabulary} {d e : Device}

/-- A device is known by its layout, by what it remembers and by the levels that it shows. -/
theorem eq_of_layout (same : d.layout = e.layout) (body : d.body = e.body)
    (levels : ∀ pin ∈ d.outputs.keys, d.outputs.get? pin = e.outputs.get? pin) : d = e := by
  simp only [layout, Layout.mk.injEq] at same
  obtain ⟨symbol, -, inputs, keys⟩ := same
  have outputs : d.outputs = e.outputs := by
    refine PinMap.ext_get? fun pin => ?_
    by_cases known : pin ∈ d.outputs.keys
    · exact levels pin known
    · have known' : pin ∉ e.outputs.keys := keys ▸ known
      rw [PinMap.mem_keys_iff, Option.not_isSome_iff_eq_none] at known known'
      rw [known, known']
  cases d
  cases e
  simp_all

/-- Gates remember nothing. -/
theorem body_eq_of_isGate (same : d.kind = e.kind) (gate : d.kind.isGate = true) :
    d.body = e.body := by
  simp only [kind] at same gate
  cases body : d.body <;> cases body' : e.body <;> simp_all [Body.kind, Kind.isGate]

end Device

namespace Netlist

variable {n m n' m' k : Netlist} {s : Symbol} {d : Device} {lv : Terminal → Option Level}

/-- Under every name both netlists have the same device in the same state. -/
structure Alike (n m : Netlist) : Prop where
  vocabulary : n.vocabulary = m.vocabulary
  device : n.device? = m.device?

/-- The netlists have the same devices in the same wiring and with the same settings of switches,
in some order each. What else devices remember and show is lost when a run starts. -/
def Reordered (n m : Netlist) : Prop :=
  n.vocabulary = m.vocabulary ∧ n.started.devices.Perm m.started.devices

theorem Reordered.symbols (h : n.Reordered m) : n.symbols.Perm m.symbols := by
  rw [← symbols_started n, ← symbols_started m]
  exact h.2.map Device.symbol

theorem Reordered.alike (h : n.Reordered m) (nodup : n.symbols.Nodup) :
    n.started.Alike m.started := by
  have distinct : n.started.symbols.Nodup := (symbols_started n).symm ▸ nodup
  have distinct' : m.started.symbols.Nodup :=
    (symbols_started m).symm ▸ h.symbols.nodup_iff.mp nodup
  refine ⟨h.1, ?_⟩
  funext s
  cases found : n.started.device? s with
  | none =>
    rw [device?_eq_none_iff] at found
    have absent : s ∉ m.started.symbols := fun member =>
      found ((h.2.map Device.symbol).mem_iff.mpr member)
    exact (device?_eq_none_iff.mpr absent).symm
  | some d =>
    have member := h.2.mem_iff.mp (mem_of_device? found)
    rw [← symbol_of_device? found, device?_of_mem distinct' member]

namespace Alike

theorem level? (h : n.Alike m) : n.level? = m.level? := by
  funext out
  exact level?_congr (congrFun h.device out.device)

theorem isSource (h : n.Alike m) : n.IsSource = m.IsSource := by
  funext s
  rw [IsSource, IsSource, h.device]

theorem preset (h : n.Alike m) (preset : n.Preset) : m.Preset := by
  rw [Preset, h.isSource, h.device, h.vocabulary] at preset
  exact preset

theorem proper (h : n.Alike m) (nodup : m.symbols.Nodup) (proper : n.Proper) : m.Proper := by
  refine ⟨h.vocabulary ▸ proper.vocabulary, nodup, ?_, ?_⟩
  · rw [← h.vocabulary, ← h.device]
    exact proper.pins
  · rw [← h.device]
    exact proper.drivers

theorem solves (h : n.Alike m) (solves : m.Solves lv) : n.Solves lv := by
  rw [Solves, ← h.device] at solves
  exact solves

theorem stepSources (h : n.Alike m) : n.stepSources.Alike m.stepSources := by
  refine ⟨h.vocabulary, ?_⟩
  funext s
  rw [Netlist.stepSources, Netlist.stepSources, device?_map symbol_stepped,
    device?_map symbol_stepped, h.device]

theorem latchAll (h : n.Alike m) (nodup : n.symbols.Nodup) (nodup' : m.symbols.Nodup)
    (first : Netlist.latchAll (n.symbolsOf .flipFlop) n = .ok () n')
    (second : Netlist.latchAll (m.symbolsOf .flipFlop) m = .ok () m') : n'.Alike m' := by
  refine ⟨?_, ?_⟩
  · rw [(frame_latchAll first).1, (frame_latchAll second).1, h.vocabulary]
  · funext s
    rw [device?_latched nodup first, device?_latched nodup' second, h.vocabulary, h.level?,
      h.device]

end Alike

theorem SameLayout.solves (h : n.SameLayout m) (solves : m.Solves lv) : n.Solves lv := by
  intro s d g found kind
  obtain ⟨e, found', same⟩ := h.device? found
  obtain ⟨levels, reads, shown⟩ := solves s e g found' (Device.kind_congr same ▸ kind)
  have inputs := Device.inputs_congr same
  exact ⟨levels, by rw [inputs, Device.reads_congr_inputs inputs, reads], shown⟩

/-- However the passes go, they take netlists that are alike to netlists that are alike. -/
theorem Alike.settle {passes passes' : Nat} (h : n.Alike m) (proper : n.Proper)
    (nodup : m.symbols.Nodup) (preset : n.Preset) (acyclic : Acyclic n.Drives)
    (first : settle n.symbols passes n = .ok () n')
    (second : settle m.symbols passes' m = .ok () m') : n'.Alike m' := by
  have layout := sameLayout_settle proper first
  have layout' := sameLayout_settle (h.proper nodup proper) second
  have answers := answers_of_settle preset proper.nodup first
  have answers' := answers_of_settle (h.preset preset) nodup second
  have solves : n.Solves n'.level? := layout.solves (solves_of_rests fun s hs =>
    rests_of_settle proper.nodup first s (layout.symbols ▸ hs))
  have solves' : n.Solves m'.level? := h.solves (layout'.solves (solves_of_rests fun s hs =>
    rests_of_settle nodup second s (layout'.symbols ▸ hs)))
  have others (s : Symbol) (d : Device) (found : n.device? s = some d)
      (kind : d.kind.isGate = false) : n'.device? s = m'.device? s := by
    rw [answers s d found kind, answers' s d (h.device ▸ found) kind, h.vocabulary, h.level?]
  have levels := Solves.unique proper acyclic solves solves' fun s d found kind pin => by
    rw [level?_congr (others s d found kind)]
  refine ⟨?_, ?_⟩
  · rw [← layout.1, ← layout'.1, h.vocabulary]
  · funext s
    cases found : n.device? s with
    | none =>
      rw [eq_none_of_symbols layout.symbols found,
        eq_none_of_symbols layout'.symbols (h.device ▸ found)]
    | some d =>
      cases gate : d.kind.isGate with
      | false => exact others s d found gate
      | true =>
        obtain ⟨e, shown, same⟩ := layout.device? found
        obtain ⟨e', shown', same'⟩ := layout'.device? (h.device ▸ found)
        have alike := same.symm.trans same'
        have body : e.body = e'.body :=
          Device.body_eq_of_isGate (Device.kind_congr alike) (Device.kind_congr same ▸ gate)
        have eq : e = e' := by
          refine Device.eq_of_layout alike body fun pin known => ?_
          simp only [Device.layout, Layout.mk.injEq] at same
          have := levels s d found pin (same.2.2.2 ▸ known)
          rwa [Netlist.level?, Netlist.level?, shown, shown', Option.bind_some,
            Option.bind_some] at this
        rw [shown, shown', eq]

/-- A cycle that completes on both of two netlists that are alike keeps them alike. -/
theorem Alike.cycle {limit limit' : Nat} (h : n.Alike m) (proper : n.Proper)
    (nodup : m.symbols.Nodup) (preset : n.Preset) (acyclic : Acyclic n.Drives)
    (first : n.cycle limit = .ok () n') (second : m.cycle limit' = .ok () m') : n'.Alike m' := by
  obtain ⟨k, latched, settled⟩ := cycle_ok_iff.mp first
  obtain ⟨k', latched', settled'⟩ := cycle_ok_iff.mp second
  have step := sameLayout_stepSources proper
  have proper' := step.proper proper
  have distinct : m.stepSources.symbols.Nodup := (symbols_stepSources m).symm ▸ nodup
  have alike := h.stepSources.latchAll proper'.nodup distinct latched latched'
  have same : n.SameLayout k := step.trans (sameLayout_latchAll proper' latched)
  refine alike.settle (same.proper proper) ?_ (same.preset preset) (same.acyclic acyclic) settled
    settled'
  rw [(frame_latchAll latched').2]
  exact distinct

end Netlist

end LogicCircuit
