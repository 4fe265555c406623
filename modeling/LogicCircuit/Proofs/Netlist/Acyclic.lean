import LogicCircuit.Proofs.Depth
import LogicCircuit.Proofs.Netlist.FixedPoint
import LogicCircuit.Proofs.Netlist.Invariant
import LogicCircuit.Proofs.Netlist.Timing

/-!
Where no gates drive each other in a cycle, every run of passes ends, after as many passes as the
order of declaration makes backward, and it ends in the one solution of the equations of the gates.
-/

namespace LogicCircuit.Netlist

variable {n m k : Netlist} {s t u w : Symbol} {d e : Device} {order : List Symbol} {still : Bool}
  {lv : Terminal → Option Level} {b limit passes : Nat}

/-- A gate has an input that a gate or a flip-flop drives. -/
def Drives (n : Netlist) (u w : Symbol) : Prop :=
  (∃ e, n.device? u = some e ∧ e.kind.isSource = false) ∧
    ∃ d pin output, n.device? w = some d ∧ d.kind.isGate = true ∧
      d.driver? pin = some output ∧ output.device = u

/-- Sources drive the set and the clear input of every flip-flop. -/
def Preset (n : Netlist) : Prop :=
  ∀ s d, n.device? s = some d → d.kind = .flipFlop →
    ∀ pin ∈ [n.vocabulary.flipFlop.set, n.vocabulary.flipFlop.clear],
      ∀ output, d.driver? pin = some output → n.IsSource output.device

/-- The place of a device in the order of declaration. -/
def position (n : Netlist) (s : Symbol) : Nat :=
  n.symbols.idxOf s

/-- The levels satisfy the equation of every gate. -/
def Solves (n : Netlist) (lv : Terminal → Option Level) : Prop :=
  ∀ s d g, n.device? s = some d → d.kind = .gate g → ∃ levels,
    d.inputs.keys.map (d.reads lv) = levels.map some ∧ lv ⟨s, none⟩ = some (g.combine levels)

/-- Except for gates, the devices are those of the other netlist once they have responded. -/
def Answers (m k : Netlist) : Prop :=
  ∀ s d, k.device? s = some d → d.kind.isGate = false →
    m.device? s = d.respond k.vocabulary.flipFlop k.level?

theorem isSource_of_heeds (preset : n.Preset) (found : n.device? s = some d)
    (kind : d.kind.isGate = false) (heeds : n.Heeds s u) : n.IsSource u := by
  obtain ⟨e, pin, output, found', heeded, drives, eq⟩ := heeds
  rw [found] at found'
  obtain rfl := Option.some.inj found'
  cases body : d.body with
  | gate g => simp [Device.kind, body, Body.kind, Kind.isGate] at kind
  | flipFlop memory =>
    rw [Device.heeded, body] at heeded
    rw [← eq]
    exact preset s d found (by simp [Device.kind, body, Body.kind]) pin heeded output drives
  | clock _ _ | switch _ | generator _ _ _ => simp [Device.heeded, body] at heeded

/-- One source drives the set and the clear inputs of all flip-flops. -/
theorem preset_of_source {out : Option Symbol} (source : n.IsSource u)
    (h : ∀ d ∈ n.devices, d.kind = .flipFlop →
      ∀ pin ∈ [n.vocabulary.flipFlop.set, n.vocabulary.flipFlop.clear],
        d.driver? pin = some ⟨u, out⟩) : n.Preset := by
  intro s d found kind pin hp output' drives
  rw [h d (mem_of_device? found) kind pin hp] at drives
  rwa [← Option.some.inj drives]

theorem SameLayout.preset (h : n.SameLayout m) (preset : n.Preset) : m.Preset := by
  intro s d found kind pin hp output drives
  obtain ⟨e, found', same⟩ := h.symm.device? found
  rw [← h.1] at hp
  rw [Device.driver?_congr same] at drives
  exact h.isSource (preset s e found' (Device.kind_congr same ▸ kind) pin hp output drives)

theorem SameLayout.drives (h : n.SameLayout m) (drives : n.Drives u w) : m.Drives u w := by
  obtain ⟨⟨e, source, kind⟩, d, pin, output, found, gate, drives, eq⟩ := drives
  obtain ⟨e', source', same⟩ := h.device? source
  obtain ⟨d', found', same'⟩ := h.device? found
  exact ⟨⟨e', source', Device.kind_congr same ▸ kind⟩, d', pin, output, found',
    Device.kind_congr same' ▸ gate, Device.driver?_congr same' pin ▸ drives, eq⟩

/-- The turns of the devices in the passes, each in the pass of its depth. -/
noncomputable def moment (n : Netlist) (s : Symbol) : Nat :=
  depth n.Drives n.position s * n.symbols.length + n.position s

theorem mem_symbols_of_drives (u w : Symbol) (h : n.Drives u w) : w ∈ n.symbols := by
  obtain ⟨-, d, -, -, found, -⟩ := h
  exact mem_symbols_of_device? found

theorem position_lt (known : s ∈ n.symbols) : n.position s < n.symbols.length :=
  List.idxOf_lt_length_of_mem known

theorem moment_lt_of_drives (acyclic : Acyclic n.Drives) (drives : n.Drives u w) :
    n.moment u < n.moment w := by
  have edge := depth_edge n.position acyclic mem_symbols_of_drives drives
  obtain ⟨e, found, -⟩ := drives.1
  have inside := position_lt (mem_symbols_of_device? found)
  unfold moment
  by_cases back : n.position w ≤ n.position u
  · rw [if_pos back] at edge
    have := Nat.mul_le_mul_right n.symbols.length edge
    rw [Nat.succ_mul] at this
    omega
  · rw [if_neg back, Nat.add_zero] at edge
    have := Nat.mul_le_mul_right n.symbols.length edge
    omega

theorem timed_moment (proper : n.Proper) (preset : n.Preset) (acyclic : Acyclic n.Drives) :
    n.Timed n.moment := by
  intro s u heeds
  obtain ⟨d, pin, output, found, heeded, drives, eq⟩ := heeds
  cases gate : d.kind.isGate with
  | false =>
    have heeds : n.Heeds s u := ⟨d, pin, output, found, heeded, drives, eq⟩
    exact Or.inl (isSource_of_heeds preset found gate heeds)
  | true =>
    obtain ⟨e, source, -⟩ := proper.drivers s d found pin output drives
    rw [eq] at source
    cases kind : e.kind.isSource with
    | true => exact Or.inl ⟨e, source, kind⟩
    | false =>
      exact Or.inr (moment_lt_of_drives acyclic
        ⟨⟨e, source, kind⟩, d, pin, output, found, gate, drives, eq⟩)

/-! The devices that are no gates. -/

/-- On the way to their answers, the devices that are no gates either stand as they stood or have
given them already. -/
def Answering (k m : Netlist) : Prop :=
  m.vocabulary = k.vocabulary ∧ ∀ s d, k.device? s = some d → d.kind.isGate = false →
    m.device? s = some d ∨ m.device? s = d.respond k.vocabulary.flipFlop k.level?

theorem isGate_of_isSource (source : d.kind.isSource = true) : d.kind.isGate = false := by
  cases kind : d.kind <;> simp_all [Kind.isSource, Kind.isGate]

/-- What is no gate responds to sources only, which have not changed since. -/
theorem Answering.respond (preset : k.Preset) (h : k.Answering m) (found : k.device? s = some d)
    (kind : d.kind.isGate = false) : d.respond m.vocabulary.flipFlop m.level? =
      d.respond k.vocabulary.flipFlop k.level? := by
  rw [h.1]
  refine respond_congr found ?_
  intro u heeds
  obtain ⟨e, source, same⟩ := isSource_of_heeds preset found kind heeds
  have := h.2 u e source (isGate_of_isSource same)
  rw [Device.respond_of_isSource same, or_self] at this
  rw [this, source]

theorem Answering.refresh (preset : k.Preset) (pass : refresh s n = .ok still m)
    (h : k.Answering n) : k.Answering m := by
  have frame := refreshed_of_refresh pass
  refine ⟨frame.vocabulary.trans h.1, ?_⟩
  intro t d found kind
  by_cases here : t = s
  · subst here
    obtain ⟨e, e', shown, answer, -, eq⟩ := refresh_ok_iff.mp pass
    have same := h.respond preset found kind
    rw [eq, device?_refresh shown answer, ← same]
    obtain before | after := h.2 t d found kind
    · rw [shown] at before
      rw [← Option.some.inj before, answer]
      exact Or.inr rfl
    · rw [← same, shown] at after
      rw [Device.respond_respond after.symm] at answer
      rw [← after, answer]
      exact Or.inr rfl
  · rw [frame.others t here]
    exact h.2 t d found kind

theorem answers_of_settle (preset : k.Preset) (nodup : k.symbols.Nodup)
    (h : settle k.symbols passes k = .ok () m) : m.Answers k := by
  have answering : k.Answering m :=
    settle_induction (fun s i still j pass => Answering.refresh preset pass) h
      ⟨rfl, fun s d found _ => Or.inl found⟩
  intro s d found kind
  obtain before | after := answering.2 s d found kind
  · obtain ⟨e, shown, rests⟩ := rests_of_settle nodup h s (mem_symbols_of_device? found)
    rw [shown] at before
    rw [Option.some.inj before, answering.respond preset found kind] at rests
    rw [shown, Option.some.inj before, rests]
  · exact after

/-! The gates. -/

theorem solves_of_rests (h : ∀ s ∈ n.symbols, n.Rests s) : n.Solves n.level? := by
  intro s d g found kind
  obtain ⟨e, found', rests⟩ := h s (mem_symbols_of_device? found)
  rw [found] at found'
  obtain rfl := Option.some.inj found'
  have body : d.body = .gate g := by
    rw [Device.kind] at kind
    cases body : d.body <;> simp_all [Body.kind]
  obtain ⟨levels, reads, eq⟩ := (Device.respond_gate_iff body).mp rests
  refine ⟨levels, reads, ?_⟩
  rw [level?, found, Option.bind_some, eq]
  exact PinMap.get?_insert_self _ _ _

/-- There is at most one solution with given levels on the other outputs. -/
theorem Solves.unique {lv' : Terminal → Option Level} (proper : n.Proper)
    (acyclic : Acyclic n.Drives) (first : n.Solves lv) (second : n.Solves lv')
    (others : ∀ s d, n.device? s = some d → d.kind.isGate = false →
      ∀ pin, lv ⟨s, pin⟩ = lv' ⟨s, pin⟩) :
    ∀ s d, n.device? s = some d → ∀ pin ∈ d.outputs.keys, lv ⟨s, pin⟩ = lv' ⟨s, pin⟩ := by
  intro s
  induction turn : n.moment s using Nat.strong_induction_on generalizing s with
  | _ time ih =>
    intro d found pin shown
    cases gate : d.kind.isGate with
    | false => exact others s d found gate pin
    | true =>
      obtain ⟨g, kind⟩ : ∃ g, d.kind = .gate g := by
        cases kind : d.kind <;> simp_all [Kind.isGate]
      have unnamed := (proper.pins s d found).eq_none (by simp [kind]) shown
      have inputs : d.inputs.keys.map (d.reads lv) = d.inputs.keys.map (d.reads lv') := by
        refine List.map_congr_left fun input _ => ?_
        rw [Device.reads, Device.reads]
        cases drives : d.driver? input with
        | none => rfl
        | some output =>
          obtain ⟨e, source, known⟩ := proper.drivers s d found input output drives
          cases kind : e.kind.isSource with
          | true => exact others _ e source (isGate_of_isSource kind) output.pin
          | false =>
            have edge : n.Drives output.device s :=
              ⟨⟨e, source, kind⟩, d, input, output, found, gate, drives, rfl⟩
            exact ih _ (turn ▸ moment_lt_of_drives acyclic edge) _ rfl e source _ known
      obtain ⟨levels, reads, level⟩ := first s d g found kind
      obtain ⟨levels', reads', level'⟩ := second s d g found kind
      rw [reads, reads'] at inputs
      rw [unnamed, level, level', List.map_injective_iff.mpr (Option.some_injective _) inputs]

/-! The passes. -/

theorem moment_mod (known : s ∈ n.symbols) :
    n.moment s % n.symbols.length = n.symbols.idxOf s := by
  rw [moment, Nat.mul_comm, Nat.mul_add_mod, Nat.mod_eq_of_lt (position_lt known), position]

theorem moment_lt (acyclic : Acyclic n.Drives)
    (greatest : IsGreatest (backwardCounts n.Drives n.position) b) (known : s ∈ n.symbols) :
    n.moment s < (b + 1) * n.symbols.length := by
  have low := depth_le n.position acyclic mem_symbols_of_drives greatest s
  have := Nat.mul_le_mul_right n.symbols.length low
  have := position_lt known
  rw [moment, Nat.succ_mul]
  omega

theorem SameLayout.acyclic (h : n.SameLayout m) (acyclic : Acyclic n.Drives) :
    Acyclic m.Drives := by
  intro s cycle
  exact acyclic s (Relation.TransGen.mono (fun u w drives => h.symm.drives drives) s s cycle)

theorem resting_zero {moment : Symbol → Nat} : n.Resting moment 0 := by
  intro s _ turn
  obtain ⟨d, found, source⟩ | early := turn
  · exact ⟨d, found, Device.respond_of_isSource source⟩
  · exact absurd early (Nat.not_lt_zero _)

/-- A cycle ended as it has to: the sources and the flip-flops gave their answers, and the outputs
of the gates are the one solution of their equations for these. -/
structure Solution (k m : Netlist) : Prop where
  layout : k.SameLayout m
  answers : m.Answers k
  solves : m.Solves m.level?
  unique : ∀ lv, m.Solves lv →
    (∀ s d, m.device? s = some d → d.kind.isGate = false →
      ∀ pin, lv ⟨s, pin⟩ = m.level? ⟨s, pin⟩) →
    ∀ s d, m.device? s = some d → ∀ pin ∈ d.outputs.keys, lv ⟨s, pin⟩ = m.level? ⟨s, pin⟩

/-- Without cycles among its gates a netlist settles, in two passes more than there are backward
edges on a path. -/
theorem cycle_of_acyclic (built : n.Built) (wired : n.isWired = true) (preset : n.Preset)
    (acyclic : Acyclic n.Drives) :
    ∃ k b, latchAll (n.stepSources.symbolsOf .flipFlop) n.stepSources = .ok () k ∧
      IsGreatest (backwardCounts n.Drives n.position) b ∧
      ∀ limit, b + 2 ≤ limit → ∃ m, n.cycle limit = .ok () m ∧ Solution k m := by
  have proper := built.proper
  obtain ⟨k, latched, same⟩ := exists_latched proper wired
  have proper' := same.proper proper
  obtain ⟨b, greatest⟩ :=
    exists_isGreatest_backwardCounts n.position acyclic mem_symbols_of_drives
  refine ⟨k, b, latched, greatest, ?_⟩
  intro limit enough
  have timed := same.timed (timed_moment proper preset acyclic)
  have turn : ∀ t ∈ k.symbols, n.moment t % k.symbols.length = k.symbols.idxOf t := by
    rw [← same.symbols]
    exact fun t ht => moment_mod ht
  have latest : ∀ t ∈ k.symbols, n.moment t < (b + 1) * k.symbols.length := by
    rw [← same.symbols]
    exact fun t ht => moment_lt acyclic greatest ht
  have start : k.Resting n.moment (0 * k.symbols.length) := by
    rw [Nat.zero_mul]
    exact resting_zero
  have more : b + 1 < 0 + limit := by omega
  obtain ⟨m, settles, same'⟩ :=
    exists_settle proper' (same.isWired wired) timed turn latest start (Nat.zero_le _) more
  have whole := same.trans same'
  have rests : ∀ s ∈ m.symbols, m.Rests s := by
    rw [← same'.symbols]
    exact rests_of_settle proper'.nodup settles
  have answers := answers_of_settle (same.preset preset) proper'.nodup settles
  have solves := solves_of_rests rests
  refine ⟨m, cycle_ok_iff.mpr ⟨k, latched, settles⟩, same', answers, solves, ?_⟩
  intro lv solution others
  exact solution.unique (whole.proper proper) (whole.acyclic acyclic) solves others

/-- A flip-flop and two gates, each of which drives a gate declared before it. -/
def againstOrder : Netlist :=
  let t := SymbolTable.ofList Vocabulary.words
  let v := Vocabulary.ofTable t
  let input (i : Nat) : Symbol := v.gateInputs.getD i ⟨0⟩
  let declared := (Netlist.empty t).declareAll
    [(⟨40⟩, .switch, some 0, none), (⟨41⟩, .clock, some 1, none),
      (⟨42⟩, .gate .nand, some 2, none), (⟨43⟩, .gate .nor, some 2, none),
      (⟨44⟩, .flipFlop, none, none)]
  let switched := declared.connectAll ⟨⟨40⟩, none⟩
    [(⟨42⟩, input 1), (⟨43⟩, input 1), (⟨44⟩, v.flipFlop.set), (⟨44⟩, v.flipFlop.clear)]
  ((switched.connectAll ⟨⟨41⟩, none⟩ [(⟨44⟩, v.flipFlop.clock)]).connectAll
    ⟨⟨42⟩, none⟩ [(⟨44⟩, v.flipFlop.data)]).connectAll ⟨⟨43⟩, none⟩ [(⟨42⟩, input 0)]
    |>.connectAll ⟨⟨44⟩, some v.flipFlop.q⟩ [(⟨43⟩, input 0)]

theorem againstOrder_built : againstOrder.Built := by
  have known : ∀ w ∈ Vocabulary.words, w ∈ (SymbolTable.ofList Vocabulary.words).texts := by
    decide +kernel
  exact ⟨_, (Assembled.empty _ known).declareAll.connectAll.connectAll.connectAll.connectAll.connectAll,
    SameLayout.refl _⟩

theorem againstOrder_switch :
    againstOrder.device? ⟨40⟩ = some (Device.newSwitch ⟨40⟩ .low) := by
  decide +kernel

theorem againstOrder_preset : againstOrder.Preset := by
  have driven : ∀ d ∈ againstOrder.devices, d.kind = .flipFlop →
      ∀ pin ∈ [againstOrder.vocabulary.flipFlop.set, againstOrder.vocabulary.flipFlop.clear],
        d.driver? pin = some ⟨⟨40⟩, none⟩ := by
    decide +kernel
  exact preset_of_source ⟨_, againstOrder_switch, rfl⟩ driven

theorem againstOrder_acyclic : Acyclic againstOrder.Drives := by
  refine acyclic_of_lt (fun s => 50 - s.index) ?_
  have down : ∀ d ∈ againstOrder.devices, d.kind.isGate = true → d.symbol.index < 50 ∧
      ∀ pin ∈ d.inputs.keys, d.driver? pin = some ⟨⟨40⟩, none⟩ ∨
        ∃ output ∈ d.driver? pin, d.symbol.index < output.device.index := by
    decide +kernel
  intro u w edge
  obtain ⟨⟨e, source, kind⟩, d, pin, output, found, gate, drives, eq⟩ := edge
  obtain ⟨low, inputs⟩ := down d (mem_of_device? found) gate
  rw [symbol_of_device? found] at low inputs
  obtain switched | ⟨output', drives', later⟩ := inputs pin (Device.mem_keys_of_driver? drives)
  · rw [drives, Option.some.injEq] at switched
    rw [← eq, switched, againstOrder_switch] at source
    rw [← Option.some.inj source] at kind
    cases kind
  · rw [drives, Option.mem_def, Option.some.injEq] at drives'
    rw [← drives', eq] at later
    omega

theorem againstOrder_settles : ∃ k b,
    latchAll (againstOrder.stepSources.symbolsOf .flipFlop) againstOrder.stepSources = .ok () k ∧
      IsGreatest (backwardCounts againstOrder.Drives againstOrder.position) b ∧
      ∀ limit, b + 2 ≤ limit → ∃ m, againstOrder.cycle limit = .ok () m ∧ Solution k m := by
  have wired : againstOrder.isWired = true := by decide +kernel
  exact cycle_of_acyclic againstOrder_built wired againstOrder_preset againstOrder_acyclic

end LogicCircuit.Netlist
