import LogicCircuit.Proofs.Circuit.Operations

/-!
A run from cold depends on the settings of the switches and on the outputs under watch, and on
nothing else that was done before it.
-/

namespace LogicCircuit.Circuit

variable {c f : Circuit} {ops others : List Operation}

/-- The operations that do more than make time pass. -/
def Operation.isSetup : Operation → Bool
  | .call (.run _) | .call (.resume _) => false
  | .call (.setSwitch _ _) | .watch _ _ | .unwatch _ => true

/-- The switches are in the same settings, and the same outputs are under watch. -/
structure SameSetup (c f : Circuit) : Prop where
  settings : c.netlist.settings = f.netlist.settings
  outputs : c.monitors.map Monitor.output = f.monitors.map Monitor.output

theorem reset_eq_iff {ms ms' : Monitors} : ms.reset = ms'.reset ↔
    ms.map Monitor.output = ms'.map Monitor.output := by
  constructor
  · intro h
    rw [← Monitors.outputs_reset ms, h, Monitors.outputs_reset]
  · intro h
    have whole (ms : Monitors) : ms.reset = (ms.map Monitor.output).map fun out => ⟨out, []⟩ := by
      rw [Monitors.reset, List.map_map]
      rfl
    rw [whole, whole, h]

theorem started_eq_iff : c.started = f.started ↔ c.symbols = f.symbols ∧
    c.netlist.started = f.netlist.started ∧ c.limit = f.limit ∧
      c.monitors.map Monitor.output = f.monitors.map Monitor.output := by
  simp only [started, Circuit.mk.injEq, and_true, reset_eq_iff]

theorem sameSetup_of_started (h : c.started = f.started) : SameSetup c f := by
  obtain ⟨-, netlist, -, outputs⟩ := started_eq_iff.mp h
  refine ⟨?_, outputs⟩
  rw [← Netlist.settings_started, netlist, Netlist.settings_started]

theorem Operation.started_apply_of_not_setup {op : Operation} (h : op.isSetup = false) :
    (op.apply c).started = c.started := by
  match op with
  | .call (.run cycles) =>
    rw [apply, Call.apply, state_run, started_advanced, started_started]
  | .call (.resume cycles) => rw [apply, Call.apply, state_resume, started_advanced]
  | .call (.setSwitch _ _) | .watch _ _ | .unwatch _ => cases h

theorem started_setSwitch (c : Circuit) (name : String) (isHigh : Bool) :
    ((Call.setSwitch name isHigh).apply c).started =
      ((Call.setSwitch name isHigh).apply c.started).started := by
  have same := Netlist.started_setSwitch c.netlist (c.symbols.symbol name) (.ofBool isHigh)
  cases done : c.setSwitch name isHigh with
  | ok c' =>
    obtain ⟨known, n, set, rfl⟩ := setSwitch_ok_iff.mp done
    rw [set, Option.map_some] at same
    have done' : c.started.setSwitch name isHigh = .ok { c.started with netlist := n.started } :=
      setSwitch_ok_iff.mpr ⟨known, n.started, same.symm, rfl⟩
    simp only [Call.apply, done, done']
    exact started_eq_iff.mpr ⟨rfl, (Netlist.started_started n).symm, rfl,
      (Monitors.outputs_reset c.monitors).symm⟩
  | error u =>
    cases done' : c.started.setSwitch name isHigh with
    | ok c' =>
      obtain ⟨known, m, set, -⟩ := setSwitch_ok_iff.mp done'
      obtain ⟨n, set', -⟩ := Option.map_eq_some_iff.mp (same.trans set)
      have accepted : c.setSwitch name isHigh = .ok { c with netlist := n } :=
        setSwitch_ok_iff.mpr ⟨known, n, set', rfl⟩
      rw [accepted] at done
      cases done
    | error u' => simp only [Call.apply, done, done', started_started]

/-- What an operation makes of a start is seen from the start alone. -/
theorem Operation.started_apply (proper : c.netlist.Proper) (op : Operation) :
    (op.apply c).started = (op.apply c.started).started := by
  match op with
  | .call (.run cycles) | .call (.resume cycles) =>
    rw [started_apply_of_not_setup rfl, started_apply_of_not_setup rfl, started_started]
  | .call (.setSwitch name isHigh) => exact started_setSwitch c name isHigh
  | .watch out cycles =>
    have known : c.started.netlist.HasOutput out ↔ c.netlist.HasOutput out :=
      ⟨(Netlist.sameLayout_started proper).symm.hasOutput,
        (Netlist.sameLayout_started proper).hasOutput⟩
    have outputs : c.started.monitors.map Monitor.output = c.monitors.map Monitor.output :=
      Monitors.outputs_reset c.monitors
    have at_start := apply_watch c.started out cycles
    rw [known, outputs] at at_start
    obtain ⟨here, new, eq⟩ | ⟨refused, eq⟩ := apply_watch c out cycles
    · obtain ⟨-, -, eq'⟩ | ⟨refused, -⟩ := at_start
      · rw [eq, eq', started_eq_iff]
        refine ⟨rfl, (Netlist.started_started _).symm, rfl, ?_⟩
        rw [List.map_append, List.map_append, outputs]
      · exact absurd ⟨here, new⟩ refused
    · obtain ⟨here, new, -⟩ | ⟨-, eq'⟩ := at_start
      · exact absurd ⟨here, new⟩ refused
      · rw [eq, eq', started_started]
  | .unwatch out =>
    rw [apply_unwatch, apply_unwatch, started_eq_iff]
    refine ⟨rfl, (Netlist.started_started _).symm, rfl, ?_⟩
    rw [Monitors.outputs_eraseP, Monitors.outputs_eraseP]
    exact congrArg (List.erase · out) (Monitors.outputs_reset c.monitors).symm

/-- Circuits that start alike do so after the same operations, the runs among which may be left
out. -/
theorem started_afterAll (proper : c.netlist.Proper) (proper' : f.netlist.Proper)
    (h : c.started = f.started) :
    (c.afterAll ops).started = (f.afterAll (ops.filter Operation.isSetup)).started := by
  induction ops generalizing c f with
  | nil => exact h
  | cons op rest ih =>
    have next := (op.frame proper).layout.proper proper
    cases setup : op.isSetup with
    | false =>
      rw [List.filter_cons_of_neg (by simp [setup]), afterAll_cons]
      exact ih next proper' ((Operation.started_apply_of_not_setup setup).trans h)
    | true =>
      rw [List.filter_cons_of_pos setup, afterAll_cons, afterAll_cons]
      refine ih next ((op.frame proper').layout.proper proper') ?_
      rw [op.started_apply proper, h, ← op.started_apply proper']

/-- Of all that was done to a circuit the settings of its switches and the outputs under watch make
up the state in which a run starts. -/
theorem started_of_sameSetup (proper : c.netlist.Proper)
    (h : SameSetup (c.afterAll ops) (c.afterAll others)) :
    (c.afterAll ops).started = (c.afterAll others).started := by
  have frame := frame_afterAll proper ops
  have frame' := frame_afterAll proper others
  have design : (c.afterAll ops).netlist.SameDesign (c.afterAll others).netlist :=
    ⟨frame.design.1.trans frame'.design.1.symm, frame.design.2.trans frame'.design.2.symm⟩
  exact started_eq_iff.mpr ⟨frame.symbols.trans frame'.symbols.symm,
    Netlist.started_of_sameDesign design h.settings, frame.limit.trans frame'.limit.symm,
    h.outputs⟩

theorem run_congr (h : c.started = f.started) (n : Nat) : run n c = run n f := by
  rw [run, run, h]

end LogicCircuit.Circuit
