import LogicCircuit.Proofs.Circuit.Calls
import LogicCircuit.Proofs.Netlist.ColdStart

/-!
All that is done to a circuit once it is made, in any order: calls, and outputs that are put under
watch or taken off it. None of it touches the design.
-/

namespace LogicCircuit

namespace Monitors

variable {ms ms' : Monitors} {n : Netlist} {out : Terminal} {cycles : Nat}

theorem watch_ok_iff : ms.watch n out cycles = .ok ms' ↔ n.HasOutput out ∧
    out ∉ ms.map Monitor.output ∧ ms' = ms ++ [⟨out, List.replicate cycles .blank⟩] := by
  rw [watch, Netlist.HasOutput]
  cases found : n.device? out.device with
  | none => simp
  | some d =>
    simp only [Option.some.injEq, exists_eq_left', ← PinMap.contains_iff, ← watches_iff]
    cases d.outputs.contains out.pin <;> cases ms.watches out <;> simp [eq_comm]

theorem outputs_eraseP (ms : Monitors) (out : Terminal) :
    (ms.eraseP fun m => m.output = out).map Monitor.output =
      (ms.map Monitor.output).erase out := by
  induction ms with
  | nil => rfl
  | cons m rest ih =>
    by_cases hit : m.output = out
    · simp [hit]
    · simp [hit, ih]

theorem unwatch?_eq_some_iff : ms.unwatch? out = some ms' ↔
    out ∈ ms.map Monitor.output ∧ ms' = ms.eraseP fun m => m.output = out := by
  rw [unwatch?, ← watches_iff, Option.ite_none_right_eq_some, Option.some.injEq, eq_comm (a := ms')]

end Monitors

namespace Circuit

variable {c c' : Circuit}

inductive Operation
  | call (call : Call)
  | watch (output : Terminal) (cycles : Nat)
  | unwatch (output : Terminal)

/-- The circuit after an operation; one that is refused changes nothing. -/
def Operation.apply (c : Circuit) : Operation → Circuit
  | .call request => request.apply c
  | .watch output cycles =>
    match c.monitors.watch c.netlist output cycles with
    | .ok ms => { c with monitors := ms }
    | .error _ => c
  | .unwatch output =>
    match c.monitors.unwatch? output with
    | some ms => { c with monitors := ms }
    | none => c

def afterAll (c : Circuit) (ops : List Operation) : Circuit :=
  ops.foldl Operation.apply c

theorem afterAll_cons (c : Circuit) (op : Operation) (ops : List Operation) :
    c.afterAll (op :: ops) = (op.apply c).afterAll ops := rfl

theorem Operation.apply_watch (c : Circuit) (out : Terminal) (cycles : Nat) :
    (c.netlist.HasOutput out ∧ out ∉ c.monitors.map Monitor.output ∧
      (watch out cycles).apply c =
        { c with monitors := c.monitors ++ [⟨out, List.replicate cycles .blank⟩] }) ∨
    ¬ (c.netlist.HasOutput out ∧ out ∉ c.monitors.map Monitor.output) ∧
      (watch out cycles).apply c = c := by
  rw [apply]
  cases h : c.monitors.watch c.netlist out cycles with
  | ok ms =>
    obtain ⟨known, new, rfl⟩ := Monitors.watch_ok_iff.mp h
    exact Or.inl ⟨known, new, rfl⟩
  | error e =>
    refine Or.inr ⟨fun here => ?_, rfl⟩
    rw [Monitors.watch_ok_iff.mpr ⟨here.1, here.2, rfl⟩] at h
    cases h

theorem Operation.apply_unwatch (c : Circuit) (out : Terminal) : (unwatch out).apply c =
    { c with monitors := c.monitors.eraseP fun m => m.output = out } := by
  rw [apply]
  cases h : c.monitors.unwatch? out with
  | some ms =>
    obtain ⟨-, rfl⟩ := Monitors.unwatch?_eq_some_iff.mp h
    rfl
  | none =>
    have absent : ∀ m ∈ c.monitors, ¬ decide (m.output = out) = true := by
      intro m hm same
      have watched : out ∈ c.monitors.map Monitor.output :=
        List.mem_map.mpr ⟨m, hm, of_decide_eq_true same⟩
      rw [Monitors.unwatch?_eq_some_iff.mpr ⟨watched, rfl⟩] at h
      cases h
    rw [List.eraseP_of_forall_not absent]

/-- What no operation changes. -/
structure Frame (c c' : Circuit) : Prop where
  symbols : c'.symbols = c.symbols
  limit : c'.limit = c.limit
  layout : c.netlist.SameLayout c'.netlist
  design : c'.netlist.SameDesign c.netlist

theorem Frame.of_netlist_eq (symbols : c'.symbols = c.symbols) (limit : c'.limit = c.limit)
    (netlist : c'.netlist = c.netlist) : Frame c c' :=
  ⟨symbols, limit, netlist ▸ Netlist.SameLayout.refl _, netlist ▸ ⟨rfl, rfl⟩⟩

theorem Frame.trans {c'' : Circuit} (h : Frame c c') (h' : Frame c' c'') : Frame c c'' :=
  ⟨h'.symbols.trans h.symbols, h'.limit.trans h.limit, h.layout.trans h'.layout,
    h'.design.1.trans h.design.1, h'.design.2.trans h.design.2⟩

/-- A run leaves the circuit as it was at a start. -/
theorem started_advanced (k : Nat) (c : Circuit) : (c.advanced k).started = c.started := by
  have netlist : (c.advanced k).netlist.started = c.netlist.started := by
    rw [← state_resume]
    exact (resume_keeps (Netlist.kept_started c.netlist) rfl).2
  simp only [started, netlist]
  simp [advanced, Monitors.recordAll, Monitors.reset]

theorem started_started (c : Circuit) : c.started.started = c.started := by
  simp [started, Netlist.started_started, Monitors.reset]

theorem Operation.frame (proper : c.netlist.Proper) (op : Operation) : Frame c (op.apply c) := by
  cases op with
  | call request =>
    obtain ⟨symbols, layout⟩ := sameLayout_after proper [request]
    refine ⟨symbols, (request.apply_frame c).1, layout, ?_⟩
    cases request with
    | run cycles =>
      refine Netlist.sameDesign_of_started ?_
      have same := congrArg Circuit.netlist (started_advanced cycles c.started)
      rw [started_started] at same
      rwa [apply, Call.apply, state_run]
    | resume cycles =>
      refine Netlist.sameDesign_of_started ?_
      rw [apply, Call.apply, state_resume]
      exact congrArg Circuit.netlist (started_advanced cycles c)
    | setSwitch name isHigh =>
      rw [apply, Call.apply]
      split
      · next c' done =>
        obtain ⟨-, n, set, rfl⟩ := setSwitch_ok_iff.mp done
        exact Netlist.sameDesign_setSwitch set
      · exact ⟨rfl, rfl⟩
  | watch out cycles =>
    obtain ⟨-, -, eq⟩ | ⟨-, eq⟩ := apply_watch c out cycles
    all_goals
      rw [eq]
      exact .of_netlist_eq rfl rfl rfl
  | unwatch out =>
    rw [apply_unwatch]
    exact .of_netlist_eq rfl rfl rfl

theorem frame_afterAll (proper : c.netlist.Proper) (ops : List Operation) :
    Frame c (c.afterAll ops) := by
  induction ops generalizing c with
  | nil => exact .of_netlist_eq rfl rfl rfl
  | cons op rest ih =>
    have first := op.frame proper
    exact first.trans (ih (first.layout.proper proper))

/-- Only outputs that exist come under watch. -/
theorem Operation.hasOutput (proper : c.netlist.Proper) (op : Operation)
    (watched : ∀ out ∈ c.monitors.map Monitor.output, c.netlist.HasOutput out) :
    ∀ out ∈ (op.apply c).monitors.map Monitor.output, (op.apply c).netlist.HasOutput out := by
  intro out member
  refine (op.frame proper).layout.hasOutput ?_
  cases op with
  | call request =>
    rw [apply, (request.apply_frame c).2] at member
    exact watched out member
  | watch new cycles =>
    obtain ⟨known, -, eq⟩ | ⟨-, eq⟩ := apply_watch c new cycles
    · rw [eq, List.map_append, List.mem_append, List.map_singleton, List.mem_singleton] at member
      obtain old | rfl := member
      · exact watched out old
      · exact known
    · rw [eq] at member
      exact watched out member
  | unwatch old =>
    rw [apply_unwatch, Monitors.outputs_eraseP] at member
    exact watched out (List.mem_of_mem_erase member)

theorem hasOutput_afterAll (proper : c.netlist.Proper) (ops : List Operation)
    (watched : ∀ out ∈ c.monitors.map Monitor.output, c.netlist.HasOutput out) :
    ∀ out ∈ (c.afterAll ops).monitors.map Monitor.output,
      (c.afterAll ops).netlist.HasOutput out := by
  induction ops generalizing c with
  | nil => exact watched
  | cons op rest ih =>
    exact ih ((op.frame proper).layout.proper proper) (op.hasOutput proper watched)

end Circuit

end LogicCircuit
