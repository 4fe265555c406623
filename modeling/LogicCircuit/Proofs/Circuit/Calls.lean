import LogicCircuit.Proofs.Circuit.Course
import LogicCircuit.Proofs.Netlist.Switching
import LogicCircuit.Proofs.Symbol

/-!
What is done to a circuit from outside, in any order: runs, whether they go through or not, and
settings of switches, whether they are accepted or not.
-/

namespace LogicCircuit.Circuit

variable {c c' : Circuit} {P : Netlist → Prop} {name : String} {isHigh held : Bool} {cycles : Nat}

inductive Call
  | run (cycles : Nat)
  | resume (cycles : Nat)
  | setSwitch (name : String) (isHigh : Bool)

/-- The circuit after a call: what a run did before it broke off stays done, and a setting that is
refused changes nothing. -/
def Call.apply (c : Circuit) : Call → Circuit
  | .run cycles => (Circuit.run cycles c).state
  | .resume cycles => (Circuit.resume cycles c).state
  | .setSwitch name isHigh =>
    match c.setSwitch name isHigh with
    | .ok c' => c'
    | .error _ => c

def after (c : Circuit) (calls : List Call) : Circuit :=
  calls.foldl Call.apply c

theorem setSwitch_ok_iff : c.setSwitch name isHigh = .ok c' ↔ name ∈ c.symbols.texts ∧
    ∃ n, c.netlist.setSwitch? (c.symbols.symbol name) (.ofBool isHigh) = some n ∧
      c' = { c with netlist := n } := by
  have named (n : Netlist) :
      ((c.symbols.find? name).bind fun s => c.netlist.setSwitch? s (.ofBool isHigh)) = some n ↔
        name ∈ c.symbols.texts ∧
          c.netlist.setSwitch? (c.symbols.symbol name) (.ofBool isHigh) = some n := by
    rw [Option.bind_eq_some_iff]
    constructor
    · intro h
      obtain ⟨s, found, set⟩ := h
      obtain ⟨known, rfl⟩ := SymbolTable.find?_eq_some_iff.mp found
      exact ⟨known, set⟩
    · intro h
      exact ⟨_, SymbolTable.find?_eq_some_iff.mpr ⟨h.1, rfl⟩, h.2⟩
  rw [setSwitch]
  split
  · next n set =>
    obtain ⟨known, set⟩ := (named n).mp set
    simp only [known, set, true_and, Except.ok.injEq, Option.some.injEq, exists_eq_left', eq_comm]
  · next none =>
    simp only [reduceCtorEq, false_iff]
    intro h
    obtain ⟨known, n, set, -⟩ := h
    rw [(named n).mpr ⟨known, set⟩] at none
    cases none

theorem exists_setSwitch_iff : (∃ c', c.setSwitch name isHigh = .ok c') ↔
    name ∈ c.symbols.texts ∧ c.netlist.kindOf? (c.symbols.symbol name) = some .switch := by
  constructor
  · intro h
    obtain ⟨c', done⟩ := h
    obtain ⟨known, n, set, -⟩ := setSwitch_ok_iff.mp done
    obtain ⟨d, found, kind, -⟩ := Netlist.setSwitch?_eq_some_iff.mp set
    exact ⟨known, by rw [Netlist.kindOf?, found, Option.map_some, kind]⟩
  · intro h
    obtain ⟨known, kind⟩ := h
    obtain ⟨d, found, kind⟩ := Option.map_eq_some_iff.mp kind
    exact ⟨_, setSwitch_ok_iff.mpr
      ⟨known, _, Netlist.setSwitch?_eq_some_iff.mpr ⟨d, found, kind, rfl⟩, rfl⟩⟩

theorem setSwitch_error {u : UnknownSwitch} (h : c.setSwitch name isHigh = .error u) :
    u = ⟨name⟩ := by
  rw [setSwitch] at h
  split at h
  · cases h
  · exact (Except.error.inj h).symm

/-! What is kept. -/

theorem resume_keeps (kept : Netlist.Kept P) (h : P c.netlist) :
    (resume cycles c).state.symbols = c.symbols ∧ P (resume cycles c).state.netlist := by
  induction cycles generalizing c with
  | zero => exact ⟨rfl, h⟩
  | succ cycles ih =>
    have first : (cycle c).state.symbols = c.symbols ∧ P (cycle c).state.netlist := by
      have whole := kept.cycle h c.limit
      rw [cycle]
      cases run : c.netlist.cycle c.limit with
      | ok _ n | error _ n =>
        rw [run] at whole
        exact ⟨rfl, whole⟩
    refine EStateM.state_bind (P := fun d : Circuit => d.symbols = c.symbols ∧ P d.netlist) first ?_
    intro _ d hd
    obtain ⟨symbols, rest⟩ := ih hd.2
    exact ⟨symbols.trans hd.1, rest⟩

theorem run_keeps (kept : Netlist.Kept P) (h : P c.netlist.started) :
    (run cycles c).state.symbols = c.symbols ∧ P (run cycles c).state.netlist :=
  resume_keeps (c := c.started) kept h

/-- What runs and settings of switches keep of the netlist is kept by all calls. -/
theorem after_keeps (kept : Netlist.Kept P) (started : ∀ n, P n → P n.started)
    (switched : ∀ s isHigh n m, P n → n.setSwitch? s (.ofBool isHigh) = some m → P m)
    (h : P c.netlist) (calls : List Call) :
    (c.after calls).symbols = c.symbols ∧ P (c.after calls).netlist := by
  induction calls generalizing c with
  | nil => exact ⟨rfl, h⟩
  | cons call rest ih =>
    have first : (call.apply c).symbols = c.symbols ∧ P (call.apply c).netlist := by
      cases call with
      | run cycles => exact run_keeps kept (started _ h)
      | resume cycles => exact resume_keeps kept h
      | setSwitch name isHigh =>
        rw [Call.apply]
        split
        · next c' done =>
          obtain ⟨-, n, set, rfl⟩ := setSwitch_ok_iff.mp done
          exact ⟨rfl, switched _ _ _ n h set⟩
        · exact ⟨rfl, h⟩
    obtain ⟨symbols, rest⟩ := ih first.2
    exact ⟨symbols.trans first.1, rest⟩

theorem sameLayout_after (proper : c.netlist.Proper) (calls : List Call) :
    (c.after calls).symbols = c.symbols ∧ c.netlist.SameLayout (c.after calls).netlist := by
  refine after_keeps (Netlist.kept_sameLayout proper) (fun n h => ?_) (fun s isHigh n m h set => ?_)
    (Netlist.SameLayout.refl _) calls
  · exact h.trans (Netlist.sameLayout_started (h.proper proper))
  · exact h.trans (Netlist.sameLayout_setSwitch (h.proper proper) set)

/-- No call changes the limit on the passes or which outputs are watched. -/
theorem Call.apply_frame (c : Circuit) (call : Call) : (call.apply c).limit = c.limit ∧
    (call.apply c).monitors.map Monitor.output = c.monitors.map Monitor.output := by
  cases call with
  | run cycles =>
    rw [Call.apply, state_run]
    exact ⟨rfl, (Monitors.outputs_recordAll _ _).trans (Monitors.outputs_reset _)⟩
  | resume cycles =>
    rw [Call.apply, state_resume]
    exact ⟨rfl, Monitors.outputs_recordAll _ _⟩
  | setSwitch name isHigh =>
    rw [Call.apply]
    split
    · next c' done =>
      obtain ⟨-, n, -, rfl⟩ := setSwitch_ok_iff.mp done
      exact ⟨rfl, rfl⟩
    · exact ⟨rfl, rfl⟩

theorem after_frame (c : Circuit) (calls : List Call) : (c.after calls).limit = c.limit ∧
    (c.after calls).monitors.map Monitor.output = c.monitors.map Monitor.output := by
  induction calls generalizing c with
  | nil => exact ⟨rfl, rfl⟩
  | cons call rest ih =>
    obtain ⟨limit, outputs⟩ := call.apply_frame c
    obtain ⟨limit', outputs'⟩ := ih (call.apply c)
    exact ⟨limit'.trans limit, outputs'.trans outputs⟩

/-! The settings of a switch. -/

/-- The setting in which a call leaves a switch that was in the given one. -/
def Call.setting (name : String) (held : Bool) : Call → Bool
  | .run _ | .resume _ => held
  | .setSwitch other isHigh => if other = name then isHigh else held

/-- The setting in which calls leave a switch that was in the given one. -/
def settingAfter (name : String) (held : Bool) (calls : List Call) : Bool :=
  calls.foldl (Call.setting name) held

theorem Call.device?_apply {s : Symbol} (named : s = c.symbols.symbol name)
    (known : name ∈ c.symbols.texts)
    (h : c.netlist.device? s = some (Device.newSwitch s (.ofBool held))) (call : Call) :
    (call.apply c).symbols = c.symbols ∧ (call.apply c).netlist.device? s =
      some (Device.newSwitch s (.ofBool (call.setting name held))) := by
  have kept := Netlist.kept_switch s (.ofBool held)
  cases call with
  | run cycles =>
    refine run_keeps kept ?_
    rw [Netlist.started, Netlist.device?_map fun d => (Device.started_frame _ d).1, h,
      Option.map_some, Device.started_newSwitch]
  | resume cycles => exact resume_keeps kept h
  | setSwitch other isHigh =>
    have accepted : ∃ n, c.netlist.setSwitch? s (.ofBool isHigh) = some n :=
      ⟨_, Netlist.setSwitch?_eq_some_iff.mpr ⟨_, h, rfl, rfl⟩⟩
    rw [Call.apply, Call.setting]
    split
    · next c' done =>
      obtain ⟨known', n, set, rfl⟩ := setSwitch_ok_iff.mp done
      refine ⟨rfl, ?_⟩
      by_cases same : other = name
      · subst same
        rw [← named] at set
        rw [if_pos rfl, Netlist.device?_setSwitch_self set, h, Option.map_some,
          Device.switched_newSwitch]
        cases isHigh <;> rfl
      · have apart : s ≠ c.symbols.symbol other := fun eq =>
          same ((SymbolTable.symbol_inj known').mp (eq.symm.trans named))
        rw [if_neg same, Netlist.device?_setSwitch_of_ne set apart, h]
    · next u refused =>
      have other_ne : other ≠ name := by
        intro same
        obtain ⟨n, set⟩ := accepted
        subst same
        rw [named] at set
        rw [setSwitch_ok_iff.mpr ⟨known, n, set, rfl⟩] at refused
        cases refused
      rw [if_neg other_ne]
      exact ⟨rfl, h⟩

/-- A switch is in the setting that it was given last, and shows it. -/
theorem device?_after {s : Symbol} (named : s = c.symbols.symbol name)
    (known : name ∈ c.symbols.texts)
    (h : c.netlist.device? s = some (Device.newSwitch s (.ofBool held))) (calls : List Call) :
    (c.after calls).netlist.device? s =
      some (Device.newSwitch s (.ofBool (settingAfter name held calls))) := by
  induction calls generalizing c held with
  | nil => exact h
  | cons call rest ih =>
    obtain ⟨symbols, device⟩ := Call.device?_apply named known h call
    exact ih (symbols.symm ▸ named) (symbols.symm ▸ known) device

end LogicCircuit.Circuit
