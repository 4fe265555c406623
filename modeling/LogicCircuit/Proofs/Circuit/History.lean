import LogicCircuit.Proofs.Circuit.Operations
import LogicCircuit.Proofs.Netlist.Definite

/-!
What the monitors have recorded, held against what has happened to the circuit: the traces keep step
with the cycles, however runs, settings and changes of the monitors follow one another.
-/

namespace LogicCircuit

namespace Circuit

open Monitors (shown)

variable {c : Circuit} {op : Operation} {ops : List Operation} {out : Terminal}

/-- The netlist at the end of each cycle that was completed since the last start, and how many of
these cycles were over when an output came under watch. -/
structure History where
  past : List Netlist
  missed : Terminal → Nat

namespace History

/-- Nothing has happened. -/
def none : History :=
  ⟨[], fun _ => 0⟩

/-- An operation on the circuit adds to the history; a run from cold begins a new one, in which no
output has missed a cycle. -/
def apply (h : History) (c : Circuit) : Operation → History
  | .call (.run cycles) => ⟨c.started.course cycles, fun _ => 0⟩
  | .call (.resume cycles) => { h with past := h.past ++ c.course cycles }
  | .watch out cycles =>
    match c.monitors.watch c.netlist out cycles with
    | .ok _ => { h with missed := Function.update h.missed out c.cycles }
    | .error _ => h
  | .call (.setSwitch _ _) | .unwatch _ => h

/-- The history after several operations on the circuit. -/
def after (h : History) (c : Circuit) : List Operation → History
  | [] => h
  | op :: rest => (h.apply c op).after (op.apply c) rest

end History

variable {h : History}

/-- An output comes under watch with the present count of cycles. -/
def Operation.IsTimely (c : Circuit) : Operation → Prop
  | .watch _ cycles => cycles = c.cycles
  | .call _ | .unwatch _ => True

/-- Each of the operations does, when its turn comes. -/
def Timely (c : Circuit) : List Operation → Prop
  | [] => True
  | op :: rest => op.IsTimely c ∧ Timely (op.apply c) rest

def Operation.call? : Operation → Option Call
  | .call request => some request
  | .watch _ _ | .unwatch _ => Option.none

/-! The monitors against the history. -/

/-- The circuit has come from a netlist by way of the history. -/
structure Tracks (start : Netlist) (h : History) (c : Circuit) : Prop where
  nodup : (c.monitors.map Monitor.output).Nodup
  known : ∀ out ∈ c.monitors.map Monitor.output, start.HasOutput out
  present : start.SameLayout c.netlist ∧ c.netlist.Definite
  past : ∀ n ∈ h.past, start.SameLayout n ∧ n.Definite
  counted : h.past.length = c.cycles
  traces : ∀ m ∈ c.monitors, h.missed m.output ≤ h.past.length ∧
    m.trace = List.replicate (h.missed m.output) .blank ++
      (h.past.drop (h.missed m.output)).map (shown m.output)

section
variable {start : Netlist} (proper : start.Proper) (tracks : Tracks start h c)
include proper tracks

theorem Tracks.advanced (k : Nat) :
    Tracks start { h with past := h.past ++ c.course k } (c.advanced k) := by
  have kept := (Netlist.kept_sameLayout proper).and Netlist.kept_definite
  have outputs : (c.advanced k).monitors.map Monitor.output = c.monitors.map Monitor.output :=
    Monitors.outputs_recordAll c.monitors (c.course k)
  have present : start.SameLayout (c.advanced k).netlist ∧ (c.advanced k).netlist.Definite := by
    rw [← state_resume]
    exact (resume_keeps kept tracks.present).2
  refine ⟨outputs ▸ tracks.nodup, outputs ▸ tracks.known, present, ?_, ?_, ?_⟩
  · intro n hn
    obtain before | now := List.mem_append.mp hn
    · exact tracks.past n before
    · exact kept.course tracks.present n now
  · rw [List.length_append, tracks.counted]
    rfl
  · intro m hm
    obtain ⟨m, old, rfl⟩ := List.mem_map.mp hm
    obtain ⟨some_past, trace⟩ := tracks.traces m old
    refine ⟨Nat.le_trans some_past (by simp), ?_⟩
    dsimp only
    rw [trace, List.drop_append_of_le_length some_past, List.map_append, List.append_assoc]

theorem Tracks.started : Tracks start History.none c.started := by
  have outputs : c.started.monitors.map Monitor.output = c.monitors.map Monitor.output :=
    Monitors.outputs_reset c.monitors
  have layout := tracks.present.1
  refine ⟨outputs ▸ tracks.nodup, outputs ▸ tracks.known,
    ⟨layout.trans (Netlist.sameLayout_started (layout.proper proper)), tracks.present.2.started⟩,
    by simp [History.none], rfl, ?_⟩
  intro m hm
  obtain ⟨m, -, rfl⟩ := List.mem_map.mp hm
  exact ⟨Nat.le_refl 0, rfl⟩

omit proper in
theorem Tracks.watch (here : c.netlist.HasOutput out)
    (new : out ∉ c.monitors.map Monitor.output) :
    Tracks start { h with missed := Function.update h.missed out c.cycles }
      { c with monitors := c.monitors ++ [⟨out, List.replicate c.cycles .blank⟩] } := by
  refine ⟨?_, ?_, tracks.present, tracks.past, tracks.counted, ?_⟩
  · rw [List.map_append, List.map_singleton, ← List.concat_eq_append]
    exact tracks.nodup.concat new
  · rw [List.map_append, List.map_singleton, List.forall_mem_append, List.forall_mem_singleton]
    exact ⟨tracks.known, tracks.present.1.symm.hasOutput here⟩
  · intro m hm
    dsimp only
    obtain old | last := List.mem_append.mp hm
    · have apart : m.output ≠ out := fun eq => new (eq ▸ List.mem_map_of_mem old)
      rw [Function.update_of_ne apart]
      exact tracks.traces m old
    · rw [List.mem_singleton.mp last, Function.update_self, ← tracks.counted, List.drop_length]
      exact ⟨Nat.le_refl _, by simp⟩

omit proper in
theorem Tracks.unwatch (out : Terminal) :
    Tracks start h { c with monitors := c.monitors.eraseP fun m => m.output = out } := by
  have outputs := Monitors.outputs_eraseP c.monitors out
  refine ⟨outputs ▸ tracks.nodup.erase out, ?_, tracks.present, tracks.past, tracks.counted, ?_⟩
  · intro other ho
    rw [outputs] at ho
    exact tracks.known other (List.mem_of_mem_erase ho)
  · intro m hm
    exact tracks.traces m (List.mem_of_mem_eraseP hm)

theorem Tracks.apply (timely : op.IsTimely c) : Tracks start (h.apply c op) (op.apply c) := by
  match op with
  | .call (.run cycles) =>
    rw [Operation.apply, Call.apply, state_run]
    exact (tracks.started proper).advanced proper cycles
  | .call (.resume cycles) =>
    rw [Operation.apply, Call.apply, state_resume]
    exact tracks.advanced proper cycles
  | .call (.setSwitch name isHigh) =>
    rw [Operation.apply, Call.apply]
    split
    · next c' done =>
      obtain ⟨-, n, set, rfl⟩ := setSwitch_ok_iff.mp done
      have layout := tracks.present.1
      have next := Netlist.sameLayout_setSwitch (layout.proper proper) set
      exact ⟨tracks.nodup, tracks.known, ⟨layout.trans next, tracks.present.2.setSwitch set⟩,
        tracks.past, tracks.counted, tracks.traces⟩
    · exact tracks
  | .watch out cycles =>
    obtain rfl : cycles = c.cycles := timely
    rw [Operation.apply, History.apply]
    cases watched : c.monitors.watch c.netlist out c.cycles with
    | error _ => exact tracks
    | ok ms =>
      obtain ⟨here, new, rfl⟩ := Monitors.watch_ok_iff.mp watched
      exact tracks.watch here new
  | .unwatch out =>
    rw [Operation.apply_unwatch, History.apply]
    exact tracks.unwatch out

theorem Tracks.after (timely : Timely c ops) :
    Tracks start (h.after c ops) (c.afterAll ops) := by
  induction ops generalizing h c with
  | nil => exact tracks
  | cons op rest ih => exact ih (tracks.apply proper timely.1) timely.2

end

/-! A monitor that is there from the start. -/

/-- The circuit with one monitor only. -/
def recording (c : Circuit) (out : Terminal) (trace : List Level) : Circuit :=
  { c with monitors := [⟨out, trace⟩] }

theorem advanced_recording (c : Circuit) (out : Terminal) (trace : List Level) (k : Nat) :
    (c.recording out trace).advanced k =
      (c.advanced k).recording out (trace ++ (c.course k).map (shown out)) := rfl

theorem started_recording (c : Circuit) (out : Terminal) (trace : List Level) :
    (c.recording out trace).started = c.started.recording out [] := rfl

theorem call_recording (h : History) (c : Circuit) (out : Terminal) (request : Call) :
    request.apply (c.recording out (h.past.map (shown out))) = (request.apply c).recording out
      ((h.apply c (.call request)).past.map (shown out)) := by
  cases request with
  | run cycles =>
    rw [Call.apply, Call.apply, state_run, state_run, started_recording, advanced_recording]
    rfl
  | resume cycles =>
    rw [Call.apply, Call.apply, state_resume, state_resume, advanced_recording, History.apply,
      List.map_append]
  | setSwitch name isHigh =>
    simp only [Call.apply, setSwitch, recording]
    cases (c.symbols.find? name).bind fun s => c.netlist.setSwitch? s (.ofBool isHigh) <;> rfl

/-- Such a monitor records the whole history. -/
theorem after_recording (h : History) (c : Circuit) (out : Terminal) (ops : List Operation) :
    (c.recording out (h.past.map (shown out))).after (ops.filterMap Operation.call?) =
      (c.afterAll ops).recording out ((h.after c ops).past.map (shown out)) := by
  induction ops generalizing h c with
  | nil => rfl
  | cons op rest ih =>
    rw [afterAll_cons, History.after, ← ih]
    match op with
    | .call request =>
      rw [Operation.apply, ← call_recording]
      rfl
    | .watch out' cycles =>
      rw [List.filterMap_cons, Operation.call?, Operation.apply, History.apply]
      cases c.monitors.watch c.netlist out' cycles <;> rfl
    | .unwatch out' =>
      rw [List.filterMap_cons, Operation.call?, Operation.apply_unwatch]
      rfl

/-- The traces of the circuit keep step with the cycles: a monitor has recorded blanks for the
cycles that its output missed, and for all others what a monitor that was there from the start
recorded. -/
structure Aligned (start : Circuit) (ops : List Operation) (h : History) (c : Circuit) : Prop where
  nodup : (c.monitors.map Monitor.output).Nodup
  known : ∀ m ∈ c.monitors, c.netlist.HasOutput m.output
  counted : h.past.length = c.cycles
  lengths : ∀ m ∈ c.monitors, m.trace.length = c.cycles
  traces : ∀ m ∈ c.monitors, ∃ values, .blank ∉ values ∧
    m.trace = List.replicate (h.missed m.output) .blank ++ values ∧
    (h.past.drop (h.missed m.output)).map (fun n => n.level? m.output) = values.map some
  whole : ∀ m ∈ c.monitors, ∃ trace, ((start.recording m.output []).after
      (ops.filterMap Operation.call?)).monitors.trace? m.output = some trace ∧
    trace.length = c.cycles ∧ m.trace.drop (h.missed m.output) = trace.drop (h.missed m.output)

/-- An output that exists shows a level, and that is no blank. -/
theorem shown_spec {start n : Netlist} (known : start.HasOutput out)
    (same : start.SameLayout n ∧ n.Definite) :
    n.level? out = some (shown out n) ∧ shown out n ≠ .blank := by
  obtain ⟨d, found, pin⟩ := same.1.hasOutput known
  obtain ⟨level, level_eq⟩ := Option.isSome_iff_exists.mp (PinMap.mem_keys_iff.mp pin)
  have shows : n.level? out = some level := by
    rw [Netlist.level?, found, Option.bind_some, level_eq]
  rw [shown, shows, Option.getD_some]
  exact ⟨rfl, same.2.ne_blank shows⟩

theorem aligned_of_tracks {start : Circuit}
    (tracks : Tracks start.netlist (History.none.after start ops) (start.afterAll ops)) :
    Aligned start ops (History.none.after start ops) (start.afterAll ops) := by
  have recorded (out : Terminal) := after_recording History.none start out ops
  generalize History.none.after start ops = h at *
  generalize start.afterAll ops = c at *
  have known (m : Monitor) (hm : m ∈ c.monitors) : start.netlist.HasOutput m.output :=
    tracks.known m.output (List.mem_map_of_mem hm)
  refine ⟨tracks.nodup, fun m hm => tracks.present.1.hasOutput (known m hm), tracks.counted,
    fun m hm => ?_, fun m hm => ?_, fun m hm => ?_⟩
  all_goals
    obtain ⟨some_past, trace⟩ := tracks.traces m hm
  · rw [trace, List.length_append, List.length_replicate, List.length_map, List.length_drop,
      Nat.add_sub_cancel' some_past, tracks.counted]
  · have each (n : Netlist) (hn : n ∈ h.past.drop (h.missed m.output)) :=
      shown_spec (known m hm) (tracks.past n (List.mem_of_mem_drop hn))
    refine ⟨_, fun blank => ?_, trace, ?_⟩
    · obtain ⟨n, hn, eq⟩ := List.mem_map.mp blank
      exact (each n hn).2 eq
    · rw [List.map_map]
      exact List.map_congr_left fun n hn => (each n hn).1
  · refine ⟨h.past.map (shown m.output), ?_, ?_, ?_⟩
    · have eq := recorded m.output
      rw [History.none, List.map_nil] at eq
      rw [eq, recording]
      simp [Monitors.trace?]
    · rw [List.length_map, tracks.counted]
    · rw [trace, List.drop_left' List.length_replicate, List.map_drop]

end Circuit

end LogicCircuit
