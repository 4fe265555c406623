import LogicCircuit.Proofs.Circuit.Course

/-!
Runs are made up of shorter ones, and a run that breaks off does so in a cycle of its own, however
far it was to go: the runs up to that cycle complete, and all longer ones end as it does.
-/

namespace LogicCircuit.Circuit

variable {a b c : Circuit} {k l m n : Nat} {o : Oscillation}

theorem resume_add (m n : Nat) : resume (m + n) = resume m >>= fun _ => resume n := by
  induction m with
  | zero => rw [Nat.zero_add, resume, pure_bind]
  | succ m ih => rw [Nat.succ_add, resume, resume, ih, bind_assoc]

theorem resume_ok_iff : resume k c = .ok () b ↔
    (c.course k).length = k ∧ b = c.advanced k := by
  rw [resume_eq]
  split
  · next whole => simp only [whole, EStateM.Result.ok.injEq, true_and, eq_comm]
  · next short => simp only [reduceCtorEq, short, false_and]

theorem resume_error_iff : resume k c = .error o b ↔ (c.course k).length < k ∧
    o = ⟨c.cycles + (c.course k).length⟩ ∧ b = c.advanced k := by
  have most := Netlist.length_course_le c.limit k c.netlist
  rw [resume_eq]
  split
  · next whole => simp only [reduceCtorEq, whole, Nat.lt_irrefl, false_and]
  · next short =>
    have less : (c.course k).length < k := Nat.lt_of_le_of_ne most short
    simp only [less, EStateM.Result.error.injEq, true_and, eq_comm]

/-- What a run from cold has recorded. -/
theorem monitors_advanced_started (k : Nat) (c : Circuit) : (c.started.advanced k).monitors =
    c.monitors.map fun m => ⟨m.output, (c.started.course k).map (Monitors.shown m.output)⟩ := by
  simp [advanced, started, Monitors.recordAll, Monitors.reset]

/-- How a run of so many cycles breaks off. -/
structure BreaksOff (c : Circuit) (n : Nat) (o : Oscillation) (b : Circuit) : Prop where
  early : o.cycle < n
  cycles : b.cycles = o.cycle
  lengths : ∀ m ∈ b.monitors, m.trace.length = o.cycle
  traces : ∃ a, run o.cycle c = .ok () a ∧ b.monitors = a.monitors
  shorter : ∀ k ≤ o.cycle, ∃ a, run k c = .ok () a
  longer : ∀ k, o.cycle < k → run k c = .error o b

theorem breaksOff (h : run n c = .error o b) : BreaksOff c n o b := by
  obtain ⟨stalled, at_cycle, rfl⟩ := resume_error_iff.mp h
  have completed : o.cycle = (c.started.course n).length := by
    rw [at_cycle]
    exact Nat.zero_add _
  rw [← completed] at stalled
  have shorter (k : Nat) (hk : k ≤ o.cycle) : (c.started.course k).length = k := by
    rw [course, ← Netlist.take_course (Nat.le_trans hk stalled.le), List.length_take]
    rw [completed, course] at hk
    exact Nat.min_eq_left hk
  have longer (k : Nat) (hk : o.cycle < k) : c.started.course k = c.started.course n ∧
      c.started.advanced k = c.started.advanced n := by
    rw [completed] at hk stalled
    obtain ⟨course_eq, netlist_eq⟩ := Netlist.course_of_stalled stalled hk
    have same : c.started.course k = c.started.course n := course_eq
    exact ⟨same, by simp only [advanced, same, netlist_eq]⟩
  refine ⟨stalled, ?_, ?_, ?_, ?_, ?_⟩
  · rw [completed]
    exact Nat.zero_add _
  · rw [monitors_advanced_started, List.forall_mem_map]
    intro m _
    rw [List.length_map, completed]
  · refine ⟨_, resume_ok_iff.mpr ⟨shorter _ le_rfl, rfl⟩, ?_⟩
    have same : c.started.course o.cycle = c.started.course n := by
      rw [course, course, ← Netlist.take_course stalled.le, completed, course, List.take_length]
    rw [monitors_advanced_started, monitors_advanced_started, same]
  · intro k hk
    exact ⟨_, resume_ok_iff.mpr ⟨shorter k hk, rfl⟩⟩
  · intro k hk
    obtain ⟨course_eq, eq⟩ := longer k hk
    refine resume_error_iff.mpr ⟨?_, ?_, eq.symm⟩
    · rwa [course_eq, ← completed]
    · rw [course_eq, at_cycle]

/-- A run of a circuit, of whatever state and wiring, can be made in two parts. One that breaks off
does so in a cycle that does not depend on its length; one that goes through has recorded what the
shorter runs record. -/
theorem run_divides (c : Circuit) (m n : Nat) :
    (∀ b, run m c = .ok () b → resume n b = run (m + n) c) ∧
    (∀ o b, run n c = .error o b → BreaksOff c n o b) ∧
    ∀ b, run n c = .ok () b → ∀ k ≤ n, ∃ a, run k c = .ok () a ∧
      a.monitors = b.monitors.map fun m => { m with trace := m.trace.take k } := by
  refine ⟨fun b h => ?_, fun o b h => breaksOff h, fun b h k hk => ?_⟩
  · have first : resume m c.started = .ok () b := h
    rw [run, resume_add, EStateM.bind_of_ok first]
  · obtain ⟨whole, rfl⟩ := resume_ok_iff.mp h
    have part : c.started.course k = (c.started.course n).take k := (Netlist.take_course hk).symm
    refine ⟨_, resume_ok_iff.mpr ⟨?_, rfl⟩, ?_⟩
    · rw [part, List.length_take, whole, Nat.min_eq_left hk]
    · rw [monitors_advanced_started, monitors_advanced_started, List.map_map, part]
      simp only [Function.comp_def, List.map_take]

/-- A gate that inverts its own output while a clock is high. -/
def gatedLoop : Netlist :=
  let v := Vocabulary.ofTable (SymbolTable.ofList Vocabulary.words)
  let input (i : Nat) : Symbol := v.gateInputs.getD i ⟨0⟩
  { vocabulary := v
    devices := [Device.fresh v.flipFlop ⟨40⟩ (.clock 2 0) [],
      ((Device.newGate v ⟨41⟩ .nand 2).wired (input 0) ⟨⟨40⟩, none⟩).wired (input 1)
        ⟨⟨41⟩, none⟩] }

theorem gatedLoop_divides :
    (∃ b, run 1 (watching gatedLoop ⟨⟨41⟩, none⟩) = .ok () b ∧
      resume 2 b = run 3 (watching gatedLoop ⟨⟨41⟩, none⟩)) ∧
    ∃ b, run 2 (watching gatedLoop ⟨⟨41⟩, none⟩) = .error ⟨1⟩ b ∧
      BreaksOff (watching gatedLoop ⟨⟨41⟩, none⟩) 2 ⟨1⟩ b := by
  obtain ⟨divides, breaks, -⟩ := run_divides (watching gatedLoop ⟨⟨41⟩, none⟩) 1 2
  have first : (run 1 (watching gatedLoop ⟨⟨41⟩, none⟩)).isOk = true := by decide +kernel
  have second : ((watching gatedLoop ⟨⟨41⟩, none⟩).started.course 2).length = 1 := by
    decide +kernel
  refine ⟨?_, ?_⟩
  · obtain ⟨_, b, once⟩ := EStateM.Result.exists_of_isOk first
    exact ⟨b, once, divides b once⟩
  · have twice : run 2 (watching gatedLoop ⟨⟨41⟩, none⟩) = .error ⟨1⟩ _ :=
      resume_error_iff.mpr ⟨by rw [second]; decide, by rw [second]; rfl, rfl⟩
    exact ⟨_, twice, breaks _ _ twice⟩

end LogicCircuit.Circuit
