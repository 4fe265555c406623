import LogicCircuit.Proofs.Circuit.Composition

/-!
A higher limit on the passes turns cycles that stall into cycles that complete, and changes nothing
else: what completes within a limit comes out the same within a higher one.
-/

namespace LogicCircuit

namespace Netlist

variable {n k : Netlist} {order : List Symbol} {limit limit' : Nat}

theorem settle_mono (le : limit ≤ limit') (h : settle order limit n = .ok () k) :
    settle order limit' n = .ok () k := by
  induction limit generalizing n limit' with
  | zero => cases h
  | succ limit ih =>
    obtain ⟨more, rfl⟩ : ∃ more, limit' = more + 1 := ⟨limit' - 1, by omega⟩
    rw [settle_succ_ok_iff] at h ⊢
    obtain still | ⟨m, moves, later⟩ := h
    · exact Or.inl still
    · exact Or.inr ⟨m, moves, ih (Nat.le_of_succ_le_succ le) later⟩

/-- The limit has a part in the passes only, which come last. -/
theorem cycle_mono (le : limit ≤ limit') (h : n.cycle limit = .ok () k) :
    n.cycle limit' = .ok () k := by
  obtain ⟨m, latched, settles⟩ := cycle_ok_iff.mp h
  exact cycle_ok_iff.mpr ⟨m, latched, settle_mono le settles⟩

/-- Within a lower limit the course ends earlier, if it ends. -/
theorem course_prefix (le : limit ≤ limit') (cycles : Nat) (n : Netlist) :
    course limit cycles n <+: course limit' cycles n := by
  induction cycles generalizing n with
  | zero => exact List.prefix_rfl
  | succ cycles ih =>
    cases step : n.cycle limit with
    | ok _ m =>
      rw [(course_of_ok step).1, (course_of_ok (cycle_mono le step)).1, List.prefix_cons_inj]
      exact ih m
    | error _ m =>
      rw [(course_of_error step).1]
      exact List.nil_prefix

/-- A course without a stall is the same within a higher limit. -/
theorem course_of_complete (le : limit ≤ limit') {cycles : Nat}
    (whole : (course limit cycles n).length = cycles) :
    course limit' cycles n = course limit cycles n ∧
      advanced limit' cycles n = advanced limit cycles n := by
  induction cycles generalizing n with
  | zero => exact ⟨rfl, rfl⟩
  | succ cycles ih =>
    cases step : n.cycle limit with
    | ok _ m =>
      obtain ⟨first, last⟩ := course_of_ok (k := cycles) step
      obtain ⟨first', last'⟩ := course_of_ok (k := cycles) (cycle_mono le step)
      rw [first, List.length_cons, Nat.add_right_cancel_iff] at whole
      obtain ⟨rest, rest'⟩ := ih whole
      rw [first, first', last, last', rest, rest']
      exact ⟨rfl, rfl⟩
    | error _ m =>
      rw [(course_of_error step).1] at whole
      cases whole

end Netlist

/-- What has been recorded by the monitors of one list is the beginning of what has been recorded
by those of another one. -/
def Monitors.Begin (ms ms' : Monitors) : Prop :=
  List.Forall₂ (fun m m' => m.output = m'.output ∧ m.trace <+: m'.trace) ms ms'

namespace Circuit

open Monitors (Begin)

variable {limit limit' cycles : Nat}

/-- The circuit with another limit on the passes. -/
def within (limit : Nat) (c : Circuit) : Circuit :=
  { c with limit := limit }

theorem begin_of_course (le : limit ≤ limit') (c : Circuit) :
    Begin ((c.within limit).started.advanced cycles).monitors
      ((c.within limit').started.advanced cycles).monitors := by
  rw [monitors_advanced_started, monitors_advanced_started, Begin, List.forall₂_map_left_iff,
    List.forall₂_map_right_iff]
  refine List.forall₂_same.mpr fun m _ => ⟨rfl, ?_⟩
  exact (Netlist.course_prefix le cycles c.netlist.started).map _

/-- Raising the limit on the passes changes no result. A cycle that completes, of whatever netlist
in whatever state, comes out the same; so does a run that goes through. A run that still breaks off
broke off no later before, and had recorded a beginning of what it records now. -/
theorem run_raised (le : limit ≤ limit') :
    (∀ n k : Netlist, n.cycle limit = .ok () k → n.cycle limit' = .ok () k) ∧
    ∀ (c : Circuit) (cycles : Nat),
      (∀ b, run cycles (c.within limit) = .ok () b →
        run cycles (c.within limit') = .ok () (b.within limit')) ∧
      ∀ o' b', run cycles (c.within limit') = .error o' b' →
        ∃ o b, run cycles (c.within limit) = .error o b ∧ o.cycle ≤ o'.cycle ∧
          Begin b.monitors b'.monitors := by
  refine ⟨fun n k h => Netlist.cycle_mono le h, fun c cycles => ⟨fun b h => ?_, fun o' b' h => ?_⟩⟩
  · obtain ⟨whole, rfl⟩ := resume_ok_iff.mp h
    obtain ⟨course_eq, netlist_eq⟩ := Netlist.course_of_complete le whole
    have course_eq : (c.within limit').started.course cycles =
        (c.within limit).started.course cycles := course_eq
    have netlist_eq : (c.within limit').started.netlist.advanced limit' cycles =
        (c.within limit).started.netlist.advanced limit cycles := netlist_eq
    refine resume_ok_iff.mpr ⟨by rw [course_eq, whole], ?_⟩
    simp only [advanced, course_eq]
    exact congrArg (fun n => Circuit.mk _ n _ _ _) netlist_eq.symm
  · obtain ⟨short, rfl, rfl⟩ := resume_error_iff.mp h
    have le_length := (Netlist.course_prefix le cycles c.netlist.started).length_le
    refine ⟨_, _, resume_error_iff.mpr ⟨Nat.lt_of_le_of_lt le_length short, rfl, rfl⟩, ?_, ?_⟩
    · exact Nat.add_le_add_left le_length _
    · exact begin_of_course le c

/-- Within one pass the loop stalls at once, within two it completes the cycle in which the clock
stays low. -/
theorem gatedLoop_raised :
    (∃ b, run 1 ((watching gatedLoop ⟨⟨41⟩, none⟩).within 2) = .ok () b ∧
      run 1 ((watching gatedLoop ⟨⟨41⟩, none⟩).within 5) = .ok () (b.within 5)) ∧
    ∃ o o' b b', run 2 ((watching gatedLoop ⟨⟨41⟩, none⟩).within 5) = .error o' b' ∧
      run 2 ((watching gatedLoop ⟨⟨41⟩, none⟩).within 1) = .error o b ∧ o'.cycle = 1 ∧
      o.cycle ≤ o'.cycle ∧ Begin b.monitors b'.monitors := by
  have through : (run 1 ((watching gatedLoop ⟨⟨41⟩, none⟩).within 2)).isOk = true := by
    decide +kernel
  have breaks : (((watching gatedLoop ⟨⟨41⟩, none⟩).within 5).started.course 2).length = 1 := by
    decide +kernel
  refine ⟨?_, ?_⟩
  · obtain ⟨_, b, first⟩ := EStateM.Result.exists_of_isOk through
    exact ⟨b, first, ((run_raised (by decide)).2 _ 1).1 b first⟩
  · have twice : run 2 ((watching gatedLoop ⟨⟨41⟩, none⟩).within 5) = .error ⟨1⟩ _ :=
      resume_error_iff.mpr ⟨by rw [breaks]; decide, by rw [breaks]; rfl, rfl⟩
    obtain ⟨o, b, once, early, begins⟩ :=
      ((run_raised (show 1 ≤ 5 by decide)).2 _ 2).2 _ _ twice
    exact ⟨o, ⟨1⟩, b, _, twice, once, rfl, early, begins⟩

end Circuit

end LogicCircuit
