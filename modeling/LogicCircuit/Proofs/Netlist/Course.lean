import LogicCircuit.Proofs.Netlist.Invariant

/-!
The course of a netlist over several cycles: the state at the end of each of them, as far as they
complete. A longer course goes on from a shorter one, and nothing comes after a cycle that stalls.
-/

namespace LogicCircuit.Netlist

variable {P : Netlist → Prop} {n m : Netlist} {stall : Stall} {limit k l : Nat}

/-- The netlist at the end of each of so many cycles, as far as they complete. -/
def course (limit : Nat) : Nat → Netlist → List Netlist
  | 0, _ => []
  | cycles + 1, n =>
    match n.cycle limit with
    | .ok _ m => m :: course limit cycles m
    | .error _ _ => []

/-- What so many cycles make of a netlist, also if one of them stalls. -/
def advanced (limit : Nat) : Nat → Netlist → Netlist
  | 0, n => n
  | cycles + 1, n =>
    match n.cycle limit with
    | .ok _ m => advanced limit cycles m
    | .error _ m => m

theorem course_of_ok (h : n.cycle limit = .ok () m) :
    course limit (k + 1) n = m :: course limit k m ∧
      advanced limit (k + 1) n = advanced limit k m := by
  simp only [course, advanced, h, and_self]

theorem course_of_error (h : n.cycle limit = .error stall m) :
    course limit (k + 1) n = [] ∧ advanced limit (k + 1) n = m := by
  simp only [course, advanced, h, and_self]

theorem length_course_le (limit k : Nat) (n : Netlist) : (course limit k n).length ≤ k := by
  induction k generalizing n with
  | zero => simp [course]
  | succ k ih =>
    cases h : n.cycle limit with
    | ok _ m => simpa [course_of_ok h] using ih m
    | error _ m => simp [course_of_error h]

/-- A longer course begins with the shorter one. -/
theorem take_course (h : k ≤ l) : (course limit l n).take k = course limit k n := by
  induction k generalizing n l with
  | zero => simp [course]
  | succ k ih =>
    cases l with
    | zero => omega
    | succ l =>
      cases step : n.cycle limit with
      | ok _ m =>
        rw [(course_of_ok step).1, (course_of_ok step).1, List.take_succ_cons, ih (by omega)]
      | error _ m =>
        rw [(course_of_error step).1, (course_of_error step).1, List.take_nil]

/-- The cycles that were to come after a stall make no difference. -/
theorem course_of_stalled (stalled : (course limit k n).length < k)
    (h : (course limit k n).length < l) :
    course limit l n = course limit k n ∧ advanced limit l n = advanced limit k n := by
  induction k generalizing n l with
  | zero => omega
  | succ k ih =>
    cases l with
    | zero => omega
    | succ l =>
      cases step : n.cycle limit with
      | ok _ m =>
        obtain ⟨longer, last⟩ := course_of_ok (k := k) step
        obtain ⟨longer', last'⟩ := course_of_ok (k := l) step
        rw [longer, List.length_cons, Nat.add_lt_add_iff_right] at stalled h
        obtain ⟨same, same'⟩ := ih stalled h
        rw [longer, longer', last, last', same, same']
        exact ⟨rfl, rfl⟩
      | error _ m =>
        obtain ⟨none, last⟩ := course_of_error (k := k) step
        obtain ⟨none', last'⟩ := course_of_error (k := l) step
        rw [none, none', last, last']
        exact ⟨rfl, rfl⟩

/-- What each part of a cycle keeps holds all along the course. -/
theorem Kept.course (kept : Kept P) (h : P n) : ∀ m ∈ n.course limit k, P m := by
  induction k generalizing n with
  | zero => simp [Netlist.course]
  | succ k ih =>
    have first := kept.cycle h limit
    cases step : n.cycle limit with
    | ok _ m =>
      rw [step] at first
      rw [(course_of_ok step).1, List.forall_mem_cons]
      exact ⟨first, ih first⟩
    | error _ m => simp [(course_of_error step).1]

end LogicCircuit.Netlist
