import LogicCircuit.Proofs.Circuit.Run
import LogicCircuit.Proofs.Netlist.Course

/-!
A run of a circuit is the course of its netlist, recorded: it goes through if the course is as long
as it was to be, and otherwise breaks off in the cycle after it. So runs go on from one another.
-/

namespace LogicCircuit

namespace Monitors

variable {ms : Monitors} {n : Netlist} {ns ns' : List Netlist}

/-- The level that a monitor records on an output. -/
def shown (out : Terminal) (n : Netlist) : Level :=
  (n.level? out).getD .blank

/-- Records several states of a netlist. -/
def recordAll (ms : Monitors) (ns : List Netlist) : Monitors :=
  ms.map fun m => { m with trace := m.trace ++ ns.map (shown m.output) }

theorem recordAll_nil (ms : Monitors) : ms.recordAll [] = ms := by
  simp [recordAll]

theorem outputs_recordAll (ms : Monitors) (ns : List Netlist) :
    (ms.recordAll ns).map Monitor.output = ms.map Monitor.output := by
  rw [recordAll, List.map_map]
  rfl

theorem recordAll_cons (ms : Monitors) (n : Netlist) (ns : List Netlist) :
    ms.recordAll (n :: ns) = (ms.record n).recordAll ns := by
  simp [recordAll, record, shown]

end Monitors

namespace Circuit

variable {c c' : Circuit} {k l m n cycles : Nat} {o : Oscillation}

/-- The netlist at the end of each of so many cycles, as far as they complete. -/
def course (cycles : Nat) (c : Circuit) : List Netlist :=
  c.netlist.course c.limit cycles

/-- What so many cycles make of a circuit, also if one of them stalls. -/
def advanced (cycles : Nat) (c : Circuit) : Circuit :=
  { c with
    netlist := c.netlist.advanced c.limit cycles
    monitors := c.monitors.recordAll (c.course cycles)
    cycles := c.cycles + (c.course cycles).length }

theorem resume_eq (k : Nat) (c : Circuit) : resume k c =
    if (c.course k).length = k then .ok () (c.advanced k)
    else .error ⟨c.cycles + (c.course k).length⟩ (c.advanced k) := by
  induction k generalizing c with
  | zero =>
    simp [resume, course, advanced, Netlist.course, Netlist.advanced, Monitors.recordAll_nil, pure,
      EStateM.pure]
  | succ k ih =>
    rw [resume]
    cases step : c.netlist.cycle c.limit with
    | ok _ n =>
      obtain ⟨next, last⟩ := Netlist.course_of_ok (k := k) step
      have first : cycle c = .ok () { c with
          netlist := n, monitors := c.monitors.record n, cycles := c.cycles + 1 } :=
        cycle_ok_iff.mpr ⟨n, step, rfl⟩
      rw [EStateM.bind_of_ok first, ih]
      simp only [course, advanced, next, last, List.length_cons, Nat.add_right_cancel_iff,
        Monitors.recordAll_cons, Nat.add_assoc, Nat.add_comm 1]
    | error e n =>
      obtain ⟨next, last⟩ := Netlist.course_of_error (k := k) step
      simp [bind, EStateM.bind, cycle, step, course, advanced, next, last, Monitors.recordAll_nil]

/-- What was done before a run broke off stays done. -/
theorem state_resume (k : Nat) (c : Circuit) : (resume k c).state = c.advanced k := by
  rw [resume_eq]
  split <;> rfl

theorem state_run (k : Nat) (c : Circuit) : (run k c).state = c.started.advanced k :=
  state_resume k c.started

end Circuit

end LogicCircuit
