import LogicCircuit.Proofs.Circuit.Composition
import LogicCircuit.Proofs.Netlist.Invariant
import LogicCircuit.Proofs.Netlist.Restless

/-!
Where every input is wired, a run breaks off only in a cycle that does not settle.
-/

namespace LogicCircuit.Circuit

variable {c c' : Circuit} {k : Nat} {o : Oscillation}

/-- The cycles up to the reported one complete, and the one after them does not settle. -/
theorem exists_unsettled (proper : c.netlist.Proper) (wired : c.netlist.isWired = true)
    (h : resume k c = .error o c') : ∃ done before, done < k ∧ resume done c = .ok () before ∧
      o.cycle = c.cycles + done ∧ before.netlist.Unsettled c.limit c'.netlist := by
  induction k generalizing c with
  | zero => cases h
  | succ k ih =>
    rw [resume] at h
    cases step : cycle c with
    | ok _ d =>
      obtain ⟨n, settles, rfl⟩ := cycle_ok_iff.mp step
      have same := Netlist.sameLayout_cycle proper settles
      rw [EStateM.bind_of_ok step] at h
      obtain ⟨done, before, early, first, at_cycle, unsettled⟩ :=
        ih (same.proper proper) (same.isWired wired) h
      refine ⟨done + 1, before, Nat.succ_lt_succ early, ?_, ?_, unsettled⟩
      · rw [resume, EStateM.bind_of_ok step, first]
      · rw [at_cycle, Nat.add_assoc, Nat.add_comm 1]
    | error o' d =>
      simp only [bind, EStateM.bind, step, EStateM.Result.error.injEq] at h
      obtain ⟨rfl, rfl⟩ := h
      obtain ⟨stall, n, stalls, rfl, rfl⟩ := cycle_error_iff.mp step
      exact ⟨0, c, Nat.succ_pos k, rfl, rfl, Netlist.unsettled_of_cycle proper wired stalls⟩

end LogicCircuit.Circuit
