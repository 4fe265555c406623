import LogicCircuit.Proofs.Netlist.Invariant

/-!
Where every input is wired there is one way only for a cycle to stall: each of the passes that it
may make changes the level on some output.
-/

namespace LogicCircuit.Netlist

variable {n k m : Netlist} {s : Symbol} {order : List Symbol} {stall : Stall} {passes limit : Nat}

/-- So many passes over some devices, each of which changes the level on an output. -/
inductive Restless (order : List Symbol) : Nat → Netlist → Netlist → Prop
  | none (n : Netlist) : Restless order 0 n n
  | pass {passes : Nat} {n k m : Netlist} (moves : sweep order n = .ok false k)
    (changed : ∃ out, k.level? out ≠ n.level? out) (rest : Restless order passes k m) :
    Restless order (passes + 1) n m

/-- The cycle of a netlist stalls in another state because it does not settle: it comes to its
passes, makes all that it may, and each of them changes an output. -/
structure Unsettled (limit : Nat) (n m : Netlist) : Prop where
  stalls : n.cycle limit = .error .restless m
  passes : ∃ k, latchAll (n.stepSources.symbolsOf .flipFlop) n.stepSources = .ok () k ∧
    Restless k.symbols limit k m

theorem changed_of_refresh (h : refresh s n = .ok false k) :
    ∃ pin, k.level? ⟨s, pin⟩ ≠ n.level? ⟨s, pin⟩ := by
  obtain ⟨d, d', found, answer, moved, rfl⟩ := refresh_ok_iff.mp h
  by_contra same
  simp only [level?, device?_refresh found answer, found, Option.bind_some, not_exists,
    not_not] at same
  simp [PinMap.ext_get? same] at moved

/-- As a pass comes to each device once, an output that it changes stays changed. -/
theorem changed_of_sweep (h : sweep order n = .ok false m) (nodup : order.Nodup) :
    ∃ out, m.level? out ≠ n.level? out := by
  induction order generalizing n with
  | nil =>
    obtain ⟨still, -⟩ := EStateM.pure_ok_iff.mp h
    cases still
  | cons s rest ih =>
    obtain ⟨absent, nodup⟩ := List.nodup_cons.mp nodup
    obtain ⟨first, k, others, head, tail, moved⟩ := sweep_cons_ok_iff.mp h
    cases first with
    | true =>
      rw [Bool.true_and] at moved
      rw [← level?_refresh_still head]
      exact ih (moved ▸ tail) nodup
    | false =>
      obtain ⟨pin, changed⟩ := changed_of_refresh head
      refine ⟨⟨s, pin⟩, ?_⟩
      rw [level?_congr ((swept_of_sweep tail).others s absent)]
      exact changed

theorem restless_of_settle (proper : n.Proper) (fed : n.Fed) (known : ∀ s ∈ order, s ∈ n.symbols)
    (nodup : order.Nodup) (h : settle order passes n = .error stall m) :
    stall = .restless ∧ Restless order passes n m := by
  induction passes generalizing n with
  | zero =>
    obtain ⟨rfl, rfl⟩ := EStateM.Result.error.inj h
    exact ⟨rfl, .none n⟩
  | succ passes ih =>
    obtain ⟨still, k, pass, same⟩ := exists_sweep proper fed known
    rw [settle, EStateM.bind_of_ok pass] at h
    cases still with
    | true => cases h
    | false =>
      obtain ⟨reason, rest⟩ :=
        ih (same.proper proper) (same.fed fed) (same.symbols ▸ known) h
      exact ⟨reason, .pass pass (changed_of_sweep pass nodup) rest⟩

theorem unsettled_of_cycle (proper : n.Proper) (wired : n.isWired = true)
    (h : n.cycle limit = .error stall m) : n.Unsettled limit m := by
  obtain ⟨k, latched, same⟩ := exists_latched proper wired
  have rest : settle k.symbols limit k = .error stall m := by
    obtain stuck | ⟨k', latched', rest⟩ := cycle_error_iff.mp h
    · cases latched.symm.trans stuck
    · obtain rfl := (EStateM.Result.ok.inj (latched.symm.trans latched')).2
      exact rest
  have proper' := same.proper proper
  obtain ⟨rfl, restless⟩ := restless_of_settle proper'
    (fed_of_isWired proper' (same.isWired wired)) (fun s hs => hs) proper'.nodup rest
  exact ⟨h, k, latched, restless⟩

end LogicCircuit.Netlist
