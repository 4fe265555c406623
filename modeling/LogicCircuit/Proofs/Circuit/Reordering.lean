import LogicCircuit.Proofs.Circuit.Run
import LogicCircuit.Proofs.Netlist.Reordering

/-!
The order in which devices are declared has no part in a run that goes through: whatever it is, all
devices go through the same states, and all monitors record the same.
-/

namespace LogicCircuit.Circuit

variable {a a' b b' : Circuit} {cycles : Nat}

/-- The circuits are in the same state but for the order of their devices, which cannot matter. -/
structure Twins (a b : Circuit) : Prop where
  alike : a.netlist.Alike b.netlist
  proper : a.netlist.Proper
  nodup : b.netlist.symbols.Nodup
  preset : a.netlist.Preset
  acyclic : Acyclic a.netlist.Drives
  traces : Monitors.Agree (fun _ => True) a.monitors b.monitors

theorem Twins.cycle (h : Twins a b) (run : cycle a = .ok () a') (run' : cycle b = .ok () b') :
    Twins a' b' := by
  obtain ⟨n, first, rfl⟩ := cycle_ok_iff.mp run
  obtain ⟨m, second, rfl⟩ := cycle_ok_iff.mp run'
  have alike := h.alike.cycle h.proper h.nodup h.preset h.acyclic first second
  have same := Netlist.sameLayout_cycle h.proper first
  have same' := Netlist.sameLayout_cycle (h.alike.proper h.nodup h.proper) second
  exact ⟨alike, same.proper h.proper, same'.symbols ▸ h.nodup, same.preset h.preset,
    same.acyclic h.acyclic, h.traces.record fun out _ => by rw [alike.level?]⟩

theorem twins_started (built : a.netlist.Built) (reordered : a.netlist.Reordered b.netlist)
    (preset : a.netlist.Preset) (acyclic : Acyclic a.netlist.Drives) :
    Twins a.started b.started := by
  have proper := built.proper
  have same := Netlist.sameLayout_started proper
  refine ⟨reordered.alike proper.nodup, same.proper proper, ?_, same.preset preset,
    same.acyclic acyclic, Monitors.agree_reset _ _ _⟩
  exact (Netlist.symbols_started b.netlist).symm ▸ reordered.symbols.nodup_iff.mp proper.nodup

/-- Two circuits that run for a number of cycles, the devices of one of which are those of the other
in another order, are in the same state after each cycle and have recorded the same, provided that
sources drive the set and clear inputs and the gates do not drive each other in a cycle. -/
theorem run_reordered (built : a.netlist.Built) (reordered : a.netlist.Reordered b.netlist)
    (preset : a.netlist.Preset) (acyclic : Acyclic a.netlist.Drives)
    (first : run cycles a = .ok () a') (second : run cycles b = .ok () b') :
    ∀ k ≤ cycles, ∃ a'' b'', run k a = .ok () a'' ∧ run k b = .ok () b'' ∧
      (∀ s, a''.netlist.device? s = b''.netlist.device? s) ∧
      ∀ out, a.monitors.watches out = true → b.monitors.watches out = true →
        ∃ trace, a''.monitors.trace? out = some trace ∧ b''.monitors.trace? out = some trace := by
  intro k hk
  have start := twins_started built reordered preset acyclic
  obtain ⟨a'', b'', run', run'', twins, -⟩ := exists_resume
    (R := fun rest a b => Twins a b ∧ ∃ a', resume rest a = .ok () a')
    (fun rest a b b' h second => by
      obtain ⟨twins, _, whole⟩ := h
      obtain ⟨a', first, later⟩ := resume_succ_ok_iff.mp whole
      exact ⟨a', first, twins.cycle first second, _, later⟩)
    ⟨start, a', first⟩ second k hk
  refine ⟨a'', b'', run', run'', congrFun twins.alike.device, fun out watched watched' => ?_⟩
  rw [Monitors.watches_iff] at watched watched'
  refine twins.traces.exists_trace trivial ?_ ?_
  · rw [outputs_run run']
    exact watched
  · rw [outputs_run run'']
    exact watched'

/-- The devices declared from the last one to the first one. -/
def reversed (n : Netlist) : Netlist :=
  { n with devices := n.devices.reverse }

theorem reordered_reversed (n : Netlist) : n.Reordered (reversed n) :=
  ⟨rfl, (List.reverse_perm n.devices).symm.map _⟩

theorem againstOrder_reversed : ∃ a b,
    run 6 (watching Netlist.againstOrder ⟨⟨43⟩, none⟩) = .ok () a ∧
    run 6 (watching (reversed Netlist.againstOrder) ⟨⟨43⟩, none⟩) = .ok () b ∧
    (∀ s, a.netlist.device? s = b.netlist.device? s) ∧ ∃ trace,
      a.monitors.trace? ⟨⟨43⟩, none⟩ = some trace ∧ b.monitors.trace? ⟨⟨43⟩, none⟩ = some trace := by
  have first : (run 6 (watching Netlist.againstOrder ⟨⟨43⟩, none⟩)).isOk = true := by
    decide +kernel
  have second : (run 6 (watching (reversed Netlist.againstOrder) ⟨⟨43⟩, none⟩)).isOk = true := by
    decide +kernel
  obtain ⟨_, a', first⟩ := EStateM.Result.exists_of_isOk first
  obtain ⟨_, b', second⟩ := EStateM.Result.exists_of_isOk second
  obtain ⟨a, b, run, run', devices, traces⟩ := run_reordered
    (by rw [netlist_watching]; exact Netlist.againstOrder_built) (reordered_reversed _)
    (by rw [netlist_watching]; exact Netlist.againstOrder_preset)
    (by rw [netlist_watching]; exact Netlist.againstOrder_acyclic) first second 6 le_rfl
  exact ⟨a, b, run, run', devices, traces _ (watches_watching _ _) (watches_watching _ _)⟩

end LogicCircuit.Circuit
