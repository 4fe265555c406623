import LogicCircuit.Proofs.Netlist.ColdStart
import LogicCircuit.Proofs.Netlist.Course
import LogicCircuit.Proofs.Netlist.Latching
import LogicCircuit.Proofs.Netlist.Reached
import LogicCircuit.Proofs.Netlist.Timing

/-!
Sources follow the time only: each cycle that begins, also one that stalls later on, lets a source
make one step, whatever the other devices are.
-/

namespace LogicCircuit

namespace Device

variable {pins pins' : FlipFlopPins} {d : Device}

theorem kind_iterate_stepped (k : Nat) (d : Device) : (stepped^[k] d).kind = d.kind := by
  induction k with
  | zero => rfl
  | succ k ih => rw [Function.iterate_succ_apply', kind_stepped, ih]

theorem started_iterate_stepped (pins : FlipFlopPins) (k : Nat) (d : Device) :
    (stepped^[k] d).started pins = d.started pins := by
  induction k with
  | zero => rfl
  | succ k ih => rw [Function.iterate_succ_apply', started_stepped, ih]

theorem started_of_isSource (source : d.kind.isSource = true) :
    d.started pins = d.started pins' := by
  cases body : d.body with
  | clock _ _ | switch _ | generator _ _ _ => simp only [started, body]
  | gate _ | flipFlop _ => simp [kind, body, Body.kind, Kind.isSource] at source

end Device

namespace Netlist

variable {n : Netlist} {s : Symbol} {d : Device}

theorem device?_cycle_of_isSource (found : n.device? s = some d)
    (source : d.kind.isSource = true) (limit : Nat) :
    (n.cycle limit).state.device? s = some d.stepped := by
  have source' : d.stepped.kind.isSource = true := (Device.kind_stepped d).symm ▸ source
  have other : d.stepped.kind ≠ .flipFlop := by
    intro kind
    rw [kind] at source'
    cases source'
  have undisturbed := undisturbed_device (s := s) (d := d.stepped)
    (fun _ => Device.remembering_of_ne other) fun _ _ => Device.respond_of_isSource source'
  refine undisturbed.cycle ?_ limit
  rw [stepSources, device?_map symbol_stepped, found, Option.map_some]

/-- How many of so many cycles begin: all of them, or one more than complete. -/
def begins (limit cycles : Nat) (n : Netlist) : Nat :=
  min cycles ((n.course limit cycles).length + 1)

theorem begins_of_complete {limit k : Nat} (complete : (n.course limit k).length = k) :
    n.begins limit k = k := by
  rw [begins, complete, Nat.min_eq_left (Nat.le_succ k)]

/-- A source has made one step for each cycle that began. -/
theorem device?_advanced_of_isSource (found : n.device? s = some d)
    (source : d.kind.isSource = true) (limit k : Nat) :
    (n.advanced limit k).device? s = some (Device.stepped^[n.begins limit k] d) := by
  induction k generalizing n d with
  | zero => exact found
  | succ k ih =>
    have first := device?_cycle_of_isSource found source limit
    cases step : n.cycle limit with
    | ok _ m =>
      rw [step] at first
      obtain ⟨next, last⟩ := course_of_ok (k := k) step
      have count : n.begins limit (k + 1) = m.begins limit k + 1 := by
        rw [begins, begins, next, List.length_cons, Nat.add_min_add_right]
      rw [last, count, Function.iterate_succ_apply]
      exact ih first ((Device.kind_stepped d).symm ▸ source)
    | error _ m =>
      rw [step] at first
      obtain ⟨next, last⟩ := course_of_error (k := k) step
      have count : n.begins limit (k + 1) = 1 := by
        rw [begins, next, List.length_nil]
        omega
      rw [last, count]
      exact first

end Netlist

end LogicCircuit
