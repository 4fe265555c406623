import LogicCircuit.Proofs.Netlist.Invariant

/-!
A switch takes on the setting that it is given and shows it at once; nothing else changes.
-/

namespace LogicCircuit

namespace Device

variable {v : Vocabulary} {d : Device} {level : Level}

/-- The device as a switch in a new setting. -/
def switched (level : Level) (d : Device) : Device :=
  { d with body := .switch level.settled, outputs := d.outputs.insert none level.settled }

theorem layout_switched (pins : d.HasPins v) (kind : d.kind = .switch) :
    (d.switched level).layout = d.layout :=
  layout_congr_outputs kind.symm (PinMap.keys_insert_of_mem _ (pins.unnamed (by simp [kind])))

theorem started_newSwitch (pins : FlipFlopPins) (s : Symbol) (level : Level) :
    (newSwitch s level).started pins = newSwitch s level := by
  simp only [started, newSwitch, PinMap.insert_insert]

theorem stepped_newSwitch (s : Symbol) (level : Level) :
    (newSwitch s level).stepped = newSwitch s level := by
  simp only [stepped, newSwitch, PinMap.insert_insert]

theorem switched_newSwitch (s : Symbol) (level level' : Level) :
    (newSwitch s level).switched level' = newSwitch s level'.settled := by
  simp only [switched, newSwitch, PinMap.insert_insert]

end Device

namespace Netlist

variable {n m : Netlist} {s t : Symbol} {d : Device} {level : Level}

theorem setSwitch?_eq_some_iff : n.setSwitch? s level = some m ↔
    ∃ d, n.device? s = some d ∧ d.kind = .switch ∧ m = n.update s (Device.switched level) := by
  simp only [setSwitch?, kindOf?, Option.map_eq_some_iff, Option.ite_none_right_eq_some,
    Option.some.injEq]
  constructor
  · intro h
    obtain ⟨⟨d, found, kind⟩, rfl⟩ := h
    exact ⟨d, found, kind, rfl⟩
  · intro h
    obtain ⟨d, found, kind, rfl⟩ := h
    exact ⟨⟨d, found, kind⟩, rfl⟩

theorem sameLayout_setSwitch (proper : n.Proper) (h : n.setSwitch? s level = some m) :
    n.SameLayout m := by
  obtain ⟨d, found, kind, rfl⟩ := setSwitch?_eq_some_iff.mp h
  exact sameLayout_update found (Device.layout_switched (proper.pins s d found) kind)

theorem device?_setSwitch_self (h : n.setSwitch? s level = some m) :
    m.device? s = (n.device? s).map (Device.switched level) := by
  obtain ⟨d, found, kind, rfl⟩ := setSwitch?_eq_some_iff.mp h
  exact device?_update_self n fun _ name => name

theorem device?_setSwitch_of_ne (h : n.setSwitch? s level = some m) (other : t ≠ s) :
    m.device? t = n.device? t := by
  obtain ⟨d, found, kind, rfl⟩ := setSwitch?_eq_some_iff.mp h
  exact device?_update_of_ne n (fun _ name => name) other

/-- No part of a cycle touches a switch. -/
theorem kept_switch (s : Symbol) (level : Level) :
    Kept fun n => n.device? s = some (Device.newSwitch s level) :=
  have undisturbed := undisturbed_device (s := s) (d := Device.newSwitch s level) (fun _ => rfl)
    fun _ _ => rfl
  { stepSources := fun n h => by
      rw [stepSources, device?_map symbol_stepped, h, Option.map_some, Device.stepped_newSwitch]
    latch := undisturbed.latch
    refresh := undisturbed.refresh }

end Netlist

end LogicCircuit
