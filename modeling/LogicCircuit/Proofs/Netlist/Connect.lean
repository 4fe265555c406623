import LogicCircuit.Netlist.Connect
import LogicCircuit.Proofs.Device.Make
import LogicCircuit.Proofs.Netlist.Lookup

/-!
The netlists that come of adding a device and of connecting two ends.
-/

namespace LogicCircuit

namespace Device

variable {d : Device} {pin other : Symbol} {output : Terminal}

theorem mem_keys_of_driver? (h : d.driver? pin = some output) : pin ∈ d.inputs.keys := by
  rw [PinMap.mem_keys_iff]
  cases wiring : d.inputs.get? pin with
  | none => simp [driver?, wiring] at h
  | some _ => rfl

theorem driver?_wired_self (d : Device) (pin : Symbol) (output : Terminal) :
    (d.wired pin output).driver? pin = some output := by
  rw [driver?, wired, PinMap.get?_insert_self, Option.join_some]

theorem driver?_wired_of_ne (d : Device) (output : Terminal) (h : other ≠ pin) :
    (d.wired pin output).driver? other = d.driver? other := by
  rw [driver?, driver?, wired, PinMap.get?_insert_of_ne _ _ h]

theorem keys_wired (h : pin ∈ d.inputs.keys) : (d.wired pin output).inputs.keys = d.inputs.keys :=
  PinMap.keys_insert_of_mem _ h

theorem input?_eq_some_iff {p : Option Symbol} {driver : Option Terminal} :
    d.input? p = some (pin, driver) ↔ p = some pin ∧ d.inputs.get? pin = some driver := by
  cases p with
  | none => simp [input?]
  | some q =>
    simp only [input?, Option.bind_some, Option.map_eq_some_iff, Prod.mk.injEq,
      Option.some.injEq]
    constructor
    · intro h
      obtain ⟨driver', found, same, eq⟩ := h
      subst same eq
      exact ⟨rfl, found⟩
    · intro h
      obtain ⟨same, found⟩ := h
      subst same
      exact ⟨driver, found, rfl, rfl⟩

end Device

namespace Netlist

variable {n m : Netlist} {a b : Terminal} {s t : Symbol} {d : Device}

theorem symbols_add (n : Netlist) (d : Device) : (n.add d).symbols = n.symbols ++ [d.symbol] := by
  simp [symbols, add]

theorem device?_add_of_device? {e : Device} (h : n.device? t = some e) :
    (n.add d).device? t = some e := by
  simp only [device?, add, List.find?_append] at h ⊢
  rw [h, Option.some_or]

theorem declare_ok_iff {kind : Kind} {first second : Option Nat} :
    n.declare s kind first second = .ok m ↔
      n.device? s = none ∧ ∃ d, Device.Made n.vocabulary s kind first second d ∧ m = n.add d := by
  rw [declare]
  by_cases taken : (n.device? s).isSome
  · have known : ¬ n.device? s = none := by
      intro h
      simp [h] at taken
    simp [taken, known]
  · have free : n.device? s = none := by simpa using taken
    rw [if_neg taken, ← exists_and_left]
    cases made : Device.make n.vocabulary s kind first second with
    | error _ =>
      simp only [Except.map, reduceCtorEq, free, true_and, false_iff, not_exists, not_and]
      intro d h
      rw [Device.make_of_made h] at made
      cases made
    | ok d =>
      simp only [Except.map, Except.ok.injEq, free, true_and]
      constructor
      · intro h
        exact ⟨d, Device.made_of_make made, h.symm⟩
      · intro h
        obtain ⟨e, he, eq⟩ := h
        have same := (Device.make_of_made he).symm.trans made
        rw [eq, Except.ok.inj same]

/-- An unwired input comes to be driven by an output. -/
def Wires (n m : Netlist) (input output : Terminal) : Prop :=
  ∃ d e pin, n.device? input.device = some d ∧ n.device? output.device = some e ∧
    input.pin = some pin ∧ d.inputs.get? pin = some none ∧ e.hasOutput output.pin = true ∧
    m = n.update input.device (Device.wired pin output)

theorem wires_of_connect (h : n.connect a b = .ok m) : Wires n m a b ∨ Wires n m b a := by
  rw [connect] at h
  split at h
  · next d e hd he =>
    split at h
    · cases h
    · next pin input =>
      obtain ⟨named, unwired⟩ := Device.input?_eq_some_iff.mp input
      split at h
      · cases h
      · split at h
        · next output =>
          exact Or.inl ⟨d, e, pin, hd, he, named, unwired, output, (Except.ok.inj h).symm⟩
        · cases h
    · split at h
      · next output =>
        split at h
        · cases h
        · split at h
          · cases h
          · cases h
          · next pin input =>
            obtain ⟨named, unwired⟩ := Device.input?_eq_some_iff.mp input
            exact Or.inr ⟨e, d, pin, he, hd, named, unwired, output, (Except.ok.inj h).symm⟩
      · cases h
  · cases h

theorem connect_to_input {e : Device} {pin : Symbol} (hd : n.device? a.device = some d)
    (he : n.device? b.device = some e) (deaf : d.input? a.pin = none)
    (shown : d.hasOutput a.pin = true) (mute : e.hasOutput b.pin = false)
    (unwired : e.input? b.pin = some (pin, none)) :
    n.connect a b = .ok (n.update b.device (Device.wired pin a)) := by
  simp [connect, hd, he, deaf, shown, mute, unwired]

end Netlist

end LogicCircuit
