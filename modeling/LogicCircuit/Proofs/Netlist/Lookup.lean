import LogicCircuit.Netlist
import Mathlib.Data.List.Nodup

/-!
Devices found by name: what a change of one device does to the names, to the devices found and to
the levels on their outputs.
-/

namespace LogicCircuit.Netlist

variable {n m : Netlist} {s t : Symbol} {d e : Device} {f : Device → Device}

theorem symbol_of_device? (h : n.device? s = some d) : d.symbol = s := by
  simpa using List.find?_some h

theorem mem_of_device? (h : n.device? s = some d) : d ∈ n.devices :=
  List.mem_of_find?_eq_some h

theorem mem_symbols_of_device? (h : n.device? s = some d) : s ∈ n.symbols :=
  List.mem_map.mpr ⟨d, mem_of_device? h, symbol_of_device? h⟩

theorem device?_isSome_iff : (n.device? s).isSome ↔ s ∈ n.symbols := by
  simp [device?, symbols]

theorem exists_device? (h : s ∈ n.symbols) : ∃ d, n.device? s = some d :=
  Option.isSome_iff_exists.mp (device?_isSome_iff.mpr h)

theorem device?_eq_none_iff : n.device? s = none ↔ s ∉ n.symbols := by
  rw [← device?_isSome_iff, Option.not_isSome_iff_eq_none]

/-- With names that are told apart, every device is the one found under its name. -/
theorem device?_of_mem (nodup : n.symbols.Nodup) (h : d ∈ n.devices) :
    n.device? d.symbol = some d := by
  obtain ⟨e, found⟩ := exists_device? (List.mem_map_of_mem h : d.symbol ∈ n.symbols)
  have same : e = d :=
    List.inj_on_of_nodup_map nodup (mem_of_device? found) h (symbol_of_device? found)
  rw [found, same]

theorem eq_none_of_symbols (h : n.symbols = m.symbols) (absent : n.device? s = none) :
    m.device? s = none := by
  rw [device?_eq_none_iff] at absent ⊢
  exact h ▸ absent

/-! All devices changed, none of them in its name. -/

theorem symbols_map (hf : ∀ d, (f d).symbol = d.symbol) :
    symbols { n with devices := n.devices.map f } = n.symbols := by
  rw [symbols, symbols, List.map_map]
  exact List.map_congr_left fun d _ => hf d

theorem device?_map (hf : ∀ d, (f d).symbol = d.symbol) :
    device? { n with devices := n.devices.map f } s = (n.device? s).map f := by
  simp only [device?, List.find?_map, Function.comp_def, hf]

/-! One device changed. -/

theorem map_symbol_updateFirst (hf : ∀ d, d.symbol = s → (f d).symbol = s) (ds : List Device) :
    (updateFirst s f ds).map Device.symbol = ds.map Device.symbol := by
  induction ds with
  | nil => rfl
  | cons d rest ih =>
    by_cases hit : d.symbol = s
    · simp [updateFirst, hit, hf d hit]
    · simp [updateFirst, hit, ih]

theorem updateFirst_of_not_mem {ds : List Device} (absent : s ∉ ds.map Device.symbol) :
    updateFirst s f ds = ds := by
  induction ds with
  | nil => rfl
  | cons d rest ih =>
    rw [List.map_cons, List.mem_cons, not_or] at absent
    rw [updateFirst, if_neg (Ne.symm absent.1), ih absent.2]

theorem find?_of_mem_updateFirst {ds : List Device} (h : d ∈ updateFirst s f ds) :
    d ∈ ds ∨ ∃ e, ds.find? (fun d => d.symbol = s) = some e ∧ d = f e := by
  induction ds with
  | nil => exact Or.inl h
  | cons e rest ih =>
    rw [updateFirst] at h
    split at h
    · next hit =>
      obtain rfl | later := List.mem_cons.mp h
      · exact Or.inr ⟨e, by simp [hit], rfl⟩
      · exact Or.inl (List.mem_cons_of_mem e later)
    · next other =>
      obtain rfl | later := List.mem_cons.mp h
      · exact Or.inl List.mem_cons_self
      · obtain old | ⟨e', found, eq⟩ := ih later
        · exact Or.inl (List.mem_cons_of_mem e old)
        · exact Or.inr ⟨e', by simpa [other] using found, eq⟩

theorem mem_updateFirst {ds : List Device} (h : d ∈ updateFirst s f ds) :
    d ∈ ds ∨ ∃ e ∈ ds, e.symbol = s ∧ d = f e := by
  obtain old | ⟨e, found, eq⟩ := find?_of_mem_updateFirst h
  · exact Or.inl old
  · exact Or.inr ⟨e, List.mem_of_find?_eq_some found, by simpa using List.find?_some found, eq⟩

/-- Of all devices, only the one that is found is changed. -/
theorem mem_update (found : n.device? s = some e) (h : d ∈ (n.update s f).devices) :
    d ∈ n.devices ∨ d = f e := by
  obtain old | ⟨e', found', eq⟩ := find?_of_mem_updateFirst h
  · exact Or.inl old
  · exact Or.inr (Option.some.inj (found.symm.trans found') ▸ eq)

theorem symbols_update (n : Netlist) (hf : ∀ d, d.symbol = s → (f d).symbol = s) :
    (n.update s f).symbols = n.symbols :=
  map_symbol_updateFirst hf n.devices

theorem device?_update_self (n : Netlist) (hf : ∀ d, d.symbol = s → (f d).symbol = s) :
    (n.update s f).device? s = (n.device? s).map f := by
  simp only [update, device?]
  induction n.devices with
  | nil => rfl
  | cons d rest ih =>
    by_cases hit : d.symbol = s
    · simp [updateFirst, hit, hf d hit]
    · simpa [updateFirst, hit] using ih

theorem device?_update_of_ne (n : Netlist) (hf : ∀ d, d.symbol = s → (f d).symbol = s)
    (other : t ≠ s) : (n.update s f).device? t = n.device? t := by
  simp only [update, device?]
  induction n.devices with
  | nil => rfl
  | cons d rest ih =>
    by_cases hit : d.symbol = s
    · have skip : ¬ d.symbol = t := fun eq => other (eq.symm.trans hit)
      have skip' : ¬ (f d).symbol = t := fun eq => other (eq.symm.trans (hf d hit))
      rw [updateFirst, if_pos hit, List.find?_cons_of_neg (by simpa using skip'),
        List.find?_cons_of_neg (by simpa using skip)]
    · by_cases found : d.symbol = t
      · rw [updateFirst, if_neg hit]
        simp [found]
      · simpa [updateFirst, hit, found] using ih

/-- A device put in the place of itself changes nothing. -/
theorem update_of_device? (h : n.device? s = some d) : n.update s (fun _ => d) = n := by
  have same (ds : List Device) (h : ds.find? (fun d => d.symbol = s) = some d) :
      updateFirst s (fun _ => d) ds = ds := by
    induction ds with
    | nil => rfl
    | cons e rest ih =>
      by_cases hit : e.symbol = s
      · simp only [List.find?_cons, hit, decide_true, Option.some.injEq] at h
        rw [updateFirst, if_pos hit, h]
      · simp only [List.find?_cons, hit, decide_false] at h
        rw [updateFirst, if_neg hit, ih h]
  rw [update, same n.devices h]

theorem level?_congr {t : Terminal} (h : n.device? t.device = m.device? t.device) :
    n.level? t = m.level? t := by
  rw [level?, level?, h]

end LogicCircuit.Netlist
