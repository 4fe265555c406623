import LogicCircuit.Proofs.Netlist.Joining
import LogicCircuit.Proofs.Netlist.Matching

/-!
The inputs that nothing drives, in their order, and what becomes of a netlist when a low source
takes the place of a driver for those of its flip-flops.
-/

namespace LogicCircuit

namespace Device

variable {d e : Device} {o : Terminal} {g pin : Symbol} {inputs : List (Symbol × Symbol)}

/-- The device with an output as the driver of the unwired ones among some inputs of a netlist. -/
def linkedAll (o : Terminal) (inputs : List (Symbol × Symbol)) (d : Device) : Device :=
  inputs.foldl (fun d i => if d.symbol = i.1 then d.linked o i.2 else d) d

/-- Devices are the same if they have the same drivers and are the same otherwise. -/
theorem ext_get? (symbol : d.symbol = e.symbol) (body : d.body = e.body)
    (outputs : d.outputs = e.outputs) (inputs : ∀ pin, d.inputs.get? pin = e.inputs.get? pin) :
    d = e := by
  have inputs := PinMap.ext_get? inputs
  cases d
  cases e
  rw [Device.mk.injEq]
  exact ⟨symbol, body, inputs, outputs⟩

theorem linkedAll_frame (o : Terminal) (inputs : List (Symbol × Symbol)) (d : Device) :
    (d.linkedAll o inputs).symbol = d.symbol ∧ (d.linkedAll o inputs).body = d.body ∧
      (d.linkedAll o inputs).outputs = d.outputs := by
  induction inputs generalizing d with
  | nil => exact ⟨rfl, rfl, rfl⟩
  | cons i rest ih =>
    have one : (if d.symbol = i.1 then d.linked o i.2 else d).symbol = d.symbol ∧
        (if d.symbol = i.1 then d.linked o i.2 else d).body = d.body ∧
        (if d.symbol = i.1 then d.linked o i.2 else d).outputs = d.outputs := by
      split
      · rw [linked]
        split <;> exact ⟨rfl, rfl, rfl⟩
      · exact ⟨rfl, rfl, rfl⟩
    obtain ⟨symbol, body, outputs⟩ := ih (if d.symbol = i.1 then d.linked o i.2 else d)
    exact ⟨symbol.trans one.1, body.trans one.2.1, outputs.trans one.2.2⟩

theorem get?_linked (d : Device) (o : Terminal) (p pin : Symbol) :
    (d.linked o p).inputs.get? pin =
      if pin = p ∧ d.hasOutput (some pin) = false ∧ d.inputs.get? pin = some none then some (some o)
      else d.inputs.get? pin := by
  rw [linked]
  by_cases here : pin = p
  · subst here
    by_cases free : d.hasOutput (some pin) = false ∧ d.inputs.get? pin = some none
    · rw [if_pos free, if_pos ⟨rfl, free⟩]
      exact PinMap.get?_insert_self _ _ _
    · rw [if_neg free, if_neg fun all => free all.2]
  · have apart : ¬ (pin = p ∧ d.hasOutput (some pin) = false ∧ d.inputs.get? pin = some none) :=
      fun all => here all.1
    rw [if_neg apart]
    split
    · exact PinMap.get?_insert_of_ne _ _ here
    · rfl

theorem get?_linkedAll (o : Terminal) (inputs : List (Symbol × Symbol)) (d : Device)
    (pin : Symbol) : (d.linkedAll o inputs).inputs.get? pin =
      if (d.symbol, pin) ∈ inputs ∧ d.hasOutput (some pin) = false ∧
        d.inputs.get? pin = some none then some (some o)
      else d.inputs.get? pin := by
  induction inputs generalizing d with
  | nil => simp [linkedAll]
  | cons i rest ih =>
    obtain ⟨s, p⟩ := i
    rw [linkedAll, List.foldl_cons]
    by_cases here : d.symbol = s
    · subst here
      rw [if_pos rfl]
      refine (ih _).trans ?_
      simp only [symbol_linked, hasOutput_linked, get?_linked, List.mem_cons, Prod.mk.injEq,
        true_and]
      grind
    · rw [if_neg here]
      refine (ih _).trans ?_
      simp [here]

/-- The device as it was, but for an output that drives what nothing drove, if it is a flip-flop. -/
structure Tied (o : Terminal) (d e : Device) : Prop where
  symbol : e.symbol = d.symbol
  body : e.body = d.body
  outputs : e.outputs = d.outputs
  inputs : ∀ pin, e.inputs.get? pin =
    if d.kind = .flipFlop ∧ d.inputs.get? pin = some none then some (some o)
    else d.inputs.get? pin

theorem Tied.kind (h : Tied o d e) : e.kind = d.kind :=
  congrArg Body.kind h.body

/-- Only flip-flops are changed at all. -/
theorem Tied.eq_of_ne (h : Tied o d e) (other : d.kind ≠ .flipFlop) : e = d := by
  refine ext_get? h.symbol h.body h.outputs fun pin => ?_
  rw [h.inputs, if_neg fun both => other both.1]

theorem Tied.floating (h : Tied o d e) (kind : d.kind = .flipFlop) : e.floating = [] := by
  refine List.eq_nil_iff_forall_not_mem.mpr fun pin loose => ?_
  have free := mem_floating.mp loose
  rw [h.inputs] at free
  split at free
  · cases free
  · next bound => exact bound ⟨kind, free⟩

theorem tied_refl (complete : d.kind = .flipFlop → d.floating = []) : Tied o d d := by
  refine ⟨rfl, rfl, rfl, fun pin => (if_neg fun both => ?_).symm⟩
  have loose := mem_floating.mpr both.2
  rw [complete both.1] at loose
  cases loose

end Device

namespace Netlist

variable {n m : Netlist} {d : Device} {g s : Symbol} {inputs : List (Symbol × Symbol)}
  {kinds : Kind → Bool}

theorem devices_update (nodup : n.symbols.Nodup) (f : Device → Device) :
    (n.update s f).devices = n.devices.map fun d => if d.symbol = s then f d else d := by
  obtain ⟨v, ds⟩ := n
  simp only [symbols, update] at nodup ⊢
  induction ds with
  | nil => rfl
  | cons e rest ih =>
    obtain ⟨apart, nodup⟩ := List.nodup_cons.mp nodup
    by_cases hit : e.symbol = s
    · have same : ∀ d ∈ rest, (if d.symbol = s then f d else d) = d := by
        intro d hd
        refine if_neg fun hit' => apart ?_
        rw [hit, ← hit']
        exact List.mem_map_of_mem hd
      rw [updateFirst, if_pos hit, List.map_cons, if_pos hit, List.map_congr_left same,
        List.map_id']
    · rw [updateFirst, if_neg hit, List.map_cons, if_neg hit, ih nodup]

/-- Connecting an unnamed output to inputs changes the devices one by one. -/
theorem connectAll_eq (nodup : n.symbols.Nodup)
    (shown : (n.device? g).any (Device.hasOutput · none) = true) :
    n.connectAll ⟨g, none⟩ inputs =
      { n with devices := n.devices.map (Device.linkedAll ⟨g, none⟩ inputs) } := by
  induction inputs generalizing n with
  | nil =>
    have same : Device.linkedAll ⟨g, none⟩ [] = id := rfl
    rw [same, List.map_id]
    rfl
  | cons i rest ih =>
    have names : ∀ d : Device, d.symbol = i.1 → (d.linked ⟨g, none⟩ i.2).symbol = i.1 :=
      fun d here => (Device.symbol_linked d).trans here
    rw [connectAll, List.foldl_cons, connect_eq_linked, if_pos shown]
    refine (ih (symbols_update n names ▸ nodup) ((any_device?_linked n g i.1 i.2 _ none).trans
      shown)).trans ?_
    rw [devices_update nodup, List.map_map]
    rfl

/-- The unwired inputs of a device come in the order of their symbols. -/
theorem sorted_floating (d : Device) : d.floating.Pairwise fun p q => p.index < q.index :=
  d.inputs.keys_sorted.sublist (List.filter_sublist.map Prod.fst)

theorem nodup_floating (d : Device) : d.floating.Nodup :=
  (List.filter_sublist.map Prod.fst).nodup d.inputs.keys_nodup

/-- No input is listed twice. -/
theorem nodup_floatingOf (nodup : n.symbols.Nodup) : (n.floatingOf kinds).Nodup := by
  refine List.nodup_flatMap.mpr ⟨fun d _ => ?_, ?_⟩
  · exact (nodup_floating d).map fun a b eq => (Prod.mk.inj eq).2
  · have apart := (List.pairwise_map.mp nodup).sublist
      (List.filter_sublist : (n.devices.filter fun d => kinds d.kind).Sublist n.devices)
    refine apart.imp fun other => List.disjoint_left.mpr fun i first second => ?_
    obtain ⟨_, -, rfl⟩ := List.mem_map.mp first
    obtain ⟨_, -, eq⟩ := List.mem_map.mp second
    exact other (Prod.mk.inj eq).1.symm

/-- The second netlist is the first one with an output of its own that drives the inputs of
flip-flops that nothing drove; if there are none, nothing is new. -/
structure Grounded (g : Symbol) (n m : Netlist) : Prop where
  vocabulary : m.vocabulary = n.vocabulary
  devices : ∃ es, List.Forall₂ (Device.Tied ⟨g, none⟩) n.devices es ∧ m.devices =
    es ++ if n.floatingOf (fun kind => kind = .flipFlop) = [] then []
      else [Device.newSwitch g .low]

theorem grounded_self (g : Symbol) (complete : n.floatingOf (fun kind => kind = .flipFlop) = []) :
    Grounded g n n := by
  refine ⟨rfl, n.devices, List.forall₂_same.mpr fun d member => ?_, ?_⟩
  · refine Device.tied_refl fun kind => ?_
    have none := List.flatMap_eq_nil_iff.mp complete d
      (List.mem_filter.mpr ⟨member, decide_eq_true kind⟩)
    exact List.map_eq_nil_iff.mp none
  · rw [if_pos complete, List.append_nil]

/-- No switch has an input that could be linked. -/
theorem linkedAll_newSwitch (o : Terminal) (inputs : List (Symbol × Symbol)) (level : Level) :
    (Device.newSwitch s level).linkedAll o inputs = Device.newSwitch s level := by
  obtain ⟨symbol, body, outputs⟩ := (Device.newSwitch s level).linkedAll_frame o inputs
  refine Device.ext_get? symbol body outputs fun pin => ?_
  rw [Device.get?_linkedAll, if_neg]
  rintro ⟨-, -, input⟩
  cases input

theorem tied_linkedAll (pinned : n.Pinned) (nodup : n.symbols.Nodup) (member : d ∈ n.devices)
    (o : Terminal) :
    Device.Tied o d (d.linkedAll o (n.floatingOf fun kind => kind = .flipFlop)) := by
  obtain ⟨symbol, body, outputs⟩ := d.linkedAll_frame o (n.floatingOf fun kind => kind = .flipFlop)
  refine ⟨symbol, body, outputs, fun pin => ?_⟩
  rw [Device.get?_linkedAll]
  refine if_congr ?_ rfl rfl
  rw [mem_floatingOf_iff nodup]
  have known := device?_of_mem nodup member
  constructor
  · rintro ⟨⟨d', found', kind, -⟩, -, input⟩
    obtain rfl := Option.some.inj (found'.symm.trans known)
    exact ⟨of_decide_eq_true kind, input⟩
  · rintro ⟨kind, input⟩
    refine ⟨⟨d, known, decide_eq_true kind, Device.mem_floating.mpr input⟩, ?_, input⟩
    exact pinned.hasOutput_eq_false known (Device.input?_eq_some_iff.mpr ⟨rfl, input⟩)

theorem grounded_grounded (pinned : n.Pinned) (nodup : n.symbols.Nodup)
    (free : n.device? g = none)
    (loose : n.floatingOf (fun kind => kind = .flipFlop) ≠ []) : Grounded g n (n.grounded g) := by
  let inputs := n.floatingOf fun kind => kind = .flipFlop
  let low := Device.newSwitch g .low
  have absent := device?_eq_none_iff.mp free
  have names : (n.add low).symbols.Nodup := by
    rw [symbols_add]
    refine List.nodup_append.mpr ⟨nodup, List.nodup_singleton _, fun s hs t ht eq => absent ?_⟩
    rwa [eq, List.mem_singleton.mp ht] at hs
  have found : (n.add low).device? g = some low :=
    device?_of_mem names (List.mem_append_right _ (List.mem_singleton.mpr rfl))
  have shown : ((n.add low).device? g).any (Device.hasOutput · none) = true := by
    rw [found]
    rfl
  have powered : n.grounded g =
      { n.add low with devices := (n.add low).devices.map (Device.linkedAll ⟨g, none⟩ inputs) } := by
    rw [grounded, free]
    exact connectAll_eq names shown
  rw [powered]
  refine ⟨rfl, n.devices.map (Device.linkedAll ⟨g, none⟩ inputs), ?_, ?_⟩
  · exact List.forall₂_map_right_iff.mpr (List.forall₂_same.mpr fun d member =>
      tied_linkedAll pinned nodup member _)
  · rw [if_neg loose]
    change (n.devices ++ [low]).map _ = _
    rw [List.map_append, List.map_singleton, linkedAll_newSwitch]

/-- Kinds without unwired inputs can be left out. -/
theorem floatingOf_eq (bare : ∀ d ∈ n.devices, kinds d.kind = false → d.floating = []) :
    n.floatingOf kinds = n.floatingOf fun _ => true := by
  obtain ⟨v, ds⟩ := n
  simp only [floatingOf, List.filter_true] at bare ⊢
  induction ds with
  | nil => rfl
  | cons d rest ih =>
    obtain ⟨bare, later⟩ := List.forall_mem_cons.mp bare
    rw [List.flatMap_cons, ← ih later]
    cases used : kinds d.kind with
    | true => simp [used]
    | false => simp [used, bare used]

/-- Clocks and switches have no inputs at all. -/
theorem Pinned.floatingOf_eq (pinned : n.Pinned) :
    (n.floatingOf fun kind => kind ≠ .clock ∧ kind ≠ .switch) = n.floatingOf fun _ => true := by
  refine Netlist.floatingOf_eq fun d member source => ?_
  refine List.eq_nil_iff_forall_not_mem.mpr fun pin loose => ?_
  obtain ⟨g, gate⟩ | ⟨flipFlop, -⟩ :=
    (pinned.pins d member).mem_inputs (mem_floating_iff.mp loose).1
  · simp [gate] at source
  · simp [flipFlop] at source

/-- The inputs of every flip-flop are driven. -/
theorem Grounded.floating (h : Grounded g n m) (hd : d ∈ m.devices) (kind : d.kind = .flipFlop) :
    d.floating = [] := by
  obtain ⟨es, tied, eq⟩ := h.devices
  rw [eq, List.mem_append] at hd
  obtain old | new := hd
  · obtain ⟨d', -, tied⟩ := exists_of_forall₂ tied.flip old
    exact tied.floating (tied.kind.symm.trans kind)
  · split at new
    · cases new
    · rw [List.mem_singleton.mp new]
      rfl

/-- What is left unwired belongs to a device that was there before. -/
theorem Grounded.exists_of_mem_floatingOf (h : Grounded g n m) {i : Symbol × Symbol}
    (loose : i ∈ m.floatingOf kinds) : ∃ d ∈ n.devices, d.symbol = i.1 := by
  obtain ⟨es, tied, eq⟩ := h.devices
  obtain ⟨e, among, listed⟩ := List.mem_flatMap.mp loose
  obtain ⟨pin, floats, rfl⟩ := List.mem_map.mp listed
  have member := (List.mem_filter.mp among).1
  rw [eq, List.mem_append] at member
  obtain old | new := member
  · obtain ⟨d, hd, tied⟩ := exists_of_forall₂ tied.flip old
    exact ⟨d, hd, tied.symbol.symm⟩
  · split at new
    · cases new
    · rw [List.mem_singleton.mp new] at floats
      cases floats

/-- What is left unwired comes in the order of the devices that were there before. -/
theorem Grounded.pairwise_floatingOf {R : Symbol → Symbol → Prop} (h : Grounded g n m)
    (refl : ∀ s, R s s) (sorted : n.symbols.Pairwise R) :
    (m.floatingOf kinds).Pairwise fun i j => R i.1 j.1 := by
  obtain ⟨es, tied, eq⟩ := h.devices
  have symbols : es.map Device.symbol = n.symbols := by
    rw [symbols, ← List.forall₂_eq_eq_eq, List.forall₂_map_left_iff,
      List.forall₂_map_right_iff]
    exact tied.flip.imp fun _ _ tied => tied.symbol
  rw [← symbols, List.pairwise_map] at sorted
  refine List.pairwise_flatMap.mpr ⟨fun d _ => ?_, List.Pairwise.filter _ ?_⟩
  · exact List.pairwise_map.mpr (List.pairwise_of_forall fun _ _ => refl d.symbol)
  · rw [eq]
    refine List.pairwise_append.mpr ⟨?_, ?_, fun d _ e new => ?_⟩
    · refine sorted.imp fun {d e} before i hi j hj => ?_
      obtain ⟨_, -, rfl⟩ := List.mem_map.mp hi
      obtain ⟨_, -, rfl⟩ := List.mem_map.mp hj
      exact before
    · split
      · exact List.Pairwise.nil
      · exact List.pairwise_singleton _ _
    · intro i _ j hj
      split at new
      · cases new
      · rw [List.mem_singleton.mp new] at hj
        cases hj

end Netlist

end LogicCircuit
