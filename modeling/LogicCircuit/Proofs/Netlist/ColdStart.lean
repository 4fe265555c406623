import LogicCircuit.Proofs.Netlist.Switching

/-!
The state in which a run starts does not depend on what the devices did before: it is determined by
their design and the settings of the switches.
-/

namespace LogicCircuit

namespace Device

variable {pins : FlipFlopPins} {lv : Terminal → Option Level} {d d' : Device} {level : Level}

/-- The setting of a switch. -/
def setting? (d : Device) : Option Level :=
  match d.body with
  | .switch level => some level
  | .gate _ | .clock _ _ | .flipFlop _ | .generator _ _ _ => none

/-- A switch with its setting. -/
def entry? (d : Device) : Option (Symbol × Level) :=
  d.setting?.map fun level => (d.symbol, level)

theorem exists_setting (kind : d.kind = .switch) : ∃ level, d.body = .switch level := by
  rw [Device.kind] at kind
  cases body : d.body with
  | switch level => exact ⟨level, rfl⟩
  | gate _ | clock _ _ | flipFlop _ | generator _ _ _ => simp [body, Body.kind] at kind

/-! Whatever a device has done, a start undoes. -/

theorem started_started (pins : FlipFlopPins) (d : Device) :
    (d.started pins).started pins = d.started pins := by
  cases body : d.body <;> simp [started, body, PinMap.insert_insert, PinMap.insert_twice]

theorem started_stepped (pins : FlipFlopPins) (d : Device) :
    d.stepped.started pins = d.started pins := by
  cases body : d.body with
  | gate _ | flipFlop _ => simp only [stepped, body]
  | switch level => simp only [stepped, started, body, PinMap.insert_insert]
  | clock halfPeriod counter =>
    simp only [stepped, body]
    split <;> simp only [started, body, PinMap.insert_insert]
  | generator high low counter =>
    simp only [stepped, body]
    generalize ((d.outputs.get? none).map Level.isHigh).getD true = current
    by_cases more : counter < (if current then high else low)
    · simp only [if_pos more, started, body, PinMap.insert_insert]
    · simp only [if_neg more, started, body, PinMap.insert_insert]

theorem started_remembering (pins : FlipFlopPins) (level : Level) (d : Device) :
    (d.remembering level).started pins = d.started pins := by
  cases body : d.body <;> simp [started, remembering, body]

theorem started_respond (h : d.respond pins lv = some d') : d'.started pins = d.started pins := by
  obtain ⟨g, levels, body, -, rfl⟩ | ⟨memory, set, clear, body, -, -, rfl⟩ | rfl := respond_cases h
  · simp [started, body, PinMap.insert_insert]
  · simp [started, body, PinMap.insert_twice]
  · rfl

theorem setting?_started (pins : FlipFlopPins) (d : Device) :
    (d.started pins).setting? = d.setting? := by
  cases body : d.body <;> simp [setting?, started, body]

/-- The device as a run starts it, but for the setting of a switch. -/
def design (pins : FlipFlopPins) (d : Device) : Device :=
  match d.body with
  | .switch _ => d.switched .low
  | .gate _ | .clock _ _ | .flipFlop _ | .generator _ _ _ => d.started pins

theorem design_started (pins : FlipFlopPins) (d : Device) :
    (d.started pins).design pins = d.design pins := by
  cases body : d.body <;>
    simp [design, started, switched, body, PinMap.insert_insert, PinMap.insert_twice]

theorem design_switched (kind : d.kind = .switch) :
    (d.switched level).design pins = d.design pins := by
  obtain ⟨held, body⟩ := exists_setting kind
  simp only [design, switched, body, PinMap.insert_insert]

theorem isSome_setting?_design (pins : FlipFlopPins) (d : Device) :
    (d.design pins).setting?.isSome = d.setting?.isSome := by
  cases body : d.body <;> simp [design, started, switched, setting?, body]

/-- The design and the setting make up the start. -/
theorem started_eq_of_design (pins : FlipFlopPins) (d : Device) : d.started pins =
    match d.setting? with
    | some level => { d.design pins with
        body := .switch level, outputs := (d.design pins).outputs.insert none level }
    | none => d.design pins := by
  cases body : d.body <;> simp [started, design, switched, setting?, body, PinMap.insert_insert]

theorem started_switched (kind : d.kind = .switch) :
    (d.switched level).started pins = (d.started pins).switched level := by
  obtain ⟨held, body⟩ := exists_setting kind
  simp only [started, switched, body, PinMap.insert_insert]

end Device

namespace Netlist

variable {n m : Netlist} {s : Symbol} {level : Level}

/-- The switches with their settings. -/
def settings (n : Netlist) : List (Symbol × Level) :=
  n.devices.filterMap Device.entry?

/-- Both netlists have the same devices, but for what these have done and for the settings of the
switches. -/
def SameDesign (n m : Netlist) : Prop :=
  n.vocabulary = m.vocabulary ∧
    n.devices.map (Device.design n.vocabulary.flipFlop) =
      m.devices.map (Device.design m.vocabulary.flipFlop)

theorem started_eq_iff : m.started = n.started ↔ m.vocabulary = n.vocabulary ∧
    m.devices.map (Device.started n.vocabulary.flipFlop) =
      n.devices.map (Device.started n.vocabulary.flipFlop) := by
  rw [started, started, Netlist.mk.injEq]
  constructor
  · intro h
    exact ⟨h.1, h.1 ▸ h.2⟩
  · intro h
    exact ⟨h.1, h.1 ▸ h.2⟩

theorem started_started (n : Netlist) : n.started.started = n.started := by
  refine started_eq_iff.mpr ⟨rfl, ?_⟩
  rw [started, List.map_map]
  exact List.map_congr_left fun d _ => Device.started_started _ d

/-- No part of a cycle changes what the netlist is at a start. -/
theorem kept_started (n : Netlist) : Kept fun m => m.started = n.started := by
  simp only [started_eq_iff]
  exact kept_map (Device.started_stepped _) (Device.started_remembering _)
    fun _ _ _ => Device.started_respond

theorem settings_started (n : Netlist) : n.started.settings = n.settings := by
  rw [settings, settings, started, List.filterMap_map]
  congr 1
  funext d
  simp only [Function.comp_apply, Device.entry?, Device.setting?_started,
    (Device.started_frame _ d).1]

theorem sameDesign_of_started (h : m.started = n.started) : m.SameDesign n := by
  obtain ⟨words, same⟩ := started_eq_iff.mp h
  refine ⟨words, ?_⟩
  have designs := congrArg (List.map (Device.design n.vocabulary.flipFlop)) same
  simpa only [List.map_map, Function.comp_def, Device.design_started, words] using designs

theorem sameDesign_setSwitch (h : n.setSwitch? s level = some m) : m.SameDesign n := by
  obtain ⟨d, found, kind, rfl⟩ := setSwitch?_eq_some_iff.mp h
  exact ⟨rfl, map_update found (Device.design_switched kind)⟩

/-- Where a switch stands opposite a switch, the lists of settings go on together. -/
theorem entries_cons_inj {d e : Device} {ds es : List Device}
    (kinds : d.setting?.isSome = e.setting?.isSome)
    (h : (d :: ds).filterMap Device.entry? = (e :: es).filterMap Device.entry?) :
    d.setting? = e.setting? ∧ ds.filterMap Device.entry? = es.filterMap Device.entry? := by
  cases hd : d.setting? with
  | none =>
    have he : e.setting? = none := by simpa [hd] using kinds.symm
    simpa [List.filterMap_cons, Device.entry?, hd, he] using h
  | some level =>
    obtain ⟨level', he⟩ : ∃ level', e.setting? = some level' :=
      Option.isSome_iff_exists.mp (by rw [← kinds, hd]; rfl)
    have opposite : (d.symbol, level) :: ds.filterMap Device.entry? =
        (e.symbol, level') :: es.filterMap Device.entry? := by
      simpa [List.filterMap_cons, Device.entry?, hd, he] using h
    obtain ⟨first, rest⟩ := List.cons.inj opposite
    exact ⟨by rw [he, (Prod.mk.inj first).2], rest⟩

theorem map_started_eq {pins : FlipFlopPins} {ds es : List Device}
    (design : ds.map (Device.design pins) = es.map (Device.design pins))
    (settings : ds.filterMap Device.entry? = es.filterMap Device.entry?) :
    ds.map (Device.started pins) = es.map (Device.started pins) := by
  induction ds generalizing es with
  | nil =>
    rw [List.map_nil, eq_comm, List.map_eq_nil_iff] at design
    rw [design]
  | cons d ds ih =>
    cases es with
    | nil => cases design
    | cons e es =>
      rw [List.map_cons, List.map_cons, List.cons.injEq] at design
      obtain ⟨head, tail⟩ := design
      have kinds : d.setting?.isSome = e.setting?.isSome := by
        rw [← Device.isSome_setting?_design pins, head, Device.isSome_setting?_design]
      obtain ⟨setting, rest⟩ := entries_cons_inj kinds settings
      rw [List.map_cons, List.map_cons, ih tail rest, Device.started_eq_of_design pins d,
        Device.started_eq_of_design pins e, head, setting]

/-- The design and the settings determine the start. -/
theorem started_of_sameDesign (design : n.SameDesign m) (settings : n.settings = m.settings) :
    n.started = m.started := by
  obtain ⟨words, design⟩ := design
  rw [words] at design
  exact started_eq_iff.mpr ⟨words, map_started_eq design settings⟩

/-- A setting has the same effect before a start and after it. -/
theorem started_setSwitch (n : Netlist) (s : Symbol) (level : Level) :
    (n.setSwitch? s level).map started = n.started.setSwitch? s level := by
  have names : ∀ d, (Device.started n.vocabulary.flipFlop d).symbol = d.symbol := fun d =>
    (Device.started_frame _ d).1
  have found' : n.started.device? s = (n.device? s).map (Device.started n.vocabulary.flipFlop) :=
    device?_map names
  apply Option.ext
  intro m
  rw [Option.map_eq_some_iff, setSwitch?_eq_some_iff, found']
  simp only [setSwitch?_eq_some_iff, Option.map_eq_some_iff]
  have same {d : Device} (found : n.device? s = some d) (kind : d.kind = .switch) :
      (n.update s (Device.switched level)).started =
        n.started.update s (Device.switched level) := by
    have commute : (d.switched level).started n.vocabulary.flipFlop =
        (d.started n.vocabulary.flipFlop).switched level := Device.started_switched kind
    have devices := map_update_comm names found commute
    simp only [started, update, Netlist.mk.injEq, true_and] at devices ⊢
    exact devices
  constructor
  · intro h
    obtain ⟨m', ⟨d, found, kind, rfl⟩, rfl⟩ := h
    exact ⟨_, ⟨d, found, rfl⟩, (Device.started_frame _ d).2.1.trans kind, same found kind⟩
  · intro h
    obtain ⟨_, ⟨d, found, rfl⟩, kind, rfl⟩ := h
    rw [(Device.started_frame _ d).2.1] at kind
    exact ⟨_, ⟨d, found, kind, rfl⟩, same found kind⟩

end Netlist

end LogicCircuit
