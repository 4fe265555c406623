import LogicCircuit.Device.Respond
import LogicCircuit.Proofs.PinMap
import Mathlib.Data.Option.Basic

/-!
A device responds to some of its inputs only, changes nothing of itself but levels, and has
nothing to add when it responds twice to the same levels.
-/

namespace LogicCircuit

theorem mapM_eq_some_iff {α β : Type} {f : α → Option β} {as : List α} {bs : List β} :
    as.mapM f = some bs ↔ as.map f = bs.map some := by
  induction as generalizing bs with
  | nil => cases bs <;> simp
  | cons a as ih =>
    cases bs with
    | nil => simp [Option.bind_eq_some_iff]
    | cons b bs => simp [Option.bind_eq_some_iff, ih]

/-- What a flip-flop remembers under the levels of its set and clear inputs. -/
def Level.preset (set clear memory : Level) : Level :=
  if set.isHigh then .high else if clear.isHigh then .low else memory

theorem Level.preset_preset (set clear memory : Level) :
    preset set clear (preset set clear memory) = preset set clear memory := by
  unfold preset
  split
  · rfl
  · split <;> rfl

namespace Device

variable {pins : FlipFlopPins} {lv lv' : Terminal → Option Level} {d d' : Device}

/-- The inputs that a device responds to. -/
def heeded (pins : FlipFlopPins) (d : Device) : List Symbol :=
  match d.body with
  | .gate _ => d.inputs.keys
  | .flipFlop _ => [pins.set, pins.clear]
  | .clock _ _ | .switch _ | .generator _ _ _ => []

theorem respond_gate_iff {g : Gate} (body : d.body = .gate g) :
    d.respond pins lv = some d' ↔ ∃ levels, d.inputs.keys.map (d.reads lv) = levels.map some ∧
      d' = { d with outputs := d.outputs.insert none (g.combine levels) } := by
  simp only [respond, body, bind, Option.bind_eq_some_iff, pure, Option.some.injEq,
    mapM_eq_some_iff]
  constructor
  · rintro ⟨levels, h, rfl⟩
    exact ⟨levels, h, rfl⟩
  · rintro ⟨levels, h, rfl⟩
    exact ⟨levels, h, rfl⟩

theorem respond_flipFlop_iff {memory : Level} (body : d.body = .flipFlop memory) :
    d.respond pins lv = some d' ↔ ∃ set clear, d.reads lv pins.set = some set ∧
      d.reads lv pins.clear = some clear ∧ d' = { d with
        body := .flipFlop (Level.preset set clear memory)
        outputs := (d.outputs.insert (some pins.q) (Level.preset set clear memory)).insert
          (some pins.qbar) (Level.preset set clear memory).inverted } := by
  simp only [respond, body, bind, Option.bind_eq_some_iff, pure, Option.some.injEq]
  constructor
  · rintro ⟨set, hs, clear, hc, rfl⟩
    exact ⟨set, clear, hs, hc, rfl⟩
  · rintro ⟨set, clear, hs, hc, rfl⟩
    exact ⟨set, hs, clear, hc, rfl⟩

theorem respond_source (gate : ∀ g, d.body ≠ .gate g) (flipFlop : ∀ m, d.body ≠ .flipFlop m) :
    d.respond pins lv = some d := by
  rw [respond]
  cases body : d.body with
  | gate g => exact absurd body (gate g)
  | flipFlop m => exact absurd body (flipFlop m)
  | clock _ _ => rfl
  | switch _ => rfl
  | generator _ _ _ => rfl

/-- A device responds once all inputs that it heeds show a level. -/
theorem exists_respond_iff : (∃ d', d.respond pins lv = some d') ↔
    ∀ pin ∈ d.heeded pins, ∃ level, d.reads lv pin = some level := by
  cases body : d.body with
  | gate g =>
    simp only [heeded, body, respond_gate_iff body]
    generalize d.inputs.keys = keys
    constructor
    · rintro ⟨-, levels, reads, -⟩ pin known
      have shown : d.reads lv pin ∈ levels.map some := reads ▸ List.mem_map_of_mem known
      obtain ⟨level, -, eq⟩ := List.mem_map.mp shown
      exact ⟨level, eq.symm⟩
    · intro all
      have levels : ∃ levels : List Level, keys.map (d.reads lv) = levels.map some := by
        induction keys with
        | nil => exact ⟨[], rfl⟩
        | cons pin rest ih =>
          obtain ⟨level, read⟩ := all pin List.mem_cons_self
          obtain ⟨levels, others⟩ := ih fun p hp => all p (List.mem_cons_of_mem pin hp)
          exact ⟨level :: levels, by simp [read, others]⟩
      obtain ⟨levels, reads⟩ := levels
      exact ⟨_, levels, reads, rfl⟩
  | flipFlop memory =>
    simp only [heeded, body, respond_flipFlop_iff body, List.mem_cons, List.not_mem_nil, or_false,
      forall_eq_or_imp, forall_eq]
    constructor
    · rintro ⟨-, set, clear, hs, hc, -⟩
      exact ⟨⟨set, hs⟩, ⟨clear, hc⟩⟩
    · rintro ⟨⟨set, hs⟩, ⟨clear, hc⟩⟩
      exact ⟨_, set, clear, hs, hc, rfl⟩
  | clock _ _ | switch _ | generator _ _ _ =>
    simp [heeded, body, respond_source]

/-- A response is one of three: that of a gate, that of a flip-flop, or none. -/
theorem respond_cases (h : d.respond pins lv = some d') :
    (∃ g levels, d.body = .gate g ∧ d.inputs.keys.map (d.reads lv) = levels.map some ∧
      d' = { d with outputs := d.outputs.insert none (g.combine levels) }) ∨
    (∃ memory set clear, d.body = .flipFlop memory ∧ d.reads lv pins.set = some set ∧
      d.reads lv pins.clear = some clear ∧ d' = { d with
        body := .flipFlop (Level.preset set clear memory)
        outputs := (d.outputs.insert (some pins.q) (Level.preset set clear memory)).insert
          (some pins.qbar) (Level.preset set clear memory).inverted }) ∨
    d' = d := by
  cases body : d.body with
  | gate g =>
    obtain ⟨levels, reads, eq⟩ := (respond_gate_iff body).mp h
    exact Or.inl ⟨g, levels, rfl, reads, by rw [eq, body]⟩
  | flipFlop memory =>
    obtain ⟨set, clear, hs, hc, eq⟩ := (respond_flipFlop_iff body).mp h
    exact Or.inr (Or.inl ⟨memory, set, clear, rfl, hs, hc, eq⟩)
  | clock _ _ | switch _ | generator _ _ _ =>
    rw [respond_source (by simp [body]) (by simp [body])] at h
    exact Or.inr (Or.inr (Option.some.inj h).symm)

theorem symbol_respond (h : d.respond pins lv = some d') : d'.symbol = d.symbol := by
  obtain ⟨_, _, _, _, rfl⟩ | ⟨_, _, _, _, _, _, rfl⟩ | rfl := respond_cases h <;> rfl

theorem inputs_respond (h : d.respond pins lv = some d') : d'.inputs = d.inputs := by
  obtain ⟨_, _, _, _, rfl⟩ | ⟨_, _, _, _, _, _, rfl⟩ | rfl := respond_cases h <;> rfl

theorem reads_congr_inputs (h : d'.inputs = d.inputs) : d'.reads lv = d.reads lv := by
  funext pin
  simp only [reads, driver?, h]

theorem reads_congr {pin : Symbol}
    (h : ∀ output, d.driver? pin = some output → lv output = lv' output) :
    d.reads lv pin = d.reads lv' pin := by
  rw [reads, reads]
  cases drives : d.driver? pin with
  | none => rfl
  | some output => exact h output drives

/-- Only the levels on the heeded inputs matter. -/
theorem respond_congr (h : ∀ pin ∈ d.heeded pins, d.reads lv pin = d.reads lv' pin) :
    d.respond pins lv = d.respond pins lv' := by
  cases body : d.body with
  | gate g =>
    have same : d.inputs.keys.map (d.reads lv) = d.inputs.keys.map (d.reads lv') :=
      List.map_congr_left (by simpa [heeded, body] using h)
    apply Option.ext
    intro e
    rw [respond_gate_iff body, respond_gate_iff body, same]
  | flipFlop memory =>
    simp only [heeded, body, List.mem_cons, List.not_mem_nil, or_false, forall_eq_or_imp,
      forall_eq] at h
    apply Option.ext
    intro e
    rw [respond_flipFlop_iff body, respond_flipFlop_iff body, h.1, h.2]
  | clock _ _ | switch _ | generator _ _ _ =>
    rw [respond_source (by simp [body]) (by simp [body]),
      respond_source (by simp [body]) (by simp [body])]

theorem respond_respond (h : d.respond pins lv = some d') : d'.respond pins lv = some d' := by
  have same : d'.reads lv = d.reads lv := reads_congr_inputs (inputs_respond h)
  obtain ⟨g, levels, body, reads, rfl⟩ | ⟨memory, set, clear, body, hs, hc, rfl⟩ | rfl :=
    respond_cases h
  · have body' : ({ d with outputs := d.outputs.insert none (g.combine levels) } : Device).body =
        .gate g := body
    refine (respond_gate_iff body').mpr ⟨levels, ?_, ?_⟩
    · rwa [same]
    · simp only [PinMap.insert_insert]
  · refine (respond_flipFlop_iff rfl).mpr ⟨set, clear, ?_, ?_, ?_⟩
    · rwa [same]
    · rwa [same]
    · simp only [Level.preset_preset, PinMap.insert_twice]
  · exact h

end Device

end LogicCircuit
