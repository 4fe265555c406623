import LogicCircuit.Proofs.Netlist.FixedPoint

/-!
All flip-flops latch at once: none of them sees what another one has latched in the same cycle, and
so their order does not matter.
-/

namespace LogicCircuit

namespace Device

variable {pins : FlipFlopPins} {lv : Terminal → Option Level} {d : Device} {level : Level}

/-- The device after the latching, among these levels. -/
def latched (pins : FlipFlopPins) (lv : Terminal → Option Level) (d : Device) : Device :=
  match d.reads lv pins.clock, d.reads lv pins.data with
  | some .rising, some level => d.remembering level.settled
  | _, _ => d

theorem remembering_frame (level : Level) (d : Device) : (d.remembering level).symbol = d.symbol ∧
    (d.remembering level).inputs = d.inputs ∧ (d.remembering level).outputs = d.outputs := by
  rw [remembering]
  split <;> exact ⟨rfl, rfl, rfl⟩

theorem body_remembering {memory : Level} (body : d.body = .flipFlop memory) :
    (d.remembering level).body = .flipFlop level := by
  rw [remembering, body]

theorem remembering_of_ne (kind : d.kind ≠ .flipFlop) : d.remembering level = d := by
  rw [remembering]
  split
  · next memory body => simp [Device.kind, body, Body.kind] at kind
  · rfl

theorem latched_frame (pins : FlipFlopPins) (lv : Terminal → Option Level) (d : Device) :
    (d.latched pins lv).symbol = d.symbol ∧ (d.latched pins lv).inputs = d.inputs ∧
      (d.latched pins lv).outputs = d.outputs := by
  rw [latched]
  split
  · exact remembering_frame _ d
  · exact ⟨rfl, rfl, rfl⟩

theorem latched_of_ne (kind : d.kind ≠ .flipFlop) : d.latched pins lv = d := by
  rw [latched]
  split
  · exact remembering_of_ne kind
  · rfl

/-- What a flip-flop has in its memory after the latching. -/
theorem body_latched {memory clock data : Level} (body : d.body = .flipFlop memory)
    (read_clock : d.reads lv pins.clock = some clock)
    (read_data : d.reads lv pins.data = some data) :
    (d.latched pins lv).body = .flipFlop (if clock = .rising then data.settled else memory) := by
  rw [latched, read_clock, read_data]
  cases clock with
  | rising => exact body_remembering body
  | low | high | falling | blank => exact body

end Device

namespace Netlist

variable {n m : Netlist} {s t : Symbol} {d : Device} {names : List Symbol}

/-- A flip-flop that latches changes nothing but its own memory. -/
theorem device?_latch (h : latch s n = .ok () m) :
    m.device? s = (n.device? s).map (Device.latched n.vocabulary.flipFlop n.level?) ∧
      ∀ t, t ≠ s → m.device? t = n.device? t := by
  cases found : n.device? s with
  | none =>
    rw [latch, reads, driver?, found] at h
    cases h
  | some d =>
    have reads := reads_of_device? found
    rw [Option.map_some, Device.latched]
    rw [latch, reads] at h
    split at h
    · cases h
    · next rises =>
      split at h
      · cases h
      · next level read =>
        obtain rfl := EStateM.Result.ok.inj h |>.2
        have name (d : Device) (hd : d.symbol = s) : (d.remembering level.settled).symbol = s :=
          (Device.remembering_frame _ d).1.trans hd
        refine ⟨?_, fun t other => device?_update_of_ne n name other⟩
        rw [device?_update_self n name, found, rises, read]
        rfl
    · next clock apart read =>
      obtain rfl := EStateM.Result.ok.inj h |>.2
      refine ⟨?_, fun t _ => rfl⟩
      rw [found]
      split
      · next rises _ => exact absurd (Option.some.inj (read.symm.trans rises)) apart
      · rfl

theorem level?_latch (h : latch s n = .ok () m) : m.level? = n.level? := by
  obtain ⟨here, others⟩ := device?_latch h
  funext out
  by_cases hit : out.device = s
  · rw [level?, level?, hit, here]
    cases n.device? s with
    | none => rfl
    | some d =>
      simp only [Option.map_some, Option.bind_some]
      rw [(Device.latched_frame _ _ d).2.2]
  · exact level?_congr (others _ hit)

theorem reads_latch (h : latch s n = .ok () m) : m.reads = n.reads := by
  have wires (t : Symbol) : m.driver? t = n.driver? t := by
    funext pin
    obtain ⟨here, others⟩ := device?_latch h
    by_cases hit : t = s
    · rw [driver?, driver?, hit, here]
      cases n.device? s with
      | none => rfl
      | some d =>
        simp only [Option.map_some, Option.bind_some]
        rw [Device.driver?, Device.driver?, (Device.latched_frame _ _ d).2.1]
    · rw [driver?, driver?, others t hit]
  funext t pin
  rw [reads, reads, wires, level?_latch h]

/-- The clock input of a flip-flop shows a level, and so does its data input if the clock rises. -/
def Clocked (n : Netlist) (s : Symbol) : Prop :=
  ∃ clock, n.reads s n.vocabulary.flipFlop.clock = some clock ∧
    (clock = .rising → ∃ level, n.reads s n.vocabulary.flipFlop.data = some level)

theorem exists_latch_iff : (∃ m, latch s n = .ok () m) ↔ n.Clocked s := by
  rw [Clocked, latch]
  cases clock : n.reads s n.vocabulary.flipFlop.clock with
  | none => simp
  | some level =>
    cases level with
    | rising => cases n.reads s n.vocabulary.flipFlop.data <;> simp
    | low | high | falling | blank => simp

theorem exists_latchAll_iff : (∃ m, latchAll names n = .ok () m) ↔ ∀ s ∈ names, n.Clocked s := by
  induction names generalizing n with
  | nil => exact iff_of_true ⟨n, rfl⟩ (by simp)
  | cons s rest ih =>
    -- a latch changes nothing that another one reads
    have same {k : Netlist} (head : latch s n = .ok () k) (t : Symbol) :
        k.Clocked t ↔ n.Clocked t := by
      rw [Clocked, Clocked, reads_latch head, (frame_latch head).1]
    rw [List.forall_mem_cons, ← exists_latch_iff]
    constructor
    · rintro ⟨m, h⟩
      obtain ⟨k, head, tail⟩ := latchAll_cons_ok_iff.mp h
      exact ⟨⟨k, head⟩, fun t ht => (same head t).mp (ih.mp ⟨m, tail⟩ t ht)⟩
    · rintro ⟨⟨k, head⟩, others⟩
      obtain ⟨m, tail⟩ := ih.mpr fun t ht => (same head t).mpr (others t ht)
      exact ⟨m, latchAll_cons_ok_iff.mpr ⟨k, head, tail⟩⟩

theorem device?_latchAll (nodup : names.Nodup) (h : latchAll names n = .ok () m) :
    (∀ s ∈ names, m.device? s =
      (n.device? s).map (Device.latched n.vocabulary.flipFlop n.level?)) ∧
    (∀ s, s ∉ names → m.device? s = n.device? s) ∧ m.level? = n.level? := by
  induction names generalizing n with
  | nil =>
    obtain ⟨-, rfl⟩ := EStateM.pure_ok_iff.mp h
    exact ⟨by simp, fun _ _ => rfl, rfl⟩
  | cons s rest ih =>
    obtain ⟨absent, nodup⟩ := List.nodup_cons.mp nodup
    obtain ⟨k, first, later⟩ := latchAll_cons_ok_iff.mp h
    obtain ⟨here, others⟩ := device?_latch first
    have levels := level?_latch first
    obtain ⟨inside, outside, levels'⟩ := ih nodup later
    rw [levels, (frame_latch first).1] at inside
    refine ⟨fun t ht => ?_, fun t ht => ?_, levels'.trans levels⟩
    · by_cases eq : t = s
      · rw [eq, outside s absent, here]
      · have member := (List.mem_cons.mp ht).resolve_left eq
        rw [inside t member, others t eq]
    · rw [List.mem_cons, not_or] at ht
      rw [outside t ht.2, others t ht.1]

theorem mem_symbolsOf {kind : Kind} (found : n.device? s = some d) (same : d.kind = kind) :
    s ∈ n.symbolsOf kind := by
  refine List.mem_map.mpr ⟨d, List.mem_filter.mpr ⟨mem_of_device? found, ?_⟩, ?_⟩
  · exact decide_eq_true same
  · exact symbol_of_device? found

/-- The latching takes each device to what it becomes among the levels before. -/
theorem device?_latched (nodup : n.symbols.Nodup)
    (h : latchAll (n.symbolsOf .flipFlop) n = .ok () m) (s : Symbol) :
    m.device? s = (n.device? s).map (Device.latched n.vocabulary.flipFlop n.level?) := by
  have distinct : (n.symbolsOf .flipFlop).Nodup :=
    nodup.sublist (List.Sublist.map _ List.filter_sublist)
  obtain ⟨inside, outside, -⟩ := device?_latchAll distinct h
  by_cases member : s ∈ n.symbolsOf .flipFlop
  · exact inside s member
  · rw [outside s member]
    cases found : n.device? s with
    | none => rfl
    | some d =>
      have other : d.kind ≠ .flipFlop := fun kind => member (mem_symbolsOf found kind)
      rw [Option.map_some, Device.latched_of_ne other]

theorem level?_latched (nodup : n.symbols.Nodup)
    (h : latchAll (n.symbolsOf .flipFlop) n = .ok () m) : m.level? = n.level? :=
  (device?_latchAll (nodup.sublist (List.Sublist.map _ List.filter_sublist)) h).2.2

end Netlist

end LogicCircuit
