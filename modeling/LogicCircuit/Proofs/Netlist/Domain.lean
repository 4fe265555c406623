import LogicCircuit.Proofs.Device.Waveform
import LogicCircuit.Proofs.Netlist.ColdStart
import LogicCircuit.Proofs.Netlist.Course
import LogicCircuit.Proofs.Netlist.Definite
import LogicCircuit.Proofs.Netlist.Reached
import LogicCircuit.Text.Decimal

/-!
What the devices of each kind show and keep: edges come from clocks only, blanks from nowhere, the
two outputs of a flip-flop are opposite, and the counters of sources stay within their phases.
-/

namespace LogicCircuit

open LogicCircuit.Text

namespace Level

variable {level : Level}

theorem settled_ofBool (b : Bool) : (ofBool b).settled = ofBool b := by
  cases b <;> rfl

theorem settled_inverted (h : level.settled = level) : level.inverted.settled = level.inverted := by
  cases level <;> simp_all [settled, inverted]

/-- A level that is neither an edge nor a blank. -/
theorem low_or_high (flat : level.settled = level) (known : level ≠ .blank) :
    level = .low ∨ level = .high := by
  cases level <;> simp_all [settled]

end Level

/-- How long the phases of a source are. -/
def Body.lengths : Body → List Nat
  | .clock half _ => [half]
  | .generator high low _ => [high, low]
  | .gate _ | .switch _ | .flipFlop _ => []

namespace Device

variable {d d' : Device} {pins : FlipFlopPins} {lv : Terminal → Option Level} {level : Level}
  {bound : Nat}

/-- What a device of each kind shows and keeps. -/
structure InDomain (pins : FlipFlopPins) (d : Device) : Prop where
  blank : ∀ pin level, d.outputs.get? pin = some level → level ≠ .blank
  edges : ∀ pin level, d.outputs.get? pin = some level → level = .rising ∨ level = .falling →
    d.kind = .clock
  setting : ∀ level, d.body = .switch level → level = .low ∨ level = .high
  memory : ∀ level, d.body = .flipFlop level → level = .low ∨ level = .high
  opposite : d.kind = .flipFlop → ∃ q, d.outputs.get? (some pins.q) = some q ∧
    d.outputs.get? (some pins.qbar) = some q.inverted
  clock : ∀ half counter, d.body = .clock half counter → counter < half
  generator : ∀ high low counter, d.body = .generator high low counter →
    ∃ level, d.outputs.get? none = some level ∧ counter ≤ if level.isHigh then high else low
  sums : ∀ sum ∈ d.counted?, sum < Decimal.bound

/-! Edges. -/

/-- No output shows an edge. -/
def Flat (outputs : PinMap (Option Symbol) Level) : Prop :=
  ∀ pin level, outputs.get? pin = some level → level.settled = level

theorem flat_empty : Flat PinMap.empty := by
  intro pin level h
  cases h

theorem Flat.insert {outputs : PinMap (Option Symbol) Level} (h : Flat outputs)
    (pin : Option Symbol) (new : level.settled = level) : Flat (outputs.insert pin level) := by
  intro other level' shown
  rw [PinMap.get?_insert] at shown
  split at shown
  · exact Option.some.inj shown ▸ new
  · exact h other level' shown

/-- Only a clock shows edges, and no device keeps one. -/
structure Smooth (d : Device) : Prop where
  flat : d.kind ≠ .clock → Flat d.outputs
  setting : ∀ level, d.body = .switch level → level.settled = level
  memory : d.Calm

theorem flat_stepped (h : d.Smooth) (other : d.kind ≠ .clock) : Flat d.stepped.outputs := by
  have flat := h.flat other
  rw [stepped]
  cases body : d.body with
  | gate _ | flipFlop _ => exact flat
  | switch level => exact flat.insert none (h.setting level body)
  | clock half counter => exact absurd (by rw [kind, body, Body.kind]) other
  | generator high low counter =>
    dsimp only
    generalize ((d.outputs.get? none).map Level.isHigh).getD true = current
    by_cases more : counter < (if current then high else low)
    · rw [if_pos more]
      exact flat.insert none (Level.settled_ofBool _)
    · rw [if_neg more]
      exact flat.insert none (Level.settled_ofBool _)

theorem body_stepped_of_switch (h : d.stepped.body = .switch level) : d.body = .switch level := by
  have kind : d.kind = .switch := by rw [← kind_stepped, Device.kind, h, Body.kind]
  obtain ⟨held, body⟩ := exists_setting kind
  rw [stepped, body] at h
  exact body.trans h

theorem Smooth.stepped (h : d.Smooth) : d.stepped.Smooth :=
  ⟨fun other => flat_stepped h (kind_stepped d ▸ other),
    fun level body => h.setting level (body_stepped_of_switch body), calm_stepped d h.memory⟩

theorem Smooth.remembering (h : d.Smooth) (level : Level) :
    (d.remembering level.settled).Smooth := by
  have calm := calm_remembering level d h.memory
  by_cases kind : d.kind = .flipFlop
  · obtain ⟨memory, body⟩ := exists_memory kind
    have flat := h.flat (by simp [kind])
    rw [Device.remembering, body] at calm ⊢
    exact ⟨fun _ => flat, by simp, calm⟩
  · rw [remembering_of_ne kind]
    exact h

theorem Smooth.respond (h : d.Smooth) (answer : d.respond pins lv = some d') : d'.Smooth := by
  have calm := calm_respond pins lv d d' h.memory answer
  obtain ⟨g, levels, body, -, rfl⟩ | ⟨memory, set, clear, body, -, -, rfl⟩ | rfl :=
    respond_cases answer
  · have flat := h.flat (by simp [kind, body, Body.kind])
    exact ⟨fun _ => flat.insert none (Level.settled_ofBool _), h.setting, calm⟩
  · have flat := h.flat (by simp [kind, body, Body.kind])
    have kept : (Level.preset set clear memory).settled = Level.preset set clear memory :=
      Level.settled_preset (h.memory memory body)
    exact ⟨fun _ => (flat.insert _ kept).insert _ (Level.settled_inverted kept), by simp, calm⟩
  · exact h

theorem smooth_started (flat : d.kind ≠ .clock → Flat d.outputs)
    (setting : ∀ level, d.body = .switch level → level.settled = level) :
    (d.started pins).Smooth := by
  rw [started]
  cases body : d.body with
  | clock half counter => exact ⟨fun other => absurd rfl other, by simp, by simp [Calm]⟩
  | switch level =>
    have flat := flat (by simp [kind, body, Body.kind])
    exact ⟨fun _ => flat.insert none (setting level body), fun _ eq => setting _ (body.trans eq),
      by simp [Calm]⟩
  | flipFlop memory =>
    have flat := flat (by simp [kind, body, Body.kind])
    refine ⟨fun _ => (flat.insert _ rfl).insert _ rfl, by simp, fun level eq => ?_⟩
    exact Body.flipFlop.inj eq ▸ rfl
  | gate _ | generator _ _ _ =>
    have flat := flat (by simp [kind, body, Body.kind])
    exact ⟨fun _ => flat.insert none rfl, by simp, by simp [Calm]⟩

/-! The outputs of a flip-flop. -/

/-- A flip-flop shows opposite levels. -/
def Opposed (pins : FlipFlopPins) (d : Device) : Prop :=
  d.kind = .flipFlop → ∃ q, d.outputs.get? (some pins.q) = some q ∧
    d.outputs.get? (some pins.qbar) = some q.inverted

theorem opposed_insert (apart : pins.q ≠ pins.qbar) (d : Device) (body : Body) (q : Level) :
    Opposed pins { d with
      body := body
      outputs := (d.outputs.insert (some pins.q) q).insert (some pins.qbar) q.inverted } := by
  have other : some pins.q ≠ some pins.qbar := fun eq => apart (Option.some.inj eq)
  intro _
  refine ⟨q, ?_, PinMap.get?_insert_self _ _ _⟩
  rw [PinMap.get?_insert_of_ne _ _ other, PinMap.get?_insert_self]

theorem Opposed.stepped (h : d.Opposed pins) : d.stepped.Opposed pins := by
  intro kind
  have kind' : d.kind = .flipFlop := kind_stepped d ▸ kind
  rw [stepped_of_flipFlop kind']
  exact h kind'

theorem Opposed.remembering (h : d.Opposed pins) (level : Level) :
    (d.remembering level).Opposed pins := by
  intro kind
  rw [(remembering_frame level d).2.2]
  exact h (kind_congr (layout_remembering level d) ▸ kind)

theorem Opposed.respond (apart : pins.q ≠ pins.qbar) (h : d.Opposed pins)
    (answer : d.respond pins lv = some d') : d'.Opposed pins := by
  obtain ⟨g, levels, body, -, rfl⟩ | ⟨memory, set, clear, -, -, -, rfl⟩ | rfl :=
    respond_cases answer
  · intro kind
    simp [Device.kind, body, Body.kind] at kind
  · exact opposed_insert apart d _ _
  · exact h

theorem opposed_started (apart : pins.q ≠ pins.qbar) (d : Device) :
    (d.started pins).Opposed pins := by
  rw [started]
  cases body : d.body with
  | flipFlop memory => exact opposed_insert apart d _ .low
  | gate _ | clock _ _ | switch _ | generator _ _ _ =>
    intro kind
    simp [Device.kind, Body.kind] at kind

/-! Counters. -/

/-- The phases of a source are not empty and have lengths below a bound, and the counter has not
passed the end of one. -/
structure Counts (bound : Nat) (d : Device) : Prop where
  lengths : ∀ n ∈ d.body.lengths, 1 ≤ n ∧ n < bound
  clock : ∀ half counter, d.body = .clock half counter → counter < half
  generator : ∀ high low counter, d.body = .generator high low counter →
    ∃ level, d.outputs.get? none = some level ∧ counter ≤ if level.isHigh then high else low

theorem counts_of_lengths_eq_nil (h : d.body.lengths = []) : d.Counts bound := by
  refine ⟨by simp [h], fun half counter body => ?_, fun high low counter body => ?_⟩
  all_goals
    rw [body] at h
    cases h

theorem Counts.stepped (h : d.Counts bound) : d.stepped.Counts bound := by
  have lengths := h.lengths
  rw [Device.stepped]
  cases body : d.body with
  | gate _ | flipFlop _ => exact h
  | switch level => exact counts_of_lengths_eq_nil rfl
  | clock half counter =>
    rw [body] at lengths
    have positive : 1 ≤ half := (lengths half (by simp [Body.lengths])).1
    have clockAt {now : Nat} (within : now < half) (outputs : PinMap (Option Symbol) Level) :
        Counts bound { d with body := .clock half now, outputs := outputs } :=
      ⟨lengths, fun _ _ eq => by obtain ⟨rfl, rfl⟩ := Body.clock.inj eq; exact within, by simp⟩
    dsimp only
    split
    · exact clockAt positive _
    · exact clockAt (by omega) _
  | generator high low counter =>
    rw [body] at lengths
    have generatorAt {now : Nat} (current : Bool) (within : now ≤ if current then high else low) :
        Counts bound { d with
          body := .generator high low now
          outputs := d.outputs.insert none (.ofBool current) } := by
      refine ⟨lengths, by simp, fun _ _ _ eq => ⟨_, PinMap.get?_insert_self _ _ _, ?_⟩⟩
      obtain ⟨rfl, rfl, rfl⟩ := Body.generator.inj eq
      rwa [Level.isHigh_ofBool]
    have first (current : Bool) : 1 ≤ if current then high else low := by
      cases current with
      | true => exact (lengths high (by simp [Body.lengths])).1
      | false => exact (lengths low (by simp [Body.lengths])).1
    dsimp only
    generalize ((d.outputs.get? none).map Level.isHigh).getD true = current
    by_cases more : counter < (if current then high else low)
    · rw [if_pos more]
      exact generatorAt current more
    · rw [if_neg more]
      exact generatorAt (!current) (first _)

theorem Counts.remembering (h : d.Counts bound) (level : Level) :
    (d.remembering level).Counts bound := by
  rw [Device.remembering]
  cases body : d.body with
  | flipFlop memory => exact counts_of_lengths_eq_nil rfl
  | gate _ | clock _ _ | switch _ | generator _ _ _ => exact h

theorem Counts.respond (h : d.Counts bound) (answer : d.respond pins lv = some d') :
    d'.Counts bound := by
  obtain ⟨g, levels, body, -, rfl⟩ | ⟨memory, set, clear, -, -, -, rfl⟩ | rfl :=
    respond_cases answer
  · exact counts_of_lengths_eq_nil (by simp [body, Body.lengths])
  · exact counts_of_lengths_eq_nil rfl
  · exact h

theorem counts_started (lengths : ∀ n ∈ d.body.lengths, 1 ≤ n ∧ n < bound) :
    (d.started pins).Counts bound := by
  rw [started]
  cases body : d.body with
  | gate _ | switch _ | flipFlop _ => exact counts_of_lengths_eq_nil rfl
  | clock half counter =>
    rw [body] at lengths
    have positive : 1 ≤ half := (lengths half (by simp [Body.lengths])).1
    exact ⟨lengths, fun _ _ eq => by obtain ⟨rfl, rfl⟩ := Body.clock.inj eq; exact positive,
      by simp⟩
  | generator high low counter =>
    rw [body] at lengths
    refine ⟨lengths, by simp, fun _ _ _ eq => ⟨_, PinMap.get?_insert_self _ _ _, ?_⟩⟩
    obtain ⟨-, -, rfl⟩ := Body.generator.inj eq
    exact Nat.zero_le _

/-- The next sum stays below the bound too. -/
theorem Counts.sums (h : d.Counts bound) : ∀ sum ∈ d.counted?, sum < bound := by
  intro sum counts
  have lengths := h.lengths
  cases body : d.body with
  | clock half counter =>
    rw [counted?_of_clock body, Option.mem_some] at counts
    rw [body] at lengths
    have within := h.clock half counter body
    have := (lengths half (by simp [Body.lengths])).2
    omega
  | generator high low counter =>
    have within := counted?_of_generator body sum counts
    rw [body] at lengths
    have longest : max high low < bound :=
      max_lt (lengths high (by simp [Body.lengths])).2 (lengths low (by simp [Body.lengths])).2
    exact Nat.lt_of_le_of_lt within longest
  | gate _ | switch _ | flipFlop _ => simp [counted?, body] at counts

/-! All of it. -/

/-- What keeps a device in the domain of its kind, whatever it does. -/
structure Sound (pins : FlipFlopPins) (d : Device) : Prop where
  definite : d.Definite
  smooth : d.Smooth
  opposed : d.Opposed pins
  counts : d.Counts Decimal.bound

theorem Sound.inDomain (h : d.Sound pins) : d.InDomain pins where
  blank := h.definite.lit
  edges pin level shown edge := by
    by_contra other
    have flat := h.smooth.flat other pin level shown
    obtain rfl | rfl := edge <;> cases flat
  setting level body :=
    Level.low_or_high (h.smooth.setting level body) (h.definite.setting level body)
  memory level body :=
    Level.low_or_high (h.smooth.memory level body) (h.definite.memory level body)
  opposite := h.opposed
  clock := h.counts.clock
  generator := h.counts.generator
  sums := h.counts.sums

theorem Sound.stepped (h : d.Sound pins) : d.stepped.Sound pins :=
  ⟨h.definite.stepped, h.smooth.stepped, h.opposed.stepped, h.counts.stepped⟩

theorem Sound.remembering (h : d.Sound pins) (known : level ≠ .blank) :
    (d.remembering level.settled).Sound pins :=
  ⟨h.definite.remembering known, h.smooth.remembering level, h.opposed.remembering _,
    h.counts.remembering _⟩

theorem Sound.respond (apart : pins.q ≠ pins.qbar) (h : d.Sound pins)
    (answer : d.respond pins lv = some d') : d'.Sound pins :=
  ⟨h.definite.respond answer, h.smooth.respond answer, h.opposed.respond apart answer,
    h.counts.respond answer⟩

theorem Sound.started (apart : pins.q ≠ pins.qbar) (h : d.Sound pins) :
    (d.started pins).Sound pins :=
  ⟨definite_started h.definite.lit h.definite.setting,
    smooth_started h.smooth.flat h.smooth.setting, opposed_started apart d,
    counts_started h.counts.lengths⟩

theorem Sound.switched (h : d.Sound pins) (kind : d.kind = .switch) (b : Bool) :
    (d.switched (.ofBool b)).Sound pins := by
  have flat := h.smooth.flat (by simp [kind])
  have settled : (Level.ofBool b).settled.settled = (Level.ofBool b).settled :=
    Level.settled_settled _
  refine ⟨h.definite.switched b, ⟨fun _ => flat.insert none settled, fun _ eq => ?_, ?_⟩, ?_,
    counts_of_lengths_eq_nil rfl⟩
  · exact Body.switch.inj eq ▸ settled
  · simp [Calm, Device.switched]
  · intro other
    cases other

theorem sound_newSwitch (s : Symbol) (b : Bool) : (newSwitch s (.ofBool b)).Sound pins := by
  refine ⟨definite_newSwitch s (Level.ofBool_ne_blank b), ⟨fun _ => ?_, fun _ eq => ?_, ?_⟩, ?_,
    counts_of_lengths_eq_nil rfl⟩
  · exact flat_empty.insert none (Level.settled_ofBool b)
  · exact Body.switch.inj eq ▸ Level.settled_ofBool b
  · simp [Calm, newSwitch]
  · intro other
    cases other

theorem sound_fresh (apart : pins.q ≠ pins.qbar) (s : Symbol) {body : Body}
    (inputs : List Symbol) (other : ∀ level, body ≠ .switch level)
    (lengths : ∀ n ∈ body.lengths, 1 ≤ n ∧ n < Decimal.bound) :
    (fresh pins s body inputs).Sound pins :=
  ⟨definite_fresh s inputs other,
    smooth_started (fun _ => flat_empty) fun level eq => absurd eq (other level),
    opposed_started apart _, counts_started lengths⟩

/-- Devices are sound as they are made, if their numbers are those of the machine. -/
theorem Made.sound {v : Vocabulary} {s : Symbol} {k : Kind} {first second : Option Nat}
    (h : Made v s k first second d) (apart : v.flipFlop.q ≠ v.flipFlop.qbar)
    (small : (∀ n ∈ first, n < Decimal.bound) ∧ ∀ n ∈ second, n < Decimal.bound) :
    d.Sound v.flipFlop := by
  cases h with
  | gate | xor | flipFlop => exact sound_fresh apart s _ (by simp) (by simp [Body.lengths])
  | switch n high => exact sound_newSwitch s _
  | clock n low =>
    refine sound_fresh apart s _ (by simp) ?_
    simpa [Body.lengths] using ⟨low, small.1 n rfl⟩
  | generator n m high low =>
    refine sound_fresh apart s _ (by simp) ?_
    simpa [Body.lengths] using ⟨⟨high, small.1 n rfl⟩, low, small.2 m rfl⟩

end Device

namespace Netlist

variable {n m : Netlist} {v : Vocabulary} {s : Symbol}

/-- What each device shows and keeps is in the domain of its kind. -/
def InDomain (n : Netlist) : Prop :=
  ∀ d ∈ n.devices, d.InDomain n.vocabulary.flipFlop

/-- All devices are sound under the words of the vocabulary. -/
def Sound (v : Vocabulary) (n : Netlist) : Prop :=
  n.vocabulary = v ∧ ∀ d ∈ n.devices, d.Sound v.flipFlop

theorem Sound.inDomain (h : n.Sound v) : n.InDomain := by
  intro d hd
  rw [h.1]
  exact (h.2 d hd).inDomain

theorem kept_sound (apart : v.flipFlop.q ≠ v.flipFlop.qbar) : Kept (Sound v) :=
  kept_forall_of_vocabulary (fun _ h => h.definite.lit) (fun _ h => h.stepped)
    (fun _ _ known h => h.remembering known) fun _ _ _ h answer => h.respond apart answer

theorem Sound.started (apart : v.flipFlop.q ≠ v.flipFlop.qbar) (h : n.Sound v) :
    n.started.Sound v := by
  refine ⟨h.1, fun d hd => ?_⟩
  obtain ⟨e, he, rfl⟩ := List.mem_map.mp hd
  rw [h.1]
  exact (h.2 e he).started apart

theorem Sound.setSwitch {b : Bool} (h : n.Sound v)
    (set : n.setSwitch? s (.ofBool b) = some m) : m.Sound v := by
  obtain ⟨e, found, kind, rfl⟩ := setSwitch?_eq_some_iff.mp set
  refine ⟨h.1, fun d hd => ?_⟩
  obtain old | rfl := mem_update found hd
  · exact h.2 d old
  · exact (h.2 e (mem_of_device? found)).switched kind b

/-- At the end of each cycle, flip-flops show what they remember. -/
theorem Sound.steady_course {limit k : Nat} (h : n.Sound v) (proper : n.Proper) :
    ∀ m ∈ n.course limit k, m.InDomain ∧ m.Steady := by
  induction k generalizing n with
  | zero => simp [Netlist.course]
  | succ k ih =>
    have kept := (kept_sound (h.1 ▸ proper.vocabulary.q_ne_qbar)).cycle h limit
    cases step : n.cycle limit with
    | ok _ m =>
      rw [step] at kept
      have same := sameLayout_cycle proper step
      have settled := settled_of_cycle proper.nodup proper.vocabulary step
      rw [(course_of_ok step).1, List.forall_mem_cons]
      refine ⟨⟨Sound.inDomain kept, fun d hd => (kept.2 d hd).smooth.memory, ?_⟩,
        ih kept (same.proper proper)⟩
      intro d hd memory body
      obtain ⟨-, -, -, -, shown, -⟩ := settled.flipFlop d hd memory body
      exact shown
    | error _ m => simp [(course_of_error step).1]

end Netlist

end LogicCircuit
