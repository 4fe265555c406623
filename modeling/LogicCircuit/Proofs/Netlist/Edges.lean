import LogicCircuit.Proofs.Netlist.Domain
import LogicCircuit.Proofs.Netlist.Holding
import LogicCircuit.Proofs.Netlist.Sources

/-!
Which edges a flip-flop sees. Only clocks mark the edges that they make, and a flip-flop takes over
its data where its clock input shows such a mark. That a level has become high is not enough.
-/

namespace LogicCircuit

/-- A clock that has gone from low to high marks the edge. -/
theorem Device.rising_of_stepped {d : Device} {before after : Level} (clock : d.kind = .clock)
    (shown : d.outputs.get? none = some before) (low : before.isHigh = false)
    (shown' : d.stepped.outputs.get? none = some after) (high : after.isHigh = true) :
    after = .rising := by
  cases body : d.body with
  | clock half counter =>
    rw [stepped, body] at shown'
    dsimp only at shown'
    rw [shown, Option.getD_some, low] at shown'
    split at shown'
    · rw [PinMap.get?_insert_self] at shown'
      exact (Option.some.inj shown').symm
    · rw [PinMap.get?_insert_self, Option.some.injEq] at shown'
      rw [← shown', Level.isHigh_settled, low] at high
      cases high
  | gate _ | switch _ | flipFlop _ | generator _ _ _ => simp [kind, body, Body.kind] at clock

namespace Netlist

variable {n m : Netlist} {s t ground : Symbol} {d : Device} {memory level before after : Level}
  {order : List Symbol} {passes limit : Nat} {P : Netlist → Prop} {v : Vocabulary}
  {out : Terminal}

/-! Turns. -/

section
variable (undisturbed : Undisturbed P)
include undisturbed

theorem Undisturbed.turnsInSweep (h : P n) : ∀ k ∈ turnsInSweep s order n, P k := by
  induction order generalizing n with
  | nil => exact fun k hk => absurd hk List.not_mem_nil
  | cons t rest ih =>
    intro k hk
    rw [Netlist.turnsInSweep, List.mem_append] at hk
    obtain here | later := hk
    · split at here
      · exact List.mem_singleton.mp here ▸ h
      · cases here
    · exact ih (undisturbed.refresh t n h) k later

theorem Undisturbed.turnsInSettle (h : P n) : ∀ k ∈ turnsInSettle s order passes n, P k := by
  induction passes generalizing n with
  | zero => exact fun k hk => absurd hk List.not_mem_nil
  | succ passes ih =>
    intro k hk
    rw [Netlist.turnsInSettle, List.mem_append] at hk
    obtain here | later := hk
    · exact undisturbed.turnsInSweep h k here
    · have swept := undisturbed.sweep h order
      cases pass : Netlist.sweep order n with
      | error _ _ =>
        rw [pass] at later
        cases later
      | ok still j =>
        rw [pass] at later swept
        cases still with
        | true => cases later
        | false => exact ih swept k later

/-- What holds once the sources have stepped holds at each turn of a device in the cycle. -/
theorem Undisturbed.turns (h : P n.stepSources) : ∀ k ∈ n.turns limit s, P k := by
  intro k hk
  have latched := undisturbed.latchAll h (n.stepSources.symbolsOf .flipFlop)
  rw [Netlist.turns] at hk
  cases latches : Netlist.latchAll (n.stepSources.symbolsOf .flipFlop) n.stepSources with
  | error _ _ =>
    rw [latches] at hk
    cases hk
  | ok _ j =>
    rw [latches] at hk latched
    exact undisturbed.turnsInSettle latched k hk

end

/-- A low switch drives the set and the clear input of the flip-flop. -/
structure Tied (n : Netlist) (s ground : Symbol) : Prop where
  low : n.device? ground = some (Device.newSwitch ground .low)
  set : n.driver? s n.vocabulary.flipFlop.set = some ⟨ground, none⟩
  clear : n.driver? s n.vocabulary.flipFlop.clear = some ⟨ground, none⟩

theorem Tied.idle (tied : n.Tied s ground) : n.Idle s := by
  have shown : n.level? ⟨ground, none⟩ = some .low := by
    rw [level?, tied.low]
    rfl
  intro pin hp level read
  have low : n.reads s pin = some .low := by
    simp only [List.mem_cons, List.not_mem_nil, or_false] at hp
    obtain rfl | rfl := hp
    · rw [reads, tied.set, Option.bind_some, shown]
    · rw [reads, tied.clear, Option.bind_some, shown]
  rw [low, Option.mem_some] at read
  exact read ▸ rfl

theorem SameLayout.tied (h : n.SameLayout m) (tied : n.Tied s ground)
    (low : m.device? ground = some (Device.newSwitch ground .low)) : m.Tied s ground := by
  refine ⟨low, ?_, ?_⟩
  · rw [← h.driver?, ← h.1, tied.set]
  · rw [← h.driver?, ← h.1, tied.clear]

/-- Such a flip-flop is neither set nor cleared at any of its turns. -/
theorem Tied.idle_turns (proper : n.Proper) (tied : n.Tied s ground) :
    ∀ k ∈ n.turns limit s, k.Idle s := by
  have kept := (kept_sameLayout proper).and (kept_switch ground .low)
  have all : ∀ k ∈ n.turns limit s, n.SameLayout k ∧
      k.device? ground = some (Device.newSwitch ground .low) :=
    kept.undisturbed.turns (kept.stepSources n ⟨SameLayout.refl n, tied.low⟩)
  exact fun k hk => ((all k hk).1.tied tied (all k hk).2).idle

/-! Cycles. -/

/-- With an edge of its clock a flip-flop comes to the passes with its data. -/
theorem remembers_cycle_of_rising (proper : n.Proper) (remembers : n.Remembers s memory)
    (rises : n.stepSources.reads s n.vocabulary.flipFlop.clock = some .rising)
    (data : n.stepSources.reads s n.vocabulary.flipFlop.data = some level)
    (run : n.cycle limit = .ok () m) :
    m.Remembers s (heldAfter s level.settled (n.turns limit s)) := by
  obtain ⟨d, found, body⟩ := remembers
  obtain ⟨k, latched, settles⟩ := cycle_ok_iff.mp run
  have proper' := (sameLayout_stepSources proper).proper proper
  have kind : d.kind = .flipFlop := by rw [Device.kind, body, Body.kind]
  have stepped := device?_stepSources_of_flipFlop found kind
  rw [reads_of_device? stepped] at rises data
  have held := device?_latched proper'.nodup latched s
  rw [stepped, Option.map_some] at held
  have taken := Device.body_latched body rises data
  rw [if_pos rfl] at taken
  rw [turns, latched]
  exact remembers_settle settles ⟨_, held, taken⟩

section
variable (proper : n.Proper) (steady : n.Steady) (tied : n.Tied s ground)
  (run : n.cycle limit = .ok () m) (remembers : n.Remembers s memory)
include proper steady tied run remembers

theorem Tied.q?_of_rising (rises : n.stepSources.reads s n.vocabulary.flipFlop.clock = some .rising)
    (data : n.stepSources.reads s n.vocabulary.flipFlop.data = some level) :
    m.q? s = some level.settled := by
  have held := remembers_cycle_of_rising proper remembers rises data run
  rw [heldAfter_of_idle (tied.idle_turns proper)] at held
  exact held.q?_eq (steady.cycle proper run)

theorem Tied.q?_of_rest (rests : n.stepSources.reads s n.vocabulary.flipFlop.clock ≠ some .rising) :
    n.q? s = some memory ∧ m.q? s = some memory := by
  have held := remembers_cycle proper remembers rests run
  rw [heldAfter_of_idle (tied.idle_turns proper)] at held
  exact ⟨remembers.q?_eq steady, held.q?_eq (steady.cycle proper run)⟩

end

/-! Where edges come from. -/

/-- A clock that is low before a cycle and high after it rises in the eyes of the flip-flops. -/
theorem rising_of_clock (proper : n.Proper) (run : n.cycle limit = .ok () m)
    (found : n.device? out.device = some d) (clock : d.kind = .clock)
    (shown : n.level? out = some before) (low : before.isHigh = false)
    (shown' : m.level? out = some after) (high : after.isHigh = true) :
    n.stepSources.level? out = some .rising := by
  obtain ⟨symbol, pin⟩ := out
  have later : m.device? symbol = some d.stepped := by
    have state := device?_cycle_of_isSource found (by rw [clock]; rfl) limit
    rwa [run] at state
  rw [level?, found, Option.bind_some] at shown
  have unnamed : pin = none := (proper.pins symbol d found).eq_none (by simp [clock])
    (PinMap.mem_keys_iff.mpr (by rw [shown]; rfl))
  subst unnamed
  rw [level?, later, Option.bind_some] at shown'
  rw [level?, stepSources, device?_map symbol_stepped, found, Option.map_some, Option.bind_some,
    shown', Device.rising_of_stepped clock shown low shown' high]

/-- No other device shows an edge to the flip-flops. -/
theorem level?_ne_rising (sound : n.Sound v) (found : n.device? out.device = some d)
    (other : d.kind ≠ .clock) : n.stepSources.level? out ≠ some .rising := by
  intro rises
  rw [level?, stepSources, device?_map symbol_stepped, found, Option.map_some,
    Option.bind_some] at rises
  have smooth := (sound.2 d (mem_of_device? found)).smooth.stepped
  have flat := smooth.flat (by rwa [Device.kind_stepped]) _ _ rises
  cases flat

end Netlist

end LogicCircuit
