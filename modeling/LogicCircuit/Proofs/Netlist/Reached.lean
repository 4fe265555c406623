import LogicCircuit.Proofs.Netlist.Latching
import LogicCircuit.Proofs.Netlist.Switching

/-!
The states that a netlist goes through from a cold start. Between two cycles each flip-flop shows
what it remembers, and that is never an edge.
-/

namespace LogicCircuit

theorem Level.settled_settled (level : Level) : level.settled.settled = level.settled := by
  cases level <;> rfl

theorem Level.settled_preset {set clear memory : Level} (h : memory.settled = memory) :
    (preset set clear memory).settled = preset set clear memory := by
  rw [preset]
  split
  · rfl
  · split
    · rfl
    · exact h

namespace Device

variable {pins : FlipFlopPins} {d : Device} {memory : Level}

theorem kind_stepped (d : Device) : d.stepped.kind = d.kind := by
  rw [stepped]
  cases body : d.body <;> simp only [apply_ite kind] <;> simp [kind, body, Body.kind]

theorem exists_memory (kind : d.kind = .flipFlop) : ∃ memory, d.body = .flipFlop memory := by
  rw [Device.kind] at kind
  cases body : d.body with
  | flipFlop memory => exact ⟨memory, rfl⟩
  | gate _ | clock _ _ | switch _ | generator _ _ _ => simp [body, Body.kind] at kind

theorem stepped_of_flipFlop (kind : d.kind = .flipFlop) : d.stepped = d := by
  obtain ⟨memory, body⟩ := exists_memory kind
  rw [stepped, body]

theorem started_of_flipFlop (apart : pins.q ≠ pins.qbar)
    (body : (d.started pins).body = .flipFlop memory) :
    memory = .low ∧ (d.started pins).outputs.get? (some pins.q) = some .low := by
  have kind : d.kind = .flipFlop := by
    rw [← (started_frame pins d).2.1, Device.kind, body, Body.kind]
  obtain ⟨before, old⟩ := exists_memory kind
  have other : some pins.q ≠ some pins.qbar := fun eq => apart (Option.some.inj eq)
  rw [started, old] at body ⊢
  refine ⟨(Body.flipFlop.inj body).symm, ?_⟩
  rw [PinMap.get?_insert_of_ne _ _ other, PinMap.get?_insert_self]

/-- What the device remembers, if it is a flip-flop, is no edge. -/
def Calm (d : Device) : Prop :=
  ∀ memory, d.body = .flipFlop memory → memory.settled = memory

theorem calm_stepped (d : Device) (h : d.Calm) : d.stepped.Calm := by
  intro memory body
  have kind : d.kind = .flipFlop := by
    rw [← kind_stepped, Device.kind, body, Body.kind]
  rw [stepped_of_flipFlop kind] at body
  exact h memory body

theorem calm_remembering (level : Level) (d : Device) (h : d.Calm) :
    (d.remembering level.settled).Calm := by
  intro memory body
  by_cases kind : d.kind = .flipFlop
  · obtain ⟨memory', before⟩ := exists_memory kind
    rw [body_remembering before] at body
    rw [← Body.flipFlop.inj body, Level.settled_settled]
  · rw [remembering_of_ne kind] at body
    exact h memory body

theorem calm_respond (pins : FlipFlopPins) (lv : Terminal → Option Level) (d d' : Device)
    (h : d.Calm) (answer : d.respond pins lv = some d') : d'.Calm := by
  intro memory body
  obtain ⟨g, levels, before, -, rfl⟩ | ⟨memory', set, clear, before, -, -, rfl⟩ | rfl :=
    respond_cases answer
  · dsimp only at body
    rw [before] at body
    cases body
  · rw [← Body.flipFlop.inj body]
    exact Level.settled_preset (h memory' before)
  · exact h memory body

end Device

namespace Netlist

variable {start n m : Netlist} {s : Symbol} {d : Device} {limit : Nat}

theorem device?_stepSources_of_flipFlop (found : n.device? s = some d)
    (kind : d.kind = .flipFlop) : n.stepSources.device? s = some d := by
  rw [stepSources, device?_map symbol_stepped, found, Option.map_some,
    Device.stepped_of_flipFlop kind]

theorem kept_calm : Kept fun n => ∀ d ∈ n.devices, d.Calm :=
  kept_forall (fun _ _ _ _ _ => trivial) Device.calm_stepped
    (fun level d _ => Device.calm_remembering level d) Device.calm_respond

/-- Each flip-flop shows what it remembers, which is no edge. -/
structure Steady (n : Netlist) : Prop where
  calm : ∀ d ∈ n.devices, d.Calm
  shows : ∀ d ∈ n.devices, ∀ memory, d.body = .flipFlop memory →
    d.outputs.get? (some n.vocabulary.flipFlop.q) = some memory

theorem steady_started (proper : n.vocabulary.IsProper) : n.started.Steady := by
  have low : ∀ d ∈ n.started.devices, ∀ memory, d.body = .flipFlop memory →
      memory = .low ∧ d.outputs.get? (some n.vocabulary.flipFlop.q) = some .low := by
    intro d hd memory body
    obtain ⟨e, -, rfl⟩ := List.mem_map.mp hd
    exact Device.started_of_flipFlop proper.q_ne_qbar body
  refine ⟨fun d hd memory body => ?_, fun d hd memory body => ?_⟩
  · rw [(low d hd memory body).1]
    rfl
  · obtain ⟨rfl, shown⟩ := low d hd memory body
    exact shown

theorem Steady.cycle (h : n.Steady) (proper : n.Proper) (run : n.cycle limit = .ok () m) :
    m.Steady := by
  have settled := settled_of_cycle proper.nodup proper.vocabulary run
  have calm := kept_calm.cycle h.calm limit
  rw [run] at calm
  refine ⟨calm, fun d hd memory body => ?_⟩
  obtain ⟨set, clear, -, -, shown, -⟩ := settled.flipFlop d hd memory body
  exact shown

theorem Steady.setSwitch {level : Level} (h : n.Steady) (set : n.setSwitch? s level = some m) :
    m.Steady := by
  obtain ⟨d, found, kind, rfl⟩ := setSwitch?_eq_some_iff.mp set
  refine ⟨fun d hd memory body => ?_, fun d hd memory body => ?_⟩
  all_goals
    obtain old | ⟨e, -, -, rfl⟩ := mem_updateFirst hd
  · exact h.calm d old memory body
  · cases body
  · exact h.shows d old memory body
  · cases body

/-- What a netlist comes to from a cold start by cycles that complete, of whatever limits, and by
settings of its switches in between. -/
inductive Reached (start : Netlist) : Netlist → Prop
  | started : Reached start start.started
  | cycle {n m : Netlist} {limit : Nat} (before : Reached start n)
    (run : n.cycle limit = .ok () m) : Reached start m
  | setSwitch {n m : Netlist} {s : Symbol} {isHigh : Bool} (before : Reached start n)
    (set : n.setSwitch? s (.ofBool isHigh) = some m) : Reached start m

theorem Reached.sameLayout (proper : start.Proper) (h : Reached start n) : start.SameLayout n := by
  induction h with
  | started => exact sameLayout_started proper
  | cycle _ run same => exact same.trans (sameLayout_cycle (same.proper proper) run)
  | setSwitch _ set same => exact same.trans (sameLayout_setSwitch (same.proper proper) set)

theorem Reached.steady (proper : start.Proper) (h : Reached start n) : n.Steady := by
  induction h with
  | started => exact steady_started proper.vocabulary
  | cycle before run steady =>
    exact steady.cycle ((before.sameLayout proper).proper proper) run
  | setSwitch _ set steady => exact steady.setSwitch set

end Netlist

end LogicCircuit
