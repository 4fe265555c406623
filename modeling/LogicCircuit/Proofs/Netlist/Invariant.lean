import LogicCircuit.Proofs.Netlist.Latching
import LogicCircuit.Proofs.Netlist.Progress

/-!
What all parts of a cycle keep is kept by the whole of it, also by one that stalls. The layout of a
netlist is kept.
-/

namespace LogicCircuit

namespace Device

variable {v : Vocabulary} {d : Device}

theorem layout_started (pins : d.HasPins v) : (d.started v.flipFlop).layout = d.layout := by
  obtain ⟨symbol, kind, inputs⟩ := started_frame v.flipFlop d
  have outputs : (d.started v.flipFlop).outputs.keys = d.outputs.keys := by
    have unnamed (other : d.kind ≠ .flipFlop) (level : Level) :
        (d.outputs.insert none level).keys = d.outputs.keys :=
      PinMap.keys_insert_of_mem _ (pins.unnamed other)
    rw [started]
    cases body : d.body with
    | flipFlop memory =>
      have known := (pins.flipFlop (by simp [Device.kind, body, Body.kind])).2
      have q := known v.flipFlop.q (by simp [FlipFlopPins.outputs])
      have qbar := known v.flipFlop.qbar (by simp [FlipFlopPins.outputs])
      dsimp only
      rw [PinMap.keys_insert_of_mem _ (PinMap.mem_keys_insert.mpr (Or.inr qbar)),
        PinMap.keys_insert_of_mem _ q]
    | _ => exact unnamed (by simp [Device.kind, body, Body.kind]) _
  simp only [layout, symbol, kind, inputs, outputs]

end Device

namespace Netlist

variable {P : Netlist → Prop} {n m : Netlist} {s : Symbol} {limit : Nat}

/-- What the latching and the passes of a cycle do not destroy, however they end. -/
structure Undisturbed (P : Netlist → Prop) : Prop where
  latch : ∀ s n, P n → P (latch s n).state
  refresh : ∀ s n, P n → P (refresh s n).state

section
variable (undisturbed : Undisturbed P)
include undisturbed

theorem Undisturbed.latchAll (h : P n) (names : List Symbol) : P (latchAll names n).state := by
  induction names generalizing n with
  | nil => exact h
  | cons s rest ih => exact EStateM.state_bind (undisturbed.latch s n h) fun _ k hk => ih hk

theorem Undisturbed.sweep (h : P n) (order : List Symbol) : P (sweep order n).state := by
  induction order generalizing n with
  | nil => exact h
  | cons s rest ih =>
    refine EStateM.state_bind (undisturbed.refresh s n h) fun _ k hk => ?_
    exact EStateM.state_bind (ih hk) fun _ m hm => hm

theorem Undisturbed.settle (h : P n) (order : List Symbol) (passes : Nat) :
    P (settle order passes n).state := by
  induction passes generalizing n with
  | zero => exact h
  | succ passes ih =>
    refine EStateM.state_bind (undisturbed.sweep h order) fun still k hk => ?_
    cases still with
    | true => exact hk
    | false => exact ih hk

/-- What holds once the sources have stepped holds at the end of the cycle. -/
theorem Undisturbed.cycle (h : P n.stepSources) (limit : Nat) : P (n.cycle limit).state := by
  change P ((Netlist.latchAll (n.stepSources.symbolsOf .flipFlop) >>= fun _ => do
    Netlist.settle (← get).symbols limit) n.stepSources).state
  refine EStateM.state_bind (undisturbed.latchAll h _) fun _ k hk => ?_
  exact undisturbed.settle hk k.symbols limit

end

/-- What no part of a cycle destroys, however that part ends. -/
structure Kept (P : Netlist → Prop) : Prop where
  stepSources : ∀ n, P n → P n.stepSources
  latch : ∀ s n, P n → P (latch s n).state
  refresh : ∀ s n, P n → P (refresh s n).state

theorem Kept.undisturbed (kept : Kept P) : Undisturbed P :=
  ⟨kept.latch, kept.refresh⟩

theorem Kept.cycle (kept : Kept P) (h : P n) (limit : Nat) : P (n.cycle limit).state :=
  kept.undisturbed.cycle (kept.stepSources n h) limit

theorem Kept.and {Q : Netlist → Prop} (hp : Kept P) (hq : Kept Q) : Kept fun n => P n ∧ Q n where
  stepSources n h := ⟨hp.stepSources n h.1, hq.stepSources n h.2⟩
  latch s n h := ⟨hp.latch s n h.1, hq.latch s n h.2⟩
  refresh s n h := ⟨hp.refresh s n h.1, hq.refresh s n h.2⟩

theorem latch_state (s : Symbol) (n : Netlist) : (latch s n).state = n ∨
    ∃ d out level, n.device? s = some d ∧ n.level? out = some level ∧
      (latch s n).state = n.update s (Device.remembering level.settled) := by
  unfold latch
  split
  · exact Or.inl rfl
  · split
    · exact Or.inl rfl
    · next level read =>
      obtain ⟨out, drives, shown⟩ := Option.bind_eq_some_iff.mp read
      obtain ⟨d, found, -⟩ := Option.bind_eq_some_iff.mp drives
      exact Or.inr ⟨d, out, level, found, shown, rfl⟩
  · exact Or.inl rfl

theorem refresh_state (s : Symbol) (n : Netlist) : (refresh s n).state = n ∨
    ∃ d d', n.device? s = some d ∧ d.respond n.vocabulary.flipFlop n.level? = some d' ∧
      (refresh s n).state = n.update s fun _ => d' := by
  unfold refresh
  split
  · exact Or.inl rfl
  · next d found =>
    split
    · exact Or.inl rfl
    · next d' answer => exact Or.inr ⟨d, d', found, answer, rfl⟩

/-- A device that neither remembers nor responds stays as the sources have left it. -/
theorem undisturbed_device {d : Device} (remembering : ∀ level, d.remembering level = d)
    (respond : ∀ pins lv, d.respond pins lv = some d) :
    Undisturbed fun n => n.device? s = some d where
  latch t n h := by
    obtain same | ⟨-, -, level, -, -, eq⟩ := latch_state t n
    · rw [same]
      exact h
    · have name (e : Device) (he : e.symbol = t) : (e.remembering level.settled).symbol = t :=
        (symbol_remembering _ e).trans he
      rw [eq]
      by_cases here : s = t
      · subst here
        rw [device?_update_self n name, h, Option.map_some, remembering]
      · rw [device?_update_of_ne n name here, h]
  refresh t n h := by
    obtain same | ⟨e, e', found, answer, eq⟩ := refresh_state t n
    · rw [same]
      exact h
    · rw [eq]
      by_cases here : s = t
      · subst here
        rw [h, Option.some.injEq] at found
        subst found
        rw [device?_refresh h answer, ← answer, respond]
      · have name (f : Device) (_ : f.symbol = t) : e'.symbol = t :=
          (Device.symbol_respond answer).trans (symbol_of_device? found)
        rw [device?_update_of_ne n name here, h]

section
variable {Q : Device → Prop} {L : Level → Prop}
  (shown : ∀ d, Q d → ∀ pin level, d.outputs.get? pin = some level → L level)
  (stepped : ∀ d, Q d → Q d.stepped)
  (remembering : ∀ level d, L level → Q d → Q (d.remembering level.settled))
include shown stepped remembering

/-- What holds of every device and is kept by all that a device can do under the given vocabulary,
if it tells enough of the levels on the outputs. -/
theorem kept_forall_of_vocabulary {v : Vocabulary}
    (respond : ∀ lv d d', Q d → d.respond v.flipFlop lv = some d' → Q d') :
    Kept fun n => n.vocabulary = v ∧ ∀ d ∈ n.devices, Q d where
  stepSources n h := by
    refine ⟨h.1, fun d hd => ?_⟩
    obtain ⟨e, he, rfl⟩ := List.mem_map.mp hd
    exact stepped e (h.2 e he)
  latch s n h := by
    obtain same | ⟨-, out, level, -, level_eq, eq⟩ := latch_state s n
    · rw [same]
      exact h
    · obtain ⟨source, found, level_eq⟩ := Option.bind_eq_some_iff.mp level_eq
      have known := shown source (h.2 source (mem_of_device? found)) _ _ level_eq
      rw [eq]
      refine ⟨h.1, fun d hd => ?_⟩
      obtain old | ⟨e, he, -, rfl⟩ := mem_updateFirst hd
      · exact h.2 d old
      · exact remembering level e known (h.2 e he)
  refresh s n h := by
    obtain same | ⟨d, d', found, answer, eq⟩ := refresh_state s n
    · rw [same]
      exact h
    · rw [eq]
      refine ⟨h.1, fun e he => ?_⟩
      rw [h.1] at answer
      obtain old | ⟨-, -, -, rfl⟩ := mem_updateFirst he
      · exact h.2 e old
      · exact respond _ d _ (h.2 d (mem_of_device? found)) answer

/-- What holds of every device and is kept by all that a device can do, given what is known of the
levels on the outputs of such devices. -/
theorem kept_forall (respond : ∀ pins lv d d', Q d → d.respond pins lv = some d' → Q d') :
    Kept fun n => ∀ d ∈ n.devices, Q d := by
  have kept (v : Vocabulary) :=
    kept_forall_of_vocabulary (v := v) shown stepped remembering (respond v.flipFlop)
  exact ⟨fun n h => ((kept n.vocabulary).stepSources n ⟨rfl, h⟩).2,
    fun s n h => ((kept n.vocabulary).latch s n ⟨rfl, h⟩).2,
    fun s n h => ((kept n.vocabulary).refresh s n ⟨rfl, h⟩).2⟩

end

/-- What of each device is left as it is by all that the device can do stays as it is. -/
theorem kept_map {α : Type} {g : Device → α} (stepped : ∀ d, g d.stepped = g d)
    (remembering : ∀ level d, g (d.remembering level) = g d)
    (respond : ∀ lv d d', d.respond n.vocabulary.flipFlop lv = some d' → g d' = g d) :
    Kept fun m => m.vocabulary = n.vocabulary ∧ m.devices.map g = n.devices.map g where
  stepSources m h := by
    obtain ⟨words, same⟩ := h
    refine ⟨words, ?_⟩
    rw [stepSources, List.map_map, ← same]
    exact List.map_congr_left fun d _ => stepped d
  latch s m h := by
    obtain same | ⟨d, -, level, found, -, eq⟩ := latch_state s m
    · rw [same]
      exact h
    · rw [eq]
      exact ⟨h.1, (map_update found (remembering _ d)).trans h.2⟩
  refresh s m h := by
    obtain same | ⟨d, d', found, answer, eq⟩ := refresh_state s m
    · rw [same]
      exact h
    · rw [h.1] at answer
      rw [eq]
      exact ⟨h.1, (map_update found (respond _ d d' answer)).trans h.2⟩

/-! The layout. -/

theorem symbols_started (n : Netlist) : n.started.symbols = n.symbols :=
  symbols_map fun d => (Device.started_frame _ d).1

theorem sameLayout_started (proper : n.Proper) : n.SameLayout n.started :=
  sameLayout_map fun d hd =>
    Device.layout_started (proper.pins d.symbol d (device?_of_mem proper.nodup hd))

theorem kept_sameLayout (proper : n.Proper) : Kept n.SameLayout where
  stepSources k h := h.trans (sameLayout_stepSources (h.proper proper))
  latch s k h := by
    obtain same | ⟨d, -, level, found, -, eq⟩ := latch_state s k
    · rw [same]
      exact h
    · rw [eq]
      exact h.trans (sameLayout_update found (Device.layout_remembering _ d))
  refresh s k h := by
    obtain same | ⟨d, d', found, answer, eq⟩ := refresh_state s k
    · rw [same]
      exact h
    · have pins := (h.proper proper).pins s d found
      rw [eq]
      exact h.trans (sameLayout_update found (Device.layout_respond pins answer))

theorem sameLayout_latchAll {names : List Symbol} (proper : n.Proper)
    (h : latchAll names n = .ok () m) : n.SameLayout m := by
  have same := (kept_sameLayout proper).undisturbed.latchAll (SameLayout.refl n) names
  rwa [h] at same

/-- Where every input is wired, the latching goes through. -/
theorem exists_latched (proper : n.Proper) (wired : n.isWired = true) :
    ∃ k, latchAll (n.stepSources.symbolsOf .flipFlop) n.stepSources = .ok () k ∧
      n.SameLayout k := by
  have stepped := sameLayout_stepSources proper
  have proper' := stepped.proper proper
  obtain ⟨k, latched⟩ := exists_latchAll_iff.mpr fun s hs => by
    obtain ⟨d, found, kind⟩ := exists_device?_of_mem_symbolsOf proper'.nodup hs
    have known := ((proper'.pins s d found).flipFlop kind).1
    have reads (pin : Symbol) (hp : pin ∈ n.stepSources.vocabulary.flipFlop.inputs) :
        ∃ level, n.stepSources.reads s pin = some level := by
      rw [reads_of_device? found]
      exact exists_reads proper' (stepped.isWired wired) found (known pin hp)
    obtain ⟨clock, read⟩ := reads n.stepSources.vocabulary.flipFlop.clock
      (by simp [FlipFlopPins.inputs])
    exact ⟨clock, read, fun _ => reads n.stepSources.vocabulary.flipFlop.data
      (by simp [FlipFlopPins.inputs])⟩
  exact ⟨k, latched, stepped.trans (sameLayout_latchAll proper' latched)⟩

theorem sameLayout_settle {order : List Symbol} {passes : Nat} (proper : n.Proper)
    (h : settle order passes n = .ok () m) : n.SameLayout m := by
  have same := (kept_sameLayout proper).undisturbed.settle (SameLayout.refl n) order passes
  rwa [h] at same

theorem sameLayout_cycle (proper : n.Proper) (h : n.cycle limit = .ok () m) : n.SameLayout m := by
  have same := (kept_sameLayout proper).cycle (SameLayout.refl n) limit
  rwa [h] at same

end Netlist

end LogicCircuit
