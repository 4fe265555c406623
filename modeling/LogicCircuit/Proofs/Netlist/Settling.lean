import LogicCircuit.Netlist.Cycle
import LogicCircuit.Proofs.Action
import LogicCircuit.Proofs.Device.Respond
import LogicCircuit.Proofs.Netlist.Lookup

/-!
Passes over a netlist. A pass that changes no output leaves every device at rest, and devices at
rest are what every further pass leaves alone.
-/

namespace LogicCircuit.Netlist

variable {n m : Netlist} {s t : Symbol} {order : List Symbol}

/-- The device of that name would respond with what it already shows and remembers. -/
def Rests (n : Netlist) (s : Symbol) : Prop :=
  ∃ d, n.device? s = some d ∧ d.respond n.vocabulary.flipFlop n.level? = some d

theorem refresh_ok_iff {still : Bool} : refresh s n = .ok still m ↔
    ∃ d d', n.device? s = some d ∧ d.respond n.vocabulary.flipFlop n.level? = some d' ∧
      still = decide (d'.outputs = d.outputs) ∧ m = n.update s fun _ => d' := by
  rw [refresh]
  constructor
  · intro h
    cases found : n.device? s with
    | none => simp [found] at h
    | some d =>
      cases answer : d.respond n.vocabulary.flipFlop n.level? with
      | none => simp [found, answer] at h
      | some d' =>
        simp only [found, answer, EStateM.Result.ok.injEq] at h
        exact ⟨d, d', rfl, answer, h.1.symm, h.2.symm⟩
  · rintro ⟨d, d', found, answer, rfl, rfl⟩
    simp only [found, answer]

theorem refresh_of_rests (h : n.Rests s) : refresh s n = .ok true n := by
  obtain ⟨d, found, answer⟩ := h
  exact refresh_ok_iff.mpr ⟨d, d, found, answer, by simp, (update_of_device? found).symm⟩

/-- What a response leaves as it was. -/
structure Refreshed (n m : Netlist) (s : Symbol) : Prop where
  vocabulary : m.vocabulary = n.vocabulary
  symbols : m.symbols = n.symbols
  others : ∀ t, t ≠ s → m.device? t = n.device? t

theorem refreshed_of_refresh {still : Bool} (h : refresh s n = .ok still m) : Refreshed n m s := by
  obtain ⟨d, d', found, answer, -, rfl⟩ := refresh_ok_iff.mp h
  have name : ∀ e : Device, e.symbol = s → d'.symbol = s := fun _ _ =>
    (Device.symbol_respond answer).trans (symbol_of_device? found)
  exact ⟨rfl, symbols_update n name, fun t other => device?_update_of_ne n name other⟩

theorem device?_refresh {d d' : Device} (found : n.device? s = some d)
    (answer : d.respond n.vocabulary.flipFlop n.level? = some d') :
    (n.update s fun _ => d').device? s = some d' := by
  have name : ∀ e : Device, e.symbol = s → d'.symbol = s := fun _ _ =>
    (Device.symbol_respond answer).trans (symbol_of_device? found)
  rw [device?_update_self n name, found, Option.map_some]

/-- A response that changes no output changes no level. -/
theorem level?_refresh_still (h : refresh s n = .ok true m) : m.level? = n.level? := by
  have frame := refreshed_of_refresh h
  obtain ⟨d, d', found, answer, still, rfl⟩ := refresh_ok_iff.mp h
  funext out
  by_cases hit : out.device = s
  · have same : d'.outputs = d.outputs := of_decide_eq_true still.symm
    rw [level?, level?, hit, device?_refresh found answer, found]
    simp only [Option.bind_some, same]
  · exact level?_congr (frame.others _ hit)

theorem rests_refresh_still (h : refresh s n = .ok true m) : m.Rests s := by
  have levels := level?_refresh_still h
  obtain ⟨d, d', found, answer, -, rfl⟩ := refresh_ok_iff.mp h
  refine ⟨d', device?_refresh found answer, ?_⟩
  rw [levels]
  exact Device.respond_respond answer

theorem sweep_cons_ok_iff {still : Bool} : sweep (s :: order) n = .ok still m ↔
    ∃ first k others, refresh s n = .ok first k ∧ sweep order k = .ok others m ∧
      still = (first && others) := by
  rw [sweep, EStateM.bind_ok_iff]
  simp only [EStateM.bind_ok_iff, EStateM.pure_ok_iff]
  constructor
  · rintro ⟨first, k, h, others, _, h', rfl, rfl⟩
    exact ⟨first, k, others, h, h', rfl⟩
  · rintro ⟨first, k, others, h, h', rfl⟩
    exact ⟨first, k, h, others, m, h', rfl, rfl⟩

theorem sweep_of_rests (h : ∀ s ∈ order, n.Rests s) : sweep order n = .ok true n := by
  induction order with
  | nil => rfl
  | cons s rest ih =>
    have others := ih fun t ht => h t (List.mem_cons_of_mem s ht)
    exact sweep_cons_ok_iff.mpr
      ⟨true, n, true, refresh_of_rests (h s List.mem_cons_self), others, rfl⟩

/-- What a pass over some devices leaves as it was. -/
structure Swept (n m : Netlist) (order : List Symbol) : Prop where
  vocabulary : m.vocabulary = n.vocabulary
  symbols : m.symbols = n.symbols
  others : ∀ t, t ∉ order → m.device? t = n.device? t

theorem swept_of_sweep {still : Bool} (h : sweep order n = .ok still m) : Swept n m order := by
  induction order generalizing n still with
  | nil =>
    obtain ⟨-, rfl⟩ := EStateM.pure_ok_iff.mp h
    exact ⟨rfl, rfl, fun _ _ => rfl⟩
  | cons s rest ih =>
    obtain ⟨_, k, _, first, later, -⟩ := sweep_cons_ok_iff.mp h
    have head := refreshed_of_refresh first
    have tail := ih later
    refine ⟨tail.vocabulary.trans head.vocabulary, tail.symbols.trans head.symbols, ?_⟩
    intro t absent
    rw [List.mem_cons, not_or] at absent
    obtain ⟨other, absent⟩ := absent
    exact (tail.others t absent).trans (head.others t other)

/-- A pass that changes no output changes no level and leaves its devices at rest. -/
theorem rests_of_sweep (h : sweep order n = .ok true m) (nodup : order.Nodup) :
    m.level? = n.level? ∧ ∀ s ∈ order, m.Rests s := by
  induction order generalizing n with
  | nil =>
    obtain ⟨-, rfl⟩ := EStateM.pure_ok_iff.mp h
    exact ⟨rfl, by simp⟩
  | cons s rest ih =>
    obtain ⟨absent, nodup⟩ := List.nodup_cons.mp nodup
    obtain ⟨first, k, others, head, tail, still⟩ := sweep_cons_ok_iff.mp h
    obtain ⟨rfl, rfl⟩ : first = true ∧ others = true := by simpa using still.symm
    obtain ⟨levels, resting⟩ := ih tail nodup
    refine ⟨levels.trans (level?_refresh_still head), ?_⟩
    intro t ht
    rcases List.mem_cons.mp ht with rfl | ht
    · -- the rest of the pass neither comes back to this device nor changes what it reads
      obtain ⟨d, found, answer⟩ := rests_refresh_still head
      have frame := swept_of_sweep tail
      refine ⟨d, (frame.others t absent).trans found, ?_⟩
      rw [frame.vocabulary, levels]
      exact answer
    · exact resting t ht

theorem settle_succ_ok_iff {passes : Nat} : settle order (passes + 1) n = .ok () m ↔
    sweep order n = .ok true m ∨
      ∃ k, sweep order n = .ok false k ∧ settle order passes k = .ok () m := by
  rw [settle, EStateM.bind_ok_iff]
  constructor
  · rintro ⟨still, k, pass, h⟩
    cases still with
    | true =>
      obtain ⟨-, rfl⟩ := EStateM.pure_ok_iff.mp h
      exact Or.inl pass
    | false => exact Or.inr ⟨k, pass, h⟩
  · rintro (pass | ⟨k, pass, h⟩)
    · exact ⟨true, m, pass, rfl⟩
    · exact ⟨false, k, pass, h⟩

theorem sweep_induction {P : Netlist → Prop} {still : Bool}
    (step : ∀ s k still m, refresh s k = .ok still m → P k → P m)
    (h : sweep order n = .ok still m) (start : P n) : P m := by
  induction order generalizing n still with
  | nil =>
    obtain ⟨-, eq⟩ := EStateM.pure_ok_iff.mp h
    exact eq ▸ start
  | cons s rest ih =>
    obtain ⟨_, k, _, first, later, -⟩ := sweep_cons_ok_iff.mp h
    exact ih later (step s n _ k first start)

theorem settle_induction {P : Netlist → Prop} {passes : Nat}
    (step : ∀ s k still m, refresh s k = .ok still m → P k → P m)
    (h : settle order passes n = .ok () m) (start : P n) : P m := by
  induction passes generalizing n with
  | zero => cases h
  | succ passes ih =>
    rcases settle_succ_ok_iff.mp h with pass | ⟨k, pass, later⟩
    · exact sweep_induction step pass start
    · exact ih later (sweep_induction step pass start)

/-- Passes end with one that changes no output, and so with all devices at rest. -/
theorem rests_of_settle {passes : Nat} (nodup : order.Nodup)
    (h : settle order passes n = .ok () m) : ∀ s ∈ order, m.Rests s := by
  induction passes generalizing n with
  | zero => cases h
  | succ passes ih =>
    rcases settle_succ_ok_iff.mp h with pass | ⟨k, pass, later⟩
    · exact (rests_of_sweep pass nodup).2
    · exact ih later

/-- Passes over devices at rest end at once. -/
theorem eq_of_settle_of_rests {passes : Nat} (rests : ∀ s ∈ order, n.Rests s)
    (h : settle order passes n = .ok () m) : m = n := by
  have pass := sweep_of_rests rests
  cases passes with
  | zero => cases h
  | succ passes =>
    obtain still | ⟨k, moves, -⟩ := settle_succ_ok_iff.mp h
    · rw [pass] at still
      exact (EStateM.Result.ok.inj still).2.symm
    · rw [pass] at moves
      cases moves

theorem frame_settle {passes : Nat} (h : settle order passes n = .ok () m) :
    m.vocabulary = n.vocabulary ∧ m.symbols = n.symbols := by
  refine settle_induction (P := fun k => k.vocabulary = n.vocabulary ∧ k.symbols = n.symbols)
    ?_ h ⟨rfl, rfl⟩
  intro s k still m pass same
  have frame := refreshed_of_refresh pass
  exact ⟨frame.vocabulary.trans same.1, frame.symbols.trans same.2⟩

end LogicCircuit.Netlist
