import LogicCircuit.Proofs.Netlist.Progress

/-!
Devices that come to rest one after another: where each device has a moment that is later than the
moments of all that it heeds, the passes put it at rest by then and do not disturb it any more.
-/

namespace LogicCircuit

/-- Whether devices of the kind follow the time only. -/
def Kind.isSource : Kind → Bool
  | clock | switch | generator => true
  | gate _ | flipFlop => false

namespace Device

variable {v : Vocabulary} {pins : FlipFlopPins} {lv : Terminal → Option Level} {d e d' : Device}

theorem heeded_of_isSource (source : d.kind.isSource = true) : d.heeded pins = [] := by
  rw [heeded]
  cases body : d.body <;> simp_all [kind, Body.kind, Kind.isSource]

theorem respond_of_isSource (source : d.kind.isSource = true) : d.respond pins lv = some d := by
  refine respond_source (fun g body => ?_) fun m body => ?_
  all_goals simp [kind, body, Body.kind, Kind.isSource] at source

end Device

namespace Netlist

variable {n m k : Netlist} {s t u : Symbol} {d : Device} {order : List Symbol} {still : Bool}
  {moment : Symbol → Nat} {time : Nat} {P : Symbol → Prop}

def IsSource (n : Netlist) (s : Symbol) : Prop :=
  ∃ d, n.device? s = some d ∧ d.kind.isSource = true

/-- The output that drives an input to which a device responds is one of that other device. -/
def Heeds (n : Netlist) (s u : Symbol) : Prop :=
  ∃ d pin output, n.device? s = some d ∧ pin ∈ d.heeded n.vocabulary.flipFlop ∧
    d.driver? pin = some output ∧ output.device = u

/-- The moments rise from each device to those that heed it, sources apart. -/
def Timed (n : Netlist) (moment : Symbol → Nat) : Prop :=
  ∀ s u, n.Heeds s u → n.IsSource u ∨ moment u < moment s

/-- The sources, and all devices whose moment has passed, are at rest. -/
def Resting (n : Netlist) (moment : Symbol → Nat) (time : Nat) : Prop :=
  ∀ s ∈ n.symbols, n.IsSource s ∨ moment s < time → n.Rests s

theorem SameLayout.isSource (h : n.SameLayout m) (source : n.IsSource s) : m.IsSource s := by
  obtain ⟨d, found, kind⟩ := source
  obtain ⟨e, found', same⟩ := h.device? found
  exact ⟨e, found', Device.kind_congr same ▸ kind⟩

theorem SameLayout.heeds (h : n.SameLayout m) (heeds : n.Heeds s u) : m.Heeds s u := by
  obtain ⟨d, pin, output, found, heeded, drives, eq⟩ := heeds
  obtain ⟨e, found', same⟩ := h.device? found
  refine ⟨e, pin, output, found', ?_, Device.driver?_congr same pin ▸ drives, eq⟩
  rw [← Device.heeded_congr same, ← h.1]
  exact heeded

theorem SameLayout.timed (h : n.SameLayout m) (timed : n.Timed moment) : m.Timed moment := by
  intro s u heeds
  obtain source | earlier := timed s u (h.symm.heeds heeds)
  · exact Or.inl (h.isSource source)
  · exact Or.inr earlier

/-- The answer of a device is the same as long as all that it heeds shows the same levels. -/
theorem respond_congr (found : n.device? s = some d) (h : ∀ u, n.Heeds s u →
    m.device? u = n.device? u) : d.respond n.vocabulary.flipFlop m.level? =
      d.respond n.vocabulary.flipFlop n.level? := by
  refine Device.respond_congr ?_
  intro pin heeded
  rw [Device.reads, Device.reads]
  cases drives : d.driver? pin with
  | none => rfl
  | some output => exact level?_congr (h _ ⟨d, pin, output, found, heeded, drives, rfl⟩)

/-- A response disturbs no device that does not heed the one that responds. -/
theorem rests_refresh_of_not_heeds (pass : refresh s n = .ok still m) (other : t ≠ s)
    (deaf : ¬ n.Heeds t s) (rests : n.Rests t) : m.Rests t := by
  have frame := refreshed_of_refresh pass
  obtain ⟨d, found, answer⟩ := rests
  refine ⟨d, (frame.others t other).trans found, ?_⟩
  rw [frame.vocabulary, respond_congr found]
  · exact answer
  · intro u heeds
    exact frame.others u fun eq => deaf (eq ▸ heeds)

/-- A device that does not heed itself is at rest after its response. -/
theorem rests_refresh_self (pass : refresh s n = .ok still m) (deaf : ¬ n.Heeds s s) :
    m.Rests s := by
  have frame := refreshed_of_refresh pass
  obtain ⟨d, d', found, answer, -, eq⟩ := refresh_ok_iff.mp pass
  refine ⟨d', eq ▸ device?_refresh found answer, ?_⟩
  rw [frame.vocabulary]
  have same : d.respond n.vocabulary.flipFlop m.level? = some d' := by
    rw [respond_congr found, answer]
    intro u heeds
    exact frame.others u fun eq => deaf (eq ▸ heeds)
  exact Device.respond_respond same

theorem timed_irrefl (timed : n.Timed moment) : ¬ n.Heeds s s := by
  intro heeds
  obtain ⟨d, found, source⟩ | earlier := timed s s heeds
  · obtain ⟨e, pin, output, found', heeded, -, -⟩ := heeds
    rw [found] at found'
    rw [← Option.some.inj found', Device.heeded_of_isSource source] at heeded
    cases heeded
  · exact lt_irrefl _ earlier

theorem resting_refresh (timed : n.Timed moment) (same : n.SameLayout m)
    (turn : ∀ t ∈ n.symbols, moment t = time → t = s) (pass : refresh s n = .ok still m)
    (resting : n.Resting moment time) : m.Resting moment (time + 1) := by
  intro t known rests
  rw [← same.symbols] at known
  by_cases here : t = s
  · exact here ▸ rests_refresh_self pass (timed_irrefl timed)
  · have before : n.IsSource t ∨ moment t < time := by
      obtain source | earlier := rests
      · exact Or.inl (same.symm.isSource source)
      · have : moment t ≠ time := fun now => here (turn t known now)
        exact Or.inr (by omega)
    have quiet := resting t known before
    by_cases heeds : n.Heeds t s
    · -- what the device heeds has come to rest before it, so that this response changes nothing
      have earlier : n.IsSource s ∨ moment s < time := by
        obtain source | earlier := timed t s heeds
        · exact Or.inl source
        · obtain ⟨e, found, source⟩ | later := before
          · obtain ⟨e', pin, output, found', heeded, -, -⟩ := heeds
            rw [found] at found'
            rw [← Option.some.inj found', Device.heeded_of_isSource source] at heeded
            cases heeded
          · exact Or.inr (by omega)
      have known : s ∈ n.symbols := by
        obtain ⟨d, d', found, -, -, -⟩ := refresh_ok_iff.mp pass
        exact mem_symbols_of_device? found
      rw [refresh_of_rests (resting s known earlier)] at pass
      simp only [EStateM.Result.ok.injEq] at pass
      exact pass.2 ▸ quiet
    · exact rests_refresh_of_not_heeds pass here heeds quiet

theorem resting_sweep (proper : n.Proper) (wired : n.isWired = true) (timed : n.Timed moment)
    (known : ∀ s ∈ order, s ∈ n.symbols)
    (turn : ∀ i (h : i < order.length), ∀ t ∈ n.symbols, moment t = time + i → t = order[i])
    (pass : sweep order n = .ok still m) (resting : n.Resting moment time) :
    m.Resting moment (time + order.length) := by
  induction order generalizing n time still with
  | nil =>
    obtain ⟨-, eq⟩ := EStateM.pure_ok_iff.mp pass
    exact eq ▸ resting
  | cons s rest ih =>
    obtain ⟨first, k, others, head, tail, -⟩ := sweep_cons_ok_iff.mp pass
    obtain ⟨first', k', head', same⟩ := exists_refresh proper
      (fed_of_isWired proper wired) (known s List.mem_cons_self)
    have eq : k' = k := by
      rw [head] at head'
      simp only [EStateM.Result.ok.injEq] at head'
      exact head'.2.symm
    subst eq
    have step : k'.Resting moment (time + 1) := by
      refine resting_refresh timed same (fun t ht now => ?_) head resting
      exact turn 0 (by simp) t ht now
    have later := ih (same.proper proper) (same.isWired wired) (same.timed timed)
      (fun t ht => same.symbols ▸ known t (List.mem_cons_of_mem s ht))
      (fun i hi t ht now => by
        have := turn (i + 1) (by simpa using hi) t (same.symbols ▸ ht) (by omega)
        simpa using this)
      tail step
    rw [List.length_cons, Nat.add_comm rest.length 1, ← Nat.add_assoc]
    exact later

/-- With a moment for each turn of each pass, all is at rest once the latest has passed, and one
pass more finds that out. -/
theorem exists_settle {passes done last : Nat} (proper : n.Proper) (wired : n.isWired = true)
    (timed : n.Timed moment)
    (turn : ∀ t ∈ n.symbols, moment t % n.symbols.length = n.symbols.idxOf t)
    (latest : ∀ t ∈ n.symbols, moment t < last * n.symbols.length)
    (resting : n.Resting moment (done * n.symbols.length))
    (started : done ≤ last) (enough : last < done + passes) :
    ∃ m, settle n.symbols passes n = .ok () m ∧ n.SameLayout m := by
  induction passes generalizing n done with
  | zero => omega
  | succ passes ih =>
    obtain ⟨still, k, pass, same⟩ := exists_sweep proper
      (fed_of_isWired proper wired) fun s (hs : s ∈ n.symbols) => hs
    cases still with
    | true => exact ⟨k, settle_succ_ok_iff.mpr (Or.inl pass), same⟩
    | false =>
      have more : done ≠ last := by
        intro all
        have rests : ∀ s ∈ n.symbols, n.Rests s := fun s hs =>
          resting s hs (Or.inr (all ▸ latest s hs))
        rw [sweep_of_rests rests] at pass
        cases pass
      have resting' : k.Resting moment ((done + 1) * n.symbols.length) := by
        rw [Nat.succ_mul]
        refine resting_sweep proper wired timed (fun s hs => hs) ?_ pass resting
        intro i hi t ht now
        have index := turn t ht
        rw [now, Nat.mul_comm, Nat.mul_add_mod, Nat.mod_eq_of_lt hi] at index
        simp only [index, List.getElem_idxOf]
      rw [same.symbols] at turn latest resting'
      obtain ⟨m, later, same'⟩ := ih (same.proper proper) (same.isWired wired) (same.timed timed)
        turn latest resting' (by omega) (by omega)
      refine ⟨m, settle_succ_ok_iff.mpr (Or.inr ⟨k, pass, ?_⟩), same.trans same'⟩
      rw [same.symbols]
      exact later

end Netlist

end LogicCircuit
