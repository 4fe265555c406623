import LogicCircuit.Proofs.Circuit.Limit
import LogicCircuit.Proofs.Netlist.Domain
import LogicCircuit.Proofs.Netlist.Reordering
import LogicCircuit.Proofs.Netlist.Restless
import Mathlib.Data.Fintype.BigOperators
import Mathlib.Data.Fintype.Pigeonhole

/-!
How many passes are enough. From the first pass on a netlist is in one of finitely many states, as
gates and flip-flops are low or high, and a pass takes each of them to one other. A cycle that has
seen them all without coming to rest never settles.
-/

namespace LogicCircuit

/-- Iterates that come to a fixed point do so before they are as many as the values they can
have. -/
theorem exists_fixed_lt_card {α β : Type} [Fintype β] {f : α → α} {x : α} {code : α → β}
    {last : Nat}
    (coded : ∀ i j, code (f^[i] x) = code (f^[j] x) → f^[i] x = f^[j] x)
    (fixed : f (f^[last] x) = f^[last] x) :
    ∃ i < Fintype.card β, f (f^[i] x) = f^[i] x := by
  classical
  have ends : ∃ i, f (f^[i] x) = f^[i] x := ⟨last, fixed⟩
  let first := Nat.find ends
  refine ⟨first, ?_, Nat.find_spec ends⟩
  by_contra many
  have more : Fintype.card β < Fintype.card (Fin (first + 1)) := by
    rw [Fintype.card_fin]
    omega
  obtain ⟨a, b, apart, same⟩ :=
    Fintype.exists_ne_map_eq_of_card_lt (fun j : Fin (first + 1) => code (f^[j] x)) more
  -- of two equal iterates the later one could be left out, and the fixed point would come earlier
  have earlier (i j : Nat) (order : i < j) (within : j ≤ first) (same : f^[i] x = f^[j] x) :
      False := by
    have skip : f^[first - j + i] x = f^[first] x := by
      rw [Function.iterate_add_apply, same, ← Function.iterate_add_apply, Nat.sub_add_cancel within]
    refine Nat.find_min ends (m := first - j + i) (by omega) ?_
    rw [skip]
    exact Nat.find_spec ends
  have equal := coded a b same
  obtain before | behind := Nat.lt_or_gt_of_ne (Fin.val_ne_of_ne apart)
  · exact earlier a b before (Nat.le_of_lt_succ b.isLt) equal
  · exact earlier b a behind (Nat.le_of_lt_succ a.isLt) equal.symm

namespace Device

variable {v : Vocabulary} {pins : FlipFlopPins} {lv : Terminal → Option Level} {d d' e : Device}

theorem HasPins.eq_some {pin : Option Symbol} (h : d.HasPins v) (kind : d.kind = .flipFlop)
    (known : pin ∈ d.outputs.keys) : pin = some v.flipFlop.q ∨ pin = some v.flipFlop.qbar := by
  obtain ⟨first, second, made, how, -, outputs⟩ := h
  rw [kind] at how
  cases how
  rw [outputs] at known
  obtain rfl | known := PinMap.mem_keys_insert.mp known
  · exact .inr rfl
  · obtain rfl | known := PinMap.mem_keys_insert.mp known
    · exact .inl rfl
    · cases known

/-- A gate shows low or high, and so does a flip-flop, which shows what it remembers. -/
structure Crisp (pins : FlipFlopPins) (d : Device) : Prop where
  gate : ∀ g, d.body = .gate g → ∃ b, d.outputs.get? none = some (.ofBool b)
  memory : ∀ level, d.body = .flipFlop level → ∃ b, level = .ofBool b
  shown : ∀ level, d.body = .flipFlop level → d.outputs.get? (some pins.q) = some level ∧
    d.outputs.get? (some pins.qbar) = some level.inverted

theorem crisp_of_respond (apart : pins.q ≠ pins.qbar)
    (memory : ∀ level, d.body = .flipFlop level → ∃ b, level = .ofBool b)
    (answer : d.respond pins lv = some d') : d'.Crisp pins := by
  cases body : d.body with
  | gate g =>
    obtain ⟨levels, -, rfl⟩ := (respond_gate_iff body).mp answer
    exact ⟨fun _ _ => ⟨_, PinMap.get?_insert_self _ _ _⟩, by simp [body], by simp [body]⟩
  | flipFlop level =>
    obtain ⟨set, clear, -, -, rfl⟩ := (respond_flipFlop_iff body).mp answer
    have other : some pins.q ≠ some pins.qbar := fun eq => apart (Option.some.inj eq)
    refine ⟨by simp, fun level' eq => ?_, fun level' eq => ?_⟩
    · obtain ⟨b, rfl⟩ := memory level body
      rw [← Body.flipFlop.inj eq, Level.preset]
      split
      · exact ⟨true, rfl⟩
      · split
        · exact ⟨false, rfl⟩
        · exact ⟨b, rfl⟩
    · rw [← Body.flipFlop.inj eq, PinMap.get?_insert_of_ne _ _ other, PinMap.get?_insert_self,
        PinMap.get?_insert_self]
      exact ⟨rfl, rfl⟩
  | clock _ _ | switch _ | generator _ _ _ =>
    rw [respond_source (by simp [body]) (by simp [body])] at answer
    obtain rfl := Option.some.inj answer
    exact ⟨by simp [body], by simp [body], by simp [body]⟩

/-- What a gate shows or a flip-flop remembers. -/
def bit (d : Device) : Bool :=
  match d.body with
  | .gate _ => (d.outputs.get? none).any Level.isHigh
  | .flipFlop memory => memory.isHigh
  | .clock _ _ | .switch _ | .generator _ _ _ => false

/-- The state of a gate or a flip-flop is one bit. -/
theorem Crisp.eq_of_bit (h : d.Crisp v.flipFlop) (h' : e.Crisp v.flipFlop) (pins : d.HasPins v)
    (layout : d.layout = e.layout) (other : d.kind.isSource = false) (same : d.bit = e.bit) :
    d = e := by
  have kind := kind_congr layout
  rw [bit, bit] at same
  cases body : d.body with
  | gate g =>
    have gate : d.kind.isGate = true := by simp [Device.kind, body, Body.kind, Kind.isGate]
    have body' : e.body = .gate g := (body_eq_of_isGate kind gate).symm.trans body
    obtain ⟨b, shown⟩ := h.gate g body
    obtain ⟨b', shown'⟩ := h'.gate g body'
    simp only [body, body', shown, shown', Option.any_some, Level.isHigh_ofBool] at same
    refine eq_of_layout layout (body.trans body'.symm) fun pin known => ?_
    rw [pins.eq_none (by simp [Device.kind, body, Body.kind]) known, shown, shown', same]
  | flipFlop level =>
    have flipFlop : d.kind = .flipFlop := by simp [Device.kind, body, Body.kind]
    obtain ⟨level', body'⟩ := exists_memory (kind ▸ flipFlop)
    obtain ⟨b, rfl⟩ := h.memory level body
    obtain ⟨b', rfl⟩ := h'.memory level' body'
    simp only [body, body', Level.isHigh_ofBool] at same
    subst same
    obtain ⟨q, qbar⟩ := h.shown _ body
    obtain ⟨q', qbar'⟩ := h'.shown _ body'
    refine eq_of_layout layout (body.trans body'.symm) fun pin known => ?_
    obtain rfl | rfl := pins.eq_some flipFlop known
    · rw [q, q']
    · rw [qbar, qbar']
  | clock _ _ | switch _ | generator _ _ _ =>
    simp [Device.kind, body, Body.kind, Kind.isSource] at other

end Device

namespace Netlist

variable {k n m : Netlist} {s : Symbol} {d : Device} {order : List Symbol} {passes limit i : Nat}
  {still : Bool}

/-! Passes one after the other. -/

/-- The netlist after one pass. -/
def swept (order : List Symbol) (n : Netlist) : Netlist :=
  (sweep order n).state

theorem swept_of_sweep_ok (pass : sweep order n = .ok still m) : swept order n = m := by
  rw [swept, pass]
  rfl

theorem exists_still_of_settle (settles : settle order passes n = .ok () m) :
    ∃ i, sweep order ((swept order)^[i] n) = .ok true m := by
  induction passes generalizing n with
  | zero => cases settles
  | succ passes ih =>
    obtain still | ⟨n', pass, later⟩ := settle_succ_ok_iff.mp settles
    · exact ⟨0, still⟩
    · obtain ⟨i, still⟩ := ih later
      rw [← swept_of_sweep_ok pass] at still
      exact ⟨i + 1, still⟩

theorem exists_settle_of_still
    (total : ∀ j, ∃ still k, sweep order ((swept order)^[j] n) = .ok still k)
    (still : sweep order ((swept order)^[i] n) = .ok true m) :
    ∃ m', settle order (i + 1) n = .ok () m' := by
  induction i generalizing n with
  | zero => exact ⟨m, settle_succ_ok_iff.mpr (.inl still)⟩
  | succ i ih =>
    obtain ⟨first, k, pass⟩ := total 0
    cases first with
    | true => exact ⟨k, settle_succ_ok_iff.mpr (.inl pass)⟩
    | false =>
      have next := swept_of_sweep_ok pass
      rw [Function.iterate_succ_apply] at still
      obtain ⟨m', settles⟩ := ih (fun j => total (j + 1)) still
      exact ⟨m', settle_succ_ok_iff.mpr (.inr ⟨k, pass, next ▸ settles⟩)⟩

/-! The states that passes go through. -/

/-- The netlist differs from another one in no more than what gates and flip-flops show and
remember, and no flip-flop remembers an edge or a blank. -/
structure Varied (k n : Netlist) : Prop where
  layout : k.SameLayout n
  sources : ∀ s d, k.device? s = some d → d.kind.isSource = true → n.device? s = some d
  definite : n.Definite
  calm : ∀ d ∈ n.devices, d.Calm

theorem undisturbed_varied (proper : k.Proper) : Undisturbed (Varied k) := by
  have source {s : Symbol} {d : Device} (kind : d.kind.isSource = true) :
      Undisturbed fun n => n.device? s = some d :=
    undisturbed_device (fun _ => Device.remembering_of_ne fun eq => by rw [eq] at kind; cases kind)
      fun _ _ => Device.respond_of_isSource kind
  have layout := (kept_sameLayout proper).undisturbed
  refine ⟨fun s n h => ⟨layout.latch s n h.layout, fun t d found kind => ?_,
    kept_definite.latch s n h.definite, kept_calm.latch s n h.calm⟩,
    fun s n h => ⟨layout.refresh s n h.layout, fun t d found kind => ?_,
    kept_definite.refresh s n h.definite, kept_calm.refresh s n h.calm⟩⟩
  · exact (source kind).latch s n (h.sources t d found kind)
  · exact (source kind).refresh s n (h.sources t d found kind)

theorem Varied.memory (h : Varied k n) (hd : d ∈ n.devices) {level : Level}
    (body : d.body = .flipFlop level) : ∃ b, level = .ofBool b := by
  have known := (h.definite d hd).memory level body
  obtain rfl | rfl := Level.low_or_high (h.calm d hd level body) known
  · exact ⟨false, rfl⟩
  · exact ⟨true, rfl⟩

/-- All gates and flip-flops are low or high. -/
def Crisp (n : Netlist) : Prop :=
  ∀ d ∈ n.devices, d.Crisp n.vocabulary.flipFlop

/-- A device is low or high once it has had its turn. -/
theorem crisp_of_sweep (proper : k.Proper) (h : Varied k n) (nodup : order.Nodup)
    (run : sweep order n = .ok still m) :
    ∀ s ∈ order, ∀ d, m.device? s = some d → d.Crisp k.vocabulary.flipFlop := by
  induction order generalizing n still with
  | nil => exact fun s hs => absurd hs List.not_mem_nil
  | cons t rest ih =>
    obtain ⟨absent, nodup⟩ := List.nodup_cons.mp nodup
    obtain ⟨first, n', others, head, tail, -⟩ := sweep_cons_ok_iff.mp run
    have next := (undisturbed_varied proper).refresh t n h
    rw [head] at next
    refine List.forall_mem_cons.mpr ⟨fun d found => ?_, ih next nodup tail⟩
    rw [(swept_of_sweep tail).others t absent] at found
    obtain ⟨e, e', found', answer, -, rfl⟩ := refresh_ok_iff.mp head
    rw [device?_refresh found' answer] at found
    obtain rfl := Option.some.inj found
    rw [← h.layout.1] at answer
    exact Device.crisp_of_respond proper.vocabulary.q_ne_qbar
      (fun _ body => h.memory (mem_of_device? found') body) answer

theorem Varied.exists_sweep (proper : k.Proper) (fed : k.Fed) (h : Varied k n) :
    ∃ still, sweep k.symbols n = .ok still (swept k.symbols n) ∧
      Varied k (swept k.symbols n) ∧ (swept k.symbols n).Crisp := by
  have here : ∀ s ∈ k.symbols, s ∈ n.symbols := fun s hs => h.layout.symbols ▸ hs
  obtain ⟨still, m, run, -⟩ :=
    Netlist.exists_sweep (h.layout.proper proper) (h.layout.fed fed) here
  have varied : Varied k (swept k.symbols n) := (undisturbed_varied proper).sweep h k.symbols
  have eq : swept k.symbols n = m := swept_of_sweep_ok run
  refine ⟨still, eq ▸ run, varied, fun d hd => ?_⟩
  have layout := varied.layout
  have known : d.symbol ∈ k.symbols := layout.symbols ▸ List.mem_map_of_mem hd
  rw [← layout.1]
  exact crisp_of_sweep proper h proper.nodup run d.symbol known d
    (eq ▸ device?_of_mem (layout.proper proper).nodup hd)

theorem Varied.iterate (proper : k.Proper) (fed : k.Fed) (h : Varied k n) (i : Nat) :
    Varied k ((swept k.symbols)^[i] n) := by
  induction i with
  | zero => exact h
  | succ i ih =>
    rw [Function.iterate_succ_apply']
    obtain ⟨-, -, next, -⟩ := ih.exists_sweep proper fed
    exact next

theorem Varied.exists_pass (proper : k.Proper) (fed : k.Fed) (h : Varied k n) (i : Nat) :
    ∃ still, sweep k.symbols ((swept k.symbols)^[i] n) =
      .ok still ((swept k.symbols)^[i + 1] n) := by
  rw [Function.iterate_succ_apply']
  obtain ⟨still, run, -, -⟩ := (h.iterate proper fed i).exists_sweep proper fed
  exact ⟨still, run⟩

theorem Varied.crisp_iterate (proper : k.Proper) (fed : k.Fed) (h : Varied k n) (i : Nat) :
    ((swept k.symbols)^[i + 1] n).Crisp := by
  rw [Function.iterate_succ_apply']
  obtain ⟨-, -, -, crisp⟩ := (h.iterate proper fed i).exists_sweep proper fed
  exact crisp

/-- The bits of a netlist. -/
def bit (n : Netlist) (s : Symbol) : Bool :=
  (n.device? s).any Device.bit

/-- The names of all gates and flip-flops. -/
def active (n : Netlist) : List Symbol :=
  (n.devices.filter fun d => !d.kind.isSource).map Device.symbol

theorem length_active (n : Netlist) : n.active.length =
    (n.devices.countP fun d => d.kind.isGate) + n.devices.countP fun d => d.kind = .flipFlop := by
  rw [active, List.length_map, ← List.countP_eq_length_filter]
  induction n.devices with
  | nil => rfl
  | cons d rest ih =>
    rw [List.countP_cons, List.countP_cons, List.countP_cons, ih]
    cases d.kind <;> simp [Kind.isSource, Kind.isGate] <;> omega

theorem eq_of_device? (vocabulary : n.vocabulary = m.vocabulary) (symbols : n.symbols = m.symbols)
    (nodup : n.symbols.Nodup) (same : ∀ s ∈ n.symbols, n.device? s = m.device? s) : n = m := by
  have listed {n : Netlist} (nodup : n.symbols.Nodup) :
      n.symbols.map n.device? = n.devices.map some := by
    rw [Netlist.symbols, List.map_map]
    exact List.map_congr_left fun d hd => device?_of_mem nodup hd
  have devices : n.devices.map some = m.devices.map some := by
    rw [← listed nodup, ← listed (symbols ▸ nodup), ← symbols]
    exact List.map_congr_left same
  cases n
  cases m
  cases vocabulary
  cases List.map_injective_iff.mpr (Option.some_injective _) devices
  rfl

theorem Varied.eq_of_bits (proper : k.Proper) (h : Varied k n) (h' : Varied k m) (crisp : n.Crisp)
    (crisp' : m.Crisp) (same : ∀ s ∈ k.active, n.bit s = m.bit s) : n = m := by
  have between := h.layout.symm.trans h'.layout
  have names := (h.layout.proper proper).nodup
  refine eq_of_device? between.1 between.symbols names fun s hs => ?_
  obtain ⟨d, found⟩ := exists_device? hs
  obtain ⟨e, found', layout⟩ := between.device? found
  obtain ⟨c, known, layout'⟩ := h.layout.symm.device? found
  rw [found, found']
  cases source : c.kind.isSource with
  | true =>
    rw [← found, ← found', h.sources s c known source, h'.sources s c known source]
  | false =>
    have active : s ∈ k.active := by
      refine List.mem_map.mpr ⟨c, List.mem_filter.mpr ⟨mem_of_device? known, ?_⟩,
        symbol_of_device? known⟩
      rw [source]
      rfl
    have bits := same s active
    rw [bit, bit, found, found', Option.any_some, Option.any_some] at bits
    have crisp' := crisp' e (mem_of_device? found')
    rw [← between.1] at crisp'
    exact congrArg some ((crisp d (mem_of_device? found)).eq_of_bit crisp'
      ((h.layout.proper proper).pins s d found) layout (Device.kind_congr layout' ▸ source) bits)

/-- A pass that changes no output leads to a netlist that no pass changes. -/
theorem swept_of_still (nodup : order.Nodup) (pass : sweep order n = .ok true m) :
    swept order m = m :=
  swept_of_sweep_ok (sweep_of_rests (rests_of_sweep pass nodup).2)

/-- A pass that leaves a netlist as it is changes no output. -/
theorem still_of_sweep_self (nodup : order.Nodup) (pass : sweep order n = .ok still n) :
    still = true := by
  cases still with
  | true => rfl
  | false =>
    obtain ⟨out, changed⟩ := changed_of_sweep pass nodup
    exact absurd rfl changed

theorem card_bits (proper : k.Proper) : Fintype.card (k.active.toFinset → Bool) =
    2 ^ ((k.devices.countP fun d => d.kind.isGate) +
      k.devices.countP fun d => d.kind = .flipFlop) := by
  have distinct : k.active.Nodup := proper.nodup.sublist (List.filter_sublist.map Device.symbol)
  rw [Fintype.card_fun, Fintype.card_bool, Fintype.card_coe, List.toFinset_card_of_nodup distinct,
    length_active]

/-- If any pass changes no output, one of the first does: those behind the first one go from state
to state, and there are not more states than values of the bits. -/
theorem Varied.exists_early_still (proper : k.Proper) (fed : k.Fed) (h : Varied k n)
    (still : sweep k.symbols ((swept k.symbols)^[i] n) = .ok true m) :
    ∃ j ≤ Fintype.card (k.active.toFinset → Bool), ∃ m',
      sweep k.symbols ((swept k.symbols)^[j] n) = .ok true m' := by
  let pass := swept k.symbols
  let code (n : Netlist) (s : k.active.toFinset) : Bool := n.bit s.1
  have coded (a b : Nat) (same : code (pass^[a] (pass n)) = code (pass^[b] (pass n))) :
      pass^[a] (pass n) = pass^[b] (pass n) := by
    rw [← Function.iterate_succ_apply, ← Function.iterate_succ_apply] at same ⊢
    refine Varied.eq_of_bits proper (h.iterate proper fed (a + 1)) (h.iterate proper fed (b + 1))
      (h.crisp_iterate proper fed a) (h.crisp_iterate proper fed b) fun s hs => ?_
    exact congrFun same ⟨s, List.mem_toFinset.mpr hs⟩
  have fixed : pass (pass^[i] (pass n)) = pass^[i] (pass n) := by
    have ended : pass^[i + 1] n = m := by
      rw [Function.iterate_succ_apply']
      exact swept_of_sweep_ok still
    rw [← Function.iterate_succ_apply, ended]
    exact swept_of_still proper.nodup still
  obtain ⟨first, early, fixed⟩ := exists_fixed_lt_card coded fixed
  obtain ⟨still, run⟩ := h.exists_pass proper fed (first + 1)
  have same : pass^[first + 1 + 1] n = pass^[first + 1] n := by
    rw [Function.iterate_succ_apply', Function.iterate_succ_apply]
    exact fixed
  rw [same] at run
  obtain rfl := still_of_sweep_self proper.nodup run
  exact ⟨first + 1, early, _, run⟩

theorem Varied.settle_of_enough (proper : k.Proper) (fed : k.Fed) (h : Varied k n)
    (enough : Fintype.card (k.active.toFinset → Bool) + 1 ≤ limit)
    (settles : settle k.symbols passes n = .ok () m) : settle k.symbols limit n = .ok () m := by
  obtain ⟨i, still⟩ := exists_still_of_settle settles
  obtain ⟨j, early, m', still⟩ := h.exists_early_still proper fed still
  obtain ⟨m', settles'⟩ := exists_settle_of_still
    (fun i => (h.exists_pass proper fed i).imp fun _ run => ⟨_, run⟩) still
  have done := settle_mono (by omega : j + 1 ≤ limit) settles'
  have same := (settle_mono (Nat.le_max_left limit passes) done).symm.trans
    (settle_mono (Nat.le_max_right limit passes) settles)
  rw [done, (EStateM.Result.ok.inj same).2]

/-! Whole cycles. -/

theorem SameLayout.countP_kind (h : n.SameLayout m) (p : Kind → Bool) :
    (n.devices.countP fun d => p d.kind) = m.devices.countP fun d => p d.kind := by
  have counted (n : Netlist) : (n.devices.countP fun d => p d.kind) =
      (n.devices.map Device.layout).countP fun l => p l.kind := by
    rw [List.countP_map]
    rfl
  rw [counted, counted, h.2]

/-- The latching leaves what varies in a cycle low or high. -/
theorem varied_latched (definite : n.Definite) (calm : ∀ d ∈ n.devices, d.Calm)
    (latched : latchAll (n.stepSources.symbolsOf .flipFlop) n.stepSources = .ok () k) :
    Varied k k := by
  have kept := kept_definite.and kept_calm
  have state := kept.undisturbed.latchAll (kept.stepSources n ⟨definite, calm⟩)
    (n.stepSources.symbolsOf .flipFlop)
  rw [latched] at state
  exact ⟨.refl k, fun _ _ found _ => found, state.1, state.2⟩

/-- Of a netlist in which every input is wired, and in which nothing is blank and flip-flops
remember low or high: let the limit on the passes be higher than the number of the states that its
gates and flip-flops can have. If the cycle completes within any limit, it completes within this one
and comes out the same. So if it does not settle within this limit, it settles within none. -/
theorem cycle_verdict_final (built : n.Built) (wired : n.isWired = true) (definite : n.Definite)
    (memories : ∀ d ∈ n.devices, ∀ level, d.body = .flipFlop level → level = .low ∨ level = .high)
    (enough : 2 ^ ((n.devices.countP fun d => d.kind.isGate) +
      n.devices.countP fun d => d.kind = .flipFlop) + 1 ≤ limit) :
    (∀ limit' m, n.cycle limit' = .ok () m → n.cycle limit = .ok () m) ∧
      ∀ stall m, n.cycle limit = .error stall m →
        stall = .restless ∧ ∀ limit', ∃ m', n.cycle limit' = .error .restless m' := by
  have proper := built.proper
  have calm : ∀ d ∈ n.devices, d.Calm := by
    intro d hd level body
    obtain rfl | rfl := memories d hd level body
    · rfl
    · rfl
  obtain ⟨k, latched, same⟩ := exists_latched proper wired
  have proper' := same.proper proper
  have fed := fed_of_isWired proper' (same.isWired wired)
  have settles (limit' : Nat) (m : Netlist) (completes : n.cycle limit' = .ok () m) :
      n.cycle limit = .ok () m := by
    obtain ⟨k', latched', passes⟩ := cycle_ok_iff.mp completes
    obtain rfl := (EStateM.Result.ok.inj (latched.symm.trans latched')).2
    refine cycle_ok_iff.mpr ⟨k, latched, ?_⟩
    refine (varied_latched definite calm latched).settle_of_enough proper' fed ?_ passes
    rw [card_bits proper', ← same.countP_kind Kind.isGate,
      ← same.countP_kind fun kind => kind = .flipFlop]
    exact enough
  refine ⟨settles, fun stall m fails => ?_⟩
  have restless {limit : Nat} {stall : Stall} {m : Netlist}
      (fails : n.cycle limit = .error stall m) : stall = .restless := by
    have again := (unsettled_of_cycle proper wired fails).stalls
    exact (EStateM.Result.error.inj (fails.symm.trans again)).1
  refine ⟨restless fails, fun limit' => ?_⟩
  cases other : n.cycle limit' with
  | ok _ m' =>
    rw [settles limit' m' other] at fails
    cases fails
  | error stall' m' => exact ⟨m', congrArg (EStateM.Result.error · m') (restless other)⟩

/-- A gate that inverts its own output and sets a flip-flop from time to time. -/
def ringing : Netlist :=
  let t := SymbolTable.ofList Vocabulary.words
  let v := Vocabulary.ofTable t
  let declared := (Netlist.empty t).declareAll
    [(⟨40⟩, .switch, some 0, none), (⟨41⟩, .gate .nand, some 1, none),
      (⟨42⟩, .flipFlop, none, none)]
  (declared.connectAll ⟨⟨40⟩, none⟩ [(⟨42⟩, v.flipFlop.clock), (⟨42⟩, v.flipFlop.clear)]).connectAll
    ⟨⟨41⟩, none⟩ [(⟨41⟩, v.gateInputs.getD 0 ⟨0⟩), (⟨42⟩, v.flipFlop.set), (⟨42⟩, v.flipFlop.data)]

theorem ringing_built : ringing.Built := by
  have known : ∀ w ∈ Vocabulary.words, w ∈ (SymbolTable.ofList Vocabulary.words).texts := by
    decide +kernel
  exact ⟨_, (Assembled.empty _ known).declareAll.connectAll.connectAll, SameLayout.refl _⟩

theorem ringing_definite : ringing.Definite := by
  have shown : ∀ d ∈ ringing.devices, ∀ entry ∈ d.outputs.entries, entry.2 ≠ .blank := by
    decide +kernel
  have kept : ∀ d ∈ ringing.devices, d.body ≠ .switch .blank ∧ d.body ≠ .flipFlop .blank := by
    decide +kernel
  intro d hd
  refine ⟨fun pin level found => ?_, fun level body blank => ?_, fun level body blank => ?_⟩
  · exact shown d hd (pin, level) (PinMap.mem_entries_iff.mpr found)
  · exact (kept d hd).1 (blank ▸ body)
  · exact (kept d hd).2 (blank ▸ body)

/-- It has four states, and five passes tell that it never settles. -/
theorem ringing_never_settles : ringing.Built ∧ ringing.isWired = true ∧ ringing.Definite ∧
    (ringing.cycle 5).isOk = false ∧
    ∀ limit, ∃ m, ringing.cycle limit = .error .restless m := by
  have wired : ringing.isWired = true := by decide +kernel
  have low : ∀ d ∈ ringing.devices, d.kind = .flipFlop → d.body = .flipFlop .low := by
    decide +kernel
  have memories (d : Device) (hd : d ∈ ringing.devices) (level : Level)
      (body : d.body = .flipFlop level) : level = .low ∨ level = .high := by
    have start := low d hd (by rw [Device.kind, body, Body.kind])
    exact .inl (Body.flipFlop.inj (body.symm.trans start))
  have enough : 2 ^ ((ringing.devices.countP fun d => d.kind.isGate) +
      ringing.devices.countP fun d => d.kind = .flipFlop) + 1 ≤ 5 := by
    decide +kernel
  obtain ⟨-, fails⟩ := cycle_verdict_final ringing_built wired ringing_definite memories enough
  have stalls : (ringing.cycle 5).isOk = false := by decide +kernel
  refine ⟨ringing_built, wired, ringing_definite, stalls, ?_⟩
  cases run : ringing.cycle 5 with
  | ok _ m => rw [run] at stalls; cases stalls
  | error stall m => exact (fails stall m run).2

end Netlist

end LogicCircuit
