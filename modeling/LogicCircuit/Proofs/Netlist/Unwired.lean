import LogicCircuit.Proofs.Netlist.Joining
import LogicCircuit.Proofs.Netlist.Part
import LogicCircuit.Proofs.Netlist.Reached
import LogicCircuit.Proofs.Netlist.Restless

/-!
Which unwired inputs stop a cycle: all of them, but for the data input of a flip-flop whose clock
input does not rise.
-/

namespace LogicCircuit

theorem Vocabulary.IsProper.data_apart {v : Vocabulary} (h : v.IsProper) :
    v.flipFlop.data ∉ [v.flipFlop.set, v.flipFlop.clear, v.flipFlop.clock] := by
  obtain ⟨t, known, rfl⟩ := h
  have apart (w : String) (other : "DATA" ≠ w) : t.symbol "DATA" ≠ t.symbol w := fun eq =>
    other ((SymbolTable.symbol_inj (known _ (flipFlop_words "DATA" (by decide)))).mp eq)
  simp only [ofTable, List.mem_cons, List.not_mem_nil, or_false, not_or]
  exact ⟨apart "SET" (by decide), apart "CLEAR" (by decide), apart "CLK" (by decide)⟩

namespace Device

variable {v : Vocabulary} {d : Device} {pin : Symbol}

theorem heeded_of_flipFlop {pins : FlipFlopPins} (kind : d.kind = .flipFlop) :
    d.heeded pins = [pins.set, pins.clear] := by
  obtain ⟨memory, body⟩ := exists_memory kind
  rw [heeded, body]

/-- What a device is and what drives it. -/
def wiring (d : Device) : Symbol × Kind × PinMap Symbol (Option Terminal) :=
  (d.symbol, d.kind, d.inputs)

theorem wiring_stepped (d : Device) : d.stepped.wiring = d.wiring := by
  rw [wiring, wiring, Netlist.symbol_stepped, kind_stepped, inputs_stepped]

theorem wiring_remembering (level : Level) (d : Device) :
    (d.remembering level).wiring = d.wiring := by
  rw [remembering]
  cases body : d.body <;> simp [wiring, kind, body, Body.kind]

theorem wiring_respond {pins : FlipFlopPins} {lv : Terminal → Option Level} {d' : Device}
    (h : d.respond pins lv = some d') : d'.wiring = d.wiring := by
  obtain ⟨_, _, _, _, rfl⟩ | ⟨memory, _, _, body, _, _, rfl⟩ | rfl := respond_cases h
  · rfl
  · simp only [wiring, kind, body, Body.kind]
  · rfl

/-- The inputs of a device are those that it heeds and, of a flip-flop, the two by which it
latches. -/
theorem HasPins.heeded_or_latches (pins : d.HasPins v) (known : pin ∈ d.inputs.keys) :
    pin ∈ d.heeded v.flipFlop ∨
      d.kind = .flipFlop ∧ (pin = v.flipFlop.clock ∨ pin = v.flipFlop.data) := by
  rw [heeded]
  cases body : d.body with
  | gate g => exact Or.inl known
  | flipFlop memory =>
    have kind : d.kind = .flipFlop := by rw [Device.kind, body, Body.kind]
    obtain ⟨g, gate⟩ | ⟨-, four⟩ := pins.mem_inputs known
    · cases kind.symm.trans gate
    · simp only [FlipFlopPins.inputs, List.mem_cons, List.not_mem_nil, or_false] at four ⊢
      tauto
  | clock _ _ | switch _ | generator _ _ _ =>
    obtain ⟨g, gate⟩ | ⟨flipFlop, -⟩ := pins.mem_inputs known
    · simp [kind, body, Body.kind] at gate
    · simp [kind, body, Body.kind] at flipFlop

end Device

namespace Netlist

variable {n m : Netlist} {s pin : Symbol} {d : Device} {names order : List Symbol} {stall : Stall}
  {still : Bool} {limit : Nat}

/-- The input has to be wired, or the next cycle breaks off: the device heeds it in every pass, or
it is the clock input of a flip-flop, or the data input of one whose clock input rises when the
sources have stepped. -/
def Needs (n : Netlist) (d : Device) (pin : Symbol) : Prop :=
  pin ∈ d.heeded n.vocabulary.flipFlop ∨ d.kind = .flipFlop ∧
    (pin = n.vocabulary.flipFlop.clock ∨ pin = n.vocabulary.flipFlop.data ∧
      n.stepSources.reads d.symbol n.vocabulary.flipFlop.clock = some .rising)

theorem unread_of_latch (h : latch s n = .error stall m) : stall = .unread := by
  rw [latch] at h
  split at h
  · exact (EStateM.Result.error.inj h).1.symm
  · split at h
    · exact (EStateM.Result.error.inj h).1.symm
    · cases h
  · cases h

theorem unread_of_latchAll (h : latchAll names n = .error stall m) : stall = .unread := by
  induction names generalizing n with
  | nil => cases h
  | cons s rest ih =>
    obtain head | ⟨_, k, -, tail⟩ := EStateM.bind_error_iff.mp h
    · exact unread_of_latch head
    · exact ih tail

theorem unread_of_refresh (h : refresh s n = .error stall m) : stall = .unread := by
  rw [refresh] at h
  split at h
  · exact (EStateM.Result.error.inj h).1.symm
  · split at h
    · exact (EStateM.Result.error.inj h).1.symm
    · cases h

theorem unread_of_sweep (h : sweep order n = .error stall m) : stall = .unread := by
  induction order generalizing n with
  | nil => cases h
  | cons s rest ih =>
    obtain head | ⟨_, k, -, tail⟩ := EStateM.bind_error_iff.mp h
    · exact unread_of_refresh head
    · obtain later | ⟨_, _, -, last⟩ := EStateM.bind_error_iff.mp tail
      · exact ih later
      · cases last

/-! What is unwired stays so during a cycle, whatever the devices and their state. -/

theorem kept_wiring (n : Netlist) : Kept fun k => k.vocabulary = n.vocabulary ∧
    k.devices.map Device.wiring = n.devices.map Device.wiring :=
  kept_map Device.wiring_stepped Device.wiring_remembering fun _ _ _ => Device.wiring_respond

theorem exists_wired_alike {k : Netlist} (kept : k.vocabulary = n.vocabulary ∧
    k.devices.map Device.wiring = n.devices.map Device.wiring) (found : n.device? s = some d) :
    ∃ e, k.device? s = some e ∧ e.driver? = d.driver? ∧
      e.heeded k.vocabulary.flipFlop = d.heeded n.vocabulary.flipFlop := by
  obtain ⟨e, found', alike⟩ := exists_device?_of_map_eq Prod.fst (fun _ => rfl) kept.2.symm found
  simp only [Device.wiring, Prod.mk.injEq] at alike
  refine ⟨e, found', (Device.driver?_congr_inputs alike.2.2).symm, ?_⟩
  rw [kept.1, Device.heeded_of_kind alike.2.1 alike.2.2]

/-- A pass comes to each device, and so what the device heeds must be wired. -/
theorem driven_of_sweep (h : sweep order n = .ok still m) (hs : s ∈ order)
    (found : n.device? s = some d) (heeded : pin ∈ d.heeded n.vocabulary.flipFlop) :
    ∃ output, d.driver? pin = some output := by
  induction order generalizing n d still with
  | nil => cases hs
  | cons t rest ih =>
    obtain ⟨first, k, others, head, tail, -⟩ := sweep_cons_ok_iff.mp h
    obtain rfl | later := List.mem_cons.mp hs
    · obtain ⟨e, e', found', answer, -⟩ := refresh_ok_iff.mp head
      obtain rfl := Option.some.inj (found.symm.trans found')
      exact exists_driver (Device.exists_respond_iff.mp ⟨e', answer⟩ pin heeded)
    · have kept := (kept_wiring n).refresh t n ⟨rfl, rfl⟩
      rw [head] at kept
      obtain ⟨e, found', drivers, same⟩ := exists_wired_alike kept found
      exact drivers ▸ ih tail later found' (same ▸ heeded)

theorem driven_of_cycle {k : Netlist}
    (latches : latchAll (n.stepSources.symbolsOf .flipFlop) n.stepSources = .ok () k)
    (pass : sweep k.symbols k = .ok still m) (found : n.device? s = some d)
    (needs : n.Needs d pin) : ∃ output, d.driver? pin = some output := by
  have name := symbol_of_device? found
  obtain heeded | ⟨kind, latching⟩ := needs
  · have kept := (kept_wiring n).undisturbed.latchAll ((kept_wiring n).stepSources n ⟨rfl, rfl⟩)
      (n.stepSources.symbolsOf .flipFlop)
    rw [latches] at kept
    obtain ⟨e, found', drivers, same⟩ := exists_wired_alike kept found
    exact drivers ▸ driven_of_sweep pass (mem_symbols_of_device? found') found' (same ▸ heeded)
  · have found' := device?_stepSources_of_flipFlop found kind
    have clocked := exists_latchAll_iff.mp ⟨k, latches⟩ s (mem_symbolsOf found' kind)
    obtain ⟨clock, read, data⟩ := clocked
    rw [name] at latching
    have reads : ∃ level, n.stepSources.reads s pin = some level := by
      obtain rfl | ⟨rfl, rises⟩ := latching
      · exact ⟨clock, read⟩
      · exact data (Option.some.inj (read.symm.trans rises))
    rw [reads_of_device? found'] at reads
    exact exists_driver reads

theorem unread_of_needs (nodup : n.symbols.Nodup)
    (needed : ∃ d ∈ n.devices, ∃ pin ∈ d.floating, n.Needs d pin) :
    ∃ m, n.cycle (limit + 1) = .error .unread m := by
  obtain ⟨d, hd, pin, floats, needs⟩ := needed
  cases latches : latchAll (n.stepSources.symbolsOf .flipFlop) n.stepSources with
  | error stall m =>
    obtain rfl := unread_of_latchAll latches
    exact ⟨m, cycle_error_iff.mpr (Or.inl latches)⟩
  | ok _ k =>
    cases pass : sweep k.symbols k with
    | ok still m =>
      obtain ⟨output, drives⟩ := driven_of_cycle latches pass (device?_of_mem nodup hd) needs
      cases (mem_floating_iff.mp floats).2.symm.trans drives
    | error stall m =>
      obtain rfl := unread_of_sweep pass
      exact ⟨m, cycle_error_iff.mpr (Or.inr ⟨k, latches, EStateM.bind_of_error pass⟩)⟩

/-- Where no needed input is unwired, the latching and the passes find all levels. -/
theorem fed_and_clocked (proper : n.Proper)
    (spared : ∀ d ∈ n.devices, ∀ pin ∈ d.floating, ¬ n.Needs d pin) :
    n.Fed ∧ ∀ s ∈ n.stepSources.symbolsOf .flipFlop, n.stepSources.Clocked s := by
  have stepped := sameLayout_stepSources proper
  have proper' := stepped.proper proper
  have wired {s : Symbol} {d : Device} (found : n.device? s = some d) {pin : Symbol}
      (known : pin ∈ d.inputs.keys) (needs : n.Needs d pin) :
      ∃ output, d.driver? pin = some output := by
    refine Option.ne_none_iff_exists'.mp fun free => ?_
    exact spared d (mem_of_device? found) pin (mem_floating_iff.mpr ⟨known, free⟩) needs
  refine ⟨fun s d found pin heeded => ?_, fun s hs => ?_⟩
  · exact wired found ((proper.pins s d found).mem_keys_of_heeded heeded) (Or.inl heeded)
  · obtain ⟨e, found', kind'⟩ := exists_device?_of_mem_symbolsOf proper'.nodup hs
    obtain ⟨d, found, alike⟩ := stepped.symm.device? found'
    have kind : d.kind = .flipFlop := Device.kind_congr alike ▸ kind'
    have known := ((proper.pins s d found).flipFlop kind).1
    have reads (pin : Symbol) (hp : pin ∈ n.vocabulary.flipFlop.inputs)
        (needs : n.Needs d pin) : ∃ level, n.stepSources.reads s pin = some level := by
      rw [reads_of_device? found', exists_reads_iff proper' found', Device.driver?_congr alike]
      exact wired found (known pin hp) needs
    obtain ⟨level, read⟩ := reads n.vocabulary.flipFlop.clock (by simp [FlipFlopPins.inputs])
      (Or.inr ⟨kind, Or.inl rfl⟩)
    refine ⟨level, read, fun rises => ?_⟩
    refine reads n.vocabulary.flipFlop.data (by simp [FlipFlopPins.inputs])
      (Or.inr ⟨kind, Or.inr ⟨rfl, ?_⟩⟩)
    rw [symbol_of_device? found, ← rises]
    exact read

theorem needs_of_unread (proper : n.Proper) (unread : n.cycle limit = .error .unread m) :
    ∃ d ∈ n.devices, ∃ pin ∈ d.floating, n.Needs d pin := by
  by_contra spared
  obtain ⟨fed, clocked⟩ := fed_and_clocked proper (by simpa using spared)
  have stepped := sameLayout_stepSources proper
  obtain ⟨k, latches⟩ := exists_latchAll_iff.mpr clocked
  have same := stepped.trans (sameLayout_latchAll (stepped.proper proper) latches)
  obtain stuck | ⟨k', latches', settles⟩ := cycle_error_iff.mp unread
  · cases latches.symm.trans stuck
  · obtain rfl := (EStateM.Result.ok.inj (latches.symm.trans latches')).2
    obtain ⟨restless, -⟩ := restless_of_settle (same.proper proper) (same.fed fed)
      (fun s hs => hs) (same.proper proper).nodup settles
    cases restless

theorem not_needs_iff (words : n.vocabulary.IsProper) (pins : d.HasPins n.vocabulary)
    (known : pin ∈ d.inputs.keys) : ¬ n.Needs d pin ↔
      d.kind = .flipFlop ∧ pin = n.vocabulary.flipFlop.data ∧
        n.stepSources.reads d.symbol n.vocabulary.flipFlop.clock ≠ some .rising := by
  have apart := words.data_apart
  simp only [List.mem_cons, List.not_mem_nil, or_false, not_or] at apart
  constructor
  · intro spared
    rw [Needs, not_or, not_and, not_or, not_and] at spared
    obtain heeded | ⟨kind, clock | data⟩ := pins.heeded_or_latches known
    · exact absurd heeded spared.1
    · exact absurd clock (spared.2 kind).1
    · exact ⟨kind, data, (spared.2 kind).2 data⟩
  · rintro ⟨kind, rfl, still⟩ (heeded | ⟨-, clock | ⟨-, rises⟩⟩)
    · rw [Device.heeded_of_flipFlop kind] at heeded
      simp [apart] at heeded
    · exact apart.2.2 clock
    · exact still rises

/-- In every state and under every limit, no cycle completes while an input is unwired that it
needs. In a netlist that was put together from devices and wires, only such an input makes a cycle
break off for want of a level, and the next cycle needs all inputs but the data inputs of those
flip-flops whose clock input does not rise. -/
theorem unread_iff_needs (nodup : n.symbols.Nodup) (limit : Nat) :
    ((∃ d ∈ n.devices, ∃ pin ∈ d.floating, n.Needs d pin) →
      ∃ stall m, n.cycle limit = .error stall m) ∧
    (n.Proper →
      ((∃ m, n.cycle (limit + 1) = .error .unread m) ↔
        ∃ d ∈ n.devices, ∃ pin ∈ d.floating, n.Needs d pin) ∧
      ∀ d ∈ n.devices, ∀ pin ∈ d.floating, ¬ n.Needs d pin ↔
        d.kind = .flipFlop ∧ pin = n.vocabulary.flipFlop.data ∧
          n.stepSources.reads d.symbol n.vocabulary.flipFlop.clock ≠ some .rising) := by
  refine ⟨fun needed => ?_, fun proper =>
    ⟨⟨fun ⟨m, unread⟩ => needs_of_unread proper unread, unread_of_needs nodup⟩,
      fun d hd pin floats => not_needs_iff proper.vocabulary
        (proper.pins d.symbol d (device?_of_mem nodup hd)) (mem_floating_iff.mp floats).1⟩⟩
  cases limit with
  | zero =>
    cases latches : latchAll (n.stepSources.symbolsOf .flipFlop) n.stepSources with
    | error stall m => exact ⟨stall, m, cycle_error_iff.mpr (Or.inl latches)⟩
    | ok _ k => exact ⟨.restless, k, cycle_error_iff.mpr (Or.inr ⟨k, latches, rfl⟩)⟩
  | succ limit =>
    obtain ⟨m, unread⟩ := unread_of_needs nodup needed
    exact ⟨.unread, m, unread⟩

/-- A flip-flop without data, on a clock that rises in every fourth cycle. -/
def dataless : Netlist :=
  let t := SymbolTable.ofList Vocabulary.words
  let v := Vocabulary.ofTable t
  let declared := (Netlist.empty t).declareAll
    [(⟨40⟩, .switch, some 0, none), (⟨41⟩, .clock, some 2, none), (⟨42⟩, .flipFlop, none, none)]
  (declared.connectAll ⟨⟨40⟩, none⟩ [(⟨42⟩, v.flipFlop.set), (⟨42⟩, v.flipFlop.clear)]).connectAll
    ⟨⟨41⟩, none⟩ [(⟨42⟩, v.flipFlop.clock)]

theorem dataless_built : dataless.Built := by
  have known : ∀ w ∈ Vocabulary.words, w ∈ (SymbolTable.ofList Vocabulary.words).texts := by
    decide +kernel
  exact ⟨_, (Assembled.empty _ known).declareAll.connectAll.connectAll, SameLayout.refl _⟩

/-- Its first cycle completes, although an input is unwired. -/
theorem dataless_completes : dataless.Proper ∧ dataless.isWired = false ∧
    ∃ m, dataless.cycle 20 = .ok () m :=
  ⟨dataless_built.proper, by decide +kernel, _,
    EStateM.Result.eq_ok_of_isOk (by decide +kernel)⟩

/-- In its second cycle the clock rises, and the flip-flop has nothing to take over. -/
theorem dataless_stops : (dataless.cycle 20).state.Proper ∧
    ∃ m, (dataless.cycle 20).state.cycle 20 = .error .unread m := by
  have completes : dataless.cycle 20 = .ok () (dataless.cycle 20).state :=
    EStateM.Result.eq_ok_of_isOk (by decide +kernel)
  have proper := (sameLayout_cycle dataless_built.proper completes).proper dataless_built.proper
  refine ⟨proper, ((unread_iff_needs proper.nodup 19).2 proper).1.mpr ?_⟩
  have floats : ∃ d ∈ (dataless.cycle 20).state.devices, d.kind = .flipFlop ∧
      (dataless.cycle 20).state.vocabulary.flipFlop.data ∈ d.floating ∧
        (dataless.cycle 20).state.stepSources.reads d.symbol
          (dataless.cycle 20).state.vocabulary.flipFlop.clock = some .rising := by
    decide +kernel
  obtain ⟨d, hd, kind, floating, rises⟩ := floats
  exact ⟨d, hd, _, floating, Or.inr ⟨kind, Or.inr ⟨rfl, rises⟩⟩⟩

end Netlist

end LogicCircuit
