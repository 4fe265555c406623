import LogicCircuit.Netlist.Connect
import LogicCircuit.Proofs.Netlist.Settling
import LogicCircuit.Proofs.Vocabulary

/-!
A cycle that completes ends in a fixed point: all equations of gates and flip-flops hold at once,
whatever the wiring.
-/

namespace LogicCircuit.Netlist

variable {n m : Netlist} {s : Symbol} {limit : Nat}

theorem latch_ok {n m : Netlist} (h : latch s n = .ok () m) : m = n ∨
    ∃ level : Level, n.reads s n.vocabulary.flipFlop.data = some level ∧
      m = n.update s (Device.remembering level.settled) := by
  rw [latch] at h
  split at h
  · cases h
  · split at h
    · cases h
    · next level read =>
      simp only [EStateM.Result.ok.injEq, true_and] at h
      exact Or.inr ⟨level, read, h.symm⟩
  · simp only [EStateM.Result.ok.injEq, true_and] at h
    exact Or.inl h.symm

theorem symbol_remembering (level : Level) (d : Device) :
    (d.remembering level).symbol = d.symbol := by
  rw [Device.remembering]
  split <;> rfl

theorem latchAll_cons_ok_iff {rest : List Symbol} : latchAll (s :: rest) n = .ok () m ↔
    ∃ k, latch s n = .ok () k ∧ latchAll rest k = .ok () m :=
  EStateM.seq_ok_iff

theorem frame_latch (h : latch s n = .ok () m) :
    m.vocabulary = n.vocabulary ∧ m.symbols = n.symbols := by
  obtain same | ⟨level, -, update⟩ := latch_ok h
  · rw [same]
    exact ⟨rfl, rfl⟩
  · rw [update]
    exact ⟨rfl, symbols_update n fun d name => (symbol_remembering _ d).trans name⟩

theorem frame_latchAll {names : List Symbol} (h : latchAll names n = .ok () m) :
    m.vocabulary = n.vocabulary ∧ m.symbols = n.symbols := by
  induction names generalizing n with
  | nil =>
    obtain ⟨-, same⟩ := EStateM.pure_ok_iff.mp h
    rw [same]
    exact ⟨rfl, rfl⟩
  | cons s rest ih =>
    obtain ⟨k, first, later⟩ := latchAll_cons_ok_iff.mp h
    have head := frame_latch first
    have tail := ih later
    exact ⟨tail.1.trans head.1, tail.2.trans head.2⟩

theorem symbol_stepped (d : Device) : d.stepped.symbol = d.symbol := by
  rw [Device.stepped]
  cases d.body <;> simp only [apply_ite Device.symbol, ite_self]

theorem symbols_stepSources (n : Netlist) : n.stepSources.symbols = n.symbols :=
  symbols_map symbol_stepped

theorem cycle_ok_iff : n.cycle limit = .ok () m ↔
    ∃ k, latchAll (n.stepSources.symbolsOf .flipFlop) n.stepSources = .ok () k ∧
      settle k.symbols limit k = .ok () m := by
  change (latchAll (n.stepSources.symbolsOf .flipFlop) >>= fun _ => do
    settle (← get).symbols limit) n.stepSources = _ ↔ _
  exact EStateM.seq_ok_iff

theorem cycle_error_iff {stall : Stall} : n.cycle limit = .error stall m ↔
    latchAll (n.stepSources.symbolsOf .flipFlop) n.stepSources = .error stall m ∨
      ∃ k, latchAll (n.stepSources.symbolsOf .flipFlop) n.stepSources = .ok () k ∧
        settle k.symbols limit k = .error stall m := by
  change (latchAll (n.stepSources.symbolsOf .flipFlop) >>= fun _ => do
    settle (← get).symbols limit) n.stepSources = _ ↔ _
  rw [EStateM.bind_error_iff]
  exact or_congr_right ⟨fun ⟨_, k, h⟩ => ⟨k, h⟩, fun ⟨k, h⟩ => ⟨(), k, h⟩⟩

theorem frame_cycle (h : n.cycle limit = .ok () m) :
    m.vocabulary = n.vocabulary ∧ m.symbols = n.symbols := by
  obtain ⟨k, latched, settles⟩ := cycle_ok_iff.mp h
  have start := frame_latchAll latched
  have frame := frame_settle settles
  refine ⟨frame.1.trans start.1, ?_⟩
  rw [frame.2, start.2, symbols_stepSources]

/-- The equations of a netlist, and that one more pass over it changes nothing. -/
structure Settled (n : Netlist) : Prop where
  gate : ∀ d ∈ n.devices, ∀ g, d.body = .gate g → ∃ levels,
    d.inputs.keys.map (n.reads d.symbol) = levels.map some ∧
      d.outputs.get? none = some (g.combine levels)
  flipFlop : ∀ d ∈ n.devices, ∀ memory, d.body = .flipFlop memory → ∃ set clear,
    n.reads d.symbol n.vocabulary.flipFlop.set = some set ∧
    n.reads d.symbol n.vocabulary.flipFlop.clear = some clear ∧
    d.outputs.get? (some n.vocabulary.flipFlop.q) = some memory ∧
    d.outputs.get? (some n.vocabulary.flipFlop.qbar) = some memory.inverted ∧
    (set.isHigh = true → memory = .high) ∧
    (set.isHigh = false → clear.isHigh = true → memory = .low)
  still : sweep n.symbols n = .ok true n

theorem reads_of_device? {d : Device} (found : n.device? s = some d) :
    n.reads s = d.reads n.level? := by
  funext pin
  rw [reads, driver?, found, Option.bind_some, Device.reads]

theorem settled_of_rests (nodup : n.symbols.Nodup) (proper : n.vocabulary.IsProper)
    (h : ∀ s ∈ n.symbols, n.Rests s) : n.Settled := by
  have rest (d : Device) (hd : d ∈ n.devices) :
      d.respond n.vocabulary.flipFlop n.level? = some d ∧
        n.reads d.symbol = d.reads n.level? := by
    obtain ⟨e, found, answer⟩ := h d.symbol (List.mem_map_of_mem hd)
    have same : e = d := Option.some.inj (found.symm.trans (device?_of_mem nodup hd))
    rw [same] at found answer
    exact ⟨answer, reads_of_device? found⟩
  refine ⟨fun d hd g body => ?_, fun d hd memory body => ?_, sweep_of_rests h⟩
  · obtain ⟨answer, reads⟩ := rest d hd
    obtain ⟨levels, inputs, eq⟩ := (Device.respond_gate_iff body).mp answer
    refine ⟨levels, by rw [reads, inputs], ?_⟩
    rw [eq]
    exact PinMap.get?_insert_self _ _ _
  · obtain ⟨answer, reads⟩ := rest d hd
    obtain ⟨set, clear, hs, hc, eq⟩ := (Device.respond_flipFlop_iff body).mp answer
    have held : memory = Level.preset set clear memory := by
      have := congrArg Device.body eq
      rw [body] at this
      exact Body.flipFlop.inj this
    have other : some n.vocabulary.flipFlop.q ≠ some n.vocabulary.flipFlop.qbar :=
      fun eq => proper.q_ne_qbar (Option.some.inj eq)
    refine ⟨set, clear, by rw [reads, hs], by rw [reads, hc], ?_, ?_, fun high => ?_,
      fun low high => ?_⟩
    · rw [eq, PinMap.get?_insert_of_ne _ _ other, PinMap.get?_insert_self, ← held]
    · rw [eq, PinMap.get?_insert_self, ← held]
    · rw [held, Level.preset, if_pos high]
    · rw [held, Level.preset, if_neg (by simp [low]), if_pos high]

/-- A completed cycle leaves a netlist settled, from every state and under every wiring. -/
theorem settled_of_cycle (nodup : n.symbols.Nodup) (proper : n.vocabulary.IsProper)
    (h : n.cycle limit = .ok () m) : m.Settled := by
  obtain ⟨k, latched, settles⟩ := cycle_ok_iff.mp h
  have start := frame_latchAll latched
  have frame := frame_settle settles
  have names : k.symbols.Nodup := by
    rw [start.2, symbols_stepSources]
    exact nodup
  refine settled_of_rests (frame.2 ▸ names) ?_ (frame.2 ▸ rests_of_settle names settles)
  rw [frame.1, start.1]
  exact proper

/-- Two gates that drive each other, one of which also drives all inputs of a flip-flop. -/
def crossCoupled : Netlist :=
  let v := Vocabulary.ofTable (SymbolTable.ofList Vocabulary.words)
  let input (i : Nat) : Symbol := v.gateInputs.getD i ⟨0⟩
  let output (i : Nat) : Terminal := ⟨⟨40 + i⟩, none⟩
  { vocabulary := v
    devices := [
      Device.fresh v.flipFlop ⟨40⟩ (.clock 1 0) [],
      ((Device.newGate v ⟨41⟩ .nor 2).wired (input 0) (output 0)).wired (input 1) (output 2),
      ((Device.newGate v ⟨42⟩ .nor 2).wired (input 0) (output 1)).wired (input 1)
        ⟨⟨43⟩, some v.flipFlop.q⟩,
      v.flipFlop.inputs.foldl (fun d pin => d.wired pin (output 2))
        (Device.fresh v.flipFlop ⟨43⟩ (.flipFlop .low) v.flipFlop.inputs)] }

theorem crossCoupled_settles : ∃ m, crossCoupled.cycle 20 = .ok () m ∧ m.Settled := by
  have completes : (crossCoupled.cycle 20).isOk = true := by decide +kernel
  obtain ⟨_, m, h⟩ := EStateM.Result.exists_of_isOk completes
  exact ⟨m, h, settled_of_cycle (by decide) (Vocabulary.isProper_ofTable (by decide +kernel)) h⟩

end LogicCircuit.Netlist
