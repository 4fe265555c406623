import LogicCircuit.Proofs.Circuit.Run
import LogicCircuit.Proofs.Netlist.Part

/-!
Devices that drive nothing in a part of a circuit have no part in what it does, unless they keep the
whole from settling.
-/

namespace LogicCircuit.Circuit

variable {a b b' : Circuit} {names : List Symbol} {cycles : Nat}

/-- The first circuit is a part of the second one, with the same limit, and on its own outputs the
same has been recorded. -/
structure Inside (names : List Symbol) (a b : Circuit) : Prop where
  symbols : a.netlist.symbols = names
  part : a.netlist.Part b.netlist
  limit : a.limit = b.limit
  traces : Monitors.Agree (fun out => out.device ∈ names) a.monitors b.monitors

theorem Inside.cycle (h : Inside names a b) (run : cycle b = .ok () b') :
    ∃ a', cycle a = .ok () a' ∧ Inside names a' b' := by
  obtain ⟨m, completed, rfl⟩ := cycle_ok_iff.mp run
  rw [← h.limit] at completed
  obtain ⟨n, completed', part⟩ := h.part.cycle completed
  have symbols := (Netlist.frame_cycle completed').2.trans h.symbols
  refine ⟨_, cycle_ok_iff.mpr ⟨n, completed', rfl⟩, symbols, part, h.limit, ?_⟩
  exact h.traces.record fun out known => (part.level? (symbols.symm ▸ known)).symm

theorem inside_started (part : a.netlist.Part b.netlist) (limit : a.limit = b.limit) :
    Inside a.netlist.symbols a.started b.started := by
  refine ⟨Netlist.symbols_started a.netlist, part.started, limit, Monitors.agree_reset _ _ _⟩

/-- If a circuit runs for a number of cycles, then so does every part of it that nothing outside
drives, with the same limit. After each cycle the devices of the part are in the same state, and
their outputs have the same traces. -/
theorem run_part (part : a.netlist.Part b.netlist) (limit : a.limit = b.limit)
    (whole : run cycles b = .ok () b') :
    ∀ k ≤ cycles, ∃ a'' b'', run k a = .ok () a'' ∧ run k b = .ok () b'' ∧
      (∀ s ∈ a.netlist.symbols, a''.netlist.device? s = b''.netlist.device? s) ∧
      ∀ out, out.device ∈ a.netlist.symbols → a.monitors.watches out = true →
        b.monitors.watches out = true →
        ∃ trace, a''.monitors.trace? out = some trace ∧ b''.monitors.trace? out = some trace := by
  intro k hk
  obtain ⟨a'', b'', run, run', inside⟩ := exists_resume
    (R := fun _ => Inside a.netlist.symbols) (fun _ _ _ _ h run => h.cycle run)
    (inside_started part limit) whole k hk
  refine ⟨a'', b'', run, run', fun s member => ?_, fun out member watched watched' => ?_⟩
  · exact (inside.part.device? (inside.symbols.symm ▸ member)).symm
  · rw [Monitors.watches_iff] at watched watched'
    refine inside.traces.exists_trace member ?_ ?_
    · rw [outputs_run run]
      exact watched
    · rw [outputs_run run']
      exact watched'

/-- The devices of `crossCoupled` between two gates that read them and drive each other only. -/
def observed : Netlist :=
  let v := Vocabulary.ofTable (SymbolTable.ofList Vocabulary.words)
  let input (i : Nat) : Symbol := v.gateInputs.getD i ⟨0⟩
  { vocabulary := v
    devices := ((Device.newGate v ⟨44⟩ .nand 2).wired (input 0) ⟨⟨45⟩, none⟩).wired (input 1)
        ⟨⟨42⟩, none⟩ ::
      (Netlist.crossCoupled.devices ++ [((Device.newGate v ⟨45⟩ .and 2).wired (input 0)
        ⟨⟨41⟩, none⟩).wired (input 1) ⟨⟨43⟩, some v.flipFlop.q⟩]) }

theorem crossCoupled_part : Netlist.crossCoupled.Part observed := by
  have inside : ∀ d ∈ Netlist.crossCoupled.devices, ∀ pin ∈ d.inputs.keys,
      ∀ output ∈ d.driver? pin, output.device ∈ Netlist.crossCoupled.symbols := by
    decide +kernel
  refine ⟨rfl, by decide +kernel, (List.sublist_append_left _ _).cons _, ?_⟩
  exact fun d hd pin output drives => inside d hd pin (Device.mem_keys_of_driver? drives) output drives

theorem crossCoupled_observed : ∃ a b,
    run 6 (watching Netlist.crossCoupled ⟨⟨42⟩, none⟩) = .ok () a ∧
    run 6 (watching observed ⟨⟨42⟩, none⟩) = .ok () b ∧
    (∀ s ∈ Netlist.crossCoupled.symbols, a.netlist.device? s = b.netlist.device? s) ∧ ∃ trace,
      a.monitors.trace? ⟨⟨42⟩, none⟩ = some trace ∧ b.monitors.trace? ⟨⟨42⟩, none⟩ = some trace := by
  have whole : (run 6 (watching observed ⟨⟨42⟩, none⟩)).isOk = true := by decide +kernel
  obtain ⟨_, b', whole⟩ := EStateM.Result.exists_of_isOk whole
  obtain ⟨a, b, run, run', devices, traces⟩ := run_part
    (a := watching Netlist.crossCoupled ⟨⟨42⟩, none⟩)
    (by rw [netlist_watching, netlist_watching]; exact crossCoupled_part)
    (by rw [limit_watching, limit_watching]) whole 6 le_rfl
  rw [netlist_watching] at devices traces
  exact ⟨a, b, run, run', devices, traces _ (by decide) (watches_watching _ _)
    (watches_watching _ _)⟩

end LogicCircuit.Circuit
