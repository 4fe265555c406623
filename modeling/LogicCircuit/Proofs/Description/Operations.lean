import LogicCircuit.Proofs.Circuit.Forgetting
import LogicCircuit.Proofs.Circuit.History
import LogicCircuit.Proofs.Description.Oscillation

/-!
Compiled circuits in use: a run forgets what was done before it, and the traces keep step with the
cycles.
-/

namespace LogicCircuit.Description

open LogicCircuit (Circuit Device Netlist)
open LogicCircuit.Circuit (Call Operation SameSetup History Timely Tracks Aligned)

variable {source : String} {compiled : Compiled} {c : Circuit} {d : Document} {e : Declaration}
  {dev : Device} {t : SymbolTable} {drives : Signal → Option Signal} {limit : Nat}

/-- What was done to a compiled circuit can be done again, without the runs, on the circuit as it was
compiled; and whatever leaves the switches in the same settings and the same outputs under watch,
each run then has the same result and leaves the same circuit. -/
theorem run_after_operations (run : compileInto source (Circuit.empty limit) = .ok compiled)
    (ops : List Operation) :
    SameSetup (compiled.circuit.afterAll ops)
      (compiled.circuit.afterAll (ops.filter Operation.isSetup)) ∧
    ∀ others, SameSetup (compiled.circuit.afterAll ops) (compiled.circuit.afterAll others) →
      ∀ cycles, Circuit.run cycles (compiled.circuit.afterAll ops) =
        Circuit.run cycles (compiled.circuit.afterAll others) := by
  have proper := proper_compileInto run
  refine ⟨?_, fun others same cycles => ?_⟩
  · exact Circuit.sameSetup_of_started (Circuit.started_afterAll proper proper rfl)
  · exact Circuit.run_congr (Circuit.started_of_sameSetup proper same) cycles

/-- A gate that inverts its own output while a switch is on. -/
def gatedText : String :=
  "DEVICES S = SWITCH, 0; N = NAND, 2; CONNECT S -> N.I1; N -> N.I2; MONITOR N; END"

/-- The switch comes under watch late and is set to let the gate oscillate for a while. -/
def lateWatch (c : Circuit) : List Operation :=
  [.call (.run 2), .watch ⟨c.symbols.symbol "S", none⟩ 2, .call (.resume 1),
    .call (.setSwitch "S" true), .call (.resume 3), .call (.setSwitch "S" false)]

theorem gatedText_forgets : ∃ compiled, compileInto gatedText (Circuit.empty 4) = .ok compiled ∧
    compiled.isOk = true ∧ ∀ cycles,
      Circuit.run cycles (compiled.circuit.afterAll (lateWatch compiled.circuit)) =
        Circuit.run cycles (compiled.circuit.afterAll
          [.watch ⟨compiled.circuit.symbols.symbol "S", none⟩ 2, .call (.setSwitch "S" true),
            .call (.setSwitch "S" false)]) := by
  have accepted : (compileInto gatedText (Circuit.empty 4)).toOption.any Compiled.isOk = true := by
    decide +kernel
  obtain ⟨compiled, run, ok⟩ := exists_of_any accepted
  obtain ⟨same, alike⟩ := run_after_operations run (lateWatch compiled.circuit)
  exact ⟨compiled, run, ok, alike _ same⟩

theorem Shows.definite (h : Shows t drives e dev) : dev.Definite := by
  obtain ⟨made, makes, body, outputs, -⟩ := h.makes
  obtain ⟨lit, setting, memory⟩ := Device.Made.definite makes
  exact ⟨outputs ▸ lit, body ▸ setting, body ▸ memory⟩

/-- The monitors of a circuit that compiled without problems start with the history. -/
theorem tracks_compiled (wf : d.WellFormed) (realises : Realises d c) (proper : c.netlist.Proper) :
    Tracks c.netlist History.none c := by
  refine ⟨?_, realises.hasOutput wf proper, ⟨Netlist.SameLayout.refl _, fun dev hd => ?_⟩,
    by simp [History.none], realises.cycles.symm, ?_⟩
  · rw [realises.monitors, monitorsOf, List.map_map]
    refine wf.watched.map_on fun s hs s' _ eq => ?_
    obtain ⟨e, he, name, shown⟩ := wf.monitors s hs
    obtain ⟨dev, -, shows⟩ := realises.exists_device? proper he
    have known : s.Known c.symbols :=
      ⟨name ▸ shows.symbol.1, fun pin hp => realises.words pin (outputs_words e pin (hp ▸ shown))⟩
    exact (Signal.terminal_inj known).mp eq
  · obtain ⟨e, -, shows⟩ | ⟨-, rfl⟩ := realises.device_cases hd
    · exact shows.definite
    · exact Device.definite_newSwitch _ (by decide)
  · rw [realises.monitors, monitorsOf, List.forall_mem_map]
    exact fun s _ => ⟨Nat.le_refl 0, rfl⟩

/-- Whatever is done to a circuit that compiled without problems, its traces keep step with the
cycles, if outputs come under watch with the present count of cycles. -/
theorem aligned_after_operations (run : compileInto source (Circuit.empty limit) = .ok compiled)
    (ok : compiled.isOk = true) (ops : List Operation) (timely : Timely compiled.circuit ops) :
    Aligned compiled.circuit ops (History.none.after compiled.circuit ops)
      (compiled.circuit.afterAll ops) := by
  obtain ⟨-, -, d, wf, -, realises⟩ := exists_document_into run ok
  have proper := proper_compileInto run
  exact Circuit.aligned_of_tracks ((tracks_compiled wf realises proper).after proper timely)

theorem gatedText_aligned : ∃ compiled, compileInto gatedText (Circuit.empty 4) = .ok compiled ∧
    compiled.isOk = true ∧
    (compiled.circuit.afterAll (lateWatch compiled.circuit)).monitors.map Monitor.trace =
      [[.high, .high, .high], [.blank, .blank, .low]] ∧
    Timely compiled.circuit (lateWatch compiled.circuit) ∧
    Aligned compiled.circuit (lateWatch compiled.circuit)
      (History.none.after compiled.circuit (lateWatch compiled.circuit))
      (compiled.circuit.afterAll (lateWatch compiled.circuit)) := by
  have accepted : (compileInto gatedText (Circuit.empty 4)).toOption.any (fun compiled =>
      compiled.isOk && ((Call.run 2).apply compiled.circuit).cycles == 2 &&
        (compiled.circuit.afterAll (lateWatch compiled.circuit)).monitors.map Monitor.trace ==
          [[.high, .high, .high], [.blank, .blank, .low]]) = true := by
    decide +kernel
  obtain ⟨compiled, run, accepted⟩ := exists_of_any accepted
  simp only [Bool.and_eq_true, beq_iff_eq] at accepted
  obtain ⟨⟨ok, two⟩, traces⟩ := accepted
  have timely : Timely compiled.circuit (lateWatch compiled.circuit) :=
    ⟨trivial, two.symm, trivial, trivial, trivial, trivial, trivial⟩
  exact ⟨compiled, run, ok, traces, timely, aligned_after_operations run ok _ timely⟩

end LogicCircuit.Description
