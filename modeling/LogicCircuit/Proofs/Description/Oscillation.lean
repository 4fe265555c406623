import LogicCircuit.Proofs.Circuit.Oscillation
import LogicCircuit.Proofs.Description.GroundSwitch

/-!
In a circuit that is compiled without problems nothing is missing that a run looks up, whatever was
done to it, so that all that a run can report is a cycle that does not settle.
-/

namespace LogicCircuit

namespace Netlist

variable {n m : Netlist} {t : SymbolTable}

/-- Devices and pins have names in the table. -/
structure Named (t : SymbolTable) (n : Netlist) : Prop where
  devices : ∀ d ∈ n.devices, (t.text? d.symbol).isSome = true
  inputs : ∀ d ∈ n.devices, ∀ pin ∈ d.inputs.keys, (t.text? pin).isSome = true
  outputs : ∀ d ∈ n.devices, ∀ pin, some pin ∈ d.outputs.keys → (t.text? pin).isSome = true

theorem SameLayout.named (h : n.SameLayout m) (named : n.Named t) : m.Named t := by
  have before {d : Device} (hd : d ∈ m.devices) : ∃ e ∈ n.devices, d.symbol = e.symbol ∧
      d.inputs = e.inputs ∧ d.outputs.keys = e.outputs.keys := by
    obtain ⟨e, he, same⟩ := h.symm.exists_mem hd
    simp only [Device.layout, Layout.mk.injEq] at same
    exact ⟨e, he, same.1, same.2.2⟩
  refine ⟨fun d hd => ?_, fun d hd pin known => ?_, fun d hd pin known => ?_⟩
  all_goals
    obtain ⟨e, he, symbol, inputs, outputs⟩ := before hd
  · rw [symbol]
    exact named.devices e he
  · rw [inputs] at known
    exact named.inputs e he pin known
  · rw [outputs] at known
    exact named.outputs e he pin known

theorem Named.output {out : Terminal} (h : n.Named t) (known : n.HasOutput out) :
    (t.text? out.device).isSome = true ∧ ∀ pin ∈ out.pin, (t.text? pin).isSome = true := by
  obtain ⟨d, found, shown⟩ := known
  have member := mem_of_device? found
  refine ⟨symbol_of_device? found ▸ h.devices d member, fun pin hp => ?_⟩
  exact h.outputs d member pin (hp ▸ shown)

end Netlist

namespace Circuit

/-- Nothing is missing that a run, a listing or a drawing looks up. -/
structure Complete (c : Circuit) : Prop where
  wired : c.netlist.isWired = true
  reads : ∀ d ∈ c.netlist.devices, ∀ pin ∈ d.inputs.keys,
    ∃ level, c.netlist.reads d.symbol pin = some level
  named : c.netlist.Named c.symbols
  monitors : ∀ m ∈ c.monitors, (c.symbols.text? m.output.device).isSome = true ∧
    ∀ pin ∈ m.output.pin, (c.symbols.text? pin).isSome = true

end Circuit

namespace Description

open LogicCircuit (Circuit Device Netlist)
open LogicCircuit.Circuit (Call)

variable {source : String} {compiled : Compiled} {c : Circuit} {d : Document} {e : Declaration}
  {dev : Device} {t : SymbolTable} {drives : Signal → Option Signal} {limit : Nat}

theorem Document.WellFormed.exists_driver? (wf : d.WellFormed) (he : e ∈ d.devices) {pin : String}
    (hp : pin ∈ e.inputs) : ∃ s, d.driver? ⟨e.name, some pin⟩ = some s := by
  rw [Document.driver?]
  split
  · exact ⟨groundSignal, rfl⟩
  · next tied =>
    by_contra none
    have free : ⟨e.name, some pin⟩ ∉ d.wires.map Prod.snd := by
      rw [← driverOf_eq_none_iff, Option.eq_none_iff_forall_ne_some]
      exact fun s eq => none ⟨s, eq⟩
    by_cases kind : e.kind = .flipFlop
    · exact tied (mem_looseInputs.mpr ⟨e, he, kind, pin, hp, rfl, free⟩)
    · exact free (wf.complete e he kind pin hp)

section
variable (realises : Realises d c)
include realises

theorem Realises.isWired (wf : d.WellFormed) : c.netlist.isWired = true := by
  refine Netlist.isWired_iff.mpr fun dev hd pin known => ?_
  obtain ⟨e, he, shows⟩ | ⟨-, rfl⟩ := realises.device_cases hd
  · obtain ⟨p, hp, rfl⟩ := (shows.inputs pin).mp known
    obtain ⟨s, drives⟩ := wf.exists_driver? he hp
    exact ⟨s.terminal c.symbols, by rw [shows.driver p hp, drives, Option.map_some]⟩
  · cases known

theorem Realises.named : c.netlist.Named c.symbols := by
  have word {w : String} (h : w ∈ Vocabulary.words) :
      (c.symbols.text? (c.symbols.symbol w)).isSome = true := by
    rw [SymbolTable.text?_symbol (realises.words w h)]
    rfl
  refine ⟨fun dev hd => ?_, fun dev hd pin known => ?_, fun dev hd pin known => ?_⟩
  all_goals
    obtain ⟨e, he, shows⟩ | ⟨loose, rfl⟩ := realises.device_cases hd
  · rw [shows.named]
    rfl
  · rw [Device.newSwitch, SymbolTable.text?_symbol (realises.ground loose)]
    rfl
  · obtain ⟨made, makes, -⟩ := shows.makes
    obtain ⟨p, hp, rfl⟩ := (shows.inputs pin).mp known
    exact word (makes.inputs_words p hp)
  · cases known
  · obtain ⟨made, makes, -, outputs, -⟩ := shows.makes
    rw [outputs] at known
    obtain ⟨p, hp, eq⟩ := makes.mem_outputs.mp known
    obtain ⟨w, rfl, rfl⟩ := Option.map_eq_some_iff.mp eq.symm
    exact word (outputs_words e w hp)
  · obtain unnamed | none := PinMap.mem_keys_insert.mp known
    · cases unnamed
    · cases none

/-- The outputs under watch are those that the description lists. -/
theorem Realises.hasOutput (wf : d.WellFormed) (proper : c.netlist.Proper) :
    ∀ out ∈ c.monitors.map Monitor.output, c.netlist.HasOutput out := by
  rw [realises.monitors, monitorsOf, List.map_map, List.forall_mem_map]
  intro s hs
  obtain ⟨e, he, name, shown⟩ := wf.monitors s hs
  obtain ⟨dev, found, shows⟩ := realises.exists_device? proper he
  obtain ⟨made, makes, -, outputs, -⟩ := shows.makes
  rw [name] at found
  exact ⟨dev, found, outputs ▸ makes.mem_outputs.mpr ⟨s.pin, shown, rfl⟩⟩

end

theorem complete_after (wf : d.WellFormed) (realises : Realises d c)
    (proper : c.netlist.Proper) (calls : List Call) : (c.after calls).Complete := by
  obtain ⟨symbols, same⟩ := Circuit.sameLayout_after proper calls
  have proper' := same.proper proper
  have wired := same.isWired (realises.isWired wf)
  have named := same.named realises.named
  refine ⟨wired, fun dev hd pin known => ?_, symbols ▸ named, fun m hm => ?_⟩
  · have found := Netlist.device?_of_mem proper'.nodup hd
    rw [Netlist.reads_of_device? found]
    exact Netlist.exists_reads proper' wired found known
  · have watched : m.output ∈ c.monitors.map Monitor.output := by
      rw [← (Circuit.after_frame c calls).2]
      exact List.mem_map_of_mem hm
    rw [symbols]
    exact named.output (same.hasOutput (realises.hasOutput wf proper _ watched))

/-- After all calls on a circuit that compiled without problems, with whatever limit, all lookups
find something, and a run breaks off only because the cycle after the reported ones does not
settle. -/
theorem oscillation_after_calls
    (run : compileInto source (Circuit.empty limit) = .ok compiled)
    (ok : compiled.isOk = true) (calls : List Call) :
    (compiled.circuit.after calls).Complete ∧
      ∀ cycles o c',
        (Circuit.run cycles (compiled.circuit.after calls) = .error o c' → o.cycle < cycles ∧
          ∃ before, Circuit.run o.cycle (compiled.circuit.after calls) = .ok () before ∧
            before.netlist.Unsettled limit c'.netlist) ∧
        (Circuit.resume cycles (compiled.circuit.after calls) = .error o c' →
          ∃ done before, done < cycles ∧
            Circuit.resume done (compiled.circuit.after calls) = .ok () before ∧
            o.cycle = (compiled.circuit.after calls).cycles + done ∧
            before.netlist.Unsettled limit c'.netlist) := by
  obtain ⟨-, same_limit, d, wf, -, realises⟩ := exists_document_into run ok
  have start := proper_compileInto run
  have complete := complete_after wf realises start calls
  have proper := (Circuit.sameLayout_after start calls).2.proper start
  have limit_eq := (Circuit.after_frame compiled.circuit calls).1.trans same_limit
  refine ⟨complete, fun cycles o c' => ⟨fun broke => ?_, fun broke => ?_⟩⟩
  · have cold := Netlist.sameLayout_started proper
    obtain ⟨done, before, early, first, at_cycle, unsettled⟩ := Circuit.exists_unsettled
      (c := (compiled.circuit.after calls).started) (cold.proper proper)
      (cold.isWired complete.wired) broke
    have count : o.cycle = done := at_cycle.trans (Nat.zero_add done)
    refine ⟨count ▸ early, before, count ▸ first, ?_⟩
    rwa [← limit_eq]
  · rw [← limit_eq]
    exact Circuit.exists_unsettled proper complete.wired broke

/-- A gate that inverts its own output. -/
def loopText : String :=
  "DEVICES N = NAND, 1; CONNECT N -> N.I1; MONITOR N; END"

theorem loopText_oscillates : ∃ compiled, compileInto loopText (Circuit.empty 3) = .ok compiled ∧
    compiled.isOk = true ∧ (compiled.circuit.after [.resume 2]).Complete ∧
      ∃ c' before, Circuit.run 2 (compiled.circuit.after [.resume 2]) = .error ⟨0⟩ c' ∧
        Circuit.run 0 (compiled.circuit.after [.resume 2]) = .ok () before ∧
        before.netlist.Unsettled 3 c'.netlist := by
  have accepted : (compileInto loopText (Circuit.empty 3)).toOption.any (fun compiled =>
      compiled.isOk && ((compiled.circuit.after [.resume 2]).started.course 2).isEmpty) = true := by
    decide +kernel
  obtain ⟨compiled, run, accepted⟩ := exists_of_any accepted
  obtain ⟨ok, stalled⟩ := Bool.and_eq_true_iff.mp accepted
  obtain ⟨complete, breaks⟩ := oscillation_after_calls run ok [.resume 2]
  have none : (compiled.circuit.after [.resume 2]).started.course 2 = [] :=
    List.isEmpty_iff.mp stalled
  have broke : Circuit.run 2 (compiled.circuit.after [.resume 2]) = .error ⟨0⟩ _ :=
    Circuit.resume_error_iff.mpr ⟨by rw [none]; decide, by rw [none]; rfl, rfl⟩
  obtain ⟨-, before, first, unsettled⟩ := (breaks 2 ⟨0⟩ _).1 broke
  exact ⟨compiled, run, ok, complete, _, before, broke, first, unsettled⟩

end Description

end LogicCircuit
