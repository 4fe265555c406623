import LogicCircuit.Circuit
import LogicCircuit.Description.MonitorEntry
import LogicCircuit.Proofs.Description.Drawing

/-!
The circuit that a description means: its devices as they are made, wired as it says, and a low
source for those inputs of flip-flops that it leaves out.
-/

namespace LogicCircuit.Description

open LogicCircuit (Device Circuit)

variable {t : SymbolTable} {es : List Declaration} {ws : List (Signal × Signal)} {s : Signal}
  {n : Netlist}

/-- The output of the low source. -/
def groundSignal : Signal :=
  ⟨groundName, none⟩

/-- The inputs of declared flip-flops that no wire ends at. -/
def looseInputs (es : List Declaration) (ws : List (Signal × Signal)) : List Signal :=
  (es.filter fun e => e.kind = .flipFlop).flatMap fun e =>
    (e.inputs.map fun pin => ⟨e.name, some pin⟩).filter fun s => s ∉ ws.map Prod.snd

theorem mem_looseInputs : s ∈ looseInputs es ws ↔ ∃ e ∈ es, e.kind = .flipFlop ∧
    ∃ pin ∈ e.inputs, s = ⟨e.name, some pin⟩ ∧ s ∉ ws.map Prod.snd := by
  simp only [looseInputs, List.mem_flatMap, List.mem_filter, List.mem_map, decide_eq_true_eq]
  constructor
  · intro h
    obtain ⟨e, ⟨he, kind⟩, ⟨pin, hp, eq⟩, free⟩ := h
    exact ⟨e, he, kind, pin, hp, eq.symm, free⟩
  · intro h
    obtain ⟨e, he, kind, pin, hp, eq, free⟩ := h
    exact ⟨e, ⟨he, kind⟩, ⟨pin, hp, eq.symm⟩, free⟩

namespace Document

def loose (d : Document) : List Signal :=
  looseInputs d.devices d.wires

/-- What drives an input: the source of the connection that lists it, or the low source. -/
def driver? (d : Document) (s : Signal) : Option Signal :=
  if s ∈ d.loose then some groundSignal else driverOf d.wires s

end Document

/-- The device is the declared one as it is made, with its inputs driven as told. -/
structure Shows (t : SymbolTable) (drives : Signal → Option Signal) (e : Declaration)
    (d : Device) : Prop where
  named : t.text? d.symbol = some e.name
  made : ∃ made, Device.make (Vocabulary.ofTable t) d.symbol e.kind e.numbers[0]? e.numbers[1]? =
    .ok made ∧ d.body = made.body ∧ d.outputs = made.outputs ∧ d.inputs.keys = made.inputs.keys
  inputs : ∀ k, k ∈ d.inputs.keys ↔ ∃ pin ∈ e.inputs, k = t.symbol pin
  driver : ∀ pin ∈ e.inputs,
    d.driver? (t.symbol pin) = (drives ⟨e.name, some pin⟩).map (Signal.terminal t)

/-- The circuit is the one that the description means, before its first cycle. -/
structure Realises (d : Document) (c : Circuit) : Prop where
  /-- The pins have the symbols of their names. -/
  words : ∀ w ∈ Vocabulary.words, w ∈ c.symbols.texts
  ground : d.loose ≠ [] → groundName ∈ c.symbols.texts
  devices : ∃ declared, List.Forall₂ (Shows c.symbols d.driver?) d.devices declared ∧
    c.netlist.devices = declared ++
      if d.loose = [] then [] else [Device.newSwitch (c.symbols.symbol groundName) .low]
  monitors : c.monitors = monitorsOf c.symbols d.monitors
  cycles : c.cycles = 0

end LogicCircuit.Description
