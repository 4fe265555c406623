import LogicCircuit.Proofs.Circuit.Listing
import LogicCircuit.Proofs.Description.Display

/-!
The lists of names of compiled circuits in use. No name has a dot in it, so that the dot before a
pin is the only one, and what is shown of an output tells the device and the pin.
-/

namespace LogicCircuit

/-- The names under which the outputs of a device are shown. -/
def Kind.outputTexts (name : String) : Kind → List String
  | flipFlop => [name ++ ".Q", name ++ ".QBAR"]
  | gate _ | clock | switch | generator => [name]

/-- The device is shown under its name, and a flip-flop with its pins. -/
structure Device.ShownAs (t : SymbolTable) (n : Netlist) (d : Device) (name : String) : Prop where
  named : t.text? d.symbol = some name
  outputs : ∀ pin ∈ d.outputs.keys, n.HasOutput ⟨d.symbol, pin⟩
  texts : ∀ text, text ∈ d.kind.outputTexts name ↔
    ∃ pin ∈ d.outputs.keys, n.outputText? t ⟨d.symbol, pin⟩ = some text

namespace Netlist

variable {n m : Netlist} {t : SymbolTable} {d e : Device} {name : String}

theorem SameLayout.labelled (h : n.SameLayout m) (labelled : Monitors.Labelled t n) :
    Monitors.Labelled t m where
  named out known := by
    rw [h.outputText? (h.symm.hasOutput known)]
    exact labelled.named out (h.symm.hasOutput known)
  apart out out' known known' same := by
    rw [h.outputText? (h.symm.hasOutput known), h.outputText? (h.symm.hasOutput known')] at same
    exact labelled.apart out out' (h.symm.hasOutput known) (h.symm.hasOutput known') same

theorem SameLayout.shownAs (h : n.SameLayout m) (same : d.layout = e.layout)
    (shown : d.ShownAs t n name) : e.ShownAs t m name := by
  obtain ⟨named, outputs, texts⟩ := shown
  simp only [Device.layout, Layout.mk.injEq] at same
  obtain ⟨symbol, kind, -, keys⟩ := same
  rw [symbol] at named outputs texts
  rw [keys] at outputs texts
  rw [kind] at texts
  refine ⟨named, fun pin hp => h.hasOutput (outputs pin hp), fun text => ?_⟩
  rw [texts]
  refine exists_congr fun pin => and_congr_right fun hp => ?_
  rw [h.outputText? (outputs pin hp)]

end Netlist

namespace Description

open LogicCircuit (Circuit Device Netlist)
open LogicCircuit.Circuit (Operation)
open LogicCircuit.Monitors (Labelled Divides)
open LogicCircuit.Text

variable {source : String} {c : Circuit} {d : Document} {e : Declaration} {s s' : Signal}
  {dev : Device} {name : String}

theorem Declaration.map_text_outputs (e : Declaration) :
    e.outputs.map (fun pin => Signal.text ⟨e.name, pin⟩) = e.kind.outputTexts e.name := by
  obtain ⟨name, kind, numbers⟩ := e
  cases kind with
  | flipFlop =>
    simp only [outputs, List.map_cons, List.map_nil, Signal.text, Kind.outputTexts,
      String.append_assoc]
    rfl
  | _ => rfl

/-- Neither the device nor the pin has a dot in its name. -/
structure Signal.IsSplit (s : Signal) : Prop where
  device : '.' ∉ s.device.toList
  pin : ∀ p ∈ s.pin, '.' ∉ p.toList

theorem Signal.text_inj (split : s.IsSplit) (split' : s'.IsSplit) (same : s.text = s'.text) :
    s = s' := by
  obtain ⟨device, pin⟩ := s
  obtain ⟨device', pin'⟩ := s'
  have dot : ".".toList = ['.'] := rfl
  have letters := congrArg String.toList same
  match pin, pin' with
  | none, none => exact congrArg (Signal.mk · none) same
  | none, some p' =>
    refine absurd ?_ split.device
    simp only [text, String.toList_append, dot] at letters
    simp [letters]
  | some p, none =>
    refine absurd ?_ split'.device
    simp only [text, String.toList_append, dot] at letters
    simp [← letters]
  | some p, some p' =>
    simp only [text, String.toList_append, dot, List.append_assoc, List.singleton_append] at letters
    obtain ⟨first, -, second⟩ :=
      (List.append_cons_inj_of_notMem split.device (split.pin p rfl)).mp letters
    rw [show device = device' from String.toList_inj.mp first, String.toList_inj.mp second]

theorem Document.isSplit {pin : Option String} (tokens : d.tokens <+: lexemes source)
    (included : d.Includes e) (shown : pin ∈ e.outputs) : Signal.IsSplit ⟨e.name, pin⟩ := by
  have word : ∀ w ∈ Vocabulary.words, '.' ∉ w.toList := by decide +kernel
  refine ⟨fun dot => ?_, fun p hp => word p (outputs_words e p (hp ▸ shown))⟩
  obtain he | ⟨-, rfl⟩ := included
  · exact absurd (Document.isAlphanumeric_name tokens he '.' dot) (by decide +kernel)
  · exact absurd dot (show '.' ∉ groundName.toList by decide +kernel)

theorem Realises.labelled (realises : Realises d c) (tokens : d.tokens <+: lexemes source) :
    Labelled c.symbols c.netlist where
  named out known := by
    obtain ⟨e, pin, -, -, -, named⟩ := realises.exists_signal known
    exact ⟨_, named⟩
  apart out out' known known' same := by
    obtain ⟨e, pin, included, shown, rfl, named⟩ := realises.exists_signal known
    obtain ⟨e', pin', included', shown', rfl, named'⟩ := realises.exists_signal known'
    rw [named, named'] at same
    rw [Signal.text_inj (Document.isSplit tokens included shown)
      (Document.isSplit tokens included' shown') (Option.some.inj same)]

theorem Realises.shownAs (realises : Realises d c) (proper : c.netlist.Proper)
    (hd : dev ∈ c.netlist.devices) : ∃ name, dev.ShownAs c.symbols c.netlist name := by
  obtain ⟨e, -, presents⟩ := realises.exists_presents hd
  have found := Netlist.device?_of_mem proper.nodup hd
  have text {pin : Option String} (shown : pin ∈ e.outputs) :=
    presents.outputText? realises.words found shown
  have named := SymbolTable.text?_eq_some_iff.mpr ⟨presents.known, presents.symbol⟩
  refine ⟨e.name, named, fun pin hp => ⟨dev, found, hp⟩, fun name => ?_⟩
  rw [presents.kind, ← e.map_text_outputs, List.mem_map]
  constructor
  · intro listed
    obtain ⟨pin, hp, rfl⟩ := listed
    exact ⟨_, (presents.outputs _).mpr ⟨pin, hp, rfl⟩, text hp⟩
  · intro shown
    obtain ⟨out, member, named⟩ := shown
    obtain ⟨pin, hp, rfl⟩ := (presents.outputs out).mp member
    exact ⟨pin, hp, Option.some.inj ((text hp).symm.trans named)⟩

/-- Whatever is done to a circuit that compiled without problems, its two lists of names divide the
outputs of its devices between them. -/
theorem divides_of_reached (reached : Reached c) :
    c.monitors.Divides c.symbols c.netlist ∧
      ∀ dev ∈ c.netlist.devices, ∃ name, dev.ShownAs c.symbols c.netlist name := by
  obtain ⟨source, limit, compiled, ops, run, ok, rfl⟩ := reached
  obtain ⟨-, -, d, wf, tokens, realises⟩ := exists_document_into run ok
  have proper := proper_compileInto run
  have frame := Circuit.frame_afterAll proper ops
  have apart := (tracks_compiled wf realises proper).nodup
  constructor
  · refine Labelled.divides ?_ (frame.layout.proper proper).nodup (Circuit.nodup_afterAll ops apart)
      (Circuit.hasOutput_afterAll proper ops (realises.hasOutput wf proper))
    rw [frame.symbols]
    exact frame.layout.labelled (realises.labelled tokens)
  · intro dev hd
    obtain ⟨before, member, same⟩ := frame.layout.symm.exists_mem hd
    obtain ⟨name, shown⟩ := realises.shownAs proper member
    rw [frame.symbols]
    exact ⟨name, frame.layout.shownAs same.symm shown⟩

/-- A flip-flop with inputs that are left out. -/
def clockedText : String :=
  "DEVICES F = DTYPE; t = CLOCK, 1; CONNECT t -> F.CLK; MONITOR F.QBAR; t; END"

/-- The output of the flip-flop that is watched first goes off the watch, and the other comes under
it in the middle of a run. -/
def otherOutput (c : Circuit) : List Operation :=
  [.call (.run 2), .unwatch ⟨c.symbols.symbol "F", some (c.symbols.symbol "QBAR")⟩,
    .watch ⟨c.symbols.symbol "F", some (c.symbols.symbol "Q")⟩ 2,
    .watch ⟨c.symbols.symbol "t", none⟩ 2, .call (.resume 1)]

theorem clockedText_divides : ∃ c, Reached c ∧
    c.monitors.watchedTexts c.symbols c.netlist = ["t", "F.Q"] ∧
    c.monitors.unwatchedTexts c.symbols c.netlist = ["F.QBAR", "#GND"] ∧
    c.monitors.Divides c.symbols c.netlist ∧
      ∀ dev ∈ c.netlist.devices, ∃ name, dev.ShownAs c.symbols c.netlist name := by
  have accepted : (compileInto clockedText (Circuit.empty 20)).toOption.any (fun compiled =>
      let c := compiled.circuit.afterAll (otherOutput compiled.circuit)
      compiled.isOk && c.monitors.watchedTexts c.symbols c.netlist == ["t", "F.Q"] &&
        c.monitors.unwatchedTexts c.symbols c.netlist == ["F.QBAR", "#GND"]) = true := by
    decide +kernel
  obtain ⟨compiled, run, accepted⟩ := exists_of_any accepted
  simp only [Bool.and_eq_true, beq_iff_eq] at accepted
  obtain ⟨⟨ok, watched⟩, others⟩ := accepted
  have reached : Reached (compiled.circuit.afterAll (otherOutput compiled.circuit)) :=
    ⟨_, _, _, _, run, ok, rfl⟩
  exact ⟨_, reached, watched, others, divides_of_reached reached⟩

end Description

end LogicCircuit
