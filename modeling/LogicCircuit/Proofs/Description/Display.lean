import LogicCircuit.Proofs.Circuit.Display
import LogicCircuit.Proofs.Description.Operations
import LogicCircuit.Proofs.Description.Printing

/-!
The drawings of compiled circuits in use. The names that a text can hold have neither blanks nor
colons, in whatever script they are written, so that a drawing loses nothing.
-/

namespace LogicCircuit

theorem Netlist.SameLayout.outputText? {n m : Netlist} {out : Terminal} (h : n.SameLayout m)
    (known : n.HasOutput out) (t : SymbolTable) : m.outputText? t out = n.outputText? t out := by
  obtain ⟨d, found, -⟩ := known
  obtain ⟨e, found', same⟩ := h.device? found
  simp only [Device.layout, Layout.mk.injEq] at same
  rw [Netlist.outputText?, Netlist.outputText?, found, found', Option.bind_eq_bind,
    Option.bind_some, Option.bind_eq_bind, Option.bind_some, same.1]

namespace Description

open LogicCircuit (Circuit Device Netlist)
open LogicCircuit.Circuit (Operation)
open LogicCircuit.Monitors (DrawnAs IsPlain Legible)
open LogicCircuit.Text

variable {source : String} {c c' : Circuit} {d : Document} {e : Declaration} {out : Terminal}
  {s : Signal} {dev : Device} {name : String}

/-! Names. -/

theorem isPlain_of_letters (letters : ∀ x ∈ name.toList, isAlphanumeric x = true) :
    IsPlain name := by
  intro x hx
  have letter := letters x hx
  constructor
  · by_contra blank
    rw [not_isAlphanumeric_of_isBlank (Bool.eq_true_of_not_eq_false blank)] at letter
    cases letter
  · rintro rfl
    exact absurd letter (by decide +kernel)

theorem Document.isAlphanumeric_name (tokens : d.tokens <+: lexemes source) (he : e ∈ d.devices) :
    ∀ x ∈ e.name.toList, isAlphanumeric x = true := by
  have read : Token.name e.name ∈ lexemes source := by
    refine tokens.subset ?_
    rw [Document.tokens]
    refine List.mem_cons_of_mem _ (List.mem_append_left _ ?_)
    exact List.mem_flatMap.mpr ⟨e, he, by simp [Declaration.tokens]⟩
  obtain ⟨token, member, value⟩ := List.mem_map.mp read
  exact (Cursor.mem_tokens member).2 e.name value

theorem isPlain_word (h : name ∈ Vocabulary.words) : IsPlain name := by
  have all : ∀ w ∈ Vocabulary.words, IsPlain w := by decide +kernel
  exact all name h

/-- A signal as it is shown. -/
def Signal.text (s : Signal) : String :=
  match s.pin with
  | none => s.device
  | some pin => s.device ++ "." ++ pin

theorem Signal.isPlain_text (device : IsPlain s.device) (pin : ∀ p ∈ s.pin, IsPlain p) :
    IsPlain s.text := by
  obtain ⟨name, none | p⟩ := s
  · exact device
  · intro x hx
    rw [Signal.text, String.toList_append, String.toList_append, List.mem_append,
      List.mem_append] at hx
    obtain (left | dot) | right := hx
    · exact device x left
    · rw [List.mem_singleton.mp dot]
      decide
    · exact pin p rfl x right

theorem Signal.outputText?_terminal {n : Netlist} {t : SymbolTable} (known : s.Known t)
    (found : n.device? (t.symbol s.device) = some dev) :
    n.outputText? t (s.terminal t) = some s.text := by
  obtain ⟨name, none | p⟩ := s
  all_goals
    have symbol : t.text? dev.symbol = some name := by
      rw [Netlist.symbol_of_device? found]
      exact SymbolTable.text?_symbol known.1
    rw [Netlist.outputText?, terminal, found, Option.bind_eq_bind, Option.bind_some, symbol]
  · rfl
  · have pin := SymbolTable.text?_symbol (known.2 p rfl)
    simp only [Option.map_some, pin]
    rfl

/-- The device has the name, the kind and the outputs of the declared one. -/
structure Presents (t : SymbolTable) (e : Declaration) (dev : Device) : Prop where
  known : e.name ∈ t.texts
  symbol : dev.symbol = t.symbol e.name
  kind : dev.kind = e.kind
  outputs : ∀ out, out ∈ dev.outputs.keys ↔ ∃ pin ∈ e.outputs, out = pin.map t.symbol

theorem Presents.outputText? {n : Netlist} {t : SymbolTable} {pin : Option String}
    (presents : Presents t e dev) (words : ∀ w ∈ Vocabulary.words, w ∈ t.texts)
    (found : n.device? dev.symbol = some dev) (shown : pin ∈ e.outputs) :
    n.outputText? t ⟨dev.symbol, pin.map t.symbol⟩ = some (Signal.text ⟨e.name, pin⟩) := by
  have known : Signal.Known t ⟨e.name, pin⟩ :=
    ⟨presents.known, fun p hp => words p (outputs_words e p (hp ▸ shown))⟩
  rw [presents.symbol] at found ⊢
  exact Signal.outputText?_terminal known found

/-- The device is a declared one, or the low source if it is needed. -/
def Document.Includes (d : Document) (e : Declaration) : Prop :=
  e ∈ d.devices ∨ d.loose ≠ [] ∧ e = groundDeclaration

/-- The low source is presented like a declared switch. -/
theorem Realises.exists_presents (realises : Realises d c) (hd : dev ∈ c.netlist.devices) :
    ∃ e, d.Includes e ∧ Presents c.symbols e dev := by
  obtain ⟨e, he, shows⟩ | ⟨loose, rfl⟩ := realises.device_cases hd
  · obtain ⟨made, makes, -, outputs, -⟩ := shows.makes
    refine ⟨e, .inl he, shows.symbol.1, shows.symbol.2, shows.kind, fun out => ?_⟩
    rw [outputs]
    exact makes.mem_outputs
  · refine ⟨groundDeclaration, .inr ⟨loose, rfl⟩, realises.ground loose, rfl, rfl, fun out => ?_⟩
    simp [Device.newSwitch, PinMap.mem_keys_single, groundDeclaration, Declaration.outputs]

/-- The outputs of the circuit are those that the description means. -/
theorem Realises.exists_signal (realises : Realises d c) (known : c.netlist.HasOutput out) :
    ∃ e pin, d.Includes e ∧ pin ∈ e.outputs ∧ out = Signal.terminal c.symbols ⟨e.name, pin⟩ ∧
      c.netlist.outputText? c.symbols out = some (Signal.text ⟨e.name, pin⟩) := by
  obtain ⟨device, pin⟩ := out
  obtain ⟨dev, found, shown⟩ := known
  obtain rfl := Netlist.symbol_of_device? found
  obtain ⟨e, included, presents⟩ := realises.exists_presents (Netlist.mem_of_device? found)
  obtain ⟨p, hp, rfl⟩ := (presents.outputs _).mp shown
  refine ⟨e, p, included, hp, ?_, presents.outputText? realises.words found hp⟩
  rw [Signal.terminal, presents.symbol]

theorem Document.isPlain_text {pin : Option String} (tokens : d.tokens <+: lexemes source)
    (included : d.Includes e) (shown : pin ∈ e.outputs) :
    IsPlain (Signal.text ⟨e.name, pin⟩) := by
  refine Signal.isPlain_text ?_ fun p hp => isPlain_word (outputs_words e p (hp ▸ shown))
  obtain he | ⟨-, rfl⟩ := included
  · exact isPlain_of_letters (Document.isAlphanumeric_name tokens he)
  · exact show IsPlain groundName by decide +kernel

/-- Each output of a circuit that was compiled without problems has a name, and it is plain. -/
theorem Realises.exists_outputText? (realises : Realises d c) (tokens : d.tokens <+: lexemes source)
    (known : c.netlist.HasOutput out) :
    ∃ name, c.netlist.outputText? c.symbols out = some name ∧ IsPlain name := by
  obtain ⟨e, pin, included, shown, -, named⟩ := realises.exists_signal known
  exact ⟨_, named, Document.isPlain_text tokens included shown⟩

/-! Circuits in use. -/

/-- The circuit is reached from a text that compiles without problems. -/
def Reached (c : Circuit) : Prop :=
  ∃ source limit compiled ops, compileInto source (Circuit.empty limit) = .ok compiled ∧
    compiled.isOk = true ∧ c = compiled.circuit.afterAll ops

theorem Reached.legible (reached : Reached c) : c.monitors.Legible c.symbols c.netlist := by
  obtain ⟨source, limit, compiled, ops, run, ok, rfl⟩ := reached
  obtain ⟨-, -, d, wf, tokens, realises⟩ := exists_document_into run ok
  have proper := proper_compileInto run
  have frame := Circuit.frame_afterAll proper ops
  intro m hm
  have watched := Circuit.hasOutput_afterAll proper ops (realises.hasOutput wf proper) m.output
    (List.mem_map_of_mem hm)
  have known := frame.layout.symm.hasOutput watched
  rw [frame.symbols, frame.layout.outputText? known]
  exact realises.exists_outputText? tokens known

/-- A drawing of a circuit in use loses nothing: it has a line for each monitor, which tells the
name of its output and its trace; and two circuits are drawn the same if and only if the same
outputs are watched in both and have the same traces. -/
theorem drawing_lossless (reached : Reached c) :
    (∃ width, List.Forall₂ (DrawnAs c.symbols c.netlist width) c.monitors
      (lines c.draw.toList)) ∧
    ∀ c', Reached c' → (c.draw = c'.draw ↔
      c.monitors.watchedTexts c.symbols c.netlist =
          c'.monitors.watchedTexts c'.symbols c'.netlist ∧
        c.monitors.map Monitor.trace = c'.monitors.map Monitor.trace) := by
  refine ⟨⟨_, reached.legible.drawnAs⟩, fun c' reached' => ?_⟩
  exact Monitors.draw_eq_draw_iff reached.legible reached'.legible

/-- Names with letters of two and of three bytes. -/
def scriptsText : String :=
  "DEVICES Größe = SWITCH, 1; 中 = DTYPE; t = CLOCK, 2; " ++
    "CONNECT Größe -> 中.DATA; t -> 中.CLK; MONITOR Größe; 中.Q; END"

/-- The switch is set before a run, and the clock comes under watch late. -/
def clockLate (isHigh : Bool) (c : Circuit) : List Operation :=
  [.call (.setSwitch "Größe" isHigh), .call (.run 2), .watch ⟨c.symbols.symbol "t", none⟩ 2,
    .call (.resume 3)]

theorem scriptsText_drawn : ∃ c c', Reached c ∧ Reached c' ∧
    c.draw = "Größe   : -----\n中.Q     : _----\nt       :   -\\_\n" ∧
    (∃ width, List.Forall₂ (DrawnAs c.symbols c.netlist width) c.monitors
      (lines c.draw.toList)) ∧
    c.monitors.watchedTexts c.symbols c.netlist =
      c'.monitors.watchedTexts c'.symbols c'.netlist ∧
    c.monitors.map Monitor.trace ≠ c'.monitors.map Monitor.trace ∧ c.draw ≠ c'.draw := by
  have accepted : (compileInto scriptsText (Circuit.empty 4)).toOption.any (fun compiled =>
      let c := compiled.circuit.afterAll (clockLate true compiled.circuit)
      let c' := compiled.circuit.afterAll (clockLate false compiled.circuit)
      compiled.isOk && c.draw == "Größe   : -----\n中.Q     : _----\nt       :   -\\_\n" &&
        c.monitors.watchedTexts c.symbols c.netlist ==
          c'.monitors.watchedTexts c'.symbols c'.netlist &&
        c.monitors.map Monitor.trace != c'.monitors.map Monitor.trace) = true := by
    decide +kernel
  obtain ⟨compiled, run, accepted⟩ := exists_of_any accepted
  simp only [Bool.and_eq_true, beq_iff_eq, bne_iff_ne] at accepted
  obtain ⟨⟨⟨ok, drawn⟩, names⟩, traces⟩ := accepted
  have reached (ops : List Operation) : Reached (compiled.circuit.afterAll ops) :=
    ⟨_, _, _, ops, run, ok, rfl⟩
  obtain ⟨rows, alike⟩ := drawing_lossless (reached (clockLate true compiled.circuit))
  refine ⟨_, _, reached _, reached (clockLate false compiled.circuit), drawn, rows, names, traces,
    fun same => ?_⟩
  exact traces ((alike _ (reached _)).mp same).2

end Description

end LogicCircuit
