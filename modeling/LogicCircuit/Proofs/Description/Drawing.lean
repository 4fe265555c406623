import LogicCircuit.Monitor
import LogicCircuit.Proofs.Description.Declared
import LogicCircuit.Proofs.Netlist.Connect

/-!
Netlists that are drawn from a description: the declared devices, wired as far as the connections
have been read. Declaring, connecting and watching go on with the drawing, or are refused.
-/

namespace LogicCircuit.Description

open LogicCircuit (Device Netlist Terminal Monitor Monitors)

variable {t : SymbolTable} {es : List Declaration} {ws : List (Signal × Signal)}
  {n m : Netlist} {e : Declaration} {d : Device} {a b s : Signal}

namespace Signal

def terminal (t : SymbolTable) (s : Signal) : Terminal :=
  ⟨t.symbol s.device, s.pin.map t.symbol⟩

/-- The names in the signal are interned. -/
def Known (t : SymbolTable) (s : Signal) : Prop :=
  s.device ∈ t.texts ∧ ∀ pin ∈ s.pin, pin ∈ t.texts

theorem terminal_inj (ha : a.Known t) : a.terminal t = b.terminal t ↔ a = b := by
  obtain ⟨device, pin⟩ := a
  obtain ⟨device', pin'⟩ := b
  have first : t.symbol device = t.symbol device' ↔ device = device' :=
    SymbolTable.symbol_inj ha.1
  have second : pin.map t.symbol = pin'.map t.symbol ↔ pin = pin' := by
    cases pin with
    | none => simp [eq_comm]
    | some p =>
      have known : p ∈ t.texts := ha.2 p rfl
      cases pin' with
      | none => simp
      | some p' => simpa using SymbolTable.symbol_inj known
  simp only [terminal, Terminal.mk.injEq, Signal.mk.injEq, first, second]

end Signal

theorem forall_mem_concat {α : Type} {P : α → Prop} {l : List α} {x : α} (h : ∀ y ∈ l, P y)
    (last : P x) : ∀ y ∈ l ++ [x], P y := by
  intro y hy
  rcases List.mem_append.mp hy with old | new
  · exact h y old
  · rw [List.mem_singleton.mp new]
    exact last

theorem driverOf_eq_none_iff : driverOf ws s = none ↔ s ∉ ws.map Prod.snd := by
  simp only [driverOf, Option.map_eq_none_iff, List.find?_eq_none, decide_eq_true_eq,
    List.mem_map, not_exists, not_and]

theorem driverOf_append_of_ne (h : b ≠ s) : driverOf (ws ++ [(a, b)]) s = driverOf ws s := by
  rw [driverOf, driverOf, List.find?_append]
  simp [h]

theorem driverOf_append_self (h : b ∉ ws.map Prod.snd) :
    driverOf (ws ++ [(a, b)]) b = some a := by
  have absent := driverOf_eq_none_iff.mpr h
  rw [driverOf, Option.map_eq_none_iff] at absent
  rw [driverOf, List.find?_append, absent]
  simp

/-- Monitors of signals, with nothing recorded. -/
def monitorsOf (t : SymbolTable) (ss : List Signal) : Monitors :=
  ss.map fun s => ⟨s.terminal t, []⟩

/-- The device is the one that was declared, wired as far as the wires tell. -/
structure Depicts (t : SymbolTable) (ws : List (Signal × Signal)) (e : Declaration)
    (d : Device) : Prop where
  made : ∃ made, e.Makes t made ∧ d.body = made.body ∧ d.outputs = made.outputs ∧
    d.inputs.keys = made.inputs.keys
  driver : ∀ pin ∈ e.inputs,
    d.driver? (t.symbol pin) = (driverOf ws ⟨e.name, some pin⟩).map (Signal.terminal t)

/-- The netlist consists of the declared devices in their order. -/
structure Drawn (t : SymbolTable) (es : List Declaration) (ws : List (Signal × Signal))
    (n : Netlist) : Prop where
  words : ∀ w ∈ Vocabulary.words, w ∈ t.texts
  known : ∀ e ∈ es, e.name ∈ t.texts
  nodup : (es.map Declaration.name).Nodup
  sources : ∀ w ∈ ws, Document.IsOutput es w.1
  targets : ∀ w ∈ ws, Document.IsInput es w.2
  once : (ws.map Prod.snd).Nodup
  vocabulary : n.vocabulary = Vocabulary.ofTable t
  symbols : n.symbols = es.map fun e => t.symbol e.name
  device : ∀ e ∈ es, ∃ d, n.device? (t.symbol e.name) = some d ∧ Depicts t ws e d

theorem drawn_empty (words : ∀ w ∈ Vocabulary.words, w ∈ t.texts) :
    Drawn t [] [] (Netlist.empty t) :=
  ⟨words, by simp, by simp, by simp, by simp, by simp, rfl, rfl, by simp⟩

namespace Depicts

theorem mem_inputs (h : Depicts t ws e d) {k : Symbol} :
    k ∈ d.inputs.keys ↔ ∃ pin ∈ e.inputs, k = t.symbol pin := by
  obtain ⟨made, makes, -, -, keys⟩ := h.made
  rw [keys, makes.mem_inputs]

theorem mem_outputs (h : Depicts t ws e d) {o : Option Symbol} :
    o ∈ d.outputs.keys ↔ ∃ pin ∈ e.outputs, o = pin.map t.symbol := by
  obtain ⟨made, makes, -, outputs, -⟩ := h.made
  rw [outputs, makes.mem_outputs]

theorem kind (h : Depicts t ws e d) : d.kind = e.kind := by
  obtain ⟨made, makes, body, -, -⟩ := h.made
  rw [Device.kind, body]
  exact makes.kind

theorem append_of_ne (h : Depicts t ws e d) (other : e.name ≠ b.device) :
    Depicts t (ws ++ [(a, b)]) e d := by
  refine ⟨h.made, fun pin hp => ?_⟩
  have apart : b ≠ ⟨e.name, some pin⟩ := fun eq => other (congrArg Signal.device eq).symm
  rw [driverOf_append_of_ne apart]
  exact h.driver pin hp

theorem inputs_words (h : Depicts t ws e d) : ∀ pin ∈ e.inputs, pin ∈ Vocabulary.words := by
  obtain ⟨made, makes, -⟩ := h.made
  exact makes.inputs_words

/-- One more wire ends at an input of the device that none ended at. -/
theorem wired (h : Depicts t ws e d) (words : ∀ w ∈ Vocabulary.words, w ∈ t.texts) {p : String}
    (input : ∃ pin ∈ e.inputs, t.symbol p = t.symbol pin)
    (fresh : ⟨e.name, some p⟩ ∉ ws.map Prod.snd) :
    Depicts t (ws ++ [(a, ⟨e.name, some p⟩)]) e (d.wired (t.symbol p) (a.terminal t)) := by
  obtain ⟨made, makes, body, outputs, keys⟩ := h.made
  have known := h.mem_inputs.mpr input
  refine ⟨⟨made, makes, body, outputs, (Device.keys_wired known).trans keys⟩, fun pin hp => ?_⟩
  by_cases here : pin = p
  · rw [here, Device.driver?_wired_self, driverOf_append_self fresh, Option.map_some]
  · have apart : t.symbol pin ≠ t.symbol p := fun eq =>
      here ((SymbolTable.symbol_inj (words _ (h.inputs_words pin hp))).mp eq)
    have other : (⟨e.name, some p⟩ : Signal) ≠ ⟨e.name, some pin⟩ := by
      simpa [eq_comm] using here
    rw [Device.driver?_wired_of_ne d _ apart, driverOf_append_of_ne other]
    exact h.driver pin hp

end Depicts

theorem outputs_words (e : Declaration) : ∀ pin, some pin ∈ e.outputs → pin ∈ Vocabulary.words := by
  have q : "Q" ∈ Vocabulary.words ∧ "QBAR" ∈ Vocabulary.words := by decide +kernel
  intro pin h
  obtain ⟨name, kind, numbers⟩ := e
  cases kind with
  | flipFlop =>
    simp only [Declaration.outputs, List.mem_cons, Option.some.injEq, List.not_mem_nil,
      or_false] at h
    rcases h with rfl | rfl
    · exact q.1
    · exact q.2
  | _ => simp [Declaration.outputs] at h

/-- The symbols of an output are those of fixed words and of declared names. -/
theorem Signal.terminal_congr {t' : SymbolTable} (output : Document.IsOutput es s)
    (same : ∀ w, w ∈ Vocabulary.words ∨ w ∈ es.map Declaration.name →
      t'.symbol w = t.symbol w) : s.terminal t' = s.terminal t := by
  obtain ⟨e, he, eq, shown⟩ := output
  rw [Signal.terminal, Signal.terminal, ← eq, same _ (Or.inr (List.mem_map_of_mem he))]
  cases hp : s.pin with
  | none => rfl
  | some pin =>
    rw [hp] at shown
    rw [Option.map_some, Option.map_some, same pin (Or.inl (outputs_words e pin shown))]

namespace Drawn

theorem mem_symbols_iff (h : Drawn t es ws n) {name : String} :
    t.symbol name ∈ n.symbols ↔ name ∈ es.map Declaration.name := by
  simp only [h.symbols, List.mem_map]
  constructor
  · intro found
    obtain ⟨e, he, eq⟩ := found
    exact ⟨e, he, (SymbolTable.symbol_inj (h.known e he)).mp eq⟩
  · intro found
    obtain ⟨e, he, eq⟩ := found
    exact ⟨e, he, congrArg t.symbol eq⟩

/-- The devices of the netlist and the declarations are found under the same names. -/
theorem device?_eq_some (h : Drawn t es ws n) {name : String}
    (found : n.device? (t.symbol name) = some d) :
    ∃ e ∈ es, e.name = name ∧ Depicts t ws e d := by
  have member := h.mem_symbols_iff.mp (Netlist.mem_symbols_of_device? found)
  obtain ⟨e, he, eq⟩ := List.mem_map.mp member
  obtain ⟨d', found', depicts⟩ := h.device e he
  rw [eq, found] at found'
  exact ⟨e, he, eq, Option.some.inj found' ▸ depicts⟩

theorem add (h : Drawn t es ws n) (known : e.name ∈ t.texts)
    (new : e.name ∉ es.map Declaration.name) (makes : e.Makes t d) :
    Drawn t (es ++ [e]) ws (n.add d) := by
  have unwired : ∀ pin, driverOf ws ⟨e.name, some pin⟩ = none := by
    intro pin
    rw [driverOf_eq_none_iff]
    intro target
    obtain ⟨w, hw, eq⟩ := List.mem_map.mp target
    obtain ⟨e', he', name, -⟩ := h.targets w hw
    exact new (List.mem_map.mpr ⟨e', he', name.trans (congrArg Signal.device eq)⟩)
  refine ⟨h.words, forall_mem_concat h.known known, ?_, ?_, ?_, h.once, h.vocabulary, ?_, ?_⟩
  · rw [List.map_append, List.map_singleton, ← List.concat_eq_append]
    exact h.nodup.concat new
  · intro w hw
    obtain ⟨e', he', output⟩ := h.sources w hw
    exact ⟨e', List.mem_append_left _ he', output⟩
  · intro w hw
    obtain ⟨e', he', input⟩ := h.targets w hw
    exact ⟨e', List.mem_append_left _ he', input⟩
  · rw [Netlist.symbols_add, h.symbols, makes.symbol]
    simp
  · refine forall_mem_concat (fun e' he' => ?_) ⟨d, ?_, ⟨d, makes, rfl, rfl, rfl⟩, fun pin _ => ?_⟩
    · obtain ⟨d, found, depicts⟩ := h.device e' he'
      exact ⟨d, Netlist.device?_add_of_device? found, depicts⟩
    · have free : n.device? (t.symbol e.name) = none := by
        rw [Netlist.device?_eq_none_iff, h.mem_symbols_iff]
        exact new
      rw [Netlist.device?, Netlist.add, List.find?_append, ← Netlist.device?, free]
      simp [makes.symbol]
    · rw [unwired, Option.map_none]
      exact makes.driver? _

/-- A declaration that goes through goes on with the drawing. -/
theorem declare (h : Drawn t es ws n) (known : e.name ∈ t.texts)
    (step : n.declare (t.symbol e.name) e.kind e.numbers[0]? e.numbers[1]? = .ok m) :
    e.name ∉ es.map Declaration.name ∧ Drawn t (es ++ [e]) ws m := by
  obtain ⟨free, made, makes, eq⟩ := Netlist.declare_ok_iff.mp step
  rw [h.vocabulary] at makes
  have new : e.name ∉ es.map Declaration.name := by
    rw [← h.mem_symbols_iff]
    exact Netlist.device?_eq_none_iff.mp free
  exact ⟨new, eq ▸ h.add known new makes⟩

theorem exists_declare (h : Drawn t es ws n)
    (new : e.name ∉ es.map Declaration.name) (count : e.numbers.length = e.kind.parameterCount)
    (range : ∀ n ∈ e.numbers, Declaration.accepts e.kind n) :
    ∃ m, n.declare (t.symbol e.name) e.kind e.numbers[0]? e.numbers[1]? = .ok m := by
  obtain ⟨d, makes⟩ := Declaration.exists_makes (t := t) count range
  refine ⟨n.add d, Netlist.declare_ok_iff.mpr ⟨?_, d, ?_, rfl⟩⟩
  · rw [Netlist.device?_eq_none_iff, h.mem_symbols_iff]
    exact new
  · rw [h.vocabulary]
    exact makes

/-- A pin that is an input of the device is so by its name. -/
theorem input_of_mem (h : Drawn t es ws n) (depicts : Depicts t ws e d) {pin : String}
    (member : t.symbol pin ∈ d.inputs.keys) : pin ∈ e.inputs := by
  obtain ⟨pin', hp, eq⟩ := depicts.mem_inputs.mp member
  have known := h.words pin' (depicts.inputs_words pin' hp)
  rw [(SymbolTable.symbol_inj known).mp eq.symm] at hp
  exact hp

/-- The same of outputs. -/
theorem output_of_mem (h : Drawn t es ws n) (depicts : Depicts t ws e d) {pin : Option String}
    (member : pin.map t.symbol ∈ d.outputs.keys) : pin ∈ e.outputs := by
  obtain ⟨pin', hp, eq⟩ := depicts.mem_outputs.mp member
  cases pin' with
  | none => rwa [Option.map_eq_none_iff.mp eq]
  | some p' =>
    obtain ⟨p, rfl, same⟩ := Option.map_eq_some_iff.mp eq
    have known := h.words p' (outputs_words e p' hp)
    rwa [← (SymbolTable.symbol_inj known).mp same.symm]

theorem exists_output (h : Drawn t es ws n) (source : Document.IsOutput es a) :
    ∃ d, n.device? (a.terminal t).device = some d ∧ d.input? (a.terminal t).pin = none ∧
      d.hasOutput (a.terminal t).pin = true := by
  obtain ⟨e, he, name, shown⟩ := source
  obtain ⟨d, found, depicts⟩ := h.device e he
  rw [name] at found
  refine ⟨d, found, ?_, ?_⟩
  · cases pin : a.pin with
    | none => simp [Signal.terminal, pin, Device.input?]
    | some p =>
      have other : t.symbol p ∉ d.inputs.keys := by
        intro member
        exact Declaration.not_mem_outputs (h.input_of_mem depicts member) (pin ▸ shown)
      rw [PinMap.mem_keys_iff, Option.not_isSome_iff_eq_none] at other
      simp [Signal.terminal, pin, Device.input?, other]
  · exact PinMap.contains_iff.mpr (depicts.mem_outputs.mpr ⟨a.pin, shown, rfl⟩)

/-- Connecting a source goes on with the drawing, if it goes through. -/
theorem connect (h : Drawn t es ws n) (source : Document.IsOutput es a)
    (step : n.connect (a.terminal t) (b.terminal t) = .ok m) :
    Document.IsInput es b ∧ b ∉ ws.map Prod.snd ∧ Drawn t es (ws ++ [(a, b)]) m := by
  obtain ⟨d', found', deaf, -⟩ := h.exists_output source
  obtain ⟨d, -, pin, found, -, named, unwired, -, -⟩ |
    ⟨d, -, pin, found, -, named, unwired, -, eq⟩ := Netlist.wires_of_connect step
  · -- the source is no input
    rw [found'] at found
    rw [Option.some.inj found] at deaf
    have input := Device.input?_eq_some_iff.mpr ⟨named, unwired⟩
    rw [deaf] at input
    cases input
  · obtain ⟨e, he, name, depicts⟩ := h.device?_eq_some found
    obtain ⟨p, hb, rfl⟩ := Option.map_eq_some_iff.mp named
    have known : t.symbol p ∈ d.inputs.keys := PinMap.mem_keys_iff.mpr (by simp [unwired])
    have input := h.input_of_mem depicts known
    have target : b = ⟨e.name, some p⟩ := by rw [name, ← hb]
    have fresh : b ∉ ws.map Prod.snd := by
      have free := depicts.driver p input
      rw [Device.driver?, unwired, Option.join_some, eq_comm, Option.map_eq_none_iff] at free
      rw [target]
      exact driverOf_eq_none_iff.mp free
    have stays : ∀ c : Device, c.symbol = t.symbol b.device →
        (c.wired (t.symbol p) (a.terminal t)).symbol = t.symbol b.device := fun _ same => same
    have isInput : Document.IsInput es b := ⟨e, he, name, p, input, hb⟩
    refine ⟨isInput, fresh, h.words, h.known, h.nodup, forall_mem_concat h.sources source,
      forall_mem_concat h.targets isInput, ?_, eq ▸ h.vocabulary, ?_, ?_⟩
    · rw [List.map_append, List.map_singleton, ← List.concat_eq_append]
      exact h.once.concat fresh
    · rw [eq]
      exact (Netlist.symbols_update n stays).trans h.symbols
    · intro e' he'
      -- the driven device has one wire more, and all others stay as they are
      obtain ⟨c, found', depicts'⟩ := h.device e' he'
      by_cases here : e'.name = b.device
      · have same : c = d := by
          rw [here] at found'
          exact Option.some.inj (found'.symm.trans found)
        subst same
        refine ⟨c.wired (t.symbol p) (a.terminal t), ?_, ?_⟩
        · rw [eq, here]
          refine (Netlist.device?_update_self n stays).trans ?_
          rw [← here, found', Option.map_some]
        · have ends : b = ⟨e'.name, some p⟩ := by rw [here, ← hb]
          rw [ends] at fresh ⊢
          exact depicts'.wired h.words (depicts'.mem_inputs.mp known) fresh
      · have apart : t.symbol e'.name ≠ t.symbol b.device := fun eq =>
          here ((SymbolTable.symbol_inj (h.known e' he')).mp eq)
        refine ⟨c, ?_, depicts'.append_of_ne here⟩
        rw [eq]
        exact (Netlist.device?_update_of_ne n stays apart).trans found'

theorem exists_connect (h : Drawn t es ws n) (source : Document.IsOutput es a)
    (target : Document.IsInput es b) (fresh : b ∉ ws.map Prod.snd) :
    ∃ m, n.connect (a.terminal t) (b.terminal t) = .ok m := by
  obtain ⟨d, found, deaf, shown⟩ := h.exists_output source
  obtain ⟨e, he, name, p, input, hb⟩ := target
  obtain ⟨d', found', depicts⟩ := h.device e he
  rw [name] at found'
  have mute : d'.hasOutput (b.terminal t).pin = false := by
    rw [Bool.eq_false_iff]
    intro output
    have := h.output_of_mem depicts (PinMap.contains_iff.mp output)
    rw [hb] at this
    exact Declaration.not_mem_outputs input this
  have unwired : d'.input? (b.terminal t).pin = some (t.symbol p, none) := by
    refine Device.input?_eq_some_iff.mpr ⟨by rw [Signal.terminal, hb, Option.map_some], ?_⟩
    have known := depicts.mem_inputs.mpr ⟨p, input, rfl⟩
    obtain ⟨driver, wiring⟩ := Option.isSome_iff_exists.mp (PinMap.mem_keys_iff.mp known)
    have none := driverOf_eq_none_iff.mpr fresh
    have free := depicts.driver p input
    have target : b = ⟨e.name, some p⟩ := by rw [name, ← hb]
    rw [← target, none, Option.map_none, Device.driver?, wiring, Option.join_some] at free
    rw [wiring, free]
  exact ⟨_, Netlist.connect_to_input found found' deaf shown mute unwired⟩

theorem known_of_isOutput (h : Drawn t es ws n) (output : Document.IsOutput es s) : s.Known t := by
  obtain ⟨e, he, name, shown⟩ := output
  refine ⟨name ▸ h.known e he, fun pin hp => ?_⟩
  rw [Option.mem_def] at hp
  rw [hp] at shown
  exact h.words pin (outputs_words e pin shown)

theorem isOutput_iff (h : Drawn t es ws n) : Document.IsOutput es s ↔
    ∃ d, n.device? (s.terminal t).device = some d ∧
      d.outputs.contains (s.terminal t).pin = true := by
  constructor
  · intro output
    obtain ⟨d, found, -, shown⟩ := h.exists_output output
    exact ⟨d, found, shown⟩
  · intro output
    obtain ⟨d, found, shown⟩ := output
    obtain ⟨e, he, name, depicts⟩ := h.device?_eq_some found
    exact ⟨e, he, name, h.output_of_mem depicts (PinMap.contains_iff.mp shown)⟩

/-- A signal is put under watch if it is an output and not watched yet. -/
theorem watch_ok_iff (h : Drawn t es ws n) {ss : List Signal} {ms : Monitors}
    (outputs : ∀ s ∈ ss, Document.IsOutput es s) :
    (monitorsOf t ss).watch n (s.terminal t) 0 = .ok ms ↔
      Document.IsOutput es s ∧ s ∉ ss ∧ ms = monitorsOf t (ss ++ [s]) := by
  have watched : (monitorsOf t ss).watches (s.terminal t) = true ↔ s ∈ ss := by
    simp only [Monitors.watches, monitorsOf, List.any_map, List.any_eq_true, Function.comp_apply,
      decide_eq_true_eq]
    constructor
    · intro found
      obtain ⟨s', hs, eq⟩ := found
      rwa [← (Signal.terminal_inj (h.known_of_isOutput (outputs s' hs))).mp eq]
    · intro hs
      exact ⟨s, hs, rfl⟩
  rw [h.isOutput_iff, Monitors.watch]
  cases found : n.device? (s.terminal t).device with
  | none => simp
  | some d =>
    by_cases shown : d.outputs.contains (s.terminal t).pin = true
    · by_cases twice : s ∈ ss
      · simp [shown, watched.mpr twice, twice]
      · have free : (monitorsOf t ss).watches (s.terminal t) = false := by
          rw [Bool.eq_false_iff]
          exact fun hs => twice (watched.mp hs)
        have goes : (monitorsOf t ss) ++ [⟨s.terminal t, []⟩] = monitorsOf t (ss ++ [s]) := by
          simp [monitorsOf]
        simp [shown, free, twice, goes, eq_comm (a := ms)]
    · simp [shown]

/-- Only the symbols of the fixed words and of the declared names matter. -/
theorem retable {t' : SymbolTable} (h : Drawn t es ws n)
    (same : ∀ w, w ∈ Vocabulary.words ∨ w ∈ es.map Declaration.name →
      w ∈ t'.texts ∧ t'.symbol w = t.symbol w) : Drawn t' es ws n := by
  have word (w : String) (hw : w ∈ Vocabulary.words) : t'.symbol w = t.symbol w :=
    (same w (Or.inl hw)).2
  have name (e : Declaration) (he : e ∈ es) : t'.symbol e.name = t.symbol e.name :=
    (same _ (Or.inr (List.mem_map_of_mem he))).2
  have vocabulary := Vocabulary.ofTable_congr word
  refine ⟨fun w hw => (same w (Or.inl hw)).1, fun e he => ?_, h.nodup, h.sources, h.targets,
    h.once, h.vocabulary.trans vocabulary.symm, ?_, fun e he => ?_⟩
  · exact (same _ (Or.inr (List.mem_map_of_mem he))).1
  · rw [h.symbols]
    exact List.map_congr_left fun e he => (name e he).symm
  · obtain ⟨d, found, depicts⟩ := h.device e he
    refine ⟨d, by rw [name e he, found], ?_, fun pin hp => ?_⟩
    · obtain ⟨made, makes, body, outputs, keys⟩ := depicts.made
      refine ⟨made, ?_, body, outputs, keys⟩
      rw [Declaration.Makes, vocabulary, name e he]
      exact makes
    · rw [word pin (depicts.inputs_words pin hp), depicts.driver pin hp]
      cases drives : driverOf ws ⟨e.name, some pin⟩ with
      | none => rfl
      | some a =>
        obtain ⟨w, hw, rfl⟩ := Option.map_eq_some_iff.mp drives
        have source := h.sources w (List.mem_of_find?_eq_some hw)
        rw [Option.map_some, Option.map_some,
          Signal.terminal_congr source fun w hw => (same w hw).2]

end Drawn

end LogicCircuit.Description
