import LogicCircuit.Proofs.Description.Domain
import LogicCircuit.Proofs.Netlist.Edges

/-!
In a compiled circuit a flip-flop that is left alone takes over its data when a clock that drives it
rises, and at no other time: generators, gates, switches and other flip-flops drive a clock input
without ever showing an edge to it.
-/

namespace LogicCircuit

namespace Circuit

/-- What a circuit comes to by starts from cold, by cycles that complete, and by settings of the
switches with certain names. -/
inductive Used (switches : String → Prop) (c : Circuit) : Circuit → Prop
  | unused : Used switches c c
  | started {c' : Circuit} (before : Used switches c c') : Used switches c c'.started
  | cycle {c' c'' : Circuit} (before : Used switches c c') (run : cycle c' = .ok () c'') :
    Used switches c c''
  | setSwitch {c' c'' : Circuit} {name : String} {isHigh : Bool} (before : Used switches c c')
    (known : switches name) (set : c'.setSwitch name isHigh = .ok c'') : Used switches c c''

/-- The level that an input reads. -/
def reads (c : Circuit) (device pin : String) : Option Level :=
  c.netlist.reads (c.symbols.symbol device) (c.symbols.symbol pin)

end Circuit

namespace Description

open LogicCircuit (Circuit Device Netlist)

variable {source : String} {compiled : Compiled} {start c c' : Circuit} {d : Document}
  {e w : Declaration} {dev : Device} {t : SymbolTable} {drives : Signal → Option Signal}
  {limit : Nat} {name : String} {isHigh : Bool}

/-- The level that a signal shows in a circuit. -/
def Signal.shown (c : Circuit) (s : Signal) : Option Level :=
  c.netlist.level? (s.terminal c.symbols)

/-- Only a switch and a clock input tell the flip-flop what to do: set and clear are left out, the
declared switch drives the data input, and an output of a declared device the clock input. -/
structure Document.Samples (d : Document) (e w k : Declaration) (pin : Option String) : Prop where
  member : e ∈ d.devices
  kind : e.kind = .flipFlop
  set : ⟨e.name, some "SET"⟩ ∈ d.loose
  clear : ⟨e.name, some "CLEAR"⟩ ∈ d.loose
  source : w ∈ d.devices
  switch : w.kind = .switch
  data : d.driver? ⟨e.name, some "DATA"⟩ = some ⟨w.name, none⟩
  driver : k ∈ d.devices
  clock : d.driver? ⟨e.name, some "CLK"⟩ = some ⟨k.name, pin⟩

/-- The name is that of a declared switch. -/
def Document.IsSwitch (d : Document) (name : String) : Prop :=
  ∃ e ∈ d.devices, e.kind = .switch ∧ e.name = name

theorem Document.ne_groundName (tokens : d.tokens <+: lexemes source) (he : e ∈ d.devices) :
    e.name ≠ groundName := by
  have written : .name e.name ∈ lexemes source := by
    refine tokens.subset ?_
    rw [Document.tokens]
    refine List.mem_cons_of_mem _ (List.mem_append_left _ ?_)
    exact List.mem_flatMap.mpr ⟨e, he, List.mem_cons_self⟩
  obtain ⟨token, member, value⟩ := List.mem_map.mp written
  exact Description.ne_groundName member value

/-! The circuit as it is compiled. -/

theorem Shows.eq_newSwitch (h : Shows t drives e dev) (kind : e.kind = .switch) :
    ∃ b, dev = Device.newSwitch dev.symbol (.ofBool b) := by
  obtain ⟨made, makes, body, outputs, keys⟩ := h.makes
  obtain ⟨s, b, inputs, o⟩ := dev
  rw [Declaration.Makes, kind] at makes
  simp only at body outputs keys
  generalize e.numbers[0]? = first at makes
  generalize e.numbers[1]? = second at makes
  cases makes with
  | switch n high =>
    subst body outputs
    obtain ⟨entries, sorted⟩ := inputs
    obtain rfl : entries = [] := List.map_eq_nil_iff.mp keys
    exact ⟨n == 1, rfl⟩

theorem Shows.memory {memory : Level} (h : Shows t drives e dev)
    (apart : (Vocabulary.ofTable t).flipFlop.q ≠ (Vocabulary.ofTable t).flipFlop.qbar)
    (body : dev.body = .flipFlop memory) : memory = .low ∧
      dev.outputs.get? (some (Vocabulary.ofTable t).flipFlop.q) = some .low := by
  obtain ⟨made, makes, same, outputs, -⟩ := h.makes
  have kind : e.kind = .flipFlop := by rw [← h.kind, Device.kind, body, Body.kind]
  rw [Declaration.Makes, kind] at makes
  generalize e.numbers[0]? = first at makes
  generalize e.numbers[1]? = second at makes
  rw [outputs]
  rw [same] at body
  cases makes with
  | flipFlop => exact Device.started_of_flipFlop apart body

theorem Realises.steady (realises : Realises d c) (proper : c.netlist.Proper)
    (words : c.netlist.vocabulary = Vocabulary.ofTable c.symbols) : c.netlist.Steady := by
  have apart := proper.vocabulary.q_ne_qbar
  rw [words] at apart
  have low : ∀ dev ∈ c.netlist.devices, ∀ memory, dev.body = .flipFlop memory → memory = .low ∧
      dev.outputs.get? (some (Vocabulary.ofTable c.symbols).flipFlop.q) = some .low := by
    intro dev hd memory body
    obtain ⟨e, he, shows⟩ | ⟨-, rfl⟩ := realises.device_cases hd
    · exact shows.memory apart body
    · cases body
  refine ⟨fun dev hd memory body => ?_, fun dev hd memory body => ?_⟩
  · rw [(low dev hd memory body).1]
    rfl
  · obtain ⟨rfl, shown⟩ := low dev hd memory body
    rw [words]
    exact shown

/-! The circuit in use. -/

/-- What holds of the circuit of a description as long as only declared switches are set. -/
structure InUse (d : Document) (start c : Circuit) : Prop where
  symbols : c.symbols = start.symbols
  layout : start.netlist.SameLayout c.netlist
  steady : c.netlist.Steady
  sound : c.netlist.Sound start.netlist.vocabulary
  low : d.loose ≠ [] → c.netlist.device? (start.symbols.symbol groundName) =
    some (Device.newSwitch (start.symbols.symbol groundName) .low)
  switches : ∀ w ∈ d.devices, w.kind = .switch → ∃ b,
    c.netlist.device? (start.symbols.symbol w.name) =
      some (Device.newSwitch (start.symbols.symbol w.name) (.ofBool b))

theorem Realises.inUse (realises : Realises d c) (tokens : d.tokens <+: lexemes source)
    (proper : c.netlist.Proper) (words : c.netlist.vocabulary = Vocabulary.ofTable c.symbols) :
    InUse d c c where
  symbols := rfl
  layout := Netlist.SameLayout.refl _
  steady := realises.steady proper words
  sound := realises.sound tokens proper words
  low := realises.device?_ground proper
  switches w hw kind := by
    obtain ⟨dev, found, shows⟩ := realises.exists_device? proper hw
    obtain ⟨b, eq⟩ := shows.eq_newSwitch kind
    rw [Netlist.symbol_of_device? found] at eq
    exact ⟨b, eq ▸ found⟩

section
variable (proper : start.netlist.Proper) (inUse : InUse d start c)
include proper inUse

theorem InUse.started : InUse d start c.started := by
  have proper' := inUse.layout.proper proper
  have stays {s : Symbol} {level : Level}
      (h : c.netlist.device? s = some (Device.newSwitch s level)) :
      c.netlist.started.device? s = some (Device.newSwitch s level) := by
    rw [Netlist.started, Netlist.device?_map fun d => (Device.started_frame _ d).1, h,
      Option.map_some, Device.started_newSwitch]
  refine ⟨inUse.symbols, inUse.layout.trans (Netlist.sameLayout_started proper'),
    Netlist.steady_started proper'.vocabulary, inUse.sound.started proper.vocabulary.q_ne_qbar,
    fun loose => stays (inUse.low loose), fun w hw kind => ?_⟩
  obtain ⟨b, found⟩ := inUse.switches w hw kind
  exact ⟨b, stays found⟩

theorem InUse.cycle (run : Circuit.cycle c = .ok () c') : InUse d start c' := by
  obtain ⟨n, completes, rfl⟩ := Circuit.cycle_ok_iff.mp run
  have proper' := inUse.layout.proper proper
  have kept {P : Netlist → Prop} (kept : Netlist.Kept P) (h : P c.netlist) : P n := by
    have later := kept.cycle h c.limit
    rwa [completes] at later
  refine ⟨inUse.symbols, inUse.layout.trans (Netlist.sameLayout_cycle proper' completes),
    inUse.steady.cycle proper' completes,
    kept (Netlist.kept_sound proper.vocabulary.q_ne_qbar) inUse.sound,
    fun loose => kept (Netlist.kept_switch _ _) (inUse.low loose), fun w hw kind => ?_⟩
  obtain ⟨b, found⟩ := inUse.switches w hw kind
  exact ⟨b, kept (Netlist.kept_switch _ _) found⟩

theorem InUse.setSwitch (realises : Realises d start) (tokens : d.tokens <+: lexemes source)
    (known : d.IsSwitch name) (accepted : c.setSwitch name isHigh = .ok c') :
    InUse d start c' := by
  obtain ⟨-, n, set, rfl⟩ := Circuit.setSwitch_ok_iff.mp accepted
  obtain ⟨e, he, kind, rfl⟩ := known
  have proper' := inUse.layout.proper proper
  have texts : e.name ∈ start.symbols.texts := by
    obtain ⟨dev, -, shows⟩ := realises.exists_device? proper he
    exact shows.symbol.1
  rw [inUse.symbols] at set
  refine ⟨inUse.symbols, inUse.layout.trans (Netlist.sameLayout_setSwitch proper' set),
    inUse.steady.setSwitch set, inUse.sound.setSwitch set, fun loose => ?_, fun w hw kind' => ?_⟩
  · have apart : start.symbols.symbol groundName ≠ start.symbols.symbol e.name := fun eq =>
      Document.ne_groundName tokens he ((SymbolTable.symbol_inj texts).mp eq.symm)
    rw [Netlist.device?_setSwitch_of_ne set apart]
    exact inUse.low loose
  · obtain ⟨b, found⟩ := inUse.switches w hw kind'
    by_cases same : start.symbols.symbol w.name = start.symbols.symbol e.name
    · rw [same] at found ⊢
      refine ⟨isHigh, ?_⟩
      rw [Netlist.device?_setSwitch_self set, found, Option.map_some, Device.switched_newSwitch,
        Level.settled_ofBool]
    · exact ⟨b, (Netlist.device?_setSwitch_of_ne set same).trans found⟩

end

theorem InUse.of_used (realises : Realises d start) (tokens : d.tokens <+: lexemes source)
    (proper : start.netlist.Proper)
    (words : start.netlist.vocabulary = Vocabulary.ofTable start.symbols)
    (used : Circuit.Used d.IsSwitch start c) : InUse d start c := by
  induction used with
  | unused => exact realises.inUse tokens proper words
  | started _ ih => exact ih.started proper
  | cycle _ run ih => exact ih.cycle proper run
  | setSwitch _ known set ih => exact ih.setSwitch proper realises tokens known set

/-! Edges. -/

theorem Document.Samples.mem_inputs {k : Declaration} {output : Option String}
    (samples : d.Samples e w k output) {pin : String} (h : pin ∈ ["CLK", "SET", "CLEAR", "DATA"]) :
    pin ∈ e.inputs := by
  rwa [Declaration.inputs, samples.kind]

section
variable (realises : Realises d start) (proper : start.netlist.Proper)
  (words : start.netlist.vocabulary = Vocabulary.ofTable start.symbols) (inUse : InUse d start c)

include words inUse in
theorem InUse.vocabulary : c.netlist.vocabulary = Vocabulary.ofTable start.symbols :=
  inUse.layout.1.symm.trans words

include words inUse in
theorem InUse.shown_q : Signal.shown c ⟨e.name, some "Q"⟩ =
    c.netlist.q? (start.symbols.symbol e.name) := by
  rw [Signal.shown, inUse.symbols, Netlist.q?, inUse.vocabulary words]
  rfl

include realises proper inUse

theorem InUse.exists_device? (he : e ∈ d.devices) : ∃ dev,
    c.netlist.device? (start.symbols.symbol e.name) = some dev ∧ dev.kind = e.kind := by
  obtain ⟨dev, found, shows⟩ := realises.exists_device? proper he
  obtain ⟨dev', found', same⟩ := inUse.layout.device? found
  exact ⟨dev', found', (Device.kind_congr same).symm.trans shows.kind⟩

theorem InUse.driver? (he : e ∈ d.devices) {pin : String} (hp : pin ∈ e.inputs) {s : Signal}
    (drives : d.driver? ⟨e.name, some pin⟩ = some s) :
    c.netlist.driver? (start.symbols.symbol e.name) (start.symbols.symbol pin) =
      some (s.terminal start.symbols) := by
  obtain ⟨dev, found, shows⟩ := realises.exists_device? proper he
  rw [← inUse.layout.driver?, Netlist.driver?, found, Option.bind_some, shows.driver pin hp, drives,
    Option.map_some]

theorem InUse.reads (he : e ∈ d.devices) {pin : String} (hp : pin ∈ e.inputs) {s : Signal}
    (drives : d.driver? ⟨e.name, some pin⟩ = some s) :
    c.reads e.name pin = c.netlist.level? (s.terminal start.symbols) := by
  rw [Circuit.reads, inUse.symbols, Netlist.reads, inUse.driver? realises proper he hp drives,
    Option.bind_some]

/-- What an input reads once the sources have stepped. -/
theorem InUse.reads_stepSources (he : e ∈ d.devices) {pin : String} (hp : pin ∈ e.inputs)
    {s : Signal} (drives : d.driver? ⟨e.name, some pin⟩ = some s) :
    c.netlist.stepSources.reads (start.symbols.symbol e.name) (start.symbols.symbol pin) =
      c.netlist.stepSources.level? (s.terminal start.symbols) := by
  have stepped := Netlist.sameLayout_stepSources (inUse.layout.proper proper)
  rw [Netlist.reads, ← stepped.driver?, inUse.driver? realises proper he hp drives,
    Option.bind_some]

variable {k : Declaration} {output : Option String} (samples : d.Samples e w k output)
include words samples

theorem InUse.tied :
    c.netlist.Tied (start.symbols.symbol e.name) (start.symbols.symbol groundName) := by
  have vocabulary := inUse.vocabulary words
  have grounded {pin : String} (hp : pin ∈ ["CLK", "SET", "CLEAR", "DATA"])
      (loose : ⟨e.name, some pin⟩ ∈ d.loose) :
      c.netlist.driver? (start.symbols.symbol e.name) (start.symbols.symbol pin) =
        some ⟨start.symbols.symbol groundName, none⟩ := by
    have drives : d.driver? ⟨e.name, some pin⟩ = some groundSignal := if_pos loose
    exact inUse.driver? realises proper samples.member (samples.mem_inputs hp) drives
  refine ⟨inUse.low (List.ne_nil_of_mem samples.set), ?_, ?_⟩
  · rw [vocabulary]
    exact grounded (by simp) samples.set
  · rw [vocabulary]
    exact grounded (by simp) samples.clear

omit words in
/-- A switch shows the same before and after a cycle. -/
theorem InUse.clock_of_switch (completes : Circuit.cycle c = .ok () c')
    (switch : k.kind = .switch) : c'.reads e.name "CLK" = c.reads e.name "CLK" := by
  have later := inUse.cycle proper completes
  obtain ⟨n, run, rfl⟩ := Circuit.cycle_ok_iff.mp completes
  have clk : "CLK" ∈ e.inputs := samples.mem_inputs (by simp)
  rw [inUse.reads realises proper samples.member clk samples.clock,
    later.reads realises proper samples.member clk samples.clock]
  obtain ⟨b, held⟩ := inUse.switches k samples.driver switch
  have held' := (Netlist.kept_switch _ _).cycle held c.limit
  rw [run] at held'
  exact Netlist.level?_congr (held'.trans held.symm)

/-- Where the clock input rises, the flip-flop takes over what the switch shows. -/
theorem InUse.takes_over (completes : Circuit.cycle c = .ok () c')
    (rises : c.netlist.stepSources.reads (start.symbols.symbol e.name)
      (start.symbols.symbol "CLK") = some .rising) :
    ∃ level, Signal.shown c' ⟨e.name, some "Q"⟩ = some level ∧
      Signal.shown c ⟨w.name, none⟩ = some level ∧
      Signal.shown c' ⟨w.name, none⟩ = some level := by
  have later := inUse.cycle proper completes
  obtain ⟨n, run, rfl⟩ := Circuit.cycle_ok_iff.mp completes
  have vocabulary := inUse.vocabulary words
  obtain ⟨dev, found, kind⟩ := inUse.exists_device? realises proper samples.member
  obtain ⟨memory, body⟩ := Device.exists_memory (kind.trans samples.kind)
  obtain ⟨b, switched⟩ := inUse.switches w samples.source samples.switch
  have kept := Netlist.kept_switch (start.symbols.symbol w.name) (.ofBool b)
  have switched' := kept.cycle switched c.limit
  rw [run] at switched'
  have level {n : Netlist} (h : n.device? (start.symbols.symbol w.name) =
      some (Device.newSwitch (start.symbols.symbol w.name) (.ofBool b))) :
      n.level? ((⟨w.name, none⟩ : Signal).terminal start.symbols) = some (.ofBool b) := by
    rw [Netlist.level?, Signal.terminal, h]
    rfl
  have input : "DATA" ∈ e.inputs := samples.mem_inputs (by simp)
  have data := inUse.reads_stepSources realises proper samples.member input samples.data
  rw [level (kept.stepSources _ switched)] at data
  have tied := inUse.tied realises proper words samples
  have taken := tied.q?_of_rising (inUse.layout.proper proper) inUse.steady run
    ⟨dev, found, body⟩ (by rw [vocabulary]; exact rises) (by rw [vocabulary]; exact data)
  refine ⟨.ofBool b, ?_, ?_, ?_⟩
  · rw [later.shown_q words, taken, Level.settled_ofBool]
  · rw [Signal.shown, inUse.symbols, level switched]
  · rw [Signal.shown, later.symbols]
    exact level switched'

/-- Where the clock input does not rise, the flip-flop shows what it has shown. -/
theorem InUse.keeps (completes : Circuit.cycle c = .ok () c')
    (rests : c.netlist.stepSources.reads (start.symbols.symbol e.name)
      (start.symbols.symbol "CLK") ≠ some .rising) :
    ∃ level, Signal.shown c' ⟨e.name, some "Q"⟩ = some level ∧
      Signal.shown c ⟨e.name, some "Q"⟩ = some level := by
  have later := inUse.cycle proper completes
  obtain ⟨n, run, rfl⟩ := Circuit.cycle_ok_iff.mp completes
  obtain ⟨dev, found, kind⟩ := inUse.exists_device? realises proper samples.member
  obtain ⟨memory, body⟩ := Device.exists_memory (kind.trans samples.kind)
  have tied := inUse.tied realises proper words samples
  obtain ⟨held, held'⟩ := tied.q?_of_rest (inUse.layout.proper proper) inUse.steady run
    ⟨dev, found, body⟩ (by rw [inUse.vocabulary words]; exact rests)
  refine ⟨memory, ?_, ?_⟩
  · rw [later.shown_q words, held']
  · rw [inUse.shown_q words, held]

/-- A cycle after which the clock input has gone from low to high. -/
theorem InUse.latches (completes : Circuit.cycle c = .ok () c') {before after : Level}
    (shown : c.reads e.name "CLK" = some before) (low : before.isHigh = false)
    (shown' : c'.reads e.name "CLK" = some after) (high : after.isHigh = true) :
    ∃ level, Signal.shown c' ⟨e.name, some "Q"⟩ = some level ∧
      (k.kind = .clock → Signal.shown c ⟨w.name, none⟩ = some level ∧
        Signal.shown c' ⟨w.name, none⟩ = some level) ∧
      (k.kind ≠ .clock → Signal.shown c ⟨e.name, some "Q"⟩ = some level) ∧ k.kind ≠ .switch := by
  have unswitched : k.kind ≠ .switch := by
    intro switch
    rw [inUse.clock_of_switch realises proper samples completes switch, shown] at shown'
    obtain rfl := Option.some.inj shown'
    cases low.symm.trans high
  have clk : "CLK" ∈ e.inputs := samples.mem_inputs (by simp)
  rw [inUse.reads realises proper samples.member clk samples.clock] at shown
  rw [(inUse.cycle proper completes).reads realises proper samples.member clk samples.clock]
    at shown'
  obtain ⟨driver, found, kind⟩ := inUse.exists_device? realises proper samples.driver
  have input := inUse.reads_stepSources realises proper samples.member clk samples.clock
  by_cases clock : k.kind = .clock
  · obtain ⟨n, run, rfl⟩ := Circuit.cycle_ok_iff.mp completes
    have rises := Netlist.rising_of_clock (inUse.layout.proper proper) run found
      (kind.trans clock) shown low shown' high
    obtain ⟨level, taken, data, data'⟩ :=
      inUse.takes_over realises proper words samples completes (input.trans rises)
    exact ⟨level, taken, fun _ => ⟨data, data'⟩, fun other => absurd clock other, unswitched⟩
  · have rests : c.netlist.stepSources.level? (Signal.terminal start.symbols ⟨k.name, output⟩) ≠
        some .rising := Netlist.level?_ne_rising inUse.sound found (kind ▸ clock)
    obtain ⟨level, shows, showed⟩ := inUse.keeps realises proper words samples completes
      fun rises => rests (input.symm.trans rises)
    exact ⟨level, shows, fun same => absurd same clock, fun _ => showed, unswitched⟩

end

/-- Where only a switch and a clock input tell a flip-flop of a compiled circuit what to do, and
that input is low before a cycle and high after it: the flip-flop takes over what the switch shows
if a clock drives the input, and keeps what it has shown if a gate, a generator or another flip-flop
does. A switch does not change an input in a cycle. -/
theorem latches_on_clocks (run : compileInto source (Circuit.empty limit) = .ok compiled)
    (ok : compiled.isOk = true) : ∃ d : Document, d.WellFormed ∧
      (∀ d' : Document, d'.tokens <+: lexemes source ↔ d' = d) ∧
      ∀ e w k output, d.Samples e w k output →
        ∀ c, Circuit.Used d.IsSwitch compiled.circuit c →
        ∀ c', Circuit.cycle c = .ok () c' →
        ∀ before after, c.reads e.name "CLK" = some before → before.isHigh = false →
          c'.reads e.name "CLK" = some after → after.isHigh = true →
          ∃ level, Signal.shown c' ⟨e.name, some "Q"⟩ = some level ∧
            (k.kind = .clock → Signal.shown c ⟨w.name, none⟩ = some level ∧
              Signal.shown c' ⟨w.name, none⟩ = some level) ∧
            (k.kind ≠ .clock → Signal.shown c ⟨e.name, some "Q"⟩ = some level) ∧
            k.kind ≠ .switch := by
  obtain ⟨-, -, d, wf, tokens, realises⟩ := exists_document_into run ok
  have proper := proper_compileInto run
  have words := vocabulary_compileInto run
  refine ⟨d, wf, fun d' => ⟨fun other => Document.eq_of_tokens_prefix other tokens,
    fun eq => eq ▸ tokens⟩, ?_⟩
  intro e w k output samples c used c' completes before after shown low shown' high
  have inUse := InUse.of_used realises tokens proper words used
  exact inUse.latches realises proper words samples completes shown low shown' high

/-- A clock and a generator, each of which drives the clock input of a flip-flop. -/
def edgesText : String :=
  "DEVICES C = CLOCK, 1; G = SIGGEN, 1, 1; T = SWITCH, 0; F = DTYPE; H = DTYPE; " ++
    "CONNECT C -> F.CLK; G -> H.CLK; T -> F.DATA, H.DATA; MONITOR F.Q; END"

def edgesDocument : Document where
  devices := [⟨"C", .clock, [1]⟩, ⟨"G", .generator, [1, 1]⟩, ⟨"T", .switch, [0]⟩,
    ⟨"F", .flipFlop, []⟩, ⟨"H", .flipFlop, []⟩]
  connections := [⟨⟨"C", none⟩, ⟨"F", some "CLK"⟩, []⟩, ⟨⟨"G", none⟩, ⟨"H", some "CLK"⟩, []⟩,
    ⟨⟨"T", none⟩, ⟨"F", some "DATA"⟩, [⟨"H", some "DATA"⟩]⟩]
  monitors := [⟨"F", some "Q"⟩]

/-- After two cycles from cold the clock and the generator are low, and the switch is set high. -/
def beforeEdges (c : Circuit) : Circuit :=
  let later := (Circuit.cycle (Circuit.cycle c.started).state).state
  (later.setSwitch "T" true).toOption.getD later

theorem samples_edges : edgesDocument.tokens <+: lexemes edgesText ∧
    edgesDocument.Samples ⟨"F", .flipFlop, []⟩ ⟨"T", .switch, [0]⟩ ⟨"C", .clock, [1]⟩ none ∧
    edgesDocument.Samples ⟨"H", .flipFlop, []⟩ ⟨"T", .switch, [0]⟩
      ⟨"G", .generator, [1, 1]⟩ none := by
  refine ⟨by decide +kernel, ?_, ?_⟩
  all_goals
    exact ⟨by decide, rfl, by decide +kernel, by decide +kernel, by decide, rfl,
      by decide +kernel, by decide, by decide +kernel⟩

/-- In the third cycle both clock inputs go from low to high, one of them by an edge. -/
theorem runs_edges : ∃ compiled c', compileInto edgesText (Circuit.empty 20) = .ok compiled ∧
    compiled.isOk = true ∧
    Circuit.Used edgesDocument.IsSwitch compiled.circuit (beforeEdges compiled.circuit) ∧
    Circuit.cycle (beforeEdges compiled.circuit) = .ok () c' ∧
    (beforeEdges compiled.circuit).reads "F" "CLK" = some .falling ∧
    c'.reads "F" "CLK" = some .rising ∧
    (beforeEdges compiled.circuit).reads "H" "CLK" = some .low ∧
    c'.reads "H" "CLK" = some .high ∧
    Signal.shown c' ⟨"T", none⟩ = some .high ∧ Signal.shown c' ⟨"H", some "Q"⟩ = some .low := by
  have accepted : (compileInto edgesText (Circuit.empty 20)).toOption.any (fun compiled =>
      let first := Circuit.cycle compiled.circuit.started
      let second := Circuit.cycle first.state
      let before := beforeEdges compiled.circuit
      let third := Circuit.cycle before
      (compiled.isOk && first.isOk && second.isOk && third.isOk &&
        (second.state.setSwitch "T" true).toOption.isSome) &&
      (before.reads "F" "CLK" = some .falling ∧ third.state.reads "F" "CLK" = some .rising ∧
        before.reads "H" "CLK" = some .low ∧ third.state.reads "H" "CLK" = some .high ∧
        Signal.shown third.state ⟨"T", none⟩ = some .high ∧
        Signal.shown third.state ⟨"H", some "Q"⟩ = some .low)) = true := by
    decide +kernel
  obtain ⟨compiled, run, accepted⟩ := exists_of_any accepted
  simp only [Bool.and_eq_true, decide_eq_true_eq] at accepted
  obtain ⟨⟨⟨⟨⟨ok, first⟩, second⟩, third⟩, switched⟩, levels⟩ := accepted
  have one := EStateM.Result.eq_ok_of_isOk first
  have two := EStateM.Result.eq_ok_of_isOk second
  have set : (Circuit.cycle (Circuit.cycle compiled.circuit.started).state).state.setSwitch "T"
      true = .ok (beforeEdges compiled.circuit) := by
    rw [beforeEdges]
    cases h : (Circuit.cycle (Circuit.cycle compiled.circuit.started).state).state.setSwitch "T"
        true with
    | ok c => rfl
    | error u =>
      rw [h] at switched
      cases switched
  have known : edgesDocument.IsSwitch "T" := ⟨⟨"T", .switch, [0]⟩, by decide, rfl, rfl⟩
  have used := ((Circuit.Used.unused.started.cycle one).cycle two).setSwitch known set
  exact ⟨compiled, _, run, ok, used, EStateM.Result.eq_ok_of_isOk third, levels⟩

theorem edgesText_latches : ∃ compiled c', compileInto edgesText (Circuit.empty 20) = .ok compiled ∧
    compiled.isOk = true ∧ Circuit.cycle (beforeEdges compiled.circuit) = .ok () c' ∧
    Signal.shown c' ⟨"F", some "Q"⟩ = some .high ∧
    Signal.shown (beforeEdges compiled.circuit) ⟨"H", some "Q"⟩ = some .low := by
  obtain ⟨compiled, c', run, ok, used, completes, falling, rising, low, high, switch, held⟩ :=
    runs_edges
  obtain ⟨tokens, clocked, generated⟩ := samples_edges
  obtain ⟨d, -, unique, latches⟩ := latches_on_clocks run ok
  obtain rfl := (unique edgesDocument).mp tokens
  obtain ⟨level, q, taken, -⟩ :=
    latches _ _ _ _ clocked _ used _ completes _ _ falling rfl rising rfl
  obtain ⟨level', q', -, kept, -⟩ :=
    latches _ _ _ _ generated _ used _ completes _ _ low rfl high rfl
  refine ⟨compiled, c', run, ok, completes, ?_, ?_⟩
  · rw [q, ← (taken rfl).2, switch]
  · rw [kept (by decide), ← q', held]

/-- That the clock input has gone from low to high is not enough for a flip-flop to latch. -/
theorem not_latches_on_levels : ¬ ∀ (source : String) (limit : Nat) (compiled : Compiled),
    compileInto source (Circuit.empty limit) = .ok compiled → compiled.isOk = true →
    ∀ d : Document, d.tokens <+: lexemes source →
    ∀ e w k output, d.Samples e w k output →
    ∀ c, Circuit.Used d.IsSwitch compiled.circuit c → ∀ c', Circuit.cycle c = .ok () c' →
    ∀ before after, c.reads e.name "CLK" = some before → before.isHigh = false →
      c'.reads e.name "CLK" = some after → after.isHigh = true →
      Signal.shown c' ⟨e.name, some "Q"⟩ = Signal.shown c' ⟨w.name, none⟩ := by
  intro claim
  obtain ⟨compiled, c', run, ok, used, completes, -, -, low, high, switch, held⟩ := runs_edges
  obtain ⟨tokens, -, generated⟩ := samples_edges
  have same :=
    claim _ _ _ run ok _ tokens _ _ _ _ generated _ used _ completes _ _ low rfl high rfl
  rw [held, switch] at same
  cases same

end Description

end LogicCircuit
