import LogicCircuit.Proofs.Netlist.Acyclic
import LogicCircuit.Proofs.Netlist.Reached

/-!
What a cycle does to the flip-flops, all at once: set and clear come first, then the edge of the
clock, and the data are those from before any flip-flop has changed.
-/

namespace LogicCircuit.Netlist

theorem map_tail_of_isChain {α β : Type} {R : α → α → Prop} {l : List α} {f g : α → β}
    (linked : l.IsChain R) (step : ∀ a ∈ l, ∀ b ∈ l, R a b → f b = g a) :
    l.tail.map f = l.dropLast.map g := by
  induction linked with
  | nil => rfl
  | singleton a => rfl
  | @cons_cons a b rest link linked ih =>
    have later := ih fun c hc d hd => step c (List.mem_cons_of_mem a hc) d (List.mem_cons_of_mem a hd)
    rw [List.tail_cons] at later ⊢
    rw [List.map_cons, List.dropLast_cons_cons, List.map_cons, later,
      step a List.mem_cons_self b (List.mem_cons_of_mem a List.mem_cons_self) link]

variable {start n m : Netlist} {s : Symbol} {d : Device} {output clock : Terminal}
  {stages : List Symbol} {limit : Nat}

/-- What a flip-flop shows on its output Q. -/
def q? (n : Netlist) (s : Symbol) : Option Level :=
  n.level? ⟨s, some n.vocabulary.flipFlop.q⟩

/-- The flip-flop is neither set nor cleared. -/
def Idle (n : Netlist) (s : Symbol) : Prop :=
  ∀ pin ∈ [n.vocabulary.flipFlop.set, n.vocabulary.flipFlop.clear],
    ∀ level ∈ n.reads s pin, level.isHigh = false

/-- Flip-flops on one clock, each of which has its data from the output Q of the one before. -/
structure ShiftRegister (n : Netlist) (clock : Terminal) (stages : List Symbol) : Prop where
  clocked : ∀ s ∈ stages, ∃ d, n.device? s = some d ∧ d.kind = .flipFlop ∧
    d.driver? n.vocabulary.flipFlop.clock = some clock
  linked : stages.IsChain fun s t =>
    n.driver? t n.vocabulary.flipFlop.data = some ⟨s, some n.vocabulary.flipFlop.q⟩

theorem level?_stepSources_of_not_isSource (other : ¬ n.IsSource output.device) :
    n.stepSources.level? output = n.level? output := by
  rw [level?, level?, stepSources, device?_map symbol_stepped]
  cases found : n.device? output.device with
  | none => rfl
  | some d =>
    have same : d.stepped = d := by
      have kind : d.kind.isSource = false := by
        rw [← Bool.not_eq_true]
        exact fun source => other ⟨d, found, source⟩
      rw [Device.stepped]
      cases body : d.body <;> simp_all [Device.kind, Body.kind, Kind.isSource]
    rw [Option.map_some, same]

/-- Sources do not change any more once they have stepped. -/
theorem level?_of_isSource (proper : n.Proper) (preset : n.Preset)
    (run : n.cycle limit = .ok () m) (source : n.IsSource output.device) :
    m.level? output = n.stepSources.level? output := by
  obtain ⟨k, latched, settles⟩ := cycle_ok_iff.mp run
  have step := sameLayout_stepSources proper
  have proper' := step.proper proper
  have same := step.trans (sameLayout_latchAll proper' latched)
  obtain ⟨d, found, kind⟩ := same.isSource source
  have answer := answers_of_settle (same.preset preset) (same.proper proper).nodup settles
    output.device d found (isGate_of_isSource kind)
  rw [Device.respond_of_isSource kind, ← found] at answer
  rw [level?_congr answer, level?_latched proper'.nodup latched]

theorem reads_of_preset {pin : Symbol} (proper : n.Proper) (preset : n.Preset)
    (run : n.cycle limit = .ok () m) (found : n.device? s = some d) (kind : d.kind = .flipFlop)
    (hp : pin ∈ [n.vocabulary.flipFlop.set, n.vocabulary.flipFlop.clear]) :
    m.reads s pin = n.stepSources.reads s pin := by
  obtain ⟨e, found', same⟩ := (sameLayout_cycle proper run).device? found
  rw [reads_of_device? found', reads_of_device? (device?_stepSources_of_flipFlop found kind),
    Device.reads_congr_inputs (Device.inputs_congr same).symm]
  refine Device.reads_congr fun output drives => ?_
  exact level?_of_isSource proper preset run (preset s d found kind pin hp output drives)

/-- A flip-flop goes by what it reads after the sources have stepped. -/
theorem exists_device?_of_flipFlop (proper : n.Proper) (wired : n.isWired = true)
    (preset : n.Preset) (run : n.cycle limit = .ok () m) (found : n.device? s = some d)
    {memory : Level} (body : d.body = .flipFlop memory) :
    ∃ set clear clock data e,
      n.stepSources.reads s n.vocabulary.flipFlop.set = some set ∧
      n.stepSources.reads s n.vocabulary.flipFlop.clear = some clear ∧
      n.stepSources.reads s n.vocabulary.flipFlop.clock = some clock ∧
      n.stepSources.reads s n.vocabulary.flipFlop.data = some data ∧
      m.device? s = some e ∧ e.body = .flipFlop
        (Level.preset set clear (if clock = .rising then data.settled else memory)) := by
  have kind : d.kind = .flipFlop := by rw [Device.kind, body, Body.kind]
  obtain ⟨k, latched, settles⟩ := cycle_ok_iff.mp run
  have step := sameLayout_stepSources proper
  have proper' := step.proper proper
  have same := step.trans (sameLayout_latchAll proper' latched)
  have found' := device?_stepSources_of_flipFlop found kind
  have known := ((proper.pins s d found).flipFlop kind).1
  have reads (pin : Symbol) (hp : pin ∈ n.vocabulary.flipFlop.inputs) :
      ∃ level, d.reads n.stepSources.level? pin = some level :=
    exists_reads proper' (step.isWired wired) found' (known pin hp)
  obtain ⟨set, hs⟩ := reads n.vocabulary.flipFlop.set (by simp [FlipFlopPins.inputs])
  obtain ⟨clear, hc⟩ := reads n.vocabulary.flipFlop.clear (by simp [FlipFlopPins.inputs])
  obtain ⟨clock, hk⟩ := reads n.vocabulary.flipFlop.clock (by simp [FlipFlopPins.inputs])
  obtain ⟨data, hd⟩ := reads n.vocabulary.flipFlop.data (by simp [FlipFlopPins.inputs])
  -- the flip-flop has latched when the passes begin, and in them it responds to sources only
  have held : k.device? s = some (d.latched n.vocabulary.flipFlop n.stepSources.level?) := by
    rw [device?_latched proper'.nodup latched, found', Option.map_some, ← step.1]
  have body' := Device.body_latched body hk hd
  have inputs := (Device.latched_frame n.vocabulary.flipFlop n.stepSources.level? d).2.1
  have answer := answers_of_settle (same.preset preset) (same.proper proper).nodup settles s _ held
    (by rw [Device.kind]; exact body' ▸ rfl)
  rw [← same.1, level?_latched proper'.nodup latched, (Device.respond_flipFlop_iff body').mpr
    ⟨set, clear, by rw [Device.reads_congr_inputs inputs, hs],
      by rw [Device.reads_congr_inputs inputs, hc], rfl⟩] at answer
  rw [reads_of_device? found']
  exact ⟨set, clear, clock, data, _, hs, hc, hk, hd, answer, rfl⟩

section
variable (proper : n.Proper) (wired : n.isWired = true) (preset : n.Preset) (steady : n.Steady)
  (run : n.cycle limit = .ok () m)
include proper wired preset steady run

/-- The law of a flip-flop: what it reads, and what it shows before and after a cycle. -/
theorem flipFlop_of_cycle (found : n.device? s = some d) (kind : d.kind = .flipFlop) :
    ∃ set clear clock data shown,
      m.reads s n.vocabulary.flipFlop.set = some set ∧
      m.reads s n.vocabulary.flipFlop.clear = some clear ∧
      n.stepSources.reads s n.vocabulary.flipFlop.clock = some clock ∧
      n.stepSources.reads s n.vocabulary.flipFlop.data = some data ∧
      n.q? s = some shown ∧ shown.settled = shown ∧
      m.q? s = some (Level.preset set clear (if clock = .rising then data.settled else shown)) := by
  obtain ⟨memory, body⟩ := Device.exists_memory kind
  have shown := steady.shows d (mem_of_device? found) memory body
  have calm := steady.calm d (mem_of_device? found) memory body
  obtain ⟨set, clear, clock, data, e, hs, hc, hk, hd, found', body'⟩ :=
    exists_device?_of_flipFlop proper wired preset run found body
  have shown' := (steady.cycle proper run).shows e (mem_of_device? found') _ body'
  have later {pin : Symbol}
      (hp : pin ∈ [n.vocabulary.flipFlop.set, n.vocabulary.flipFlop.clear]) :=
    reads_of_preset proper preset run found kind hp
  refine ⟨set, clear, clock, data, memory, ?_, ?_, hk, hd, ?_, calm, ?_⟩
  · rw [later (by simp), hs]
  · rw [later (by simp), hc]
  · rw [q?, level?, found, Option.bind_some, shown]
  · rw [q?, level?, found', Option.bind_some, shown']

/-- A flip-flop that is neither set nor cleared takes over its data on an edge of its clock, and
holds what it shows otherwise. -/
theorem q?_of_idle (found : n.device? s = some d) (kind : d.kind = .flipFlop)
    (clocked : d.driver? n.vocabulary.flipFlop.clock = some clock)
    (idle : m.Idle s) : m.q? s = if n.stepSources.level? clock = some .rising then
      (n.stepSources.reads s n.vocabulary.flipFlop.data).map Level.settled else n.q? s := by
  obtain ⟨set, clear, edge, data, shown, hs, hc, hk, hd, before, -, after⟩ :=
    flipFlop_of_cycle proper wired preset steady run found kind
  rw [Idle, (frame_cycle run).1] at idle
  have unset := idle _ (by simp) set hs
  have uncleared := idle _ (by simp) clear hc
  rw [reads_of_device? (device?_stepSources_of_flipFlop found kind), Device.reads, clocked,
    Option.bind_some] at hk
  rw [after, hk, hd, before, Level.preset, unset, uncleared]
  by_cases rises : edge = .rising <;> simp [rises]

theorem ShiftRegister.shift (register : n.ShiftRegister clock stages)
    (idle : ∀ s ∈ stages, m.Idle s)
    (rises : n.stepSources.level? clock = some .rising) :
    stages.tail.map m.q? = stages.dropLast.map n.q? := by
  refine map_tail_of_isChain register.linked fun s hs t ht link => ?_
  obtain ⟨d, source, flipFlop, -⟩ := register.clocked s hs
  obtain ⟨e, found, kind, clocked⟩ := register.clocked t ht
  obtain ⟨-, -, -, -, shown, -, -, -, -, before, calm, -⟩ :=
    flipFlop_of_cycle proper wired preset steady run source flipFlop
  have other : ¬ n.IsSource s := by
    intro h
    obtain ⟨d', source', kind'⟩ := h
    rw [source] at source'
    rw [← Option.some.inj source', flipFlop] at kind'
    cases kind'
  rw [driver?, found, Option.bind_some] at link
  have data : n.stepSources.reads t n.vocabulary.flipFlop.data = n.q? s := by
    rw [reads_of_device? (device?_stepSources_of_flipFlop found kind), Device.reads, link,
      Option.bind_some, level?_stepSources_of_not_isSource other, q?]
  rw [q?_of_idle proper wired preset steady run found kind clocked (idle t ht), if_pos rises, data,
    before, Option.map_some, calm]

theorem ShiftRegister.hold (register : n.ShiftRegister clock stages)
    (idle : ∀ s ∈ stages, m.Idle s)
    (rests : n.stepSources.level? clock ≠ some .rising) :
    stages.map m.q? = stages.map n.q? := by
  refine List.map_congr_left fun s hs => ?_
  obtain ⟨d, found, kind, clocked⟩ := register.clocked s hs
  rw [q?_of_idle proper wired preset steady run found kind clocked (idle s hs), if_neg rests]

end

/-- Cycles that neither set nor clear a stage, with the number of edges of the clock in them, and
settings of switches in between. -/
inductive Shifting (clock : Terminal) (stages : List Symbol) (n : Netlist) : Nat → Netlist → Prop
  | start : Shifting clock stages n 0 n
  | edge {edges limit : Nat} {k m : Netlist} (before : Shifting clock stages n edges k)
    (run : k.cycle limit = .ok () m) (idle : ∀ s ∈ stages, m.Idle s)
    (rises : k.stepSources.level? clock = some .rising) : Shifting clock stages n (edges + 1) m
  | hold {edges limit : Nat} {k m : Netlist} (before : Shifting clock stages n edges k)
    (run : k.cycle limit = .ok () m) (idle : ∀ s ∈ stages, m.Idle s)
    (rests : k.stepSources.level? clock ≠ some .rising) : Shifting clock stages n edges m
  | setSwitch {edges : Nat} {k m : Netlist} {s : Symbol} {isHigh : Bool}
    (before : Shifting clock stages n edges k)
    (set : k.setSwitch? s (.ofBool isHigh) = some m) : Shifting clock stages n edges m

theorem Shifting.reached {edges : Nat} (reached : Reached start n)
    (h : Shifting clock stages n edges m) : Reached start m := by
  induction h with
  | start => exact reached
  | edge _ run _ _ before => exact before.cycle run
  | hold _ run _ _ before => exact before.cycle run
  | setSwitch _ set before => exact before.setSwitch set

theorem SameLayout.shiftRegister (h : n.SameLayout m) (register : n.ShiftRegister clock stages) :
    m.ShiftRegister clock stages := by
  refine ⟨fun s hs => ?_, ?_⟩
  · obtain ⟨d, found, kind, clocked⟩ := register.clocked s hs
    obtain ⟨e, found', same⟩ := h.device? found
    refine ⟨e, found', ?_, ?_⟩
    · rw [← Device.kind_congr same, kind]
    · rw [← h.1, ← Device.driver?_congr same, clocked]
  · rw [← h.1, ← h.driver?]
    exact register.linked

theorem ShiftRegister.q?_setSwitch {level : Level} (register : n.ShiftRegister clock stages)
    (set : n.setSwitch? s level = some m) : stages.map m.q? = stages.map n.q? := by
  refine List.map_congr_left fun t ht => ?_
  obtain ⟨d, found, flipFlop, -⟩ := register.clocked t ht
  obtain ⟨e, switch, kind, rfl⟩ := setSwitch?_eq_some_iff.mp set
  have other : t ≠ s := by
    rintro rfl
    rw [found] at switch
    rw [← Option.some.inj switch, flipFlop] at kind
    cases kind
  rw [q?, q?, level?, level?, device?_setSwitch_of_ne set other]
  rfl

/-- After a number of edges each stage shows what that many stages before it showed. -/
theorem Shifting.drop_eq_take {edges : Nat} (built : start.Built) (wired : start.isWired = true)
    (preset : start.Preset) (reached : Reached start n) (register : n.ShiftRegister clock stages)
    (h : Shifting clock stages n edges m) :
    (stages.drop edges).map m.q? = (stages.take (stages.length - edges)).map n.q? := by
  have layout := reached.sameLayout built.proper
  -- between two steps the stages are still a shift register, in a state that is reached
  have between {edges : Nat} {k : Netlist} (before : Shifting clock stages n edges k) :
      k.Proper ∧ k.isWired = true ∧ k.Preset ∧ k.Steady ∧ k.ShiftRegister clock stages := by
    have later := before.reached reached
    have same := later.sameLayout built.proper
    exact ⟨same.proper built.proper, same.isWired wired, same.preset preset,
      later.steady built.proper, (layout.symm.trans same).shiftRegister register⟩
  induction h with
  | start => rw [List.drop_zero, Nat.sub_zero, List.take_length]
  | @edge edges limit k m before run idle rises ih =>
    obtain ⟨proper, wired, preset, steady, register⟩ := between before
    have shift := register.shift proper wired preset steady run idle rises
    calc (stages.drop (edges + 1)).map m.q?
      _ = (stages.tail.map m.q?).drop edges := by rw [← List.drop_tail, List.map_drop]
      _ = (stages.dropLast.map k.q?).drop edges := by rw [shift]
      _ = ((stages.drop edges).map k.q?).take (stages.length - 1 - edges) := by
        rw [List.dropLast_eq_take, List.map_take, List.drop_take, List.map_drop]
      _ = ((stages.take (stages.length - edges)).map n.q?).take (stages.length - 1 - edges) := by
        rw [ih]
      _ = (stages.take (stages.length - (edges + 1))).map n.q? := by
        rw [← List.map_take, List.take_take]
        congr 2
        omega
  | @hold edges limit k m before run idle rests ih =>
    obtain ⟨proper, wired, preset, steady, register⟩ := between before
    have hold := register.hold proper wired preset steady run idle rests
    rw [List.map_drop, hold, ← List.map_drop, ih]
  | @setSwitch edges k m s isHigh before set ih =>
    obtain ⟨-, -, -, -, register⟩ := between before
    rw [List.map_drop, register.q?_setSwitch set, ← List.map_drop, ih]

/-- In every state that cycles and switches lead to, a cycle that completes sets and clears all
flip-flops and lets the others take over their data on an edge: those of this cycle from a source,
those from before it from a gate or a flip-flop. So a shift register shifts by one stage on each
edge of its clock. -/
theorem flipFlops_of_reached (built : start.Built) (wired : start.isWired = true)
    (preset : start.Preset) (reached : Reached start n) (run : n.cycle limit = .ok () m) :
    (∀ s d, n.device? s = some d → d.kind = .flipFlop →
      ∃ set clear clock data shown output,
        m.reads s n.vocabulary.flipFlop.set = some set ∧
        m.reads s n.vocabulary.flipFlop.clear = some clear ∧
        n.stepSources.reads s n.vocabulary.flipFlop.clock = some clock ∧
        d.driver? n.vocabulary.flipFlop.data = some output ∧
        (n.IsSource output.device → m.level? output = some data) ∧
        (¬ n.IsSource output.device → n.level? output = some data) ∧
        n.q? s = some shown ∧
        m.q? s = some (if set.isHigh then .high else if clear.isHigh then .low
          else if clock = .rising then data.settled else shown)) ∧
    ∀ clock stages, n.ShiftRegister clock stages → (∀ s ∈ stages, m.Idle s) →
      (n.stepSources.level? clock = some .rising →
        stages.tail.map m.q? = stages.dropLast.map n.q?) ∧
      (n.stepSources.level? clock ≠ some .rising → stages.map m.q? = stages.map n.q?) := by
  have same := reached.sameLayout built.proper
  have proper := same.proper built.proper
  have wired := same.isWired wired
  have preset := same.preset preset
  have steady := reached.steady built.proper
  refine ⟨fun s d found kind => ?_, fun clock stages register idle => ?_⟩
  · obtain ⟨set, clear, clock, data, shown, hs, hc, hk, hd, before, -, after⟩ :=
      flipFlop_of_cycle proper wired preset steady run found kind
    rw [reads_of_device? (device?_stepSources_of_flipFlop found kind), Device.reads,
      Option.bind_eq_some_iff] at hd
    obtain ⟨output, drives, level⟩ := hd
    refine ⟨set, clear, clock, data, shown, output, hs, hc, hk, drives, fun source => ?_,
      fun other => ?_, before, after⟩
    · rw [level?_of_isSource proper preset run source, level]
    · rw [← level?_stepSources_of_not_isSource other, level]
  · exact ⟨register.shift proper wired preset steady run idle,
      register.hold proper wired preset steady run idle⟩

/-- Three flip-flops on one clock, the last of which is declared first. -/
def threeStages : Netlist :=
  let t := SymbolTable.ofList Vocabulary.words
  let v := Vocabulary.ofTable t
  let declared := (Netlist.empty t).declareAll
    [(⟨40⟩, .switch, some 0, none), (⟨41⟩, .switch, some 0, none), (⟨42⟩, .clock, some 1, none),
      (⟨45⟩, .flipFlop, none, none), (⟨44⟩, .flipFlop, none, none), (⟨43⟩, .flipFlop, none, none)]
  let idle := declared.connectAll ⟨⟨40⟩, none⟩ ([⟨43⟩, ⟨44⟩, ⟨45⟩].flatMap fun s =>
    [(s, v.flipFlop.set), (s, v.flipFlop.clear)])
  let clocked := idle.connectAll ⟨⟨42⟩, none⟩ ([⟨43⟩, ⟨44⟩, ⟨45⟩].map fun s =>
    (s, v.flipFlop.clock))
  ((clocked.connectAll ⟨⟨41⟩, none⟩ [(⟨43⟩, v.flipFlop.data)]).connectAll
    ⟨⟨43⟩, some v.flipFlop.q⟩ [(⟨44⟩, v.flipFlop.data)]).connectAll
    ⟨⟨44⟩, some v.flipFlop.q⟩ [(⟨45⟩, v.flipFlop.data)]

/-- The register with its data input set high. -/
def filling : Netlist :=
  (threeStages.started.setSwitch? ⟨41⟩ (.ofBool true)).getD threeStages.started

/-- The register two cycles later. -/
def loaded : Netlist :=
  ((filling.cycle 20).state.cycle 20).state

theorem reached_loaded : Reached threeStages loaded := by
  have switched : threeStages.started.setSwitch? ⟨41⟩ (.ofBool true) = some filling := by
    decide +kernel
  have first : (filling.cycle 20).isOk = true := by decide +kernel
  have second : ((filling.cycle 20).state.cycle 20).isOk = true := by decide +kernel
  exact ((Reached.started.setSwitch switched).cycle (EStateM.Result.eq_ok_of_isOk first)).cycle
    (EStateM.Result.eq_ok_of_isOk second)

theorem register_loaded : loaded.ShiftRegister ⟨⟨42⟩, none⟩ [⟨43⟩, ⟨44⟩, ⟨45⟩] := by
  have clocked : ∀ s ∈ [(⟨43⟩ : Symbol), ⟨44⟩, ⟨45⟩], ∃ d ∈ loaded.devices, d.symbol = s ∧
      d.kind = .flipFlop ∧ d.driver? loaded.vocabulary.flipFlop.clock = some ⟨⟨42⟩, none⟩ := by
    decide +kernel
  have nodup : loaded.symbols.Nodup := by decide +kernel
  refine ⟨fun s hs => ?_, by decide +kernel⟩
  obtain ⟨d, hd, rfl, kind, driven⟩ := clocked s hs
  exact ⟨d, device?_of_mem nodup hd, kind, driven⟩

theorem threeStages_built : threeStages.Built := by
  have known : ∀ w ∈ Vocabulary.words, w ∈ (SymbolTable.ofList Vocabulary.words).texts := by
    decide +kernel
  exact ⟨_, (Assembled.empty _ known).declareAll.connectAll.connectAll.connectAll.connectAll
    |>.connectAll, SameLayout.refl _⟩

theorem threeStages_preset : threeStages.Preset := by
  have switch : threeStages.device? ⟨40⟩ = some (Device.newSwitch ⟨40⟩ .low) := by decide +kernel
  have driven : ∀ d ∈ threeStages.devices, d.kind = .flipFlop →
      ∀ pin ∈ [threeStages.vocabulary.flipFlop.set, threeStages.vocabulary.flipFlop.clear],
        d.driver? pin = some ⟨⟨40⟩, none⟩ := by
    decide +kernel
  exact preset_of_source ⟨_, switch, rfl⟩ driven

theorem threeStages_shift : ∃ m, loaded.cycle 20 = .ok () m ∧
    [⟨43⟩, ⟨44⟩, ⟨45⟩].map loaded.q? = [some .high, some .low, some .low] ∧
    [⟨44⟩, ⟨45⟩].map m.q? = [⟨43⟩, ⟨44⟩].map loaded.q? := by
  have wired : threeStages.isWired = true := by decide +kernel
  have completes : (loaded.cycle 20).isOk = true := by decide +kernel
  have idle : ∀ s ∈ [(⟨43⟩ : Symbol), ⟨44⟩, ⟨45⟩], (loaded.cycle 20).state.Idle s := by
    unfold Idle
    decide +kernel
  have rises : loaded.stepSources.level? ⟨⟨42⟩, none⟩ = some .rising := by decide +kernel
  have run := EStateM.Result.eq_ok_of_isOk completes
  obtain ⟨-, shifts⟩ := flipFlops_of_reached threeStages_built wired threeStages_preset
    reached_loaded run
  obtain ⟨shift, -⟩ := shifts ⟨⟨42⟩, none⟩ [⟨43⟩, ⟨44⟩, ⟨45⟩] register_loaded idle
  exact ⟨_, run, by decide +kernel, shift rises⟩

end LogicCircuit.Netlist
