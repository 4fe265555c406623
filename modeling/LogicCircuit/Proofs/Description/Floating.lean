import LogicCircuit.Proofs.Description.Declaring
import LogicCircuit.Proofs.Netlist.Grounding

/-!
What is done at the end of the section of monitors about inputs that nothing drives, whatever
problems the text has: those of flip-flops are driven by the low source, and all others are problems
at the places of the declarations.
-/

namespace LogicCircuit.Description

open LogicCircuit (Circuit Netlist Device)

variable {r r' s : Reader} {t next : Located Token} {source : List Char} {limit : Nat}
  {w : WrittenDeclaration} {ws : List WrittenDeclaration}

namespace Reader

/-- Reads all sections up to the last entry of the monitors. There is no token after it, if the
keyword of that section is not where it is expected. -/
def allEntries : Reading (Option (Located Token)) := do
  let t ← read
  if t.value.isKeyword then
    let t ← sectionOf .devices devices t
    let t ← sectionOf .connect connections t
    if t.value = .keyword .monitor then some <$> (read >>= monitorEntries)
    else return none
  else return none

theorem allEntries_ok (run : allEntries r = .ok (some next) r') : ∃ t₁ t₂ t₃ s₁ s₂ s₃,
    read r = .ok t₁ s₁ ∧ t₁.value.isKeyword = true ∧
      sectionOf .devices devices t₁ s₁ = .ok t₂ s₂ ∧
      sectionOf .connect connections t₂ s₂ = .ok t₃ s₃ ∧ t₃.value = .keyword .monitor ∧
      (read >>= monitorEntries) s₃ = .ok next r' := by
  obtain ⟨t₁, s₁, took, run⟩ := bind_ok run
  by_cases keyword : t₁.value.isKeyword = true
  · rw [if_pos keyword] at run
    obtain ⟨t₂, s₂, run₁, run⟩ := bind_ok run
    obtain ⟨t₃, s₃, run₂, run⟩ := bind_ok run
    by_cases monitor : t₃.value = .keyword .monitor
    · rw [if_pos monitor] at run
      obtain ⟨u, body, eq⟩ := map_ok run
      obtain rfl := Option.some.inj eq
      exact ⟨t₁, t₂, t₃, s₁, s₂, s₃, took, keyword, run₁, run₂, monitor, body⟩
    · rw [if_neg monitor] at run
      cases (EStateM.pure_ok_iff.mp run).1
  · rw [if_neg keyword] at run
    cases (EStateM.pure_ok_iff.mp run).1

theorem exists_recordOnce (r : Reader) (p : Position) {problem : Problem}
    (other : problem.isFloating = false) :
    ∃ s, recordOnce p problem r = .ok () s ∧ s.circuit = r.circuit ∧ Calm r s := by
  rw [recordOnce, EStateM.bind_of_ok (get_run r)]
  split
  · exact ⟨r, rfl, rfl, rfl⟩
  · exact ⟨_, rfl, rfl, (leaves_record r (some p) other).calm⟩

/-- The state after the clean-up. -/
def cleaned (r : Reader) : Reader :=
  (recordFloating (ground r).state).state

/-- Behind the clean-up nothing is built, and no unwired input is written down. -/
theorem sections_of_allEntries (run : allEntries r = .ok (some next) r') :
    ∃ answer s, sections r = .ok answer s ∧ s.circuit = r'.cleaned.circuit ∧
      Calm r'.cleaned s := by
  obtain ⟨t₁, t₂, t₃, s₁, s₂, s₃, took, keyword, run₁, run₂, monitor, body⟩ := allEntries_ok run
  have run₃ : sectionOf .monitor monitors t₃ s₃ = .ok next r'.cleaned := by
    rw [sectionOf_of_keyword monitor, monitors]
    obtain ⟨t₄, s₄, took', body⟩ := bind_ok body
    rw [EStateM.bind_of_ok took', EStateM.bind_of_ok body]
    rfl
  have last : ∃ t₅ s, sectionOf .finish (pure next) next r'.cleaned = .ok t₅ s ∧
      s.circuit = r'.cleaned.circuit ∧ Calm r'.cleaned s := by
    rw [sectionOf]
    by_cases closed : next.value = .keyword .finish
    · rw [if_pos closed]
      exact ⟨next, r'.cleaned, rfl, rfl, rfl⟩
    · rw [if_neg closed]
      obtain ⟨s, recorded, same, calm⟩ := exists_recordOnce r'.cleaned next.position
        (rfl : (Problem.incorrectKeyword .finish).isFloating = false)
      rw [EStateM.bind_of_ok recorded]
      exact ⟨next, s, rfl, same, calm⟩
  obtain ⟨t₅, s, run₄, same, calm⟩ := last
  rw [sections, EStateM.bind_of_ok took, if_pos keyword, EStateM.bind_of_ok run₁,
    EStateM.bind_of_ok run₂, EStateM.bind_of_ok run₃, EStateM.bind_of_ok run₄,
    EStateM.bind_of_ok (get_run s)]
  split
  · exact ⟨_, s, rfl, same, calm⟩
  · exact ⟨_, s, rfl, same, calm⟩

/-- The declarations are those at the begin of the text. -/
def Begins (source : List Char) (ws : List WrittenDeclaration) : Prop :=
  ws = [] ∨ ∃ p, ⟨p, .keyword .devices⟩ :: ws.flatMap WrittenDeclaration.tokens <+:
    (Cursor.ofSource source).tokens.tokens

theorem begins_of_coming {rest : List (Located Token)} (value : t.value = .keyword .devices)
    (ahead : (opened source (Circuit.empty limit)).coming =
      (t :: ws.flatMap WrittenDeclaration.tokens) ++ rest) : Begins source ws := by
  have proper : ∀ u ∈ t :: ws.flatMap WrittenDeclaration.tokens, u.value ≠ .ending := by
    refine List.forall_mem_cons.mpr ⟨by simp [value], fun u hu => ?_⟩
    obtain ⟨w, -, hw⟩ := List.mem_flatMap.mp hu
    exact w.ne_ending_of_mem_tokens u hw
  obtain ⟨more, within⟩ := exists_tokens ahead proper
  refine .inr ⟨t.position, more, ?_⟩
  rw [← value]
  exact within.symm

theorem Begins.ne_groundName (h : Begins source ws) (hw : w ∈ ws) : w.name.value ≠ groundName := by
  obtain rfl | ⟨p, within⟩ := h
  · cases hw
  · have token : (⟨w.name.position, .name w.name.value⟩ : Located Token) ∈
        ws.flatMap WrittenDeclaration.tokens :=
      List.mem_flatMap.mpr ⟨w, hw, List.mem_cons_self⟩
    exact Description.ne_groundName (within.subset (List.mem_cons_of_mem _ token)) rfl

/-- A reading behind the last entry of the monitors. -/
structure Entered (source : List Char) (ws : List WrittenDeclaration) (r : Reader) : Prop where
  text : r.source = source
  declared : Declared ws r
  begins : Begins source ws
  worded : r.Worded
  assembled : r.circuit.netlist.Assembled
  calm : r.diagnostics.filter (fun d => d.problem.isFloating) = []

theorem declared_opened (source : List Char) (limit : Nat) :
    Declared [] (opened source (Circuit.empty limit)) :=
  ⟨nofun, rfl, rfl⟩

/-- Either the section of devices declares what it begins with, or nothing is declared. -/
theorem declared_of_section (h : Declared [] r) (worded : r.Worded)
    (run : sectionOf .devices devices t r = .ok next s) : ∃ ws, Declared ws s ∧ Calm r s ∧
      (ws = [] ∨ t.value = .keyword .devices ∧
        ∃ rest, r.coming = ws.flatMap WrittenDeclaration.tokens ++ rest) := by
  have calm := (moves_sectionOf moves_devices .devices t).calm run
  rw [sectionOf] at run
  by_cases here : t.value = .keyword .devices
  · rw [if_pos here] at run
    obtain ⟨ws, rest, declared, split⟩ := declared_of_devices h worded run
    exact ⟨ws, declared, calm, .inr ⟨here, rest, split⟩⟩
  · rw [if_neg here] at run
    have moves : Moves Leaves (do
        recordOnce t.position (.incorrectKeyword .devices)
        return t) := (moves_recordOnce _ rfl).bind fun _ => moves_pure _
    exact ⟨[], h.leaves (moves.leaves run), calm, .inl rfl⟩

theorem entered_of_allEntries
    (run : allEntries (opened source (Circuit.empty limit)) = .ok (some next) r) :
    ∃ ws, Entered source ws r := by
  obtain ⟨t₁, t₂, t₃, s₁, s₂, s₃, took, -, run₁, run₂, -, run₃⟩ := allEntries_ok run
  have start := worded_opened source limit
  have steps := ((moves_read.steps took).trans
    ((moves_sectionOf moves_devices .devices t₁).steps run₁)).trans
    (((moves_sectionOf moves_connections .connect t₂).steps run₂).trans
      ((moves_read.bind moves_monitorEntries).steps run₃))
  have later := ((moves_sectionOf moves_connections .connect t₂).leaves run₂).trans
    ((moves_read.bind moves_monitorEntries).leaves run₃)
  obtain ⟨others, ahead, rfl⟩ := read_ok_iff.mp took
  obtain ⟨ws, declared, calm, from_text⟩ :=
    declared_of_section ((declared_opened source limit).passed [t₁]) (start.passed [t₁] []) run₁
  refine ⟨ws, (continues_of_steps steps).source, declared.leaves later, ?_,
    worded_of_steps start steps, ?_, ?_⟩
  · obtain none | ⟨keyword, rest, split⟩ := from_text
    · exact .inl none
    · rw [coming_passed_one ahead (by simp [keyword])] at split
      rw [split] at ahead
      exact begins_of_coming keyword ahead
  · refine netlist_of_steps Netlist.additive_assembled steps ?_
    exact .empty _ fun _ hw => SymbolTable.mem_addAll.mpr (.inl hw)
  · rw [later.calm, calm]
    simp [passed, opened, Diagnostic.ofProblem, Problem.isFloating]

/-! The places of the declarations. -/

theorem Declared.symbols (h : Declared ws r) : r.circuit.netlist.symbols =
    ws.map fun w => r.circuit.symbols.symbol w.name.value := by
  have names := congrArg (List.map Prod.fst) h.devices
  rw [List.map_map, List.map_map] at names
  exact names

theorem Declared.nodup (h : Declared ws r) (nodup : r.circuit.netlist.symbols.Nodup) :
    (ws.map fun w => w.name.value).Nodup := by
  refine List.Nodup.of_map r.circuit.symbols.symbol ?_
  rw [List.map_map]
  exact h.symbols ▸ nodup

/-- There is one place at most for each name. -/
theorem Declared.lookup (h : Declared ws r) (nodup : r.circuit.netlist.symbols.Nodup)
    (hw : w ∈ ws) : r.declared.lookup (r.circuit.symbols.symbol w.name.value) =
      some w.name.position := by
  have keys : (r.declared.map Prod.fst).Nodup := by
    rw [← List.nodup_reverse, ← List.map_reverse, h.places, List.map_map]
    exact h.symbols ▸ nodup
  have member : (r.circuit.symbols.symbol w.name.value, w.name.position) ∈ r.declared := by
    rw [← List.mem_reverse, h.places]
    exact List.mem_map_of_mem hw
  obtain ⟨before, after, split⟩ := List.append_of_mem member
  refine List.lookup_eq_some_iff.mpr ⟨before, after, split, fun p hp => ?_⟩
  rw [split, List.map_append, List.map_cons] at keys
  have apart := (List.nodup_append.mp keys).2.2 p.1 (List.mem_map_of_mem hp) _ List.mem_cons_self
  simpa using apart.symm

/-! The clean-up. -/

theorem ground_frame (r : Reader) : (ground r).state.source = r.source ∧
    (ground r).state.declared = r.declared ∧ (ground r).state.diagnostics = r.diagnostics := by
  rw [ground_state]
  split <;> exact ⟨rfl, rfl, rfl⟩

namespace Entered

variable (h : Entered source ws r)
include h

theorem proper : r.circuit.netlist.Proper :=
  Netlist.proper_of_assembled h.assembled

/-- No text can name the low source. -/
theorem free : r.circuit.netlist.device? (r.circuit.symbols.symbol groundName) = none := by
  rw [Netlist.device?_eq_none_iff, h.declared.symbols]
  intro member
  obtain ⟨w, hw, same⟩ := List.mem_map.mp member
  exact h.begins.ne_groundName hw ((SymbolTable.symbol_inj (h.declared.known w hw)).mp same)

theorem grounded : Netlist.Grounded (r.circuit.symbols.symbol groundName) r.circuit.netlist
    (ground r).state.circuit.netlist := by
  rw [ground_state]
  by_cases complete : r.circuit.netlist.floatingOf (fun kind => kind = .flipFlop) = []
  · rw [if_pos (List.isEmpty_iff.mpr complete)]
    exact Netlist.grounded_self _ complete
  · rw [if_neg (complete ∘ List.isEmpty_iff.mp)]
    exact Netlist.grounded_grounded h.proper.pinned h.proper.nodup h.free complete

theorem proper_ground : (ground r).state.circuit.netlist.Proper :=
  Netlist.proper_of_assembled (netlist_of_step Netlist.additive_assembled .ground h.assembled)

theorem worded_ground : (ground r).state.Worded :=
  worded_of_steps h.worded (.single .ground)

theorem text?_declared (hw : w ∈ ws) : (ground r).state.circuit.symbols.text?
    (r.circuit.symbols.symbol w.name.value) = some w.name.value :=
  SymbolTable.text?_of_prefix (continues_of_step .ground).symbols
    (SymbolTable.text?_symbol (h.declared.known w hw))

/-- The names behind an unwired input, and the place of the device. -/
theorem names_of_floating {kinds : Kind → Bool} {i : Symbol × Symbol}
    (loose : i ∈ (ground r).state.circuit.netlist.floatingOf kinds) :
    ∃ w ∈ ws, ∃ pin, (ground r).state.circuit.symbols.text? i.1 = some w.name.value ∧
      (ground r).state.circuit.symbols.text? i.2 = some pin ∧
      (ground r).state.declared.lookup i.1 = some w.name.position := by
  obtain ⟨d, hd, name⟩ := h.grounded.exists_of_mem_floatingOf loose
  have member : d.symbol ∈ r.circuit.netlist.symbols := List.mem_map_of_mem hd
  rw [name, h.declared.symbols] at member
  obtain ⟨w, hw, same⟩ := List.mem_map.mp member
  obtain ⟨e, among, listed⟩ := List.mem_flatMap.mp loose
  obtain ⟨pin, floats, rfl⟩ := List.mem_map.mp listed
  have pins := h.proper_ground.pinned.pins e (List.mem_filter.mp among).1
  have named := pins.mem_inputPins (Netlist.mem_floating_iff.mp floats).1
  rw [h.worded_ground.vocabulary] at named
  obtain ⟨text, word, -, rfl⟩ := Vocabulary.exists_of_mem_inputPins named
  refine ⟨w, hw, text, ?_, SymbolTable.text?_symbol (h.worded_ground.words text word), ?_⟩
  · rw [← same]
    exact h.text?_declared hw
  · rw [(ground_frame r).2.1, ← same]
    exact h.declared.lookup h.proper.nodup hw

end Entered

end Reader

/-- The problem is that the input is unwired, and it has the place where its device is declared. -/
def Reports (source : List Char) (ws : List WrittenDeclaration) (t : SymbolTable)
    (input : Symbol × Symbol) (d : Diagnostic) : Prop :=
  ∃ w ∈ ws, ∃ pin, t.text? input.1 = some w.name.value ∧ t.text? input.2 = some pin ∧
    d = .ofProblem source (some w.name.position) (.floatingInput w.name.value pin)

/-- What becomes of a netlist with which the section of monitors comes to its end: of the unwired
inputs, those of flip-flops are driven by a low source of no other use, and all others are problems
of the text, one for each, in the order of the declarations at its begin and of the pins. -/
structure CleanedUp (source : List Char) (ws : List WrittenDeclaration) (n : Netlist)
    (c : Compiled) : Prop where
  begins : Reader.Begins source ws
  names : (ws.map fun w => w.name.value).Nodup
  declared : n.devices.map (fun d => (c.circuit.symbols.text? d.symbol, d.kind)) =
    ws.map fun w => (some w.name.value, w.kind)
  free : n.device? (c.circuit.symbols.symbol groundName) = none
  grounded : Netlist.Grounded (c.circuit.symbols.symbol groundName) n c.circuit.netlist
  named : n.floatingOf (fun kind => kind = .flipFlop) ≠ [] →
    groundName ∈ c.circuit.symbols.texts
  driven : ∀ d ∈ c.circuit.netlist.devices, d.kind = .flipFlop → d.floating = []
  once : (c.circuit.netlist.floatingOf fun _ => true).Nodup
  sorted : ∀ d ∈ c.circuit.netlist.devices, d.floating.Pairwise fun p q => p.index < q.index
  reported : List.Forall₂ (Reports source ws c.circuit.symbols)
    (c.circuit.netlist.floatingOf fun _ => true)
    (c.diagnostics.filter fun d => d.problem.isFloating)

namespace Reader

theorem Entered.reports (h : Entered source ws r) {kinds : Kind → Bool} {i : Symbol × Symbol}
    (loose : i ∈ (ground r).state.circuit.netlist.floatingOf kinds) :
    Reports source ws (ground r).state.circuit.symbols i
      ((ground r).state.floatingDiagnostic i) := by
  obtain ⟨w, hw, pin, device, name, place⟩ := h.names_of_floating loose
  refine ⟨w, hw, pin, device, name, ?_⟩
  rw [floatingDiagnostic, place, (ground_frame r).1, h.text, SymbolTable.display,
    SymbolTable.display, device, name, Option.getD_some, Option.getD_some]

/-- The clean-up writes down what is unwired, and nothing is written down of that before. -/
theorem Entered.reported (h : Entered source ws r) :
    List.Forall₂ (Reports source ws r.cleaned.circuit.symbols)
      (r.cleaned.circuit.netlist.floatingOf fun _ => true)
      (r.cleaned.diagnostics.filter fun d => d.problem.isFloating) := by
  let c := (ground r).state
  have new : r.cleaned.diagnostics.filter (fun d => d.problem.isFloating) =
      (c.circuit.netlist.floatingOf fun _ => true).map c.floatingDiagnostic := by
    change (c.diagnostics ++ (c.circuit.netlist.floatingOf _).map c.floatingDiagnostic).filter _ = _
    rw [h.proper_ground.pinned.floatingOf_eq, List.filter_append, (ground_frame r).2.2, h.calm,
      List.nil_append]
    refine List.filter_eq_self.mpr fun d hd => ?_
    obtain ⟨i, -, rfl⟩ := List.mem_map.mp hd
    rfl
  rw [new]
  exact List.forall₂_map_right_iff.mpr (List.forall₂_same.mpr fun i hi => h.reports hi)

theorem symbol_ground (r : Reader) :
    (ground r).state.circuit.symbols.symbol groundName = r.circuit.symbols.symbol groundName := by
  rw [ground_state]
  split
  · rfl
  · exact SymbolTable.symbol_add_self _ _

theorem Entered.cleanedUp (h : Entered source ws r) {diagnostics : List Diagnostic}
    {terminator : Option Symbol}
    (calm : diagnostics.filter (fun d => d.problem.isFloating) =
      r.cleaned.diagnostics.filter fun d => d.problem.isFloating) :
    CleanedUp source ws r.circuit.netlist ⟨r.cleaned.circuit, diagnostics, terminator⟩ where
  begins := h.begins
  names := h.declared.nodup h.proper.nodup
  declared := by
    have devices := congrArg (List.map fun d =>
      (r.cleaned.circuit.symbols.text? d.1, d.2)) h.declared.devices
    rw [List.map_map, List.map_map] at devices
    exact devices.trans (List.map_congr_left fun w hw =>
      congrArg (·, w.kind) (h.text?_declared hw))
  free := symbol_ground r ▸ h.free
  grounded := symbol_ground r ▸ h.grounded
  named loose := by
    change groundName ∈ (ground r).state.circuit.symbols.texts
    rw [ground_state, if_neg (loose ∘ List.isEmpty_iff.mp)]
    exact SymbolTable.mem_add.mpr (.inl rfl)
  driven d hd kind := h.grounded.floating hd kind
  once := Netlist.nodup_floatingOf h.proper_ground.nodup
  sorted d _ := Netlist.sorted_floating d
  reported := calm ▸ h.reported

end Reader

/-- If the section of monitors is read to its end, the text compiles, whatever problems it has. The
problems that tell of unwired inputs are then one for each input that nothing drives in the circuit,
in the order of the declarations and of the pins, at the place of the declaration. None belongs to a
flip-flop: what no connection drives of its inputs is driven by one low source, which is there only
if it is needed. All else is as the connections left it. -/
theorem floating_inputs_reported {source : String}
    (reached : Reader.allEntries (Reader.opened source.toList (Circuit.empty limit)) =
      .ok (some next) r) :
    ∃ ws compiled, compileInto source (Circuit.empty limit) = .ok compiled ∧
      CleanedUp source.toList ws r.circuit.netlist compiled := by
  obtain ⟨ws, entered⟩ := Reader.entered_of_allEntries reached
  obtain ⟨terminator, s, run, same, calm⟩ := Reader.sections_of_allEntries reached
  refine ⟨ws, ⟨r.cleaned.circuit, s.diagnostics, terminator⟩, ?_, entered.cleanedUp calm⟩
  rw [compileInto, Reader.description_ofSource, run, ← same]

/-- A text with a connection that is refused, to a pin that there is not. -/
def untidyText : String :=
  "DEVICES G = AND, 2; F = DTYPE; S = SWITCH, 1; CONNECT S -> F.DATA, G.I7; MONITOR F.Q; END"

theorem untidyText_reported : ∃ next r ws compiled,
    Reader.allEntries (Reader.opened untidyText.toList (Circuit.empty Circuit.defaultLimit)) =
      .ok (some next) r ∧
    compileInto untidyText (Circuit.empty Circuit.defaultLimit) = .ok compiled ∧
    CleanedUp untidyText.toList ws r.circuit.netlist compiled := by
  have reached : (Reader.allEntries (Reader.opened untidyText.toList
      (Circuit.empty Circuit.defaultLimit))).any (fun a _ => a.isSome) = true := by
    decide +kernel
  obtain ⟨a, r, run, some⟩ := EStateM.Result.exists_of_any reached
  obtain ⟨next, rfl⟩ := Option.isSome_iff_exists.mp some
  obtain ⟨ws, compiled, compiles, cleaned⟩ := floating_inputs_reported run
  exact ⟨next, r, ws, compiled, run, compiles, cleaned⟩

/-- Both inputs of the gate are problems, and the low source drives what the flip-flop lacks. -/
example : (compileInto untidyText (Circuit.empty Circuit.defaultLimit)).toOption.map (fun c =>
    (c.diagnostics.map fun d => (d.position?, d.problem), c.circuit.netlist.devices.length)) =
    some ([(some ⟨0, 67⟩, .pinNotFound "G" "I7"), (some ⟨0, 8⟩, .floatingInput "G" "I1"),
      (some ⟨0, 8⟩, .floatingInput "G" "I2")], 4) := by
  decide +kernel

end LogicCircuit.Description
