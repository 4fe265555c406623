import LogicCircuit.Proofs.Description.Matching
import LogicCircuit.Proofs.Description.Whole

/-!
The sections of one text, read side by side into tables that held different names before.
-/

namespace LogicCircuit.Description

open Relator (BiUnique)
open SymbolTable (SameName biUnique_sameName sameName_symbol)

variable {device device' : Mention} {pin pin' : Option Mention}

theorem connectProblem_eq {R : Symbol → Symbol → Prop} (one : BiUnique R) {v v' : Vocabulary}
    (vocabulary : v.Matches R v') (named : device.Matches R device')
    (pins : Option.Rel (Mention.Matches R) pin pin') (mismatch : Mismatch) :
    connectProblem v device pin mismatch = connectProblem v' device' pin' mismatch := by
  cases mismatch with
  | pinAbsent =>
    rw [connectProblem, connectProblem]
    cases pins with
    | none => rw [absentPin, absentPin, named.1]
    | some pins =>
      rw [absentPin, absentPin, vocabulary.isFlipFlopInput one pins.2, pins.1, named.1]
  | deviceAbsent => rw [connectProblem, connectProblem, named.1]
  | inputToInput | outputToOutput | inputConnected => rfl

namespace Reader

variable {r r' s s' : Reader} {t : Located Token}

/-! The section of devices. -/

theorem parallel_expectKind (h : r.Matches r') (held : Held t r) (held' : Held t r') :
    Parallel r r' Equal (expectKind t) (expectKind t) := by
  refine (parallel_expectName h held held').bind ?_
  rintro s s' ⟨text, a⟩ ⟨_, a'⟩ on ⟨rfl, names⟩
  refine (parallel_circuitNow on.same).bind ?_
  rintro s s' _ _ on ⟨rfl, rfl⟩
  rw [on.same.circuit.netlist.vocabulary.kind? (biUnique_names _ _) (on.names _ _ names)]
  split
  · exact parallel_pure on.same rfl
  · exact parallel_fail _ _

theorem parallel_expectNumber (h : r.Matches r') (kind : Kind) (t : Located Token) :
    Parallel r r' Equal (expectNumber kind t) (expectNumber kind t) := by
  rw [expectNumber]
  split
  · split
    · exact parallel_fail _ _
    · split
      · exact parallel_pure h rfl
      · exact parallel_fail _ _
  · exact parallel_fail _ _

theorem parallel_numbers (h : r.Matches r') (p : Position) (kind : Kind) :
    Parallel r r' Equal (numbers p kind) (numbers p kind) := by
  refine (parallel_read h).bind ?_
  rintro s s' t _ on ⟨rfl, -⟩
  split
  · refine (parallel_read on.same).bind ?_
    rintro s s' t _ on ⟨rfl, -⟩
    refine (parallel_expectNumber on.same kind t).bind ?_
    rintro s s' first _ on rfl
    refine (parallel_read on.same).bind ?_
    rintro s s' t _ on ⟨rfl, -⟩
    split
    · refine (parallel_expect on.same _ _ t).bind fun on _ => (parallel_read on.same).bind ?_
      rintro s s' t _ on ⟨rfl, -⟩
      refine (parallel_expectNumber on.same kind t).bind ?_
      rintro s s' second _ on rfl
      refine (parallel_read on.same).bind ?_
      rintro s s' t _ on ⟨rfl, -⟩
      exact (parallel_expect on.same _ _ t).bind fun on _ => parallel_pure on.same rfl
    · exact (parallel_expect on.same _ _ t).bind fun on _ => parallel_pure on.same rfl
  · split
    · exact parallel_pure on.same rfl
    · exact parallel_fail _ _
  · exact parallel_fail _ _

theorem parallel_declare (h : r.Matches r') {m m' : Mention} (named : Named r r' m m')
    (p : Position) (kind : Kind) (first second : Option Nat) :
    Parallel r r' Equal (declare p m kind first second) (declare p m' kind first second) := by
  have step := h.circuit.netlist.declare (biUnique_names _ _) named.2 kind first second
  change Meet r r' Equal (declare p m kind first second r) (declare p m' kind first second r')
  rw [declare, declare, ← named.1]
  generalize r.circuit.netlist.declare m.symbol kind first second = x at step
  generalize r'.circuit.netlist.declare m'.symbol kind first second = x' at step
  cases step with
  | error reason => exact .error _ _ _
  | @ok n n' netlists =>
    have built (r : Reader) (name : Symbol) (n : Netlist) :
        Continues r { r with
          circuit := { r.circuit with netlist := n }, declared := (name, p) :: r.declared } :=
      .of_tokens_eq rfl rfl rfl rfl List.prefix_rfl List.prefix_rfl rfl
    refine .ok ⟨built r _ n, built r' _ n', ?_⟩ rfl
    exact ⟨h.source, h.tokens, h.ending, h.last, h.absent,
      ⟨netlists, h.circuit.limit, h.circuit.monitors, h.circuit.cycles⟩,
      .cons ⟨named.2, rfl⟩ h.declared, h.diagnostics, h.errorCount, h.isSpent⟩

theorem parallel_declaration (h : r.Matches r') {m m' : Mention} (named : Named r r' m m')
    (p : Position) : Parallel r r' Shared (declaration p m) (declaration p m') := by
  refine (parallel_read h).bind ?_
  rintro s s' t _ on ⟨rfl, held, held'⟩
  have named := on.named named
  refine (parallel_expectKind on.same held held').bind ?_
  rintro s s' kind _ on rfl
  have named := on.named named
  refine (parallel_numbers on.same t.position kind).bind ?_
  rintro s s' ⟨first, second⟩ _ on rfl
  have named := on.named named
  exact (parallel_declare on.same named p kind first second).bind fun on _ => parallel_read on.same

theorem parallel_deviceEntry (h : r.Matches r') (held : Held t r) (held' : Held t r') :
    Parallel r r' SharedSome (deviceEntry t) (deviceEntry t) := by
  refine (parallel_expectName h held held').bind ?_
  rintro s s' name name' on named
  refine (parallel_circuitNow on.same).bind ?_
  rintro s s' _ _ on ⟨rfl, rfl⟩
  have one := biUnique_names s s'
  have named := on.named named
  dsimp only
  rw [on.same.circuit.netlist.vocabulary.isReserved one named.2,
    isSome_eq_of_rel (on.same.circuit.netlist.device? one named.2), named.1]
  split
  · exact parallel_stray on.same (fun _ _ => .none) _ _ _
  · split
    · exact parallel_stray on.same (fun _ _ => .none) _ _ _
    · refine (parallel_read on.same).bind ?_
      rintro s s' equals _ on ⟨rfl, -⟩
      split
      · exact (parallel_declaration on.same (on.named named) t.position).map Option.Rel.some
      · exact parallel_stray on.same (fun _ _ => .none) _ _ _

theorem parallel_devices (h : r.Matches r') : Parallel r r' Shared devices devices :=
  parallel_part _ (fun h => parallel_deviceEntry h) _ h

/-! The section of connections. -/

theorem parallel_isOutputPin (h : r.Matches r') {pin pin' : Mention} (named : Named r r' pin pin') :
    Parallel r r' Equal (isOutputPin pin) (isOutputPin pin') := by
  refine (parallel_circuitNow h).bind ?_
  rintro s s' _ _ on ⟨rfl, rfl⟩
  exact parallel_pure on.same (on.same.circuit.netlist.vocabulary.isFlipFlopOutput
    (biUnique_names s s') (on.named named).2)

theorem parallel_outputPin (h : r.Matches r') (named : Named r r' device device')
    {wrong wrong' : Mention → Problem}
    (same : ∀ pin pin' : Mention, pin.text = pin'.text → wrong pin = wrong' pin')
    (missing : Problem) (shared : Shared r r' t t) :
    Parallel r r' SharedEnd (outputPin device wrong missing t)
      (outputPin device' wrong' missing t) := by
  rw [outputPin, outputPin]
  split
  · refine (parallel_read h).bind ?_
    rintro s s' u _ on ⟨rfl, held, held'⟩
    have named := on.named named
    refine (parallel_expectName on.same held held').bind ?_
    intro s s' pin pin' on pins
    have named := on.named named
    refine (parallel_isOutputPin on.same pins).bind ?_
    rintro s s' isOutput _ on rfl
    have named := on.named named
    have pins := on.named pins
    split
    · refine (parallel_read on.same).bind ?_
      rintro s s' next next' on shared
      exact parallel_pure on.same
        ⟨.some ⟨(on.named named).2, .some (on.named pins).2⟩, shared⟩
    · rw [same pin pin' pins.1]
      refine (parallel_record on.same _ _).bind fun on _ => (parallel_read on.same).bind ?_
      rintro s s' next next' on shared
      exact parallel_pure on.same ⟨.none, shared⟩
  · exact (parallel_record h _ _).bind fun on _ =>
      parallel_pure on.same ⟨.none, on.shared shared⟩

theorem parallel_connectionOutput (h : r.Matches r') (kind : Kind)
    (named : Named r r' device device') :
    Parallel r r' SharedEnd (connectionOutput kind device) (connectionOutput kind device') := by
  refine (parallel_read h).bind ?_
  rintro s s' t _ on ⟨rfl, held⟩
  have named := on.named named
  split
  · rw [named.1]
    exact parallel_outputPin on.same named (fun pin pin' texts => by rw [texts]) _ ⟨rfl, held⟩
  · exact parallel_pure on.same ⟨.some ⟨named.2, .none⟩, rfl, held⟩

theorem parallel_needlessPin (h : r.Matches r') (named : Named r r' device device')
    (held : Held t r) (held' : Held t r') :
    Parallel r r' Equal (needlessPin device t) (needlessPin device' t) := by
  rw [needlessPin, needlessPin]
  split
  · refine (parallel_expectName h held held').bind ?_
    intro s s' pin pin' on pins
    refine (parallel_isOutputPin on.same pins).bind ?_
    rintro s s' isOutput _ on rfl
    split
    · exact parallel_pure on.same (by rw [Equal, pins.1, named.1])
    · exact parallel_pure on.same rfl
  · exact parallel_pure h rfl

theorem parallel_skipToArrow (h : r.Matches r') :
    Parallel r r' Equal skipToArrow skipToArrow := by
  refine (parallel_skipUntil h _).bind ?_
  rintro s s' t _ on ⟨rfl, -⟩
  exact parallel_expect on.same _ _ t

theorem parallel_arrow (h : r.Matches r') (kind : Kind) (named : Named r r' device device')
    (t : Located Token) : Parallel r r' Equal (arrow kind device t) (arrow kind device' t) := by
  rw [arrow, arrow]
  split
  · exact parallel_pure h rfl
  · split
    · exact parallel_fail _ _
    · split
      · refine (parallel_read h).bind ?_
        rintro s s' pin _ on ⟨rfl, held, held'⟩
        refine (parallel_needlessPin on.same (on.named named) held held').bind ?_
        rintro s s' problem _ on rfl
        refine (parallel_record on.same _ _).bind fun on _ => ?_
        exact (parallel_skipToArrow on.same).bind fun on _ => parallel_pure on.same rfl
      · exact parallel_stray h (fun _ _ => rfl) _ _ _

theorem parallel_attach (h : r.Matches r') {output output' : Option Terminal}
    (outputs : Option.Rel (Terminal.Matches (Names r r')) output output') (p : Position)
    (named : Named r r' device device') {pin pin' : Option Mention}
    (pins : Option.Rel (Named r r') pin pin') :
    Parallel r r' Equal (attach output p device pin) (attach output' p device' pin') := by
  have one := biUnique_names r r'
  change Meet r r' Equal (attach output p device pin r) (attach output' p device' pin' r')
  unfold attach
  cases outputs with
  | none => exact parallel_pure h rfl
  | @some o o' outputs =>
    have symbols : Option.Rel (Names r r') (pin.map Mention.symbol) (pin'.map Mention.symbol) := by
      cases pins with
      | none => exact .none
      | some pins => exact .some pins.2
    have step : Except.Rel (Netlist.Matches (Names r r'))
        (r.circuit.netlist.connect o ⟨device.symbol, pin.map Mention.symbol⟩)
        (r'.circuit.netlist.connect o' ⟨device'.symbol, pin'.map Mention.symbol⟩) :=
      h.circuit.netlist.connect one outputs ⟨named.2, symbols⟩
    dsimp only
    generalize r.circuit.netlist.connect o _ = x at step
    generalize r'.circuit.netlist.connect o' _ = x' at step
    cases step with
    | ok netlists =>
      exact .ok (h.rebuilt (continues_rebuilt r rfl rfl List.prefix_rfl)
        (continues_rebuilt r' rfl rfl List.prefix_rfl)
        ⟨netlists, h.circuit.limit, h.circuit.monitors, h.circuit.cycles⟩) rfl
    | error mismatch =>
      dsimp only
      rw [connectProblem_eq one h.circuit.netlist.vocabulary named pins mismatch]
      exact parallel_record h _ _

theorem parallel_destination (h : r.Matches r') {output output' : Option Terminal}
    (outputs : Option.Rel (Terminal.Matches (Names r r')) output output')
    (held : Held t r) (held' : Held t r') :
    Parallel r r' Shared (destination output t) (destination output' t) := by
  refine (parallel_expectName h held held').bind ?_
  intro s s' device device' on named
  have outputs := on.outputs outputs
  refine (parallel_read on.same).bind ?_
  rintro s s' next _ on ⟨rfl, shared⟩
  have outputs := on.outputs outputs
  have named := on.named named
  split
  · refine (parallel_read on.same).bind ?_
    rintro s s' u _ on ⟨rfl, held, held'⟩
    have outputs := on.outputs outputs
    have named := on.named named
    refine (parallel_expectName on.same held held').bind ?_
    intro s s' pin pin' on pins
    have outputs := on.outputs outputs
    have named := on.named named
    refine (parallel_read on.same).bind ?_
    intro s s' next next' on shared
    refine (parallel_attach on.same (on.outputs outputs) _ (on.named named)
      (.some (on.named pins))).bind fun on _ => ?_
    exact parallel_pure on.same (on.shared shared)
  · refine (parallel_attach on.same outputs _ named .none).bind fun on _ => ?_
    exact parallel_pure on.same (on.shared ⟨rfl, shared⟩)

theorem parallel_destinations (h : r.Matches r') {output output' : Option Terminal}
    (outputs : Option.Rel (Terminal.Matches (Names r r')) output output')
    (held : Held t r) (held' : Held t r') :
    Parallel r r' Shared (destinations output t) (destinations output' t) := by
  induction count : r.tokens.length using Nat.strong_induction_on generalizing r r' t with
  | _ count ih =>
    change Meet r r' Shared (destinations output t r) (destinations output' t r')
    rw [destinations_eq, destinations_eq]
    refine (parallel_destination h outputs held held').bind_of_eq ?_
    rintro s s' separator _ eq on ⟨rfl, -⟩
    have outputs := on.outputs outputs
    split
    · next comma =>
      refine (parallel_read on.same).bind_of_eq ?_
      rintro u u' next _ eq' on ⟨rfl, held, held'⟩
      have step := yields_destination _ _ eq
      have := keeps_read eq'
      simp only [weight, comma, reduceCtorEq, if_false] at step
      exact ih _ (by omega) on.same (on.outputs outputs) held held' rfl
    · split
      · exact parallel_read on.same
      · exact parallel_fail _ _
      · exact parallel_fail _ _

theorem parallel_skipEntry (h : r.Matches r') : Parallel r r' Shared skipEntry skipEntry := by
  refine (parallel_skipUntil h _).bind ?_
  rintro s s' t _ on ⟨rfl, held⟩
  split
  · exact parallel_read on.same
  · exact parallel_pure on.same ⟨rfl, held⟩

theorem parallel_connectionEntry (h : r.Matches r') (held : Held t r) (held' : Held t r') :
    Parallel r r' SharedSome (connectionEntry t) (connectionEntry t) := by
  refine (parallel_expectName h held held').bind ?_
  intro s s' device device' on named
  refine (parallel_circuitNow on.same).bind ?_
  rintro s s' _ _ on ⟨rfl, rfl⟩
  have named := on.named named
  rw [on.same.circuit.netlist.kindOf? (biUnique_names s s') named.2]
  split
  · rw [named.1]
    exact (parallel_record on.same _ _).bind fun on _ =>
      (parallel_skipEntry on.same).map Option.Rel.some
  · next kind _ =>
    refine (parallel_connectionOutput on.same kind named).bind ?_
    rintro s s' ⟨output, next⟩ ⟨output', _⟩ on ⟨outputs, rfl, -⟩
    have named := on.named named
    refine (parallel_arrow on.same kind named next).bind ?_
    rintro s s' passed _ on rfl
    have outputs := on.outputs outputs
    cases passed with
    | none => exact parallel_pure on.same .none
    | some =>
      refine (parallel_read on.same).bind ?_
      rintro s s' first _ on ⟨rfl, held, held'⟩
      exact Parallel.map (parallel_destinations on.same (on.outputs outputs) held held')
        Option.Rel.some

theorem parallel_connections (h : r.Matches r') :
    Parallel r r' Shared connections connections :=
  parallel_part _ (fun h => parallel_connectionEntry h) _ h

/-! The section of monitors. -/

theorem parallel_monitorOutput (h : r.Matches r') (kind : Option Kind)
    (named : Named r r' device device') :
    Parallel r r' SharedEnd (monitorOutput kind device) (monitorOutput kind device') := by
  refine (parallel_read h).bind ?_
  rintro s s' t _ on ⟨rfl, held⟩
  have named := on.named named
  split
  · exact parallel_outputPin on.same named (fun _ _ _ => rfl) _ ⟨rfl, held⟩
  · split
    · refine (parallel_read on.same).bind ?_
      rintro s s' pin _ on ⟨rfl, held, held'⟩
      have named := on.named named
      refine (parallel_expectName on.same held held').bind ?_
      intro s s' _ _ on _
      have named := on.named named
      split
      · refine (parallel_record on.same _ _).bind fun on _ => (parallel_read on.same).bind ?_
        rintro s s' next next' on shared
        exact parallel_pure on.same ⟨.none, shared⟩
      · refine (parallel_read on.same).bind ?_
        rintro s s' next next' on shared
        exact parallel_pure on.same ⟨.some ⟨(on.named named).2, .none⟩, shared⟩
    · exact parallel_pure on.same ⟨.some ⟨named.2, .none⟩, rfl, held⟩

theorem parallel_watch (h : r.Matches r') {output output' : Option Terminal}
    (outputs : Option.Rel (Terminal.Matches (Names r r')) output output') (p : Position)
    (named : Named r r' device device') :
    Parallel r r' Equal (watch output p device) (watch output' p device') := by
  change Meet r r' Equal (watch output p device r) (watch output' p device' r')
  unfold watch
  cases outputs with
  | none => exact parallel_pure h rfl
  | @some o o' outputs =>
    have step := h.circuit.monitors.watch (biUnique_names r r') h.circuit.netlist outputs 0
    dsimp only
    generalize r.circuit.monitors.watch _ o 0 = x at step
    generalize r'.circuit.monitors.watch _ o' 0 = x' at step
    cases step with
    | ok monitors =>
      exact .ok (h.rebuilt (continues_rebuilt r rfl rfl List.prefix_rfl)
        (continues_rebuilt r' rfl rfl List.prefix_rfl)
        ⟨h.circuit.netlist, h.circuit.limit, monitors, h.circuit.cycles⟩) rfl
    | error reason =>
      have problem : watchProblem device reason = watchProblem device' reason := by
        cases reason <;> simp only [watchProblem, named.1]
      dsimp only
      rw [problem]
      exact parallel_record h _ _

theorem parallel_monitorEntry (h : r.Matches r') (held : Held t r) (held' : Held t r') :
    Parallel r r' Shared (monitorEntry t) (monitorEntry t) := by
  refine (parallel_expectName h held held').bind ?_
  intro s s' device device' on named
  refine (parallel_circuitNow on.same).bind ?_
  rintro s s' _ _ on ⟨rfl, rfl⟩
  have named := on.named named
  dsimp only
  rw [on.same.circuit.netlist.kindOf? (biUnique_names s s') named.2]
  refine (parallel_monitorOutput on.same _ named).bind ?_
  rintro s s' ⟨output, next⟩ ⟨output', _⟩ on ⟨outputs, rfl, -⟩
  have named := on.named named
  refine (parallel_expect on.same _ _ next).bind fun on _ => ?_
  refine (parallel_watch on.same (on.outputs outputs) _ (on.named named)).bind fun on _ => ?_
  exact parallel_read on.same

theorem parallel_monitorEntries (h : r.Matches r') (held : Held t r) (held' : Held t r') :
    Parallel r r' Shared (monitorEntries t) (monitorEntries t) := by
  induction count : weight t r using Nat.strong_induction_on generalizing r r' t with
  | _ count ih =>
    change Meet r r' Shared (monitorEntries t r) (monitorEntries t r')
    rw [monitorEntries_eq, monitorEntries_eq]
    split
    · next begins =>
      refine (parallel_monitorEntry h held held').bind_of_eq ?_
      rintro s s' next _ eq on ⟨rfl, known, known'⟩
      have proper : t.value ≠ .ending := fun ends => by simp [ends, beginsMonitor] at begins
      have whole : weight t r = r.tokens.length + 1 := by simp only [weight, proper, if_false]
      have step := yields_monitorEntry t eq
      exact ih _ (by omega) on.same known known' rfl
    · exact parallel_pure h ⟨rfl, held, held'⟩

theorem parallel_ground (h : r.Matches r') : Parallel r r' Equal ground ground := by
  obtain ⟨l, inputs, perm⟩ :=
    h.circuit.netlist.floatingOf (biUnique_names r r') fun kind => kind = .flipFlop
  have loose : (r.circuit.netlist.floatingOf fun kind => kind = .flipFlop).isEmpty =
      (r'.circuit.netlist.floatingOf fun kind => kind = .flipFlop).isEmpty := by
    rw [Bool.eq_iff_iff, List.isEmpty_iff_length_eq_zero, List.isEmpty_iff_length_eq_zero,
      inputs.length_eq, perm.length_eq]
  rw [Parallel, ground, modify_run, modify_run, ← loose]
  split
  · exact .ok h.abreast rfl
  · have grows (table : SymbolTable) := SymbolTable.prefix_add table groundName
    have circuits := h.circuit.extended (grows _) (grows _)
    have name : SameName (r.circuit.symbols.add groundName) (r'.circuit.symbols.add groundName)
        (r.circuit.symbols.symbol groundName) (r'.circuit.symbols.symbol groundName) := by
      rw [← SymbolTable.symbol_add_self, ← SymbolTable.symbol_add_self r'.circuit.symbols]
      exact sameName_symbol (SymbolTable.mem_add.mpr (.inl rfl))
        (SymbolTable.mem_add.mpr (.inl rfl))
    exact .ok (h.rebuilt (continues_rebuilt r rfl rfl (grows _))
      (continues_rebuilt r' rfl rfl (grows _))
      ⟨circuits.netlist.grounded (biUnique_sameName _ _) name, circuits.limit,
        circuits.monitors, circuits.cycles⟩) rfl

/-- The problems of the unwired inputs of one device. -/
theorem Matches.shuffled_floating (h : r.Matches r') {d d' : Device}
    (pair : d.Matches (Names r r') d') :
    Shuffled (d.floating.map fun pin => r.floatingDiagnostic (d.symbol, pin))
      (d'.floating.map fun pin => r'.floatingDiagnostic (d'.symbol, pin)) := by
  obtain ⟨pins, names, perm⟩ := pair.floating (biUnique_names r r')
  have same : d.floating.map (fun pin => r.floatingDiagnostic (d.symbol, pin)) =
      pins.map fun pin => r'.floatingDiagnostic (d'.symbol, pin) := by
    rw [← List.forall₂_eq_eq_eq, List.forall₂_map_left_iff, List.forall₂_map_right_iff]
    refine names.imp fun pin pin' name => ?_
    rw [floatingDiagnostic, floatingDiagnostic, h.source, pair.symbol.display, name.display,
      lookup_eq_of_rel (biUnique_names r r') pair.symbol h.declared]
  rw [same]
  refine .of_perm (r'.circuit.symbols.display d'.symbol) (perm.map _) fun d hd => ?_
  obtain ⟨pin, -, rfl⟩ := List.mem_map.mp hd
  exact ⟨_, rfl⟩

/-- The problems of all unwired inputs that are written down. -/
theorem Matches.shuffled_loose (h : r.Matches r') :
    Shuffled
      ((r.circuit.netlist.floatingOf fun kind => kind ≠ .clock ∧ kind ≠ .switch).map
        r.floatingDiagnostic)
      ((r'.circuit.netlist.floatingOf fun kind => kind ≠ .clock ∧ kind ≠ .switch).map
        r'.floatingDiagnostic) := by
  have pairs := h.circuit.netlist.filter fun kind => kind ≠ .clock ∧ kind ≠ .switch
  -- The devices come in the same order, so that only the inputs of each of them are shuffled.
  rw [Netlist.floatingOf, Netlist.floatingOf, List.map_flatMap, List.map_flatMap]
  generalize List.filter _ r.circuit.netlist.devices = ds at pairs ⊢
  generalize List.filter _ r'.circuit.netlist.devices = ds' at pairs ⊢
  induction pairs with
  | nil => exact .nil
  | cons pair _ ih =>
    rw [List.flatMap_cons, List.flatMap_cons, List.map_map, List.map_map]
    exact (h.shuffled_floating pair).append ih

theorem parallel_recordFloating (h : r.Matches r') :
    Parallel r r' Equal recordFloating recordFloating := by
  have first : Continues r (recordFloating r).state := continues_of_step .recordFloating
  have second : Continues r' (recordFloating r').state := continues_of_step .recordFloating
  have loose := h.shuffled_loose
  have count := loose.length_eq
  rw [List.length_map, List.length_map] at count
  refine .ok ⟨first, second, ?_⟩ rfl
  exact ⟨h.source, h.tokens, h.ending, h.last, h.absent, h.circuit, h.declared,
    h.diagnostics.append loose, congrArg₂ (· + ·) h.errorCount count, h.isSpent⟩

theorem parallel_monitors (h : r.Matches r') : Parallel r r' Shared monitors monitors := by
  refine (parallel_read h).bind ?_
  rintro s s' t _ on ⟨rfl, held, held'⟩
  refine Parallel.bind (parallel_monitorEntries on.same held held') ?_
  intro s s' next next' on shared
  refine (parallel_ground on.same).bind fun on₁ _ => ?_
  refine (parallel_recordFloating on₁.same).bind fun on₂ _ => ?_
  exact parallel_pure on₂.same (on₂.shared (on₁.shared shared))

/-! The whole description. -/

theorem parallel_sectionOf (h : r.Matches r') (keyword : Keyword) {body : Reading (Located Token)}
    (side : Parallel r r' Shared body body) (shared : Shared r r' t t) :
    Parallel r r' Shared (sectionOf keyword body t) (sectionOf keyword body t) := by
  rw [sectionOf]
  split
  · exact side
  · exact (parallel_recordOnce h _ (by simp)).bind fun on _ =>
      parallel_pure on.same (on.shared shared)

/-- Both readings find the description without problems, or neither does. -/
theorem parallel_sections (h : r.Matches r') :
    Parallel r r' (fun _ _ a a' => a.isSome = a'.isSome) sections sections := by
  refine (parallel_read h).bind ?_
  rintro s s' t _ on ⟨rfl, held⟩
  split
  · refine (parallel_sectionOf on.same _ (parallel_devices on.same) ⟨rfl, held⟩).bind ?_
    rintro s s' t _ on ⟨rfl, held⟩
    refine (parallel_sectionOf on.same _ (parallel_connections on.same) ⟨rfl, held⟩).bind ?_
    rintro s s' t _ on ⟨rfl, held⟩
    refine (parallel_sectionOf on.same _ (parallel_monitors on.same) ⟨rfl, held⟩).bind ?_
    rintro s s' t _ on ⟨rfl, held⟩
    have last := parallel_pure on.same (show Shared s s' t t from ⟨rfl, held⟩)
    refine (parallel_sectionOf on.same _ last ⟨rfl, held⟩).bind ?_
    rintro s s' t _ on ⟨rfl, -⟩
    refine (parallel_get on.same).bind ?_
    rintro s s' _ _ on ⟨rfl, rfl⟩
    rw [on.same.errorCount]
    split <;> exact parallel_pure on.same rfl
  · exact (parallel_recordOnce on.same _ (by simp)).bind fun on _ => parallel_pure on.same rfl

end Reader

end LogicCircuit.Description
