import LogicCircuit.Proofs.Description.Ending

/-!
The problems of a text are written down in order: those of absent keywords first, then those that
are met at tokens, in the order of their places, and at the end of the section of monitors those of
unwired inputs, in the order of the declarations.
-/

namespace LogicCircuit.Description

open LogicCircuit (Circuit)

variable {source : List Char} {ws : List WrittenDeclaration} {p : Position} {r : Reader}

/-- The problems of a text in blocks: those of absent keywords, which have no places, those met at
tokens, those of unwired inputs, and those met behind the section of monitors. -/
structure InBlocks (source : List Char) (ds : List Diagnostic)
    (before floats after : List (Located Problem)) : Prop where
  whole : ds = ((missingKeywords source).map fun k => .ofProblem source none (.missingKeyword k)) ++
    (before ++ floats ++ after).map (noted source)
  met : ∀ q ∈ before ++ after, q.value.isMet = true
  sorted : ((before ++ after).map Located.position).Pairwise (· ≤ ·)
  floating : ∀ q ∈ floats, q.value.isFloating = true
  declared : (floats.map Located.position).Pairwise (· ≤ ·)
  closing : ∀ q ∈ after, ∃ k, q.value = .incorrectKeyword k

namespace Reader

theorem InOrder.inBlocks (h : InOrder source p r) :
    ∃ before, InBlocks source r.diagnostics before [] [] := by
  obtain ⟨l, eq, met, sorted⟩ := h.problems
  refine ⟨l, ?_, ?_, ?_, nofun, .nil, nofun⟩
  · rw [eq, List.append_nil, List.append_nil]
    rfl
  · rw [List.append_nil]
    exact met
  · rw [List.append_nil]
    exact sorted.sorted

/-- The declarations behind the last entry stand in order. -/
theorem InOrder.places (h : InOrder source p r) (declared : Declared ws r) :
    (ws.map fun w => w.name.position).Pairwise (· ≤ ·) := by
  have sorted := h.declared.sorted
  rw [declared.places, List.map_map] at sorted
  exact sorted

/-- The clean-up writes problems down in the order of the declarations. -/
theorem Entered.exists_floats (h : Entered source ws r)
    (sorted : (ws.map fun w => w.name.position).Pairwise (· ≤ ·)) :
    ∃ floats : List (Located Problem),
      r.cleaned.diagnostics = r.diagnostics ++ floats.map (noted source) ∧
      (∀ q ∈ floats, q.value.isFloating = true) ∧
      (floats.map Located.position).Pairwise (· ≤ ·) := by
  let c := (ground r).state
  let loose := c.circuit.netlist.floatingOf fun kind => kind ≠ .clock ∧ kind ≠ .switch
  let place (s : Symbol) : Position := (c.declared.lookup s).getD .origin
  let report (i : Symbol × Symbol) : Located Problem :=
    ⟨place i.1, .floatingInput (c.circuit.symbols.display i.1) (c.circuit.symbols.display i.2)⟩
  have reported (i : Symbol × Symbol) (hi : i ∈ loose) :
      c.floatingDiagnostic i = noted source (report i) := by
    obtain ⟨w, -, pin, -, -, found⟩ := h.names_of_floating hi
    rw [noted, floatingDiagnostic, (ground_frame r).1, h.text]
    simp only [report, place, c, found, Option.getD_some]
  refine ⟨loose.map report, ?_, ?_, ?_⟩
  · change c.diagnostics ++ loose.map c.floatingDiagnostic = _
    rw [(ground_frame r).2.2, List.map_map]
    exact congrArg _ (List.map_congr_left reported)
  · intro q hq
    obtain ⟨i, -, rfl⟩ := List.mem_map.mp hq
    rfl
  · rw [List.map_map, List.pairwise_map]
    refine h.grounded.pairwise_floatingOf (R := fun s s' => place s ≤ place s')
      (fun s => le_refl _) ?_
    rw [h.declared.symbols, List.pairwise_map]
    refine (List.pairwise_map.mp sorted).imp_of_mem fun {w w'} hw hw' order => ?_
    simp only [place, c, (ground_frame r).2.1, h.declared.lookup h.proper.nodup hw,
      h.declared.lookup h.proper.nodup hw', Option.getD_some]
    exact order

/-- Behind the clean-up there may be one more problem, that the closing keyword is not there. -/
theorem InOrder.inBlocks_cleaned (h : InOrder source p r) (entered : Entered source ws r) :
    ∃ before floats, InBlocks source r.cleaned.diagnostics before floats [] ∧
      InBlocks source
        (Reader.record (some p) (.incorrectKeyword .finish) r.cleaned).state.diagnostics
        before floats [⟨p, .incorrectKeyword .finish⟩] := by
  obtain ⟨floats, eq, floating, sorted⟩ := entered.exists_floats (h.places entered.declared)
  obtain ⟨before, eq', met, upTo⟩ := h.problems
  have whole :
      r.cleaned.diagnostics = absences source ++ (before ++ floats).map (noted source) := by
    rw [eq, eq', List.map_append, List.append_assoc]
  refine ⟨before, floats, ⟨?_, ?_, ?_, floating, sorted, nofun⟩,
    ⟨?_, ?_, ?_, floating, sorted, fun q hq => ⟨.finish, List.mem_singleton.mp hq ▸ rfl⟩⟩⟩
  · rw [List.append_nil]
    exact whole
  · rw [List.append_nil]
    exact met
  · rw [List.append_nil]
    exact upTo.sorted
  · change r.cleaned.diagnostics ++ [.ofProblem (ground r).state.source _ _] = _
    rw [whole, (ground_frame r).1, h.text]
    simp only [List.map_append, List.append_assoc]
    rfl
  · exact List.forall_mem_append.mpr ⟨met, List.forall_mem_singleton.mpr rfl⟩
  · rw [List.map_append]
    exact upTo

theorem Finishes.inBlocks {limit : Nat} {s : Reader}
    (h : Finishes source (opened source (Circuit.empty limit)) s) :
    ∃ before floats after, InBlocks source s.diagnostics before floats after := by
  cases h with
  | plain arrives =>
    obtain ⟨before, blocks⟩ := arrives.inStep.order.inBlocks
    exact ⟨before, [], [], blocks⟩
  | cleaned run arrives state =>
    obtain ⟨ws, entered⟩ := entered_of_allEntries run
    obtain ⟨before, floats, blocks, blocks'⟩ := arrives.inStep.order.inBlocks_cleaned entered
    obtain rfl | rfl := state
    · exact ⟨before, floats, [], blocks⟩
    · exact ⟨before, floats, _, blocks'⟩

end Reader

/-- Whatever a text is and however its reading ends, the problems that were written down are in
order: first those of absent keywords, in the order in which a description has the keywords; then
those that are met at tokens, with places that do not decrease; with those of unwired inputs as one
block among them, behind which there is nothing but keywords that are not where they are expected,
and in which the places do not decrease either. -/
theorem problems_in_order (source : List Char) (limit : Nat) :
    (missingKeywords source).Sublist [.devices, .connect, .monitor, .finish] ∧
      ∃ before floats after, InBlocks source
        (Reader.description (Reader.ofSource source (Circuit.empty limit))).state.diagnostics
        before floats after := by
  refine ⟨List.filter_sublist, ?_⟩
  rw [Reader.description_ofSource]
  have walks := (Reader.inStep_opened source (Circuit.empty limit)).sections
  cases run : Reader.sections (Reader.opened source (Circuit.empty limit)) with
  | ok answer s =>
    rw [run] at walks
    exact walks.inBlocks
  | error fault s =>
    rw [run] at walks
    obtain ⟨p, order⟩ := walks.order
    obtain ⟨before, blocks⟩ := order.inBlocks
    exact ⟨before, [], [], blocks⟩

end LogicCircuit.Description
