import LogicCircuit.Proofs.Description.Lexemes
import LogicCircuit.Proofs.Description.Unambiguous
import LogicCircuit.Proofs.Description.Whole
import LogicCircuit.Proofs.Description.Words

/-!
Which texts are descriptions without problems, and which circuits they are compiled to.
-/

namespace LogicCircuit.Description

open LogicCircuit (Circuit)

variable {source : String} {c : Circuit} {compiled : Compiled}

namespace Reader

/-- A reading at the begin of its first section. -/
def opened (source : List Char) (c : Circuit) : Reader :=
  { ofSource source c with
    isSpent := true
    absent := missingKeywords source
    diagnostics := (missingKeywords source).map fun k =>
      .ofProblem source none (.missingKeyword k)
    errorCount := (missingKeywords source).length }

theorem description_ofSource (source : List Char) (c : Circuit) :
    description (ofSource source c) = sections (opened source c) := by
  rw [opened, ← Nat.zero_add (missingKeywords source).length]
  rfl

theorem counted_opened (source : List Char) (c : Circuit) : (opened source c).Counted :=
  (List.length_map _).symm

theorem moves_sections : Moves Step sections := by
  refine moves_read.bind fun t => ?_
  split
  · refine (moves_sectionOf moves_devices _ _).bind fun t => ?_
    refine (moves_sectionOf moves_connections _ _).bind fun t => ?_
    refine (moves_sectionOf moves_monitors _ _).bind fun t => ?_
    refine (moves_sectionOf (moves_pure t) _ _).bind fun _ => moves_get_bind fun r => ?_
    split <;> exact moves_pure _
  · exact (moves_recordOnce _ rfl).bind fun _ => moves_pure _

/-- No token that is still to be read is the end. -/
theorem proper_of_steps {source : List Char} {c : Circuit} {r : Reader}
    (steps : Relation.ReflTransGen Step (opened source c) r) :
    ∀ t ∈ r.tokens, t.value ≠ .ending := by
  obtain ⟨taken, split, -⟩ := (continues_of_steps steps).tokens
  intro t ht
  have member : t ∈ (opened source c).tokens := by
    rw [split]
    exact List.mem_append_right _ ht
  exact (Cursor.mem_tokens member).1

theorem symbols_opened (source : List Char) (c : Circuit) :
    (opened source c).circuit.symbols = c.symbols.addAll (Keyword.all.map Keyword.text) := rfl

theorem symbols_empty (limit : Nat) :
    (Circuit.empty limit).symbols = SymbolTable.empty.addAll Vocabulary.words := by
  rw [Circuit.empty, Circuit.withSymbols]

theorem groundName_not_mem_opened (source : List Char) (limit : Nat) :
    groundName ∉ (opened source (Circuit.empty limit)).circuit.symbols.texts := by
  rw [symbols_opened, symbols_empty, SymbolTable.mem_addAll, SymbolTable.mem_addAll]
  decide +kernel

theorem words_opened (source : List Char) (limit : Nat) :
    ∀ w ∈ Vocabulary.words, w ∈ (opened source (Circuit.empty limit)).circuit.symbols.texts := by
  intro w hw
  rw [symbols_opened, symbols_empty]
  exact SymbolTable.mem_addAll.mpr (Or.inr (SymbolTable.mem_addAll.mpr (Or.inl hw)))

/-- Nothing stands yet, if all keywords are there. -/
theorem exists_stands_opened {source : List Char} (limit : Nat)
    (present : missingKeywords source = []) :
    ∃ table, Stands table [] [] [] (opened source (Circuit.empty limit)) ∧
      groundName ∉ table.texts := by
  let r := opened source (Circuit.empty limit)
  let table := r.circuit.symbols.addAll (r.tokens.filterMap fun t => t.value.name?)
  have grows (w : String) (hw : w ∈ r.circuit.symbols.texts) :
      w ∈ table.texts ∧ table.symbol w = r.circuit.symbols.symbol w :=
    ⟨SymbolTable.mem_addAll.mpr (Or.inr hw), SymbolTable.symbol_addAll hw⟩
  have drawn : Drawn table [] [] (Netlist.empty (SymbolTable.empty.addAll Vocabulary.words)) := by
    have words : ∀ w ∈ Vocabulary.words,
        w ∈ (SymbolTable.empty.addAll Vocabulary.words).texts :=
      fun w hw => SymbolTable.mem_addAll.mpr (Or.inl hw)
    refine (drawn_empty words).retable fun w hw => ?_
    have word : w ∈ Vocabulary.words := by simpa using hw
    obtain ⟨member, symbol⟩ := grows w (words_opened source limit w word)
    rw [symbols_opened, symbols_empty, SymbolTable.symbol_addAll (words w word)] at symbol
    exact ⟨member, symbol⟩
  refine ⟨table, ⟨?_, rfl, fun t ht => (Cursor.mem_tokens ht).1, drawn, rfl⟩, ?_⟩
  · simp [Clear, opened, present]
  · intro member
    rcases SymbolTable.mem_addAll.mp member with name | old
    · obtain ⟨t, ht, value⟩ := List.mem_filterMap.mp name
      cases token : t.value with
      | name text =>
        rw [token] at value
        exact ne_groundName ht token (Option.some.inj value)
      | _ =>
        rw [token] at value
        cases value
    · exact groundName_not_mem_opened source limit old

theorem stream_opened (source : String) (limit : Nat) :
    (opened source.toList (Circuit.empty limit)).stream = lexemes source ++ [.ending] := rfl

end Reader

/-- What is read before the end are tokens of the text. -/
theorem Document.tokens_prefix_iff {d : Document} {l : List Token} :
    d.tokens <+: l ++ [.ending] ↔ d.tokens <+: l := by
  constructor
  · intro h
    rcases List.prefix_concat_iff.mp h with same | shorter
    · have last := congrArg List.getLast? same
      simp [Document.tokens, List.getLast?_cons, List.getLast?_append] at last
    · exact shorter
  · intro h
    exact h.trans (List.prefix_append _ _)

theorem compileInto_ok_iff : compileInto source c = .ok compiled ∧ compiled.isOk = true ↔
    ∃ sym r, Reader.sections (Reader.opened source.toList c) = .ok (some sym) r ∧
      compiled = ⟨r.circuit, r.diagnostics, some sym⟩ := by
  rw [compileInto, Reader.description_ofSource]
  cases run : Reader.sections (Reader.opened source.toList c) with
  | error fault r => simp
  | ok terminator r =>
    constructor
    · intro h
      obtain ⟨eq, ok⟩ := h
      obtain rfl := Except.ok.inj eq
      obtain ⟨sym, rfl⟩ := Option.isSome_iff_exists.mp ok
      exact ⟨sym, r, rfl, rfl⟩
    · intro h
      obtain ⟨sym, r', eq, rfl⟩ := h
      obtain ⟨rfl, rfl⟩ := EStateM.Result.ok.inj eq
      exact ⟨rfl, rfl⟩

theorem compile_ok_iff : compile source = .ok compiled ∧ compiled.isOk = true ↔
    ∃ sym r, Reader.sections (Reader.opened source.toList (Circuit.empty Circuit.defaultLimit)) =
      .ok (some sym) r ∧ compiled = ⟨r.circuit, r.diagnostics, some sym⟩ :=
  compileInto_ok_iff

theorem exists_of_any {P : Compiled → Bool}
    (h : (compileInto source c).toOption.any P = true) :
    ∃ compiled, compileInto source c = .ok compiled ∧ P compiled = true := by
  cases run : compileInto source c with
  | error fault =>
    rw [run] at h
    cases h
  | ok compiled =>
    rw [run] at h
    exact ⟨compiled, rfl, h⟩

/-- A text that compiles has all keywords, and says what its circuit is; the limit on the passes is
the one that is asked for. -/
theorem exists_document_into {limit : Nat}
    (run : compileInto source (Circuit.empty limit) = .ok compiled)
    (ok : compiled.isOk = true) : missingKeywords source.toList = [] ∧
      compiled.circuit.limit = limit ∧
      ∃ d : Document, d.WellFormed ∧ d.tokens <+: lexemes source ∧ Realises d compiled.circuit := by
  obtain ⟨sym, r, sections, rfl⟩ := compileInto_ok_iff.mp ⟨run, ok⟩
  obtain ⟨-, -, -, -, -, -, -, -, -, -, -, -, -, -, uncounted⟩ := Reader.sections_ok sections
  have counted := Reader.moves_sections.counted sections (Reader.counted_opened _ _)
  have none := counted.errorCount_eq_zero_iff.mp uncounted
  have continues := Reader.moves_sections.continues sections
  have present : missingKeywords source.toList = [] := by
    have diagnostics := continues.diagnostics
    rw [none, List.prefix_nil] at diagnostics
    exact List.map_eq_nil_iff.mp diagnostics
  have clear : r.Clear := ⟨none, continues.absent.trans present⟩
  obtain ⟨table, stands, free⟩ := Reader.exists_stands_opened limit present
  obtain ⟨d, wf, tokens, realises⟩ := stands.after_sections (Reader.words_opened _ _) free rfl
    clear sections
  rw [Reader.stream_opened] at tokens
  exact ⟨present, continues.limit, d, wf, Document.tokens_prefix_iff.mp tokens, realises⟩

theorem exists_document (run : compile source = .ok compiled) (ok : compiled.isOk = true) :
    missingKeywords source.toList = [] ∧
      ∃ d : Document, d.WellFormed ∧ d.tokens <+: lexemes source ∧ Realises d compiled.circuit := by
  obtain ⟨present, -, d⟩ := exists_document_into run ok
  exact ⟨present, d⟩

/-- A text compiles without problems if every keyword stands alone in it and its tokens begin with
those of a document that makes sense. -/
theorem compile_isOk_iff (source : String) :
    (∃ compiled, compile source = .ok compiled ∧ compiled.isOk = true) ↔
      (∀ k ∈ Keyword.all, StandsAlone k.text.toList source.toList) ∧
        ∃ d : Document, d.WellFormed ∧ d.tokens <+: lexemes source := by
  constructor
  · intro h
    obtain ⟨compiled, run, ok⟩ := h
    obtain ⟨present, d, wf, tokens, -⟩ := exists_document run ok
    exact ⟨missingKeywords_eq_nil_iff.mp present, d, wf, tokens⟩
  · intro h
    obtain ⟨alone, d, wf, tokens⟩ := h
    have present := missingKeywords_eq_nil_iff.mpr alone
    obtain ⟨table, stands, free⟩ := Reader.exists_stands_opened Circuit.defaultLimit present
    obtain ⟨rest, split⟩ := Document.tokens_prefix_iff.mpr tokens
    obtain ⟨sym, r, sections⟩ := stands.exists_sections (Reader.words_opened _ _) free rfl
      (Reader.counted_opened _ _) wf ((Reader.stream_opened source _).trans split.symm)
    exact ⟨_, compile_ok_iff.mpr ⟨sym, r, sections, rfl⟩⟩

/-- A text that compiles without problems is read as one document, and the circuit is the one that
this document means. -/
theorem compile_realises (run : compile source = .ok compiled) (ok : compiled.isOk = true) :
    ∃ d : Document, (∀ d' : Document, d'.tokens <+: lexemes source ↔ d' = d) ∧ d.WellFormed ∧
      Realises d compiled.circuit := by
  obtain ⟨-, d, wf, tokens, realises⟩ := exists_document run ok
  refine ⟨d, fun d' => ?_, wf, realises⟩
  constructor
  · intro other
    exact Document.eq_of_tokens_prefix other tokens
  · intro eq
    exact eq ▸ tokens

/-- A switch and a flip-flop, two inputs of which are left to the low source. -/
def latchText : String :=
  "DEVICES S = SWITCH, 1; D = DTYPE; CONNECT S -> D.CLK, D.DATA; MONITOR D.Q; END"

theorem latchText_realised : ∃ compiled, compile latchText = .ok compiled ∧
    compiled.isOk = true ∧ ∃ d : Document,
      (∀ d' : Document, d'.tokens <+: lexemes latchText ↔ d' = d) ∧ d.WellFormed ∧
        Realises d compiled.circuit := by
  have accepted : (compile latchText).toOption.any Compiled.isOk = true := by decide +kernel
  cases run : compile latchText with
  | error fault =>
    rw [run] at accepted
    cases accepted
  | ok compiled =>
    rw [run] at accepted
    exact ⟨compiled, rfl, accepted, compile_realises run accepted⟩

end LogicCircuit.Description
