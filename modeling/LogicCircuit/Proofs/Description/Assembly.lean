import LogicCircuit.Proofs.Description.Compile
import LogicCircuit.Proofs.Netlist.Assembly

/-!
Every circuit that is compiled from a text is put together by declaring devices and connecting them,
whatever problems the text has.
-/

namespace LogicCircuit.Description

open LogicCircuit (Circuit Netlist)

variable {source : String} {compiled : Compiled} {c : Circuit}

namespace Reader

variable {r s : Reader} {P : Netlist → Prop}

theorem netlist_of_step (additive : Netlist.Additive P) (step : Step r s)
    (h : P r.circuit.netlist) : P s.circuit.netlist := by
  cases step with
  | read =>
    have met (token : Token) : (r.meeting token).circuit.netlist = r.circuit.netlist := by
      cases token <;> rfl
    rw [read]
    split
    · next t rest _ => exact (met t.value).symm ▸ h
    · split <;> exact h
  | record p problem => exact h
  | declare p name kind first second =>
    rw [declare]
    split
    · exact h
    · next n made => exact additive.declare _ _ _ _ _ _ h made
  | attach output p device pin =>
    unfold attach
    split
    · exact h
    · split
      · next n connected => exact additive.connect _ _ _ _ h connected
      · exact h
  | watch output p device =>
    unfold watch
    split
    · exact h
    · split <;> exact h
  | ground =>
    change P (ite _ r _ : Reader).circuit.netlist
    split
    · exact h
    · exact additive.grounded h _
  | recordFloating => exact h

theorem netlist_of_steps (additive : Netlist.Additive P) (steps : Relation.ReflTransGen Step r s)
    (h : P r.circuit.netlist) : P s.circuit.netlist := by
  induction steps with
  | refl => exact h
  | tail _ step before => exact netlist_of_step additive step before

end Reader

/-- What every way of putting a netlist together keeps is kept by the reading of a text. -/
theorem netlist_compileInto {P : Netlist → Prop} (additive : Netlist.Additive P)
    (start : P c.netlist) (run : compileInto source c = .ok compiled) :
    P compiled.circuit.netlist := by
  rw [compileInto, Reader.description_ofSource] at run
  have whole := Reader.netlist_of_steps additive
    (Reader.moves_sections (Reader.opened source.toList c)) start
  split at run
  · next terminator r eq =>
    rw [eq] at whole
    rw [← Except.ok.inj run]
    exact whole
  · cases run

theorem symbols_compileInto (run : compileInto source c = .ok compiled) :
    c.symbols.texts <+: compiled.circuit.symbols.texts := by
  rw [compileInto, Reader.description_ofSource] at run
  split at run
  · next terminator r eq =>
    have opened : c.symbols.texts <+: (Reader.opened source.toList c).circuit.symbols.texts := by
      rw [Reader.symbols_opened]
      exact SymbolTable.prefix_addAll _ _
    rw [← Except.ok.inj run]
    exact opened.trans (Reader.moves_sections.continues eq).symbols
  · cases run

theorem assembled_compileInto_empty {limit : Nat}
    (run : compileInto source (Circuit.empty limit) = .ok compiled) :
    compiled.circuit.netlist.Assembled :=
  netlist_compileInto Netlist.additive_assembled
    (.empty _ fun _ hw => SymbolTable.mem_addAll.mpr (Or.inl hw)) run

theorem proper_compileInto {limit : Nat}
    (run : compileInto source (Circuit.empty limit) = .ok compiled) :
    compiled.circuit.netlist.Proper :=
  Netlist.proper_of_assembled (assembled_compileInto_empty run)

/-- The words of the vocabulary keep their symbols while a text is read. -/
theorem vocabulary_compileInto {limit : Nat}
    (run : compileInto source (Circuit.empty limit) = .ok compiled) :
    compiled.circuit.netlist.vocabulary = Vocabulary.ofTable compiled.circuit.symbols := by
  have start : (Circuit.empty limit).netlist.vocabulary =
      Vocabulary.ofTable (Circuit.empty limit).symbols := by
    simp only [Circuit.empty, Circuit.withSymbols, Netlist.empty]
  rw [netlist_compileInto (Netlist.additive_vocabulary _) start run]
  refine (Vocabulary.ofTable_congr fun w hw => ?_).symm
  refine SymbolTable.symbol_of_prefix (symbols_compileInto run) ?_
  rw [Reader.symbols_empty]
  exact SymbolTable.mem_addAll.mpr (Or.inl hw)

theorem assembled_compile (run : compile source = .ok compiled) :
    compiled.circuit.netlist.Assembled :=
  assembled_compileInto_empty run

end LogicCircuit.Description
