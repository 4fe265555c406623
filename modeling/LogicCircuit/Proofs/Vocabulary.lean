import LogicCircuit.Vocabulary
import LogicCircuit.Proofs.Symbol

/-!
The fixed words are told apart by their symbols.
-/

namespace LogicCircuit.Vocabulary

/-- The vocabulary is that of a table which holds all fixed words. -/
def IsProper (v : Vocabulary) : Prop :=
  ∃ t : SymbolTable, (∀ w ∈ words, w ∈ t.texts) ∧ v = ofTable t

theorem isProper_ofTable {t : SymbolTable} (h : ∀ w ∈ words, w ∈ t.texts) :
    (ofTable t).IsProper :=
  ⟨t, h, rfl⟩

theorem flipFlop_words : ∀ w ∈ ["CLK", "SET", "CLEAR", "DATA", "Q", "QBAR"], w ∈ words := by
  decide +kernel

theorem IsProper.q_ne_qbar {v : Vocabulary} (h : v.IsProper) :
    v.flipFlop.q ≠ v.flipFlop.qbar := by
  obtain ⟨t, known, rfl⟩ := h
  intro eq
  have same := (SymbolTable.symbol_inj (known _ (flipFlop_words "Q" (by decide)))).mp eq
  revert same
  decide

theorem ofTable_congr {t t' : SymbolTable} (h : ∀ w ∈ words, t'.symbol w = t.symbol w) :
    ofTable t' = ofTable t := by
  have kinds : Kind.all.map (fun k => (t'.symbol k.text, k)) =
      Kind.all.map fun k => (t.symbol k.text, k) := by
    refine List.map_congr_left fun k hk => ?_
    have word : k.text ∈ words :=
      List.mem_append_left _ (List.mem_append_left _ (List.mem_map_of_mem hk))
    rw [h _ word]
  have inputs : gateInputTexts.map t'.symbol = gateInputTexts.map t.symbol :=
    List.map_congr_left fun w hw => h w (List.mem_append_right _ hw)
  have pin (w : String) (hw : w ∈ ["CLK", "SET", "CLEAR", "DATA", "Q", "QBAR"]) :
      t'.symbol w = t.symbol w := h w (flipFlop_words w hw)
  rw [ofTable, ofTable, kinds, inputs, pin "CLK" (by decide), pin "SET" (by decide),
    pin "CLEAR" (by decide), pin "DATA" (by decide), pin "Q" (by decide), pin "QBAR" (by decide)]

theorem gateInputs_take {t : SymbolTable} {n : Nat} (high : n ≤ Gate.maxInputs) :
    (ofTable t).gateInputs.take n =
      ((List.range n).map fun i => gateInputText (i + 1)).map t.symbol := by
  rw [ofTable, ← List.map_take, gateInputTexts, ← List.map_take, List.take_range,
    Nat.min_eq_left high]

end LogicCircuit.Vocabulary
