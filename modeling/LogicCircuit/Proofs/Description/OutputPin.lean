import LogicCircuit.Proofs.Description.Stream

/-!
The names of outputs, as they are read at the begin of connections and of monitors.
-/

namespace LogicCircuit.Description.Reader

variable {r s : Reader} {t next : Located Token} {table : SymbolTable} {es : List Declaration}
  {ws : List (Signal × Signal)} {ss : List Signal} {rest : List Token} {a : Token}
  {device pin : Mention} {text : String} {kind : Kind} {out : Option Terminal}
  {wrong : Mention → Problem} {missing : Problem}

theorem Stands.isOutputPin_ok (h : Stands table es ws ss r)
    (known : pin.symbol = table.symbol text) :
    isOutputPin pin r = .ok (decide (text = "Q" ∨ text = "QBAR")) r := by
  have same : (Vocabulary.ofTable table).isFlipFlopOutput (table.symbol text) =
      decide (text = "Q" ∨ text = "QBAR") := by
    rw [Bool.eq_iff_iff, Vocabulary.isFlipFlopOutput_symbol_iff h.drawn.words, decide_eq_true_iff]
  rw [isOutputPin, EStateM.bind_of_ok (circuitNow_ok r), h.drawn.vocabulary, known, same]
  rfl

/-- The pin of a flip-flop that goes through is one of its outputs. -/
theorem Stands.after_outputPin (h : Stands table es ws ss r) (clear : s.Clear)
    (run : outputPin device wrong missing t r = .ok (out, next) s) :
    ∃ text, (text = "Q" ∨ text = "QBAR") ∧
      out = some ⟨device.symbol, some (table.symbol text)⟩ ∧ Stands table es ws ss s ∧
      Held next s ∧ ahead t r = .dot :: .name text :: ahead next s := by
  rw [outputPin] at run
  by_cases dot : t.value = .dot
  · rw [if_pos dot] at run
    obtain ⟨u, s₁, h₁, held₁, eq₁, run⟩ := h.take run
    obtain ⟨pin, _, named, run⟩ := bind_ok run
    obtain ⟨rfl, text, value₁, rfl, -⟩ := h₁.after_expectName held₁ named
    rw [EStateM.bind_of_ok (h₁.isOutputPin_ok rfl)] at run
    by_cases output : text = "Q" ∨ text = "QBAR"
    · rw [if_pos (decide_eq_true output)] at run
      obtain ⟨v, s₂, h₂, held₂, eq₂, run⟩ := h₁.take run
      obtain ⟨eq, rfl⟩ := EStateM.pure_ok_iff.mp run
      obtain ⟨rfl, rfl⟩ := Prod.mk.inj eq
      refine ⟨text, output, rfl, h₂, held₂, ?_⟩
      rw [ahead_of_value dot (by simp), ← eq₁, ahead_of_value value₁ (by simp), eq₂]
    · rw [if_neg (by simpa using output)] at run
      obtain ⟨_, s₂, recorded, run⟩ := bind_ok run
      have moves : Moves Step (do return ((none : Option Terminal), ← read)) :=
        moves_read.bind fun _ => moves_pure _
      exact absurd (moves.clear run clear) (not_clear_record recorded)
  · rw [if_neg dot] at run
    obtain ⟨_, s₁, recorded, run⟩ := bind_ok run
    exact absurd ((moves_pure _).clear run clear) (not_clear_record recorded)

theorem Stands.exists_outputPin (h : Stands table es ws ss r)
    (eq : ahead t r = .dot :: .name text :: a :: rest) (more : a ≠ .ending)
    (output : text = "Q" ∨ text = "QBAR") :
    ∃ next s, outputPin device wrong missing t r =
        .ok (some ⟨device.symbol, some (table.symbol text)⟩, next) s ∧
      Stands table es ws ss s ∧ Held next s ∧ ahead next s = a :: rest := by
  obtain ⟨dot, eq⟩ := ahead_eq_cons eq (by simp)
  obtain ⟨u, s₁, run₁, value₁, eq₁, h₁, held₁⟩ := h.exists_take eq (by simp)
  obtain ⟨v, s₂, run₂, value₂, eq₂, h₂, held₂⟩ := h₁.exists_take eq₁ more
  refine ⟨v, s₂, ?_, h₂, held₂, by rw [ahead_of_value value₂ more, eq₂]⟩
  rw [outputPin, if_pos dot, EStateM.bind_of_ok run₁,
    EStateM.bind_of_ok (h₁.expectName_ok held₁ value₁),
    EStateM.bind_of_ok (h₁.isOutputPin_ok rfl), if_pos (decide_eq_true output),
    EStateM.bind_of_ok run₂]
  rfl

theorem Stands.kindOf?_eq_some_iff (h : Stands table es ws ss r) :
    r.circuit.netlist.kindOf? (table.symbol text) = some kind ↔
      ∃ e ∈ es, e.name = text ∧ e.kind = kind := by
  rw [Netlist.kindOf?, Option.map_eq_some_iff]
  constructor
  · intro found
    obtain ⟨d, found, eq⟩ := found
    obtain ⟨e, he, name, depicts⟩ := h.drawn.device?_eq_some found
    exact ⟨e, he, name, depicts.kind.symm.trans eq⟩
  · intro declared
    obtain ⟨e, he, rfl, eq⟩ := declared
    obtain ⟨d, found, depicts⟩ := h.drawn.device e he
    exact ⟨d, found, depicts.kind.trans eq⟩

theorem mem_outputs_iff {e : Declaration} {pin : Option String} : pin ∈ e.outputs ↔
    if e.kind = .flipFlop then pin = some "Q" ∨ pin = some "QBAR" else pin = none := by
  obtain ⟨name, kind, numbers⟩ := e
  cases kind <;> simp [Declaration.outputs]

theorem exists_output_text {pin : Option String} (h : pin = some "Q" ∨ pin = some "QBAR") :
    ∃ text, pin = some text ∧ (text = "Q" ∨ text = "QBAR") := by
  rcases h with rfl | rfl
  · exact ⟨_, rfl, Or.inl rfl⟩
  · exact ⟨_, rfl, Or.inr rfl⟩

end LogicCircuit.Description.Reader
