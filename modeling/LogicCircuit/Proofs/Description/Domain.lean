import LogicCircuit.Proofs.Description.GroundSwitch
import LogicCircuit.Proofs.Description.Places
import LogicCircuit.Proofs.Netlist.Domain

/-!
The numbers of a text are those of the machine; so in whatever way a compiled circuit is used, its
devices show and keep what is in the domain of their kinds.
-/

namespace LogicCircuit.Description

open LogicCircuit (Circuit Device Netlist)
open LogicCircuit.Circuit (Call)
open LogicCircuit.Text

variable {source : String} {compiled : Compiled} {c : Circuit} {d : Document} {e : Declaration}
  {dev made : Device} {t : SymbolTable} {drives : Signal → Option Signal} {limit n : Nat}
  {pins : FlipFlopPins}

/-! Numbers. -/

theorem Cursor.number_lt_of_next {c : Cursor} {token : Located Token}
    (read : c.next.1 = .ok token) (number : token.value = .number n) : n < Decimal.bound := by
  have call := call_next c
  generalize c.next = result at call read
  generalize c.skipGap = start at call
  obtain ⟨text, p⟩ := start
  cases call with
  | ending =>
    rw [← Except.ok.inj read] at number
    cases number
  | @spelling s rest proper =>
    have written := Spelling.eq_of_outcome read
    cases s with
    | numeral digits =>
      rw [Spelling.outcome] at read
      split at read
      · next fits =>
        rw [written] at number
        exact Token.number.inj number ▸ fits
      · cases read
    | _ =>
      rw [written] at number
      cases number
  | bareDash => cases read
  | stray => cases read

theorem number_lt_of_mem_lexemes (h : .number n ∈ lexemes source) : n < Decimal.bound := by
  obtain ⟨token, member, value⟩ := List.mem_map.mp h
  obtain ⟨k, read⟩ := (Cursor.call_of_tokens _).1 token member
  exact Cursor.number_lt_of_next read value

theorem Declaration.number_mem_tokens (h : n ∈ e.numbers) : .number n ∈ e.tokens := by
  simp only [Declaration.tokens, List.mem_cons, List.mem_append, List.mem_flatMap]
  exact Or.inr (Or.inr (Or.inr (Or.inl ⟨n, h, by simp⟩)))

/-- No declaration holds a number that is too large for the machine. -/
theorem Document.number_lt (tokens : d.tokens <+: lexemes source) (he : e ∈ d.devices)
    (hn : n ∈ e.numbers) : n < Decimal.bound := by
  refine number_lt_of_mem_lexemes (tokens.subset ?_)
  rw [Document.tokens]
  refine List.mem_cons_of_mem _ (List.mem_append_left _ ?_)
  exact List.mem_flatMap.mpr ⟨e, he, Declaration.number_mem_tokens hn⟩

/-! The circuit as it is compiled. -/

theorem sound_congr (body : dev.body = made.body) (outputs : dev.outputs = made.outputs)
    (h : made.Sound pins) : dev.Sound pins := by
  have kind : dev.kind = made.kind := by rw [Device.kind, Device.kind, body]
  obtain ⟨⟨lit, setting, memory⟩, ⟨flat, setting', calm⟩, opposed, lengths, clock, generator⟩ := h
  unfold Device.Calm at calm
  unfold Device.Opposed at opposed
  rw [← outputs] at lit
  simp only [← kind, ← body, ← outputs] at *
  exact ⟨⟨lit, setting, memory⟩, ⟨flat, setting', calm⟩, opposed, lengths, clock, generator⟩

theorem Shows.sound (h : Shows t drives e dev)
    (apart : (Vocabulary.ofTable t).flipFlop.q ≠ (Vocabulary.ofTable t).flipFlop.qbar)
    (small : ∀ n ∈ e.numbers, n < Decimal.bound) : dev.Sound (Vocabulary.ofTable t).flipFlop := by
  obtain ⟨made, makes, body, outputs, -⟩ := h.makes
  refine sound_congr body outputs (Device.Made.sound makes apart ⟨fun n hn => ?_, fun n hn => ?_⟩)
  · exact small n (List.mem_of_getElem? hn)
  · exact small n (List.mem_of_getElem? hn)

theorem Realises.sound (realises : Realises d c) (tokens : d.tokens <+: lexemes source)
    (proper : c.netlist.Proper) (words : c.netlist.vocabulary = Vocabulary.ofTable c.symbols) :
    c.netlist.Sound c.netlist.vocabulary := by
  refine ⟨rfl, fun dev hd => ?_⟩
  have apart := proper.vocabulary.q_ne_qbar
  rw [words] at apart ⊢
  obtain ⟨e, he, shows⟩ | ⟨-, rfl⟩ := realises.device_cases hd
  · exact shows.sound apart fun n hn => Document.number_lt tokens he hn
  · exact Device.sound_newSwitch _ false

/-! The circuit in use. -/

/-- After whatever calls, and after each cycle that completes from there on, be it one of a run that
goes on or of one from cold, everything is in its domain; after a cycle each flip-flop shows what it
remembers. -/
theorem in_domain_after_calls (run : compileInto source (Circuit.empty limit) = .ok compiled)
    (ok : compiled.isOk = true) (calls : List Call) :
    (compiled.circuit.after calls).netlist.InDomain ∧
    ∀ k, ∀ m ∈ (compiled.circuit.after calls).course k ++
      (compiled.circuit.after calls).started.course k, m.InDomain ∧ m.Steady := by
  obtain ⟨-, -, d, -, tokens, realises⟩ := exists_document_into run ok
  have proper := proper_compileInto run
  have sound := realises.sound tokens proper (vocabulary_compileInto run)
  have apart := proper.vocabulary.q_ne_qbar
  have later := (Circuit.after_keeps (Netlist.kept_sound apart) (fun _ h => h.started apart)
    (fun _ _ _ _ h set => h.setSwitch set) sound calls).2
  have proper' := (Circuit.sameLayout_after proper calls).2.proper proper
  refine ⟨later.inDomain, fun k m hm => ?_⟩
  obtain resumed | restarted := List.mem_append.mp hm
  · exact later.steady_course proper' m resumed
  · have start := Netlist.sameLayout_started proper'
    exact (later.started apart).steady_course (start.proper proper') m restarted

/-- Devices of each kind, and a gate that a switch lets oscillate. -/
def mixedText : String :=
  "DEVICES C = CLOCK, 1; G = SIGGEN, 2, 3; S = SWITCH, 0; D = DTYPE; N = NAND, 2; " ++
    "CONNECT C -> D.CLK; G -> D.DATA; S -> N.I1; N -> N.I2; MONITOR D.Q; END"

theorem mixedText_in_domain : ∃ compiled, compileInto mixedText (Circuit.empty 4) = .ok compiled ∧
    compiled.isOk = true ∧
    (Circuit.resume 2 (compiled.circuit.after [.run 3, .setSwitch "S" true])).isOk = false ∧
    (compiled.circuit.after [.run 3, .setSwitch "S" true, .resume 2]).netlist.InDomain := by
  have accepted : (compileInto mixedText (Circuit.empty 4)).toOption.any (fun compiled =>
      compiled.isOk &&
        !(Circuit.resume 2
          (compiled.circuit.after [.run 3, .setSwitch "S" true])).isOk) = true := by
    decide +kernel
  obtain ⟨compiled, run, accepted⟩ := exists_of_any accepted
  simp only [Bool.and_eq_true, Bool.not_eq_true'] at accepted
  obtain ⟨ok, stalls⟩ := accepted
  exact ⟨compiled, run, ok, stalls, (in_domain_after_calls run ok _).1⟩

end LogicCircuit.Description
