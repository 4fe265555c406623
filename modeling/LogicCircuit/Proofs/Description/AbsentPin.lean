import LogicCircuit.Proofs.Description.FanOut

/-!
Pins that a device does not have: what is written down about a destination depends on the text of
its pin, and on nothing else.
-/

namespace LogicCircuit

namespace Vocabulary

open LogicCircuit.Text (isDigit)
open LogicCircuit.Text.Decimal (value bound)

variable {pin : String} {m n : ℕ}

/-- The pin has the name of an input of a gate, of whatever size, with the number in decimal
digits. -/
def NamesInput (pin : String) (n : ℕ) : Prop :=
  ∃ digits, pin.toList = 'I' :: digits ∧ digits ≠ [] ∧ digits.all isDigit = true ∧ value digits = n

theorem NamesInput.unique (h : NamesInput pin m) (h' : NamesInput pin n) : m = n := by
  obtain ⟨digits, split, -, -, rfl⟩ := h
  obtain ⟨digits', split', -, -, rfl⟩ := h'
  rw [(List.cons.inj (split.symm.trans split')).2]

/-- Only the number is looked at, and only if it is not too large. -/
theorem gateInputNumber?_eq_some_iff :
    gateInputNumber? pin = some n ↔ NamesInput pin n ∧ n < bound := by
  unfold gateInputNumber?
  constructor
  · intro read
    split at read
    case h_2 => cases read
    case h_1 digits split =>
      rw [Text.Decimal.number?] at read
      split at read
      case isFalse => cases read
      case isTrue numeral =>
        obtain ⟨some_digit, all, small⟩ := numeral
        obtain rfl := Option.some.inj read
        exact ⟨⟨digits, split, some_digit, all, rfl⟩, small⟩
  · intro h
    obtain ⟨⟨digits, split, some_digit, all, rfl⟩, small⟩ := h
    simp only [split]
    rw [Text.Decimal.number?, if_pos ⟨some_digit, all, small⟩]

theorem NamesInput.not_flipFlopInput (h : NamesInput pin n) :
    pin ∉ ["CLK", "SET", "CLEAR", "DATA"] := by
  obtain ⟨digits, split, -⟩ := h
  have other : ∀ w ∈ ["CLK", "SET", "CLEAR", "DATA"], w.toList.head? ≠ some 'I' := by decide
  intro word
  exact other pin word (by rw [split, List.head?_cons])

end Vocabulary

namespace Description

open LogicCircuit.Vocabulary (NamesInput)

variable {device : String} {pin : Option String} {problem : Problem} {t : SymbolTable}

/-- What a pin that the device does not have is taken for, by its text. A number from 2 ^ 64 on is
none to the reading, and the pin goes with those that have no number. -/
inductive TakenFor (device : String) : Option String → Problem → Prop
  | bare : TakenFor device none (.invalidPin device)
  | flipFlopInput {pin : String} (input : pin ∈ ["CLK", "SET", "CLEAR", "DATA"]) :
    TakenFor device (some pin) (.notAnInputOf pin device)
  | outside {pin : String} {n : ℕ} (number : NamesInput pin n) (small : n < 2 ^ 64)
    (outside : ¬ (1 ≤ n ∧ n ≤ 16)) : TakenFor device (some pin) (.inputOutOfRange pin)
  | other {pin : String} (input : pin ∉ ["CLK", "SET", "CLEAR", "DATA"])
    (number : ∀ n, NamesInput pin n → n < 2 ^ 64 → 1 ≤ n ∧ n ≤ 16) :
    TakenFor device (some pin) (.pinNotFound device pin)

theorem TakenFor.unique {p q : Problem} (h : TakenFor device pin p) (h' : TakenFor device pin q) :
    p = q := by
  cases h with
  | bare =>
    cases h'
    rfl
  | flipFlopInput input =>
    cases h' with
    | flipFlopInput => rfl
    | outside number => exact absurd input number.not_flipFlopInput
    | other free => exact absurd input free
  | outside number small outside =>
    cases h' with
    | flipFlopInput input => exact absurd input number.not_flipFlopInput
    | outside => rfl
    | other _ within => exact absurd (within _ number small) outside
  | other free within =>
    cases h' with
    | flipFlopInput input => exact absurd input free
    | outside number small outside => exact absurd (within _ number small) outside
    | other => rfl

theorem takenFor_absentPin (words : ∀ w ∈ Vocabulary.words, w ∈ t.texts) (device : Located String)
    (pin : Option (Located String)) :
    TakenFor device.value (pin.map Located.value)
      (absentPin (Vocabulary.ofTable t) (mention t device) (pin.map (mention t))) := by
  cases pin with
  | none => exact .bare
  | some pin =>
    simp only [absentPin, Option.map_some, mention]
    split
    case isTrue input =>
      exact .flipFlopInput ((Vocabulary.isFlipFlopInput_symbol_iff words).mp input)
    case isFalse free =>
      rw [Vocabulary.isFlipFlopInput_symbol_iff words] at free
      split
      case h_1 n read =>
        obtain ⟨number, small⟩ := Vocabulary.gateInputNumber?_eq_some_iff.mp read
        split
        case isTrue within => exact .other free fun m number' _ => number.unique number' ▸ within
        case isFalse outside => exact .outside number small outside
      case h_2 read =>
        refine .other free fun n number small => ?_
        rw [Vocabulary.gateInputNumber?_eq_some_iff.mpr ⟨number, small⟩] at read
        cases read

namespace Reader

variable {r : Reader} {w : WrittenSignal} {u : Located Token} {rest : List (Located Token)}
  {output : Terminal}

/-- A destination whose pin the device does not have gives one problem, at its name, which is told
by the text of the pin; nothing is connected, and the reading goes on behind the destination. -/
theorem destination_of_pinAbsent (worded : r.Worded) (held : Held w.nameToken r)
    (behind : w.pin = none → u.value ≠ .dot) (ahead : r.coming = w.pinTokens ++ u :: rest)
    (absent : r.circuit.netlist.connect output
      (w.terminal (r.circuit.symbols.addAll (names (w.pinTokens ++ [u])))) = .error .pinAbsent) :
    ∃ problem, (∀ p, TakenFor w.device.value (w.pin.map fun pin => pin.2.value) p ↔ p = problem) ∧
      destination (some output) w.nameToken r = .ok u (r.passed (w.pinTokens ++ [u])
        r.circuit.netlist [⟨w.device.position, problem⟩]) := by
  have read := destination_written (some output) held behind ahead List.prefix_rfl
  have grown := worded.passed (w.pinTokens ++ [u]) []
  have vocabulary := grown.vocabulary
  rw [netlist_passed, symbols_passed] at vocabulary
  have words := grown.words
  rw [symbols_passed] at words
  generalize r.circuit.symbols.addAll (names (w.pinTokens ++ [u])) = t at *
  have kept : r.circuit.netlist.fanOut (some output) [w.terminal t] = r.circuit.netlist := by
    simp only [Netlist.fanOut, List.foldl_cons, List.foldl_nil, Option.bind_some, absent]
    rfl
  have taken := takenFor_absentPin words w.device (w.pin.map Prod.snd)
  rw [Option.map_map, Option.map_map] at taken
  simp only [kept, WrittenSignal.complaint, absent, connectProblem, vocabulary] at read
  exact ⟨_, fun p => ⟨fun h => h.unique taken, fun h => h ▸ taken⟩, read⟩

/-- A text in which a gate with one input is to be driven at another one. -/
def pinText (pin : String) : String :=
  "DEVICES S = SWITCH, 0; G = AND, 1; CONNECT S -> G." ++ pin ++ ", G.I1; MONITOR G; END"

/-- The reading of that text with the name of the gate in hand. -/
def pinReader (pin : String) : Reader :=
  ((do
    let t ← read
    let _ ← sectionOf .devices devices t
    let _ ← read
    let _ ← read
    read) (opened (pinText pin).toList (Circuit.empty Circuit.defaultLimit))).state

/-- The destination that the reading is at. -/
def pinSignal (pin : String) : WrittenSignal :=
  ⟨⟨⟨0, 48⟩, "G"⟩, some (⟨0, 49⟩, ⟨⟨0, 50⟩, pin⟩)⟩

/-- The switch cannot be connected there, for want of the pin. -/
def PinAbsent (pin : String) (comma : Located Token) : Prop :=
  (pinReader pin).circuit.netlist.connect ⟨(pinReader pin).circuit.symbols.symbol "S", none⟩
    ((pinSignal pin).terminal ((pinReader pin).circuit.symbols.addAll
      (names ((pinSignal pin).pinTokens ++ [comma])))) = .error .pinAbsent

instance (pin : String) (comma : Located Token) : Decidable (PinAbsent pin comma) :=
  inferInstanceAs (Decidable (_ = _))

theorem pinReader_takes : (pinReader "I17").Worded ∧
    Held (pinSignal "I17").nameToken (pinReader "I17") ∧
    PinAbsent "I17" ⟨⟨0, 53⟩, .comma⟩ ∧
    ∃ more, (pinReader "I17").coming =
        (pinSignal "I17").pinTokens ++ ⟨⟨0, 53⟩, .comma⟩ :: more ∧
      destination (some ⟨(pinReader "I17").circuit.symbols.symbol "S", none⟩)
        (pinSignal "I17").nameToken (pinReader "I17") = .ok ⟨⟨0, 53⟩, .comma⟩
          ((pinReader "I17").passed ((pinSignal "I17").pinTokens ++ [⟨⟨0, 53⟩, .comma⟩])
            (pinReader "I17").circuit.netlist [⟨⟨0, 48⟩, .inputOutOfRange "I17"⟩]) := by
  have worded : (pinReader "I17").Worded :=
    worded_of_steps (worded_opened _ _) (moves_read.bind (fun t =>
      (moves_sectionOf moves_devices .devices t).bind fun _ =>
        moves_read.bind fun _ => moves_read.bind fun _ => moves_read) _)
  have here : "G" ∈ (pinReader "I17").circuit.symbols.texts ∧
      (pinReader "I17").coming = (pinSignal "I17").pinTokens ++ ⟨⟨0, 53⟩, .comma⟩ ::
        (pinReader "I17").coming.drop 3 ∧
      PinAbsent "I17" ⟨⟨0, 53⟩, .comma⟩ := by decide +kernel
  obtain ⟨known, ahead, absent⟩ := here
  have held : Held (pinSignal "I17").nameToken (pinReader "I17") := by
    intro text same
    cases same
    exact known
  have seventeen : NamesInput "I17" 17 := ⟨['1', '7'], by decide, by decide, by decide, by decide⟩
  obtain ⟨problem, takes, read⟩ := destination_of_pinAbsent worded held (by simp) ahead absent
  rw [← (takes _).mp (.outside seventeen (by decide) (by decide))] at read
  exact ⟨worded, held, absent, _, ahead, read⟩

/-- The name of an input with the least number that is too large to be read. -/
def largePin : String := "I18446744073709551616"

/-- That number is out of the range of inputs like any other, but the pin is only called missing. -/
theorem largePin_not_found : NamesInput largePin (2 ^ 64) ∧ ¬ (1 ≤ 2 ^ 64 ∧ 2 ^ 64 ≤ 16) ∧
    PinAbsent largePin ⟨⟨0, 71⟩, .comma⟩ ∧
    ∃ compiled, compile (pinText largePin) = .ok compiled ∧
      compiled.diagnostics.map Diagnostic.problem = [.pinNotFound "G" largePin] := by
  have number : NamesInput largePin (2 ^ 64) :=
    ⟨largePin.toList.drop 1, by decide +kernel, by decide +kernel, by decide +kernel,
      by decide +kernel⟩
  have found : (compile (pinText largePin)).toOption.any (fun compiled =>
      compiled.diagnostics.map Diagnostic.problem = [.pinNotFound "G" largePin]) = true := by
    decide +kernel
  obtain ⟨compiled, run, problems⟩ := exists_of_any found
  exact ⟨number, by decide, by decide +kernel, compiled, run, of_decide_eq_true problems⟩

end Reader

end Description

end LogicCircuit
