import LogicCircuit.Proofs.Description.Compile

/-!
Connections from a device whose output has no name, but with a dot behind the name of the device:
the token behind the dot is a problem, whatever it is, and the arrow is sought behind that token.
-/

namespace LogicCircuit.Description.Reader

variable {r : Reader} {t u v : Located Token} {skipped more rest : List (Located Token)}
  {kind : Kind} {device : Mention} {dot : Position} {text : String}

/-- The problem with a token that stands for the pin of a device whose output has no name. -/
def pinProblem (v : Vocabulary) (t : SymbolTable) (device : Mention) : Token → Problem
  | .name text =>
    if v.isFlipFlopOutput (t.symbol text) then .notAnOutputOf text device.text else .expectedOutput
  | _ => .expectedOutput

theorem needlessPin_eq (r : Reader) (device : Mention) (u : Located Token) :
    needlessPin device u r =
      .ok (pinProblem r.circuit.netlist.vocabulary r.circuit.symbols device u.value) r := by
  obtain ⟨p, token⟩ := u
  cases token with
  | name text =>
    have named : expectName ⟨p, .name text⟩ r = .ok ⟨text, r.circuit.symbols.symbol text⟩ r :=
      expectName_ok_iff.mpr ⟨rfl, text, rfl, rfl⟩
    have asked : isOutputPin ⟨text, r.circuit.symbols.symbol text⟩ r =
      .ok (r.circuit.netlist.vocabulary.isFlipFlopOutput (r.circuit.symbols.symbol text)) r := rfl
    rw [needlessPin]
    simp only
    rw [EStateM.bind_of_ok named, EStateM.bind_of_ok asked, pinProblem]
    split <;> rfl
  | _ => rfl

theorem arrow_of_dot (device : Mention) (dot : Position) (other : kind ≠ .flipFlop)
    (ahead : r.coming = u :: more) :
    arrow kind device ⟨dot, .dot⟩ r = (do skipToArrow; return some ())
      (r.passed [u] r.circuit.netlist [⟨u.position, pinProblem r.circuit.netlist.vocabulary
        (r.circuit.symbols.addAll (names [u])) device u.value⟩]) := by
  have judged := needlessPin_eq (r.passed [u] r.circuit.netlist []) device u
  have recorded := record_eq (r.passed [u] r.circuit.netlist []) u.position
    (pinProblem r.circuit.netlist.vocabulary (r.circuit.symbols.addAll (names [u])) device u.value)
  rw [netlist_passed, passed_passed] at recorded
  rw [arrow, if_neg (by simp), if_neg (by simp), if_pos ⟨rfl, other⟩,
    EStateM.bind_of_ok (read_of_coming ahead), EStateM.bind_of_ok judged]
  exact EStateM.bind_of_ok recorded

/-- Whether the search for an arrow ends with the token. -/
def endsSearch (a : Token) : Bool :=
  a = .arrow || a = .semicolon || a.endsSection

theorem endsSearch_eq_false_iff {a : Token} : endsSearch a = false ↔
    a ≠ .ending ∧ (a = .arrow || a = .semicolon || a.isKeyword) = false := by
  simp only [endsSearch, Bool.or_eq_false_iff, Token.endsSection_eq_false_iff]
  tauto

theorem skipToArrow_of_coming (first : FirstOf endsSearch r.coming skipped v rest) :
    skipToArrow r =
      if v.value = .arrow then .ok () (r.passed (skipped ++ [v]) r.circuit.netlist [])
      else .error (.located v.position .expectedConnection)
        (r.passed (skipped ++ [v]) r.circuit.netlist []) := by
  refine (EStateM.bind_of_ok (skipUntil_of_first endsSearch_eq_false_iff first)).trans ?_
  rw [expect]
  split <;> rfl

theorem skipToArrow_of_broken (goes : ∀ w ∈ r.coming, endsSearch w.value = false) :
    ∃ fault s, r.ending = .error fault ∧ skipToArrow r = .error (.ofLexical fault) s ∧
      s.circuit.netlist = r.circuit.netlist := by
  obtain ⟨fault, s, ending, run, same⟩ :=
    skipUntil_of_broken (fun t => t = .arrow || t = .semicolon || t.isKeyword)
      fun w hw => endsSearch_eq_false_iff.mp (goes w hw)
  refine ⟨fault, s, ending, ?_, same⟩
  rw [skipToArrow]
  simp only [Bind.bind, EStateM.bind, run]

/-- How the section goes on when the arrow of an entry with that output is sought in some tokens: up
to the first arrow, semicolon, keyword or end among them. Only behind an arrow the output is
connected to anything. One problem is written down before. -/
structure Seeks (r : Reader) (output : Terminal) (problem : Located Problem)
    (ts : List (Located Token)) (result : EStateM.Result Fault Reader (Option (Located Token))) :
    Prop where
  found : ∀ skipped p rest, FirstOf endsSearch ts skipped ⟨p, .arrow⟩ rest →
    ∃ taken, (r.passed taken r.circuit.netlist [problem]).coming = rest ∧
      result = (do
        let first ← read
        let next ← destinations (some output) first
        entries connectionEntry yieldsSome_connectionEntry next)
          (r.passed taken r.circuit.netlist [problem])
  missed : ∀ skipped v rest, FirstOf endsSearch ts skipped v rest → v.value ≠ .arrow →
    ∃ taken, result = .error (.located v.position .expectedConnection)
      (r.passed taken r.circuit.netlist [problem])
  broken : (∀ w ∈ ts, endsSearch w.value = false) →
    ∃ fault s, r.ending = .error fault ∧ s.circuit.netlist = r.circuit.netlist ∧
      result = .error (.ofLexical fault) s

/-- A token that does not end the search may stand before those that are searched. -/
theorem Seeks.cons {output : Terminal} {problem : Located Problem} {ts : List (Located Token)}
    {result : EStateM.Result Fault Reader (Option (Located Token))}
    (h : Seeks r output problem ts result) (goes : endsSearch u.value = false) :
    Seeks r output problem (u :: ts) result := by
  refine ⟨fun skipped p rest first => ?_, fun skipped v rest first other => ?_,
    fun inner => h.broken fun w hw => inner w (List.mem_cons_of_mem _ hw)⟩
  · obtain ⟨skipped, first⟩ := first.of_cons goes
    exact h.found skipped p rest first
  · obtain ⟨skipped, first⟩ := first.of_cons goes
    exact h.missed skipped v rest first other

/-- The entry up to the search for its arrow. -/
theorem connectionEntry_of_dot (name : t.value = .name text)
    (known : r.circuit.netlist.kindOf? (r.circuit.symbols.symbol text) = some kind)
    (other : kind ≠ .flipFlop) (ahead : r.coming = ⟨dot, .dot⟩ :: u :: more) :
    connectionEntry t r = (do
      skipToArrow
      let first ← read
      some <$> destinations (some ⟨r.circuit.symbols.symbol text, none⟩) first)
        (r.passed [⟨dot, .dot⟩, u] r.circuit.netlist [⟨u.position,
          pinProblem r.circuit.netlist.vocabulary (r.circuit.symbols.addAll (names [u]))
            ⟨text, r.circuit.symbols.symbol text⟩ u.value⟩]) := by
  have named : expectName t r = .ok ⟨text, r.circuit.symbols.symbol text⟩ r :=
    expectName_ok_iff.mpr ⟨rfl, text, name, rfl⟩
  have output : connectionOutput kind ⟨text, r.circuit.symbols.symbol text⟩ r =
      .ok (some ⟨r.circuit.symbols.symbol text, none⟩, ⟨dot, .dot⟩)
        (r.passed [⟨dot, .dot⟩] r.circuit.netlist []) := by
    rw [connectionOutput, EStateM.bind_of_ok (read_of_coming ahead), if_neg other]
    rfl
  have signed := arrow_of_dot ⟨text, r.circuit.symbols.symbol text⟩ dot other
    (coming_passed_one ahead (by simp) r.circuit.netlist [])
  rw [connectionEntry, EStateM.bind_of_ok named, EStateM.bind_of_ok (circuitNow_ok r)]
  simp only [known]
  rw [netlist_passed, passed_passed] at signed
  rw [EStateM.bind_of_ok output]
  refine (EStateM.bind_congr signed).trans ?_
  rw [bind_assoc]
  rfl

theorem seeks_of_skip {output : Terminal} {problem : Located Problem}
    {taken : List (Located Token)} (begins : ¬ t.value.endsSection = true)
    (start : connectionEntry t r = (do
      skipToArrow
      let first ← read
      some <$> destinations (some output) first) (r.passed taken r.circuit.netlist [problem])) :
    Seeks r output problem (r.passed taken r.circuit.netlist [problem]).coming
      (entries connectionEntry yieldsSome_connectionEntry t r) := by
  have whole : entries connectionEntry yieldsSome_connectionEntry t r = (do
      skipToArrow
      let first ← read
      let next ← destinations (some output) first
      entries connectionEntry yieldsSome_connectionEntry next)
        (r.passed taken r.circuit.netlist [problem]) := by
    rw [entries_eq, if_neg begins]
    refine (EStateM.bind_congr start).trans ?_
    simp only [bind_assoc]
    refine congrArg (fun f => (skipToArrow >>= f) _) (funext fun _ => ?_)
    exact congrArg (read >>= ·) (funext fun first => bind_map_left _ _ _)
  rw [whole]
  refine ⟨fun skipped p rest first => ?_, fun skipped v rest first other => ?_, fun inner => ?_⟩
  · have run := skipToArrow_of_coming first
    rw [if_pos rfl, netlist_passed, passed_passed, List.append_nil] at run
    have behind := coming_passed_first endsSearch_eq_false_iff first (by simp) r.circuit.netlist []
    rw [passed_passed, List.append_nil] at behind
    exact ⟨taken ++ (skipped ++ [⟨p, .arrow⟩]), behind, EStateM.bind_of_ok run⟩
  · have run := skipToArrow_of_coming first
    rw [if_neg other, netlist_passed, passed_passed, List.append_nil] at run
    exact ⟨_, EStateM.bind_of_error run⟩
  · obtain ⟨fault, s, ending, run, same⟩ := skipToArrow_of_broken inner
    exact ⟨fault, s, ending, same, EStateM.bind_of_error run⟩

/-- The arrow of an entry with a needless pin is sought behind its dot; but if the token right
behind the dot is an arrow, a semicolon or a keyword, it is passed over. -/
theorem seeks_of_dot {source : List Char} {c : Circuit}
    (steps : Relation.ReflTransGen Step (opened source c) r) (name : t.value = .name text)
    (known : r.circuit.netlist.kindOf? (r.circuit.symbols.symbol text) = some kind)
    (other : kind ≠ .flipFlop) (ahead : r.coming = ⟨dot, .dot⟩ :: u :: more) :
    Seeks r ⟨r.circuit.symbols.symbol text, none⟩
      ⟨u.position, pinProblem r.circuit.netlist.vocabulary (r.circuit.symbols.addAll (names [u]))
        ⟨text, r.circuit.symbols.symbol text⟩ u.value⟩
      (if endsSearch u.value = true ∧ u.value ≠ .ending then more else u :: more)
      (entries connectionEntry yieldsSome_connectionEntry t r) := by
  have begins : ¬ t.value.endsSection = true := by
    rw [name]
    simp [Token.endsSection, Token.isKeyword, Token.keyword?]
  have start := connectionEntry_of_dot name known other ahead
  generalize (⟨u.position, _⟩ : Located Problem) = problem at start ⊢
  have seeks := seeks_of_skip begins start
  have ahead₁ := coming_passed_one ahead (by simp) r.circuit.netlist []
  by_cases ends : u.value = .ending
  · have proper := proper_of_steps steps
    obtain ⟨rfl, last⟩ := coming_at_end (fun w hw => proper w (List.mem_of_mem_drop hw)) ahead₁
      ends r.circuit.netlist [problem]
    rw [passed_passed] at last
    rw [if_neg fun h => h.2 ends, ← last]
    exact seeks
  · have behind := coming_passed_one ahead₁ ends r.circuit.netlist [problem]
    rw [passed_passed] at behind
    cases stops : endsSearch u.value with
    | true =>
      rw [if_pos ⟨rfl, ends⟩, ← behind]
      exact seeks
    | false =>
      rw [if_neg (by simp)]
      exact (behind ▸ seeks).cons stops

/-- A text in which a semicolon stands right behind the dot, and the next arrow belongs to the next
entry. -/
def strayDotText : String :=
  "DEVICES S = SWITCH, 0; T = SWITCH, 1; G = AND, 1; CONNECT S.; T -> G.I1; MONITOR G; END"

/-- The reading of that text with the name before the dot in hand. -/
def strayDotReader : Reader :=
  ((do
    let t ← read
    let _ ← sectionOf .devices devices t
    read) (opened strayDotText.toList (Circuit.empty Circuit.defaultLimit))).state

theorem strayDotReader_seeks : strayDotReader.circuit.netlist.kindOf?
      (strayDotReader.circuit.symbols.symbol "S") = some .switch ∧
    ∃ more, strayDotReader.coming = ⟨⟨0, 59⟩, .dot⟩ :: ⟨⟨0, 60⟩, .semicolon⟩ :: more ∧
      Seeks strayDotReader ⟨strayDotReader.circuit.symbols.symbol "S", none⟩
        ⟨⟨0, 60⟩, .expectedOutput⟩ more
        (entries connectionEntry yieldsSome_connectionEntry ⟨⟨0, 58⟩, .name "S"⟩
          strayDotReader) := by
  have steps : Relation.ReflTransGen Step
      (opened strayDotText.toList (Circuit.empty Circuit.defaultLimit)) strayDotReader :=
    moves_read.bind (fun t => (moves_sectionOf moves_devices .devices t).bind fun _ => moves_read) _
  have known : strayDotReader.circuit.netlist.kindOf?
      (strayDotReader.circuit.symbols.symbol "S") = some .switch := by decide +kernel
  have ahead : strayDotReader.coming =
      ⟨⟨0, 59⟩, .dot⟩ :: ⟨⟨0, 60⟩, .semicolon⟩ :: strayDotReader.coming.drop 2 := by decide +kernel
  exact ⟨known, _, ahead, seeks_of_dot steps rfl known (by decide) ahead⟩

/-- The switch before the dot drives the gate that another entry connects. -/
theorem strayDot_connects : ∃ compiled, compile strayDotText = .ok compiled ∧
    [.keyword .connect, .name "S", .dot, .semicolon, .name "T", .arrow] <:+: lexemes strayDotText ∧
      ((compiled.circuit.netlist.device? (compiled.circuit.symbols.symbol "G")).bind fun d =>
        d.driver? (compiled.circuit.symbols.symbol "I1")) =
          some ⟨compiled.circuit.symbols.symbol "S", none⟩ := by
  have connects : (compile strayDotText).toOption.any (fun compiled =>
      ((compiled.circuit.netlist.device? (compiled.circuit.symbols.symbol "G")).bind fun d =>
        d.driver? (compiled.circuit.symbols.symbol "I1")) =
          some ⟨compiled.circuit.symbols.symbol "S", none⟩) = true := by
    decide +kernel
  obtain ⟨compiled, run, connects⟩ := exists_of_any connects
  exact ⟨compiled, run, by decide +kernel, of_decide_eq_true connects⟩

end LogicCircuit.Description.Reader
