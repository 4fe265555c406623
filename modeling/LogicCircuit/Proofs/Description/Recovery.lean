import LogicCircuit.Proofs.Description.Compile

/-!
Entries that are taken for the lack of the next keyword: the problem belongs to the token that was
taken last, and the reading goes on at a keyword or the end, which it seeks behind that token.
-/

namespace LogicCircuit.Description.Reader

variable {r s : Reader} {t u : Located Token} {text behind rest : List (Located Token)}
  {next : Keyword} {source : List Char} {c : Circuit}
  {entry : Located Token → Reading (Option (Located Token))} {progress : ∀ t, YieldsSome (entry t)}

/-! The tokens to come, step by step. -/

/-- A step takes a token or none. -/
theorem step_cases (step : Step r s) :
    s = (read r).state ∨ s.coming = r.coming ∧ s.last = r.last := by
  cases step with
  | read => exact .inl rfl
  | record p problem => exact .inr ⟨rfl, rfl⟩
  | declare p name kind first second =>
    refine .inr ?_
    rw [declare]
    split <;> exact ⟨rfl, rfl⟩
  | attach output p device pin =>
    refine .inr ?_
    unfold attach
    split
    · exact ⟨rfl, rfl⟩
    · split <;> exact ⟨rfl, rfl⟩
  | watch output p device =>
    refine .inr ?_
    unfold watch
    split
    · exact ⟨rfl, rfl⟩
    · split <;> exact ⟨rfl, rfl⟩
  | ground =>
    refine .inr ?_
    change Reader.coming (if (r.circuit.netlist.floatingOf fun kind => kind = .flipFlop).isEmpty
      then r else _) = _ ∧ Reader.last (ite _ r _) = _
    split <;> exact ⟨rfl, rfl⟩
  | recordFloating => exact .inr ⟨rfl, rfl⟩

/-- The token was taken from the text last, and those behind it are to come. Behind the end there is
nothing but the end. -/
structure Taken (text : List (Located Token)) (u : Located Token) (behind : List (Located Token))
    (r : Reader) : Prop where
  last : r.last = u.position
  split : ∃ before, text = before ++ u :: behind
  closed : u.value = .ending → behind = []
  coming : r.coming = if u.value = .ending then [u] else behind

theorem Taken.suffix (h : Taken text u behind r) : r.coming <:+ text := by
  obtain ⟨before, split⟩ := h.split
  rw [h.coming, split]
  by_cases ends : u.value = .ending
  · rw [if_pos ends, h.closed ends]
    exact List.suffix_append _ _
  · rw [if_neg ends]
    exact ⟨before ++ [u], by simp⟩

theorem taken_of_coming (proper : ∀ t ∈ r.tokens, t.value ≠ .ending) (within : r.coming <:+ text)
    (ahead : r.coming = t :: rest) : Taken text t rest (r.passed [t] r.circuit.netlist []) := by
  obtain ⟨before, split⟩ := within
  refine ⟨rfl, ⟨before, by rw [← split, ahead]⟩,
    fun ends => (coming_at_end proper ahead ends r.circuit.netlist []).1, ?_⟩
  by_cases ends : t.value = .ending
  · rw [if_pos ends]
    exact (coming_at_end proper ahead ends r.circuit.netlist []).2
  · rw [if_neg ends]
    exact coming_passed_one ahead ends _ _

/-- What one call for a token leaves, whether there is one or not. -/
theorem read_cases (r : Reader) : (∃ t rest, r.coming = t :: rest ∧
      (read r).state = r.passed [t] r.circuit.netlist []) ∨
    (read r).state.coming = r.coming ∧ (read r).state.last = r.last := by
  cases all : r.coming with
  | nil =>
    obtain ⟨fault, -, run⟩ := read_of_broken all
    refine .inr ?_
    rw [run, ← all]
    exact ⟨rfl, rfl⟩
  | cons t rest =>
    refine .inl ⟨t, rest, rfl, ?_⟩
    rw [read_of_coming all]
    rfl

/-- The tokens to come are always the last ones of the text. -/
theorem suffix_of_steps (steps : Relation.ReflTransGen Step (opened source c) r) :
    r.coming <:+ (opened source c).coming := by
  induction steps with
  | refl => exact List.suffix_rfl
  | @tail r s steps step ih =>
    have proper := proper_of_steps steps
    obtain rfl | ⟨same, -⟩ := step_cases step
    · obtain ⟨t, rest, ahead, eq⟩ | ⟨same, -⟩ := read_cases r
      · rw [eq]
        exact (taken_of_coming proper ih ahead).suffix
      · exact same ▸ ih
    · exact same ▸ ih

/-- From the first token on there is always one that was taken last. -/
theorem taken_of_steps (start : Relation.ReflTransGen Step (opened source c) r)
    (steps : Relation.ReflTransGen Step r s) (h : Taken (opened source c).coming u behind r) :
    ∃ u behind, Taken (opened source c).coming u behind s := by
  induction steps with
  | refl => exact ⟨u, behind, h⟩
  | @tail r' s steps step ih =>
    obtain ⟨u, behind, h⟩ := ih
    have proper := proper_of_steps (start.trans steps)
    have keep (same : s.coming = r'.coming ∧ s.last = r'.last) :
        Taken (opened source c).coming u behind s :=
      ⟨same.2.trans h.last, h.split, h.closed, same.1.trans h.coming⟩
    obtain rfl | same := step_cases step
    · obtain ⟨t, rest, ahead, eq⟩ | same := read_cases r'
      · rw [eq]
        exact ⟨t, rest, taken_of_coming proper h.suffix ahead⟩
      · exact ⟨u, behind, keep same⟩
    · exact ⟨u, behind, keep same⟩

/-! Entries go astray only where the next keyword is missing. -/

theorem absent_of_stray {α : Type} {p : Position} {cause : Cause}
    (run : (stray next p cause : Reading (Option α)) r = .ok none s) : next ∈ s.absent := by
  rw [stray, EStateM.bind_of_ok (get_run r)] at run
  split at run
  · next absent =>
    obtain ⟨-, rfl⟩ := EStateM.pure_ok_iff.mp run
    exact List.contains_iff_mem.mp absent
  · cases run

theorem absent_of_deviceEntry (run : deviceEntry t r = .ok none s) : .connect ∈ s.absent := by
  obtain ⟨name, s₁, -, run⟩ := bind_ok run
  obtain ⟨_, s₂, -, run⟩ := bind_ok run
  dsimp only at run
  split at run
  · exact absent_of_stray run
  · split at run
    · exact absent_of_stray run
    · obtain ⟨equals, s₃, -, run⟩ := bind_ok run
      split at run
      · obtain ⟨_, -, some⟩ := map_ok run
        cases some
      · exact absent_of_stray run

theorem absent_of_arrow {kind : Kind} {device : Mention}
    (run : arrow kind device t r = .ok none s) : .monitor ∈ s.absent := by
  rw [arrow] at run
  split at run
  · cases run
  · split at run
    · cases run
    · split at run
      · obtain ⟨_, s₁, -, run⟩ := bind_ok run
        obtain ⟨_, s₂, -, run⟩ := bind_ok run
        obtain ⟨_, s₃, -, run⟩ := bind_ok run
        obtain ⟨_, s₄, -, run⟩ := bind_ok run
        cases run
      · exact absent_of_stray run

theorem absent_of_connectionEntry (run : connectionEntry t r = .ok none s) :
    .monitor ∈ s.absent := by
  obtain ⟨device, s₁, -, run⟩ := bind_ok run
  rw [EStateM.bind_of_ok (circuitNow_ok s₁)] at run
  cases found : s₁.circuit.netlist.kindOf? device.symbol with
  | none =>
    simp only [found] at run
    obtain ⟨_, s₂, -, run⟩ := bind_ok run
    obtain ⟨_, -, some⟩ := map_ok run
    cases some
  | some kind =>
    simp only [found] at run
    obtain ⟨out, s₂, -, run⟩ := bind_ok run
    obtain ⟨signed, s₃, passed, run⟩ := bind_ok run
    cases signed with
    | none =>
      obtain ⟨-, rfl⟩ := EStateM.pure_ok_iff.mp run
      exact absent_of_arrow passed
    | some _ =>
      obtain ⟨first, s₄, -, run⟩ := bind_ok run
      obtain ⟨_, -, some⟩ := map_ok run
      cases some

theorem absent_of_entries (each : ∀ {t r s}, entry t r = .ok none s → next ∈ s.absent)
    (run : entries entry progress t r = .ok none s) : next ∈ s.absent := by
  fun_induction entries entry progress t r with
  | case1 => cases run
  | case2 => cases run
  | case3 t r ends s' astray =>
    obtain rfl := (EStateM.Result.ok.inj run).2
    exact each astray
  | case4 t r ends u s' goes ih => exact ih run

/-! The way back. -/

/-- The problem that is written down when an entry went astray, unless the last one is the same. -/
def blame (r : Reader) (next : Keyword) : List (Located Problem) :=
  if r.diagnostics.getLast?.any fun d => d.problem = .incorrectKeyword next then []
  else [⟨r.last, .incorrectKeyword next⟩]

theorem resume_eq (next : Keyword) (r : Reader) :
    resume next r = skipUntil Token.isKeyword (r.passed [] r.circuit.netlist (r.blame next)) := by
  have once : recordOnce r.last (.incorrectKeyword next) r =
      .ok () (r.passed [] r.circuit.netlist (r.blame next)) := by
    rw [recordOnce, EStateM.bind_of_ok (get_run r), blame]
    split
    · rw [passed_nil]
      rfl
    · exact record_eq r r.last _
  rw [resume, EStateM.bind_of_ok (get_run r)]
  exact EStateM.bind_of_ok once

theorem part_of_astray (run : (read >>= entries entry progress) r = .ok none s) :
    part entry progress next r = resume next s := by
  obtain ⟨t, s₁, took, body⟩ := bind_ok run
  rw [part, EStateM.bind_of_ok took, EStateM.bind_of_ok body]

/-- Among the tokens the reading goes on at the first keyword or the end, with the problem written
down. -/
structure Resumes (next : Keyword) (s : Reader) (ts : List (Located Token))
    (result : EStateM.Result Fault Reader (Located Token)) : Prop where
  found : ∀ skipped v rest, FirstOf Token.endsSection ts skipped v rest →
    ∃ taken, result = .ok v (s.passed taken s.circuit.netlist (s.blame next)) ∧
      (v.value ≠ .ending → (s.passed taken s.circuit.netlist (s.blame next)).coming = rest)
  broken : (∀ w ∈ ts, w.value.endsSection = false) →
    ∃ fault s', s.ending = .error fault ∧ result = .error (.ofLexical fault) s'

theorem Resumes.cons {ts : List (Located Token)}
    {result : EStateM.Result Fault Reader (Located Token)} (h : Resumes next s ts result)
    (goes : u.value.endsSection = false) : Resumes next s (u :: ts) result := by
  refine ⟨fun skipped v rest first => ?_,
    fun inner => h.broken fun w hw => inner w (List.mem_cons_of_mem _ hw)⟩
  obtain ⟨skipped, first⟩ := first.of_cons goes
  exact h.found skipped v rest first

/-- What comes of an entry that went astray: the next keyword is missing from the text, the problem
belongs to a token `u` of the text, and the reading goes on behind `u`, or at `u` if that is no
keyword. -/
structure Recovers (source : List Char) (c : Circuit) (next : Keyword) (s : Reader)
    (result : EStateM.Result Fault Reader (Located Token)) : Prop where
  missing : next ∈ missingKeywords source
  goes : ∃ before u behind, (opened source c).coming = before ++ u :: behind ∧
    s.last = u.position ∧
      Resumes next s (if u.value.isKeyword = true then behind else u :: behind) result

theorem resumes_of_coming (next : Keyword) (r : Reader) :
    Resumes next r r.coming (resume next r) := by
  have same : (r.passed [] r.circuit.netlist (r.blame next)).coming = r.coming :=
    coming_passed [] rfl (by simp) _ _
  rw [resume_eq]
  refine ⟨fun skipped v rest first => ?_, fun inner => ?_⟩
  · have run := skipUntil_of_first Token.endsSection_eq_false_iff (same.symm ▸ first)
    rw [netlist_passed, passed_passed, List.nil_append, List.append_nil] at run
    exact ⟨_, run, fun proper =>
      coming_passed_first Token.endsSection_eq_false_iff first proper _ _⟩
  · obtain ⟨fault, s, ending, run, -⟩ := skipUntil_of_broken Token.isKeyword
      (r := r.passed [] r.circuit.netlist (r.blame next))
      fun w hw => Token.endsSection_eq_false_iff.mp (inner w (same ▸ hw))
    exact ⟨fault, s, ending, run⟩

theorem coming_of_read (took : read r = .ok t s) :
    ∃ rest, r.coming = t :: rest ∧ s = r.passed [t] r.circuit.netlist [] := by
  cases all : r.coming with
  | nil =>
    obtain ⟨fault, -, run⟩ := read_of_broken all
    rw [run] at took
    cases took
  | cons u rest =>
    rw [read_of_coming all] at took
    obtain ⟨rfl, rfl⟩ := EStateM.Result.ok.inj took
    exact ⟨rest, rfl, rfl⟩

theorem recovers_of_part (steps : Relation.ReflTransGen Step (opened source c) r)
    (each : ∀ {t r s}, entry t r = .ok none s → next ∈ s.absent) (moves : ∀ t, Moves Step (entry t))
    (run : (read >>= entries entry progress) r = .ok none s) :
    Recovers source c next s (part entry progress next r) := by
  obtain ⟨t, s₁, took, body⟩ := bind_ok run
  obtain ⟨rest, ahead, rfl⟩ := coming_of_read took
  have start := steps.trans (moves_read.steps took)
  have later := (moves_entries progress moves t).steps body
  obtain ⟨u, behind, taken⟩ := taken_of_steps start later
    (taken_of_coming (proper_of_steps steps) (suffix_of_steps steps) ahead)
  obtain ⟨before, split⟩ := taken.split
  have absent : s.absent = missingKeywords source :=
    (continues_of_steps (start.trans later)).absent
  refine ⟨absent ▸ absent_of_entries each body, before, u, behind, split, taken.last, ?_⟩
  rw [part_of_astray run]
  have resumes := resumes_of_coming next s
  rw [taken.coming] at resumes
  cases keyword : u.value.isKeyword with
  | true =>
    rw [if_neg fun ends => by simp [ends, Token.isKeyword, Token.keyword?] at keyword] at resumes
    rw [if_pos rfl]
    exact resumes
  | false =>
    rw [if_neg Bool.false_ne_true]
    by_cases ends : u.value = .ending
    · rw [if_pos ends, ← taken.closed ends] at resumes
      exact resumes
    · rw [if_neg ends] at resumes
      exact resumes.cons (Token.endsSection_eq_false_iff.mpr ⟨ends, keyword⟩)

/-- In the section of devices and in that of connections: behind an entry that went astray the
reading goes on at the first keyword or the end from the token that the problem belongs to; but if
that token is itself a keyword, it is passed over. -/
theorem recovers_of_astray (steps : Relation.ReflTransGen Step (opened source c) r) :
    (∀ s, (read >>= entries deviceEntry yieldsSome_deviceEntry) r = .ok none s →
      Recovers source c .connect s (devices r)) ∧
    ∀ s, (read >>= entries connectionEntry yieldsSome_connectionEntry) r = .ok none s →
      Recovers source c .monitor s (connections r) :=
  ⟨fun _ run => recovers_of_part steps absent_of_deviceEntry moves_deviceEntry run,
    fun _ run => recovers_of_part steps absent_of_connectionEntry moves_connectionEntry run⟩

/-- A text without a section of connections, in which a keyword stands in the place of a sign. -/
def lostKeywordText : String :=
  "DEVICES A MONITOR END"

/-- A text without a section of monitors, in which a name stands in the place of an arrow. -/
def lostArrowText : String :=
  "DEVICES S = SWITCH, 0; CONNECT S S; END"

/-- The readings of these texts behind the keyword of the section. -/
def lostKeywordReader : Reader :=
  (read (opened lostKeywordText.toList (Circuit.empty Circuit.defaultLimit))).state

def lostArrowReader : Reader :=
  ((read >>= sectionOf .devices devices)
    (opened lostArrowText.toList (Circuit.empty Circuit.defaultLimit))).state

theorem lostReaders_recover :
    (∃ s, (read >>= entries deviceEntry yieldsSome_deviceEntry) lostKeywordReader = .ok none s ∧
      Recovers lostKeywordText.toList (Circuit.empty Circuit.defaultLimit) .connect s
        (devices lostKeywordReader)) ∧
    ∃ s, (read >>= entries connectionEntry yieldsSome_connectionEntry) lostArrowReader =
        .ok none s ∧
      Recovers lostArrowText.toList (Circuit.empty Circuit.defaultLimit) .monitor s
        (connections lostArrowReader) := by
  have astray : ((read >>= entries deviceEntry yieldsSome_deviceEntry) lostKeywordReader).any
      (fun a _ => a = none) = true := by decide +kernel
  have astray' : ((read >>= entries connectionEntry yieldsSome_connectionEntry)
      lostArrowReader).any (fun a _ => a = none) = true := by decide +kernel
  obtain ⟨a, s, run, eq⟩ := EStateM.Result.exists_of_any astray
  obtain ⟨a', s', run', eq'⟩ := EStateM.Result.exists_of_any astray'
  rw [of_decide_eq_true eq] at run
  rw [of_decide_eq_true eq'] at run'
  exact ⟨⟨s, run, (recovers_of_astray (moves_read _)).1 s run⟩, s', run', (recovers_of_astray
    (moves_read.bind (fun t => moves_sectionOf moves_devices .devices t) _)).2 s' run'⟩

/-- The problem belongs to the keyword of the last section, but that section is not read. -/
theorem devices_passes_keyword : .connect ∈ missingKeywords lostKeywordText.toList ∧
    ∃ s r', (read >>= entries deviceEntry yieldsSome_deviceEntry) lostKeywordReader = .ok none s ∧
      ⟨s.last, .keyword .monitor⟩ ∈ lostKeywordReader.coming ∧
        devices lostKeywordReader = .ok ⟨⟨0, 18⟩, .keyword .finish⟩ r' := by
  have astray : ((read >>= entries deviceEntry yieldsSome_deviceEntry) lostKeywordReader).any
      (fun a s => a = none ∧ s.last = ⟨0, 10⟩) = true := by decide +kernel
  have goes : (devices lostKeywordReader).any
      (fun t _ => t = ⟨⟨0, 18⟩, .keyword .finish⟩) = true := by decide +kernel
  obtain ⟨a, s, run, eq⟩ := EStateM.Result.exists_of_any astray
  obtain ⟨t, r', passes, eq'⟩ := EStateM.Result.exists_of_any goes
  obtain ⟨rfl, last⟩ := of_decide_eq_true eq
  rw [of_decide_eq_true eq'] at passes
  exact ⟨by decide +kernel, s, r', run, last ▸ by decide +kernel, passes⟩

end LogicCircuit.Description.Reader
