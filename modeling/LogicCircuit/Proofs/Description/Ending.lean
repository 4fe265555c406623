import LogicCircuit.Proofs.Description.Floating
import LogicCircuit.Proofs.Description.Walking

/-!
Every reading ends, and it asks for hardly more tokens than the text has characters: each part of
the grammar keeps in step with the lexer, up to the keyword or the end that it stops at.
-/

namespace LogicCircuit.Description

namespace Reader

open Cursor (callAt endings)

variable {α β : Type} {source : List Char} {k : Nat} {p q : Position} {r s : Reader}
  {t : Located Token} {W : β → Reader → Prop}

/-- The action looks at the token and lets no end pass. -/
structure Demands (t : Located Token) (m : Reading α) : Prop where
  still : Still m
  proper : ∀ {r a s}, m r = .ok a s → t.value ≠ .ending

theorem demands_expectName (t : Located Token) : Demands t (expectName t) := by
  refine ⟨still_expectName t, fun run => ?_⟩
  obtain ⟨-, text, value, -⟩ := expectName_ok_iff.mp run
  simp [value]

theorem demands_expect {token : Token} (cause : Cause) (t : Located Token)
    (other : token ≠ .ending) : Demands t (expect token cause t) :=
  ⟨still_expect token cause t, fun run => (expect_ok_iff.mp run).2 ▸ other⟩

theorem demands_expectKind (t : Located Token) : Demands t (expectKind t) := by
  refine ⟨still_expectKind t, fun run => ?_⟩
  obtain ⟨-, text, value, -⟩ := expectKind_ok run
  simp [value]

theorem demands_expectNumber (kind : Kind) (t : Located Token) :
    Demands t (expectNumber kind t) := by
  refine ⟨still_expectNumber kind t, fun run => ?_⟩
  obtain ⟨-, value, -⟩ := expectNumber_ok_iff.mp run
  simp [value]

/-- A token that goes through shows that the end was not met yet. -/
theorem Holds.demand (h : Holds source k p t r) (few : k ≤ 1) {m : Reading α}
    (demands : Demands t m) {f : α → Reading β}
    (later : ∀ a, InStep source 0 p r → Walks source W (f a r)) :
    Walks source W ((m >>= f) r) :=
  h.inStep.bind ((visits_le k t).trans (Nat.succ_le_succ few)) demands.still fun a run =>
    later a (h.free (demands.proper run))

theorem Holds.fail (h : Holds source k p t r) (few : k ≤ 1) {cause : Cause}
    {V : α → Reader → Prop} : Walks source V ((Reader.fail q cause : Reading α) r) :=
  h.inStep.fail ((visits_le k t).trans (Nat.succ_le_succ few)) cause

theorem Holds.mono (h : Holds source k p t r) {j : Nat} (le : k ≤ j) : Holds source j p t r := by
  refine ⟨h.inStep.mono ?_, h.last⟩
  rw [visits, visits]
  split
  · exact Nat.succ_le_succ le
  · exact Nat.le_refl _

/-- The loop reads on from tokens other than the end. -/
theorem InStep.skipUntil (h : InStep source k p r) (stop : Token → Bool) :
    Walks source (Holds source k p) (skipUntil stop r) := by
  fun_induction Reader.skipUntil stop r generalizing k with
  | case1 r fault s eq => exact eq ▸ h.read
  | case2 r u s eq ends =>
    have read := h.read
    rw [eq] at read
    exact read
  | case3 r u s eq proper stops =>
    have read := h.read
    rw [eq] at read
    exact read
  | case4 r u s eq proper goes ih =>
    have read := h.read
    rw [eq] at read
    exact (ih (read.free proper)).mono fun t s held => held.mono (Nat.zero_le k)

/-! The section of devices. -/

theorem InStep.numbers (h : InStep source 0 p r) (q : Position) (kind : Kind) :
    Walks source (fun _ s => InStep source 0 p s) (numbers q kind r) := by
  refine h.read.bind fun t s _ held => ?_
  cases value : t.value with
  | comma =>
    refine (held.free (by simp [value])).read.bind fun t s _ held => ?_
    refine held.demand (Nat.zero_le 1) (demands_expectNumber kind t) fun first h => ?_
    refine h.read.bind fun t s _ held => ?_
    split
    · refine held.demand (Nat.zero_le 1) (demands_expect _ t (by simp)) fun _ h => ?_
      refine h.read.bind fun t s _ held => ?_
      refine held.demand (Nat.zero_le 1) (demands_expectNumber kind t) fun second h => ?_
      refine h.read.bind fun t s _ held => ?_
      exact held.demand (Nat.zero_le 1) (demands_expect _ t (by simp)) fun _ h => h
    · exact held.demand (Nat.zero_le 1) (demands_expect _ t (by simp)) fun _ h => h
  | semicolon =>
    have h := held.free (by simp [value])
    dsimp only
    split
    · exact h
    · exact h.fail (Nat.zero_le 2) _
  | _ => exact held.fail (Nat.zero_le 1)

/-- A device is declared at a place that the reading has come to. -/
theorem InStep.declare (h : InStep source 0 p r) (name : Mention) (kind : Kind)
    (first second : Option Nat) :
    Walks source (fun _ s => InStep source 0 p s) (declare p name kind first second r) := by
  rw [Reader.declare]
  split
  · exact h.broken (Nat.zero_le 2) _
  · refine ⟨⟨h.follows.ahead, h.follows.whole, h.follows.last⟩, h.ends, h.behind, h.order.text,
      h.order.problems, ?_⟩
    change p.UpTo ((_ :: r.declared).reverse.map Prod.snd)
    rw [List.reverse_cons, List.map_append]
    exact h.order.declared.concat

theorem InStep.declaration (h : InStep source 0 p r) (name : Mention) :
    Walks source (Holds source 0 p) (declaration p name r) := by
  refine h.read.bind fun t s _ held => ?_
  refine held.demand (Nat.zero_le 1) (demands_expectKind t) fun kind h => ?_
  refine (h.numbers t.position kind).bind fun values s _ h => ?_
  exact (h.declare name kind values.1 values.2).bind fun _ s _ h => h.read

/-- An entry went through, or it went astray at the token read last. -/
def Passed (source : List Char) : Option (Located Token) → Reader → Prop
  | some t, r => Holds source 0 t.position t r
  | none, r => InStep source 1 r.last r

/-- All is in order up to the token read last. -/
theorem InStep.arrived (h : InStep source k p r) : InStep source k r.last r :=
  h.advance h.behind (le_refl _)

theorem InStep.astray (h : InStep source k p r) (few : k ≤ 1) {V : Option α → Reader → Prop}
    {next : Keyword} {cause : Cause} (value : InStep source 1 r.last r → V none r) :
    Walks source V (stray next q cause r) := by
  rw [stray, EStateM.bind_of_ok (get_run r)]
  split
  · exact value (h.mono few).arrived
  · exact h.fail (few.trans (Nat.le_succ 1)) cause

theorem Holds.deviceEntry (h : Holds source 0 t.position t r) :
    Walks source (Passed source) (deviceEntry t r) := by
  refine h.demand (Nat.zero_le 1) (demands_expectName t) fun name h => ?_
  refine h.bind (Nat.zero_le 2) still_circuitNow fun c _ => ?_
  by_cases reserved : c.netlist.vocabulary.isReserved name.symbol
  · rw [if_pos reserved]
    exact h.astray (Nat.zero_le 1) id
  rw [if_neg reserved]
  by_cases taken : (c.netlist.device? name.symbol).isSome
  · rw [if_pos taken]
    exact h.astray (Nat.zero_le 1) id
  rw [if_neg taken]
  refine h.read.bind fun equals s _ held => ?_
  split
  · next sign =>
    exact ((held.free (by simp [sign])).declaration name).map fun _ _ held => held.advance
  · exact held.inStep.astray (visits_le 0 _) id

/-! The section of connections. -/

/-- With an output there is nothing written down on the way, so that the place of the entry is still
the last one; without one a problem was written down. -/
def Offered (source : List Char) (p : Position) :
    Option Terminal × Located Token → Reader → Prop
  | (some _, t), r => Holds source 0 p t r
  | (none, t), r => Holds source 0 t.position t r

theorem Offered.holds {offer : Option Terminal × Located Token} (h : Offered source p offer r) :
    Holds source 0 offer.2.position offer.2 r := by
  obtain ⟨output, t⟩ := offer
  cases output with
  | none => exact h
  | some _ => exact Holds.advance h

theorem Holds.outputPin (h : Holds source 0 p t r) (device : Mention) {wrong : Mention → Problem}
    {missing : Problem} (met : ∀ pin, (wrong pin).isMet = true) (met' : missing.isMet = true) :
    Walks source (Offered source p) (outputPin device wrong missing t r) := by
  rw [Reader.outputPin]
  split
  · next dot =>
    refine (h.free (by simp [dot])).read.bind fun u s _ held => ?_
    refine held.demand (Nat.zero_le 1) (demands_expectName u) fun pin h' => ?_
    refine h'.bind (Nat.zero_le 2) (still_isOutputPin pin) fun isOutput _ => ?_
    split
    · exact h'.read.map fun _ _ held => held
    · have recorded := (h'.advance (held.last ▸ h'.behind) held.last.ge).record (met pin)
      exact (recorded.read.map fun _ _ held => held.advance)
  · exact h.advance.record met'

theorem isMet_of_needlessPin {device : Mention} {problem : Problem}
    (run : needlessPin device t r = .ok problem s) : problem.isMet = true := by
  rw [needlessPin] at run
  cases value : t.value with
  | name text =>
    simp only [value] at run
    obtain ⟨pin, _, -, run⟩ := bind_ok run
    obtain ⟨isOutput, _, -, run⟩ := bind_ok run
    split at run
    · exact (EStateM.pure_ok_iff.mp run).1 ▸ rfl
    · exact (EStateM.pure_ok_iff.mp run).1 ▸ rfl
  | _ =>
    simp only [value] at run
    exact (EStateM.pure_ok_iff.mp run).1 ▸ rfl

/-- From here the arrow is passed, or the entry went astray at the token read last. -/
def Crossed (source : List Char) : Option Unit → Reader → Prop
  | some (), r => InStep source 0 r.last r
  | none, r => InStep source 1 r.last r

theorem InStep.skipToArrow (h : InStep source k p r) (few : k ≤ 1) :
    Walks source (fun _ s => InStep source 0 p s) (skipToArrow r) := by
  refine (h.skipUntil _).bind fun t s _ held => ?_
  rw [expect]
  split
  · next arrow => exact held.free (by simp [arrow])
  · exact held.fail few

theorem Holds.arrow (h : Holds source 0 t.position t r) (kind : Kind) (device : Mention) :
    Walks source (Crossed source) (arrow kind device t r) := by
  rw [Reader.arrow]
  split
  · next arrow => exact (h.free (by simp [arrow])).arrived
  split
  · exact h.fail (Nat.zero_le 1)
  split
  · next dot =>
    refine (h.free (by simp [dot.1])).read.bind fun pin s _ held => ?_
    have few := visits_le 0 pin
    refine held.advance.inStep.bind (few.trans (Nat.le_succ 1)) (still_needlessPin device pin)
      fun problem run => ?_
    refine held.advance.inStep.recording (isMet_of_needlessPin run) fun s h => ?_
    exact (h.skipToArrow few).bind fun _ s _ h => h.arrived
  · exact h.inStep.astray (visits_le 0 t) id

theorem isMet_connectProblem (v : Vocabulary) (device : Mention) (pin : Option Mention)
    (mismatch : Mismatch) : (connectProblem v device pin mismatch).isMet = true := by
  cases mismatch with
  | pinAbsent =>
    rw [connectProblem]
    cases pin with
    | none => rfl
    | some pin =>
      rw [absentPin]
      split
      · rfl
      · split
        · split <;> rfl
        · rfl
  | _ => rfl

/-- A refused connection is a problem at a place that the reading has come to. -/
theorem Holds.attach (h : Holds source k p t r) (output : Option Terminal) (device : Mention)
    (pin : Option Mention) :
    Walks source (fun _ s => Holds source k p t s) (attach output p device pin r) := by
  unfold Reader.attach
  split
  · exact h
  · split
    · exact ⟨h.inStep.rebuilt _, h.last⟩
    · exact h.record (isMet_connectProblem _ _ _ _)

theorem Holds.destination (h : Holds source 0 t.position t r) (output : Option Terminal) :
    Walks source (Holds source 0 t.position) (destination output t r) := by
  refine h.demand (Nat.zero_le 1) (demands_expectName t) fun device h => ?_
  refine h.read.bind fun next s _ held => ?_
  split
  · next dot =>
    refine (held.free (by simp [dot])).read.bind fun u s _ held => ?_
    refine held.demand (Nat.zero_le 1) (demands_expectName u) fun pin h => ?_
    refine h.read.bind fun next s _ held => ?_
    exact (held.attach output device (some pin)).bind fun _ _ _ held => held
  · exact (held.attach output device none).bind fun _ _ _ held => held

theorem Holds.destinations (h : Holds source 0 t.position t r) (output : Option Terminal) :
    Walks source (fun u s => Holds source 0 u.position u s) (destinations output t r) := by
  have first := h.destination output
  fun_induction Reader.destinations output t r with
  | case1 t r fault s eq =>
    rw [eq] at first
    exact first
  | case2 t r separator s eq comma fault s' eq' =>
    rw [eq] at first
    have read := (first.free (by simp [comma])).read
    rw [eq'] at read
    exact read
  | case3 t r separator s eq comma next s' eq' ih =>
    rw [eq] at first
    have read := (first.free (by simp [comma])).read
    rw [eq'] at read
    exact ih read.advance (read.advance.destination output)
  | case4 t r separator s eq _ semicolon =>
    rw [eq] at first
    exact (first.free (by simp [semicolon])).read.mono fun _ _ held => held.advance
  | case5 t r separator s eq =>
    rw [eq] at first
    exact Holds.fail first (Nat.zero_le 1)
  | case6 t r separator s eq =>
    rw [eq] at first
    exact Holds.fail first (Nat.zero_le 1)

theorem InStep.skipEntry (h : InStep source 0 p r) :
    Walks source (fun u s => Holds source 0 u.position u s) (skipEntry r) := by
  refine (h.skipUntil _).bind fun t s _ held => ?_
  split
  · next semicolon =>
    exact (held.free (by simp [semicolon])).read.mono fun _ _ held => held.advance
  · exact held.advance

theorem InStep.connectionOutput (h : InStep source 0 p r) (kind : Kind) (device : Mention) :
    Walks source (Offered source p) (connectionOutput kind device r) := by
  refine h.read.bind fun t s _ held => ?_
  split
  · exact held.outputPin device (fun _ => rfl) rfl
  · exact held

theorem Holds.connectionEntry (h : Holds source 0 t.position t r) :
    Walks source (Passed source) (connectionEntry t r) := by
  refine h.demand (Nat.zero_le 1) (demands_expectName t) fun device h => ?_
  refine h.bind (Nat.zero_le 2) still_circuitNow fun c _ => ?_
  cases c.netlist.kindOf? device.symbol with
  | none =>
    exact h.recording rfl fun s h => h.skipEntry.map fun _ _ held => held
  | some kind =>
    refine (h.connectionOutput kind device).bind fun offer s _ h => ?_
    refine (h.holds.arrow kind device).bind fun passed s _ h => ?_
    cases passed with
    | none => exact h
    | some _ =>
      exact h.read.bind fun first s _ held =>
        (held.advance.destinations offer.1).map fun _ _ held => held

/-! The section of monitors. -/

theorem InStep.monitorOutput (h : InStep source 0 p r) (kind : Option Kind) (device : Mention) :
    Walks source (Offered source p) (monitorOutput kind device r) := by
  refine h.read.bind fun t s _ held => ?_
  split
  · exact held.outputPin device (fun _ => rfl) rfl
  split
  · next dot =>
    refine (held.free (by simp [dot])).read.bind fun pin s _ held => ?_
    refine held.demand (Nat.zero_le 1) (demands_expectName pin) fun _ h => ?_
    split
    · have here : InStep source 0 pin.position s := held.last ▸ h.arrived
      exact here.recording rfl fun s h => h.read.bind fun _ s _ held => held.advance
    · exact h.read.bind fun _ s _ held => held
  · exact held

theorem InStep.watch (h : InStep source k p r) (output : Option Terminal) (device : Mention) :
    Walks source (fun _ s => InStep source k p s) (watch output p device r) := by
  unfold Reader.watch
  split
  · exact h
  · split
    · exact h.rebuilt _
    · next reason _ => exact h.record (by cases reason <;> rfl)

theorem Holds.monitorEntry (h : Holds source 0 t.position t r) :
    Walks source (fun u s => Holds source 0 u.position u s) (monitorEntry t r) := by
  refine h.demand (Nat.zero_le 1) (demands_expectName t) fun device h => ?_
  refine h.bind (Nat.zero_le 2) still_circuitNow fun c _ => ?_
  refine (h.monitorOutput _ device).bind fun offer s _ h => ?_
  obtain ⟨output, next⟩ := offer
  cases output with
  | none =>
    refine Holds.demand h (Nat.zero_le 1) (demands_expect _ next (by simp)) fun _ h => ?_
    exact h.read.mono fun _ _ held => held.advance
  | some output =>
    refine Holds.demand h (Nat.zero_le 1) (demands_expect _ next (by simp)) fun _ h => ?_
    exact (h.watch (some output) device).bind fun _ s _ h =>
      h.read.mono fun _ _ held => held.advance

theorem Holds.monitorEntries (h : Holds source 0 t.position t r) :
    Walks source (fun u s => Holds source 0 u.position u s) (monitorEntries t r) := by
  fun_induction Reader.monitorEntries t r with
  | case1 t r begins fault s eq =>
    have entry := h.monitorEntry
    rw [eq] at entry
    exact entry
  | case2 t r begins next s eq ih =>
    have entry := h.monitorEntry
    rw [eq] at entry
    exact ih entry
  | case3 t r other => exact h

/-! All sections. -/

theorem Holds.entries {entry : Located Token → Reading (Option (Located Token))}
    (progress : ∀ t, YieldsSome (entry t))
    (one : ∀ {t r}, Holds source 0 t.position t r → Walks source (Passed source) (entry t r))
    (h : Holds source 0 t.position t r) :
    Walks source (Passed source) (entries entry progress t r) := by
  fun_induction Reader.entries entry progress t r with
  | case1 t r ends => exact h
  | case2 t r begins fault s eq =>
    have entry := one h
    rw [eq] at entry
    exact entry
  | case3 t r begins s eq =>
    have entry := one h
    rw [eq] at entry
    exact entry
  | case4 t r begins next s eq ih =>
    have entry := one h
    rw [eq] at entry
    exact ih entry

/-- A token that no entry begins with; behind an entry that went astray it may be a second end. -/
def Arrives (source : List Char) (t : Located Token) (r : Reader) : Prop :=
  Holds source 1 t.position t r

theorem InStep.resume (h : InStep source 1 r.last r) (next : Keyword) :
    Walks source (Arrives source) (resume next r) := by
  rw [Reader.resume, EStateM.bind_of_ok (get_run r)]
  exact walks_recordOnce h (h.record rfl) fun s h =>
    (h.skipUntil _).mono fun _ _ held => held.advance

theorem InStep.part {entry : Located Token → Reading (Option (Located Token))}
    (progress : ∀ t, YieldsSome (entry t))
    (one : ∀ {t r}, Holds source 0 t.position t r → Walks source (Passed source) (entry t r))
    (next : Keyword) (h : InStep source 0 p r) :
    Walks source (Arrives source) (part entry progress next r) := by
  refine h.read.bind fun t s _ held => ?_
  refine (Holds.entries progress one held.advance).bind fun last s _ h => ?_
  cases last with
  | some t => exact Holds.mono h (Nat.zero_le 1)
  | none => exact InStep.resume h next

theorem Arrives.sectionOf (h : Arrives source t r) {keyword : Keyword}
    {body : Reading (Located Token)}
    (inside : ∀ {p r}, InStep source 0 p r → Walks source (Arrives source) (body r)) :
    Walks source (Arrives source) (sectionOf keyword body t r) := by
  rw [Reader.sectionOf]
  split
  · next here => exact inside (h.free (by simp [here]))
  · exact walks_recordOnce h (Holds.record h rfl) fun s h => h

/-- Behind the sections the closing keyword is asked for, and nothing is read. -/
theorem finish_cases (t : Located Token) (r : Reader) : ∃ answer s,
    (do
      let t ← sectionOf .finish (pure t) t
      let r ← get
      if t.value = .keyword .finish ∧ r.errorCount = 0 then
        return some (r.circuit.symbols.symbol Keyword.finish.text)
      else return none : Reading (Option Symbol)) r = .ok answer s ∧
    (s = r ∨ s = (record (some t.position) (.incorrectKeyword .finish) r).state) := by
  have here : ∃ u s, sectionOf .finish (pure t) t r = .ok u s ∧
      (s = r ∨ s = (record (some t.position) (.incorrectKeyword .finish) r).state) := by
    rw [sectionOf]
    split
    · exact ⟨t, r, rfl, .inl rfl⟩
    · obtain same | recorded := recordOnce_cases t.position (.incorrectKeyword .finish) r
      · exact ⟨t, r, by rw [EStateM.bind_of_ok same]; rfl, .inl rfl⟩
      · exact ⟨t, _, by rw [EStateM.bind_of_ok recorded]; rfl, .inr rfl⟩
  obtain ⟨u, s, run, state⟩ := here
  rw [EStateM.bind_of_ok run, EStateM.bind_of_ok (get_run s)]
  split
  · exact ⟨_, s, rfl, state⟩
  · exact ⟨_, s, rfl, state⟩

/-- How a reading ends that no fault breaks off: without a look at the inputs of the circuit, if the
section of monitors is not there, or with the clean-up behind the last entry. -/
inductive Finishes (source : List Char) (r : Reader) : Reader → Prop
  | plain {t : Located Token} {s : Reader} (arrives : Arrives source t s) : Finishes source r s
  | cleaned {t : Located Token} {last s : Reader} (run : allEntries r = .ok (some t) last)
      (arrives : Arrives source t last)
      (state : s = last.cleaned ∨
        s = (record (some t.position) (.incorrectKeyword .finish) last.cleaned).state) :
      Finishes source r s

/-- Behind the last entry of the monitors is the clean-up. -/
theorem Arrives.monitors (h : Arrives source t r) :
    Walks source (fun u s => Arrives source u s ∨ t.value = .keyword .monitor ∧
      ∃ last, (read >>= monitorEntries) r = .ok u last ∧ Arrives source u last ∧ s = last.cleaned)
      (Reader.sectionOf .monitor Reader.monitors t r) := by
  rw [Reader.sectionOf]
  by_cases here : t.value = .keyword .monitor
  · rw [if_pos here]
    have h := h.free (by simp [here])
    refine h.read.bind fun u s took held => ?_
    refine held.advance.monitorEntries.bind fun u last run held => .inr ⟨here, last, ?_⟩
    exact ⟨(EStateM.bind_of_ok took).trans run, Holds.mono held (Nat.zero_le 1), rfl⟩
  · rw [if_neg here]
    exact walks_recordOnce h (Holds.record h rfl) fun s h => .inl h

theorem InStep.sections (h : InStep source 0 p r) :
    Walks source (fun _ s => Finishes source r s) (sections r) := by
  refine h.read.bind fun t₁ s₁ took held => ?_
  have start : Arrives source t₁ s₁ := held.advance.mono (Nat.zero_le 1)
  by_cases keyword : t₁.value.isKeyword = true
  · rw [if_pos keyword]
    have first : Walks source (Arrives source) (sectionOf .devices devices t₁ s₁) :=
      start.sectionOf (InStep.part _ Holds.deviceEntry .connect)
    refine first.bind fun t₂ s₂ run₁ h₂ => ?_
    have second : Walks source (Arrives source) (sectionOf .connect connections t₂ s₂) :=
      h₂.sectionOf (InStep.part _ Holds.connectionEntry .monitor)
    refine second.bind fun t₃ s₃ run₂ h₃ => ?_
    refine h₃.monitors.bind fun t₄ s₄ _ h₄ => ?_
    obtain ⟨answer, s, run₄, state⟩ := finish_cases t₄ s₄
    rw [run₄]
    obtain h₄ | ⟨monitor, last, run₃, arrives, rfl⟩ := h₄
    · obtain rfl | rfl := state
      · exact .plain h₄
      · exact .plain (Holds.record h₄ rfl)
    · refine .cleaned ?_ arrives state
      rw [allEntries, EStateM.bind_of_ok took, if_pos keyword, EStateM.bind_of_ok run₁,
        EStateM.bind_of_ok run₂, if_pos monitor]
      exact map_of_ok run₃
  · rw [if_neg keyword]
    exact walks_recordOnce start (Holds.record start rfl) fun s h => .plain h

theorem inStep_opened (source : List Char) (c : Circuit) :
    InStep source 0 .origin (opened source c) := by
  have follows := follows_ofSource source c
  refine ⟨⟨follows.ahead, follows.whole, follows.last⟩, Nat.le_refl _, le_refl _, rfl, ⟨[], ?_⟩,
    .nil _⟩
  exact ⟨(List.append_nil _).symm, nofun, .nil _⟩

theorem Follows.cleaned (h : Follows source r) : Follows source r.cleaned ∧
    r.cleaned.reads = r.reads := by
  have same : (ground r).state.tokens = r.tokens ∧ (ground r).state.ending = r.ending ∧
      (ground r).state.reads = r.reads ∧ (ground r).state.last = r.last := by
    rw [ground_state]
    split <;> exact ⟨rfl, rfl, rfl, rfl⟩
  obtain ⟨tokens, ending, reads, last⟩ := same
  refine ⟨⟨?_, ?_, ?_⟩, reads⟩
  · change ((Cursor.ofSource source).after (ground r).state.reads).tokens =
      ⟨(ground r).state.tokens, (ground r).state.ending⟩
    rw [tokens, ending, reads]
    exact h.ahead
  · change ∀ k < (ground r).state.reads, _
    exact reads ▸ h.whole
  · change ∀ t, callAt source (ground r).state.reads = .ok t → (ground r).state.last ≤ _
    rw [reads, last]
    exact h.last

theorem Finishes.calls (h : Finishes source r s) :
    Follows source s ∧ endings source s.reads ≤ 2 := by
  cases h with
  | plain arrives => exact ⟨arrives.inStep.follows, arrives.inStep.ends.trans (visits_le 1 _)⟩
  | cleaned run arrives state =>
    obtain ⟨follows, reads⟩ := arrives.inStep.follows.cleaned
    have ends := arrives.inStep.ends.trans (visits_le 1 _)
    rw [← reads] at ends
    obtain rfl | rfl := state
    · exact ⟨follows, ends⟩
    · exact ⟨⟨follows.ahead, follows.whole, follows.last⟩, ends⟩

/-- The calls of a whole reading: it is not broken off by one, or by the last one. -/
inductive Calls (source : List Char) (result : EStateM.Result Fault Reader α) : Prop
  | whole (follows : Follows source result.state) (ends : endings source result.state.reads ≤ 2)
  | broken {k : Nat} {f : Located LexicalFault} (reads : result.state.reads = k + 1)
      (before : ∀ j < k, ∃ t, callAt source j = .ok t) (here : callAt source k = .error f)
      (fault : result = .error (.ofLexical f) result.state)

namespace Calls

variable {result : EStateM.Result Fault Reader α}

theorem of_walks (h : Walks source (fun _ s => Finishes source r s) result) :
    Calls source result := by
  cases result with
  | ok a s => exact .whole h.calls.1 h.calls.2
  | error fault s =>
    obtain ⟨follows, ends⟩ | ⟨k, f, reads, before, here, rfl⟩ := h.calls
    · exact .whole follows ends
    · exact .broken reads before here rfl

theorem endings_le (h : Calls source result) : endings source result.state.reads ≤ 2 := by
  cases h with
  | whole follows ends => exact ends
  | broken reads before here fault =>
    rw [reads, Cursor.endings_succ, Cursor.endings_eq_zero (by rw [here]; rfl)]
    split <;> omega

theorem reads_le (h : Calls source result) : result.state.reads ≤ source.length + 2 := by
  cases h with
  | whole follows ends =>
    have calls := Cursor.calls_le follows.whole
    omega
  | broken reads before here fault =>
    have calls := Cursor.calls_le before
    rw [Cursor.endings_eq_zero (by rw [here]; rfl)] at calls
    omega

theorem faults (h : Calls source result) {k : Nat} (asked : k < result.state.reads)
    {f : Located LexicalFault} (there : callAt source k = .error f) :
    result.state.reads = k + 1 ∧ result = .error (.ofLexical f) result.state := by
  cases h with
  | whole follows ends =>
    obtain ⟨t, fine⟩ := follows.whole k asked
    rw [there] at fine
    cases fine
  | @broken j g reads before here fault =>
    obtain earlier | rfl := Nat.lt_succ_iff_lt_or_eq.mp (reads ▸ asked)
    · obtain ⟨t, fine⟩ := before k earlier
      rw [there] at fine
      cases fine
    · rw [here] at there
      obtain rfl := Except.error.inj there
      exact ⟨reads, fault⟩

theorem left (h : Calls source result)
    (fine : ∀ k < result.state.reads, ∃ t, callAt source k = .ok t) :
    ((Cursor.ofSource source).after result.state.reads).tokens =
      ⟨result.state.tokens, result.state.ending⟩ := by
  cases h with
  | whole follows ends => exact follows.ahead
  | @broken k f reads before here fault =>
    obtain ⟨t, fine⟩ := fine k (reads ▸ Nat.lt_succ_self k)
    rw [here] at fine
    cases fine

end Calls

end Reader

open Cursor (callAt endings)

/-- What a reading asks a lexer over the text for. -/
structure Asks (source : List Char) (l : Lexer)
    (result : EStateM.Result Fault Reader (Option Symbol)) : Prop where
  few : result.state.reads ≤ source.length + 2
  /-- Each call that gives a token takes a character at least. -/
  shorter : ∀ k t, (l.after k).next.1 = .ok t → t.value ≠ .ending →
    (l.after (k + 1)).cursor.rest.length < (l.after k).cursor.rest.length
  /-- A call that fails is the last one, and ends the reading. -/
  faults : ∀ k < result.state.reads, ∀ f, (l.after k).next.1 = .error f →
    result.state.reads = k + 1 ∧ result = .error (.ofLexical f) result.state
  ends : (List.range result.state.reads).countP
    (fun k => Cursor.meetsEnd (l.after k).next.1) ≤ 2
  /-- What the reading leaves is what the calls leave. -/
  left : (∀ k < result.state.reads, ∃ t, (l.after k).next.1 = .ok t) →
    (l.after result.state.reads).cursor.tokens = ⟨result.state.tokens, result.state.ending⟩

/-- Every reading ends, also that of a text with problems or faults, and it asks for hardly more
tokens than the text has characters: each call takes a character, fails and is the last one, or
meets the end, and the end is met twice at most. -/
theorem reading_ends (source : List Char) (c : Circuit) :
    Asks source (Lexer.ofSource source c.symbols)
      (Reader.description (Reader.ofSource source c)) := by
  have call (k : Nat) : ((Lexer.ofSource source c.symbols).after k).next.1 = callAt source k := by
    rw [Lexer.outcome_next, Lexer.after_cursor]
    rfl
  have place (k : Nat) : ((Lexer.ofSource source c.symbols).after k).cursor =
      (Cursor.ofSource source).after k := Lexer.after_cursor _ k
  have calls : Reader.Calls source (Reader.description (Reader.ofSource source c)) :=
    Reader.description_ofSource source c ▸ .of_walks (Reader.inStep_opened source c).sections
  refine ⟨calls.reads_le, fun k t here proper => ?_, fun k asked f there => ?_, ?_, fun fine => ?_⟩
  · rw [place, place]
    exact Cursor.length_after_succ_lt (call k ▸ here) proper
  · exact calls.faults asked (call k ▸ there)
  · simp only [call]
    exact calls.endings_le
  · rw [place]
    exact calls.left fun k asked => call k ▸ fine k asked

end LogicCircuit.Description
