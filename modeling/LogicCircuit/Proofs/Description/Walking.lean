import LogicCircuit.Proofs.Description.Following
import LogicCircuit.Proofs.Description.Passing

/-!
The walk of a reading through its text: on its way to a keyword it meets the end twice at most, and
it writes problems and declarations down in the order of their places.
-/

namespace LogicCircuit

/-- The places come one after the other, and none of them behind `p`. -/
def Position.UpTo (p : Position) (l : List Position) : Prop :=
  (l ++ [p]).Pairwise (· ≤ ·)

namespace Position.UpTo

variable {p q : Position} {l : List Position}

theorem nil (p : Position) : UpTo p [] :=
  List.pairwise_singleton _ p

theorem sorted (h : UpTo p l) : l.Pairwise (· ≤ ·) :=
  (List.pairwise_append.mp h).1

theorem mono (h : UpTo p l) (order : p ≤ q) : UpTo q l := by
  obtain ⟨sorted, -, below⟩ := List.pairwise_append.mp h
  refine List.pairwise_append.mpr ⟨sorted, List.pairwise_singleton _ q, fun a member b last => ?_⟩
  rw [List.mem_singleton.mp last]
  exact (below a member p List.mem_cons_self).trans order

theorem concat (h : UpTo p l) : UpTo p (l ++ [p]) := by
  refine List.pairwise_append.mpr ⟨h, List.pairwise_singleton _ p, fun a member b last => ?_⟩
  rw [List.mem_singleton.mp last]
  obtain before | here := List.mem_append.mp member
  · exact (List.pairwise_append.mp h).2.2 a before p List.mem_cons_self
  · rw [List.mem_singleton.mp here]

end Position.UpTo

namespace Description

/-- Whether the problem is met at a token, and not on a look at the whole text or circuit. -/
def Problem.isMet : Problem → Bool
  | missingKeyword _ | floatingInput _ _ => false
  | _ => true

/-- A problem at its place, as it is written down. -/
def noted (source : List Char) (q : Located Problem) : Diagnostic :=
  .ofProblem source (some q.position) q.value

namespace Reader

open Cursor (callAt endings meetsEnd)

variable {α β : Type} {source : List Char} {k : Nat} {p q : Position} {r s : Reader}
  {t u : Located Token} {m : Reading α} {V : α → Reader → Prop} {W : β → Reader → Prop}
  {problem : Problem}

/-- The problems that keywords are absent from the text. -/
def absences (source : List Char) : List Diagnostic :=
  (missingKeywords source).map fun k => .ofProblem source none (.missingKeyword k)

/-- The problems behind those of absent keywords are met at tokens, and their places and those of
the declarations are in order, up to `p`. -/
structure InOrder (source : List Char) (p : Position) (r : Reader) : Prop where
  text : r.source = source
  problems : ∃ l : List (Located Problem), r.diagnostics = absences source ++ l.map (noted source) ∧
    (∀ q ∈ l, q.value.isMet = true) ∧ p.UpTo (l.map Located.position)
  declared : p.UpTo (r.declared.reverse.map Prod.snd)

theorem InOrder.mono (h : InOrder source p r) (order : p ≤ q) : InOrder source q r := by
  obtain ⟨l, eq, met, sorted⟩ := h.problems
  exact ⟨h.text, ⟨l, eq, met, sorted.mono order⟩, h.declared.mono order⟩

theorem InOrder.record (h : InOrder source p r) (met : problem.isMet = true) :
    InOrder source p (record (some p) problem r).state := by
  obtain ⟨l, eq, all, sorted⟩ := h.problems
  refine ⟨h.text, ⟨l ++ [⟨p, problem⟩], ?_, ?_, ?_⟩, h.declared⟩
  · change r.diagnostics ++ [.ofProblem r.source _ _] = _
    rw [eq, h.text, List.map_append, List.append_assoc]
    rfl
  · exact List.forall_mem_append.mpr ⟨all, List.forall_mem_singleton.mpr met⟩
  · rw [List.map_append]
    exact sorted.concat

theorem InOrder.read (h : InOrder source p r) : InOrder source p (read r).state := by
  rw [Reader.read]
  split
  · next t _ _ =>
    cases t with
    | mk q token => cases token <;> exact ⟨h.text, h.problems, h.declared⟩
  · split <;> exact ⟨h.text, h.problems, h.declared⟩

/-- The reading has met the end so many times at most, and what it wrote down is in order up to a
place that it has come to. -/
structure InStep (source : List Char) (k : Nat) (p : Position) (r : Reader) : Prop where
  follows : Follows source r
  ends : endings source r.reads ≤ k
  behind : p ≤ r.last
  order : InOrder source p r

/-- A reading that breaks off has met the end twice at most, or no end but a lexical fault, which
ends it at once. -/
structure Broken (source : List Char) (fault : Fault) (s : Reader) : Prop where
  order : ∃ p, InOrder source p s
  calls : Follows source s ∧ endings source s.reads ≤ 2 ∨
    ∃ k f, s.reads = k + 1 ∧ (∀ j < k, ∃ t, callAt source j = .ok t) ∧
      callAt source k = .error f ∧ fault = .ofLexical f

/-- What comes of a part of a reading, also if it breaks off there. -/
def Walks (source : List Char) (V : α → Reader → Prop) : EStateM.Result Fault Reader α → Prop
  | .ok a s => V a s
  | .error fault s => Broken source fault s

theorem Walks.bind {f : α → Reading β} (first : Walks source V (m r))
    (later : ∀ a s, m r = .ok a s → V a s → Walks source W (f a s)) :
    Walks source W ((m >>= f) r) := by
  simp only [Bind.bind, EStateM.bind]
  cases h : m r with
  | ok a s =>
    rw [h] at first
    exact later a s h first
  | error e s =>
    rw [h] at first
    exact first

theorem Walks.map {f : α → β} (first : Walks source V (m r))
    (later : ∀ a s, V a s → W (f a) s) : Walks source W ((f <$> m) r) := by
  rw [map_eq_pure_bind]
  exact first.bind fun a s _ h => later a s h

theorem Walks.mono {V' : α → Reader → Prop} {result : EStateM.Result Fault Reader α}
    (h : Walks source V result) (weaker : ∀ a s, V a s → V' a s) : Walks source V' result := by
  cases result with
  | ok a s => exact weaker a s h
  | error e s => exact h

namespace InStep

theorem mono (h : InStep source k p r) {j : Nat} (le : k ≤ j) : InStep source j p r :=
  ⟨h.follows, h.ends.trans le, h.behind, h.order⟩

theorem advance (h : InStep source k p r) (order : p ≤ q) (behind : q ≤ r.last) :
    InStep source k q r :=
  ⟨h.follows, h.ends, behind, h.order.mono order⟩

theorem broken (h : InStep source k p r) (few : k ≤ 2) (fault : Fault) : Broken source fault r :=
  ⟨⟨p, h.order⟩, .inl ⟨h.follows, h.ends.trans few⟩⟩

/-- Another circuit changes nothing. -/
theorem rebuilt (h : InStep source k p r) (c : Circuit) :
    InStep source k p { r with circuit := c } :=
  ⟨⟨h.follows.ahead, h.follows.whole, h.follows.last⟩, h.ends, h.behind,
    h.order.text, h.order.problems, h.order.declared⟩

theorem fail (h : InStep source k p r) (few : k ≤ 2) (cause : Cause) :
    Walks source V ((fail q cause : Reading α) r) :=
  h.broken few _

theorem record (h : InStep source k p r) (met : problem.isMet = true) :
    InStep source k p (record (some p) problem r).state :=
  ⟨⟨h.follows.ahead, h.follows.whole, h.follows.last⟩, h.ends, h.behind, h.order.record met⟩

/-- The reading goes on from a problem that is written down. -/
theorem recording (h : InStep source k p r) (met : problem.isMet = true) {f : Unit → Reading β}
    (later : ∀ s, InStep source k p s → Walks source W (f () s)) :
    Walks source W ((Reader.record (some p) problem >>= f) r) :=
  later _ (h.record met)

end InStep

/-- How often the end is met at most, when it was met `k` times before the token was taken. -/
def visits (k : Nat) (t : Located Token) : Nat :=
  if t.value = .ending then k + 1 else 0

theorem visits_proper (proper : t.value ≠ .ending) : visits k t = 0 :=
  if_neg proper

theorem visits_le (k : Nat) (t : Located Token) : visits k t ≤ k + 1 := by
  rw [visits]
  split
  · exact Nat.le_refl _
  · exact Nat.zero_le _

/-- The token is in hand, and what is written down is in order up to `p`. -/
structure Holds (source : List Char) (k : Nat) (p : Position) (t : Located Token) (r : Reader) :
    Prop where
  inStep : InStep source (visits k t) p r
  last : r.last = t.position

namespace Holds

variable (h : Holds source k p t r)
include h

theorem advance : Holds source k t.position t r :=
  ⟨h.inStep.advance (h.last ▸ h.inStep.behind) h.last.ge, h.last⟩

/-- A token other than the end shows that the end was not met before. -/
theorem free (proper : t.value ≠ .ending) : InStep source 0 p r :=
  visits_proper proper ▸ h.inStep

theorem record (met : problem.isMet = true) :
    Holds source k p t (record (some p) problem r).state :=
  ⟨h.inStep.record met, h.last⟩

end Holds

/-! The parts that all sections share. -/

theorem InStep.read (h : InStep source k p r) : Walks source (Holds source k p) (read r) := by
  have next := h.follows.read
  have order := h.order.read
  cases took : Reader.read r with
  | ok t s =>
    rw [took] at next order
    obtain ⟨here, follows, reads, last⟩ := next
    refine ⟨⟨follows, ?_, ?_, order⟩, last⟩
    · rw [reads, Cursor.endings_succ, visits]
      by_cases ends : t.value = .ending
      · rw [if_pos ends]
        have one := h.ends
        split <;> omega
      · have other : meetsEnd (callAt source r.reads) = false := by
          simp [meetsEnd, here, Except.toOption, ends]
        rw [Cursor.endings_eq_zero other, other, if_neg ends]
        exact Nat.le_refl _
    · rw [last]
      exact h.behind.trans (h.follows.last t here)
  | error fault s =>
    rw [took] at next order
    obtain ⟨reads, f, here, eq⟩ := next
    exact ⟨⟨p, order⟩, .inr ⟨r.reads, f, reads, h.follows.whole, here, eq⟩⟩

theorem recordOnce_cases (p : Position) (problem : Problem) (r : Reader) :
    recordOnce p problem r = .ok () r ∨
      recordOnce p problem r = .ok () (Reader.record (some p) problem r).state := by
  rw [recordOnce, EStateM.bind_of_ok (get_run r)]
  split
  · exact .inl rfl
  · exact .inr rfl

/-- What holds with the problem written down and without it holds from there on. -/
theorem walks_recordOnce {P : Reader → Prop} {f : Unit → Reading β} (same : P r)
    (recorded : P (Reader.record (some p) problem r).state)
    (later : ∀ s, P s → Walks source W (f () s)) :
    Walks source W ((recordOnce p problem >>= f) r) := by
  obtain run | run := recordOnce_cases p problem r
  · rw [EStateM.bind_of_ok run]
    exact later r same
  · rw [EStateM.bind_of_ok run]
    exact later _ recorded

/-- The action looks at the reading and changes nothing. -/
def Still (m : Reading α) : Prop :=
  ∀ r, (m r).state = r

/-- What comes behind a look goes on from the same state. -/
theorem InStep.bind (h : InStep source k p r) (few : k ≤ 2) (still : Still m) {f : α → Reading β}
    (later : ∀ a, m r = .ok a r → Walks source W (f a r)) : Walks source W ((m >>= f) r) := by
  have same := still r
  simp only [Bind.bind, EStateM.bind]
  cases run : m r with
  | ok a s =>
    rw [run] at same
    obtain rfl : s = r := same
    exact later a run
  | error e s =>
    rw [run] at same
    obtain rfl : s = r := same
    exact h.broken few e

theorem still_pure (a : α) : Still (pure a : Reading α) := fun _ => rfl

theorem still_fail (p : Position) (cause : Cause) : Still (fail p cause : Reading α) := fun _ => rfl

theorem still_circuitNow : Still circuitNow := fun _ => rfl

theorem Still.bind {f : α → Reading β} (hm : Still m) (hf : ∀ a, Still (f a)) :
    Still (m >>= f) := by
  intro r
  have same := hm r
  simp only [Bind.bind, EStateM.bind]
  cases run : m r with
  | ok a s =>
    rw [run] at same
    exact (hf a s).trans same
  | error e s =>
    rw [run] at same
    exact same

theorem still_expectName (t : Located Token) : Still (expectName t) := by
  unfold expectName
  split
  · exact still_circuitNow.bind fun _ => still_pure _
  · exact still_fail _ _

theorem still_expect (token : Token) (cause : Cause) (t : Located Token) :
    Still (expect token cause t) := by
  unfold expect
  split
  · exact still_pure _
  · exact still_fail _ _

theorem still_expectKind (t : Located Token) : Still (expectKind t) := by
  refine (still_expectName t).bind fun name => still_circuitNow.bind fun c => ?_
  split
  · exact still_pure _
  · exact still_fail _ _

theorem still_expectNumber (kind : Kind) (t : Located Token) : Still (expectNumber kind t) := by
  unfold expectNumber
  split
  · split
    · exact still_fail _ _
    · split
      · exact still_pure _
      · exact still_fail _ _
  · exact still_fail _ _

theorem still_isOutputPin (pin : Mention) : Still (isOutputPin pin) :=
  still_circuitNow.bind fun _ => still_pure _

theorem still_needlessPin (device : Mention) (t : Located Token) :
    Still (needlessPin device t) := by
  unfold needlessPin
  split
  · refine (still_expectName t).bind fun pin => (still_isOutputPin pin).bind fun isOutput => ?_
    split <;> exact still_pure _
  · exact still_pure _

end Reader

end Description

end LogicCircuit
