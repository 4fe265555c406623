import LogicCircuit.Description.Reader
import LogicCircuit.Proofs.Description.Places

/-!
A reading asks the lexer for its tokens: what it takes next is what the next call of the lexer
gives. Each call that gives a token takes a character at least, and behind the end all calls meet
the end.
-/

namespace LogicCircuit.Description

namespace Cursor

variable {source : List Char} {c : Cursor} {t u : Located Token} {j k : Nat}
  {f : Located LexicalFault} {ahead : Tokens}

/-- What the call after `k` others gives. -/
def callAt (source : List Char) (k : Nat) : Except (Located LexicalFault) (Located Token) :=
  ((ofSource source).after k).next.1

/-- Whether a call meets the end. -/
def meetsEnd (outcome : Except (Located LexicalFault) (Located Token)) : Bool :=
  outcome.toOption.any fun t => t.value = .ending

/-- How many of the first calls meet the end. -/
def endings (source : List Char) (k : Nat) : Nat :=
  (List.range k).countP fun j => meetsEnd (callAt source j)

theorem endings_succ (source : List Char) (k : Nat) : endings source (k + 1) =
    endings source k + if meetsEnd (callAt source k) then 1 else 0 := by
  rw [endings, List.range_succ, List.countP_append, List.countP_singleton]
  rfl

/-- Behind the end there is nothing but the end. -/
theorem next_of_ending (read : c.next.1 = .ok t) (ends : t.value = .ending) :
    c.next.2.next = (.ok t, c.next.2) := by
  have call := call_next c
  generalize c.next = result at call read ⊢
  generalize c.skipGap = d at call
  obtain ⟨text, p⟩ := d
  cases call with
  | ending =>
    obtain rfl := Except.ok.inj read
    rfl
  | @spelling s rest proper =>
    obtain rfl := Spelling.eq_of_outcome read
    cases s <;> cases ends
  | bareDash => cases read
  | stray => cases read

theorem callAt_of_ending (order : j ≤ k) (here : callAt source j = .ok t)
    (ends : t.value = .ending) : callAt source k = .ok t := by
  induction order with
  | refl => exact here
  | @step k _ ih =>
    have again := next_of_ending ih ends
    exact congrArg Prod.fst again

/-- No end was met before a call that gives something else. -/
theorem endings_eq_zero (other : meetsEnd (callAt source k) = false) : endings source k = 0 := by
  refine List.countP_eq_zero.mpr fun j inside meets => ?_
  have order : j < k := List.mem_range.mp inside
  cases here : callAt source j with
  | error f =>
    rw [here] at meets
    cases meets
  | ok t =>
    have ends : t.value = .ending := by simpa [here, meetsEnd, Except.toOption] using meets
    rw [callAt_of_ending order.le here ends] at other
    simp [meetsEnd, Except.toOption, ends] at other

/-- Tokens stand in the order of the calls. -/
theorem position_le (order : j ≤ k) (first : callAt source j = .ok t)
    (second : callAt source k = .ok u) : t.position ≤ u.position := by
  by_cases ends : t.value = .ending
  · rw [callAt_of_ending order first ends] at second
    rw [Except.ok.inj second]
  · obtain rfl | before := order.eq_or_lt
    · rw [Except.ok.inj (first.symm.trans second)]
    · exact (position_lt source before first ends second).le

theorem length_after_succ_le (source : List Char) (k : Nat) :
    ((ofSource source).after (k + 1)).rest.length ≤ ((ofSource source).after k).rest.length := by
  obtain ⟨passed, split, -⟩ := exists_passes_after (ofSource source) (Nat.le_succ k)
  rw [split, List.length_append]
  exact Nat.le_add_left _ _

/-- A call that gives a token takes a character at least. -/
theorem length_after_succ_lt (here : callAt source k = .ok t) (proper : t.value ≠ .ending) :
    ((ofSource source).after (k + 1)).rest.length < ((ofSource source).after k).rest.length :=
  length_next_lt (Prod.ext here rfl) proper

/-- There are no more calls than characters, but for those that meet the end. -/
theorem calls_le (whole : ∀ j < k, ∃ t, callAt source j = .ok t) :
    k + ((ofSource source).after k).rest.length ≤ source.length + endings source k := by
  induction k with
  | zero =>
    rw [Nat.zero_add]
    exact Nat.le_refl _
  | succ k ih =>
    have before := ih fun j order => whole j (Nat.lt_succ_of_lt order)
    obtain ⟨t, here⟩ := whole k (Nat.lt_succ_self k)
    rw [endings_succ]
    by_cases ends : t.value = .ending
    · have meets : meetsEnd (callAt source k) = true := by
        simp [meetsEnd, Except.toOption, here, ends]
      rw [if_pos meets]
      have shorter := length_after_succ_le source k
      omega
    · have shorter := length_after_succ_lt here ends
      omega

/-- The first of the tokens to come is what the next call gives, and the others come after it. -/
theorem tokens_cases (c : Cursor) :
    (∃ t, c.next.1 = .ok t ∧ t.value ≠ .ending ∧
      c.tokens = ⟨t :: c.next.2.tokens.tokens, c.next.2.tokens.ending⟩) ∨
    (∃ p, c.next.1 = .ok ⟨p, .ending⟩ ∧ c.tokens = ⟨[], .ok p⟩) ∨
    ∃ f, c.next.1 = .error f ∧ c.tokens = ⟨[], .error f⟩ := by
  rw [tokens]
  split
  case h_1 f d read => exact .inr (.inr ⟨f, by rw [read], rfl⟩)
  case h_2 t d read =>
    by_cases ends : t.value = .ending
    · rw [dif_pos ends]
      refine .inr (.inl ⟨t.position, ?_, rfl⟩)
      rw [read, ← ends]
    · rw [dif_neg ends]
      exact .inl ⟨t, by rw [read], ends, by rw [read]⟩

end Cursor

namespace Reader

open Cursor (callAt endings)

variable {source : List Char} {r s : Reader} {t : Located Token}

/-- The reading has made a number of calls, each of which gave a token or the end, and what it is to
take are the tokens of the calls to come. -/
structure Follows (source : List Char) (r : Reader) : Prop where
  ahead : ((Cursor.ofSource source).after r.reads).tokens = ⟨r.tokens, r.ending⟩
  whole : ∀ k < r.reads, ∃ t, callAt source k = .ok t
  last : ∀ t, callAt source r.reads = .ok t → r.last ≤ t.position

theorem Follows.next (h : Follows source r) (here : callAt source r.reads = .ok t)
    (reads : s.reads = r.reads + 1) (place : s.last = t.position)
    (ahead : ((Cursor.ofSource source).after r.reads).next.2.tokens = ⟨s.tokens, s.ending⟩) :
    Follows source s := by
  refine ⟨by rw [reads]; exact ahead, fun k order => ?_, fun u second => ?_⟩
  · rw [reads, Nat.lt_succ_iff_lt_or_eq] at order
    rcases order with before | rfl
    · exact h.whole k before
    · exact ⟨t, here⟩
  · rw [reads] at second
    rw [place]
    exact Cursor.position_le (Nat.le_succ _) here second

/-- A reading takes what the next call gives, and ends where that call fails. -/
theorem Follows.read (h : Follows source r) :
    match read r with
    | .ok t s => callAt source r.reads = .ok t ∧ Follows source s ∧ s.reads = r.reads + 1 ∧
        s.last = t.position
    | .error fault s => s.reads = r.reads + 1 ∧
        ∃ f, callAt source r.reads = .error f ∧ fault = .ofLexical f := by
  have ahead := h.ahead
  rw [Reader.read]
  obtain ⟨t, here, -, eq⟩ | ⟨p, here, eq⟩ | ⟨f, here, eq⟩ :=
    ((Cursor.ofSource source).after r.reads).tokens_cases
  · rw [eq] at ahead
    obtain ⟨tokens, ending⟩ := Tokens.mk.inj ahead
    rw [← tokens]
    refine ⟨here, h.next here rfl rfl ?_, rfl, rfl⟩
    cases value : t.value <;> simp only [meeting, ← ending]
  · rw [eq] at ahead
    obtain ⟨tokens, ending⟩ := Tokens.mk.inj ahead
    rw [← tokens, ← ending]
    refine ⟨here, h.next here rfl rfl ?_, rfl, rfl⟩
    obtain ⟨t, again, other, -⟩ | ⟨q, again, eq'⟩ | ⟨f, again, -⟩ :=
      ((Cursor.ofSource source).after r.reads).next.2.tokens_cases
    all_goals rw [Cursor.next_of_ending here rfl] at again
    · exact absurd (Except.ok.inj again ▸ rfl) other
    · obtain rfl : p = q := congrArg Located.position (Except.ok.inj again)
      exact eq'
    · cases again
  · rw [eq] at ahead
    obtain ⟨tokens, ending⟩ := Tokens.mk.inj ahead
    rw [← tokens, ← ending]
    exact ⟨rfl, f, here, rfl⟩

theorem follows_ofSource (source : List Char) (c : Circuit) : Follows source (ofSource source c) :=
  ⟨rfl, nofun, fun _ _ => Position.origin_le _⟩

end Reader

end LogicCircuit.Description
