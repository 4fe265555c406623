import LogicCircuit.Proofs.Description.Calls
import LogicCircuit.Proofs.Text.Place

/-!
Where the tokens of a text stand: at the place to which the newlines and columns before them lead,
one after the other, and under their own character in the lines of the text.
-/

namespace LogicCircuit.Description

open LogicCircuit.Text

theorem Spelling.eq_of_outcome {s : Spelling} {p : Position} {t : Located Token}
    (read : s.outcome p = .ok t) : t = ⟨p, s.token⟩ := by
  cases s with
  | numeral digits =>
    rw [outcome] at read
    split at read
    · exact (Except.ok.inj read).symm
    · cases read
  | _ => exact (Except.ok.inj read).symm

namespace Cursor

variable {source before rest : List Char} {p : Position} {x : Char} {k j : Nat}

/-- Some call of the lexer begins to read a token there, and finds that character first. -/
def BeginsAt (source : List Char) (p : Position) (x : Char) : Prop :=
  ∃ k rest, ((ofSource source).after k).skipGap = ⟨x :: rest, p⟩

/-- The text up to the cursor leads to its place. -/
theorem passes_ofSource {d : Cursor} (h : (ofSource source).Passes before d) :
    source = before ++ d.rest ∧ d.position = .behind before :=
  ⟨h.1, h.2.trans (Position.origin_advance before)⟩

theorem exists_passes_call (source : List Char) (k : Nat) :
    ∃ before, (ofSource source).Passes before ((ofSource source).after k).skipGap := by
  obtain ⟨passed, h⟩ := exists_passes_after (ofSource source) (Nat.zero_le k)
  obtain ⟨gap, h'⟩ := exists_passes_skipGap ((ofSource source).after k)
  exact ⟨_, h.trans h'⟩

namespace BeginsAt

theorem charAt? (h : BeginsAt source p x) : charAt? source p = some x := by
  obtain ⟨k, rest, here⟩ := h
  obtain ⟨before, passes⟩ := exists_passes_call source k
  obtain ⟨split, place⟩ := passes_ofSource passes
  have visible := head?_skip false ((ofSource source).after k).rest
    ((ofSource source).after k).position
  rw [← skipGap, here] at visible
  rw [here] at split place
  obtain rfl : p = .behind before := place
  rw [split]
  exact charAt?_behind before rest (by simpa using visible)

theorem caretUnder (h : BeginsAt source p x) : CaretUnder source p x :=
  caretUnder_of_charAt? h.charAt?

theorem caretAfter (h : BeginsAt source p '-') : CaretAfter source (p.step '-') '-' :=
  caretAfter_of_charAt? (by decide) h.charAt?

end BeginsAt

/-- Where a token begins, or the text ends. -/
def TokenAt (source : List Char) (p : Position) : Prop :=
  p = .behind source ∨ ∃ x, BeginsAt source p x

/-- A lexical fault belongs to the first character of what is no token; only for a dash without its
arrow head it lies behind that dash. -/
def FaultAt (source : List Char) (p : Position) (fault : LexicalFault) : Prop :=
  if fault = .bareDash then ∃ q, BeginsAt source q '-' ∧ p = q.step '-'
  else ∃ x, BeginsAt source p x

/-- A token is written where it stands: the text before it leads to its place, a call finds its
first character there, and that is the one above the caret of the excerpt. The end stands behind the
whole text. -/
inductive WrittenAt (source : List Char) : Located Token → Prop
  | ending : WrittenAt source ⟨.behind source, .ending⟩
  | spelling {before rest : List Char} {s : Spelling} {x : Char} (proper : s.Proper)
    (split : source = before ++ s.text ++ rest) (first : s.text.head? = some x)
    (begins : BeginsAt source (.behind before) x)
    (caret : CaretUnder source (.behind before) x) : WrittenAt source ⟨.behind before, s.token⟩

/-- What a call gives stands where it was read. -/
theorem outcome_of_call (source : List Char) (k : Nat) :
    match ((ofSource source).after k).next.1 with
    | .ok t => WrittenAt source t
    | .error fault => FaultAt source fault.position fault.value := by
  have call := call_next ((ofSource source).after k)
  obtain ⟨before, passes⟩ := exists_passes_call source k
  obtain ⟨split, place⟩ := passes_ofSource passes
  have begins (x : Char) (rest : List Char) (p : Position)
      (here : ((ofSource source).after k).skipGap = ⟨x :: rest, p⟩) : BeginsAt source p x :=
    ⟨k, rest, here⟩
  generalize ((ofSource source).after k).skipGap = c at call split place begins
  generalize ((ofSource source).after k).next = result at call ⊢
  obtain ⟨text, p⟩ := c
  obtain rfl : p = .behind before := place
  cases call with
  | ending =>
    obtain rfl : source = before := split.trans (List.append_nil before)
    exact .ending
  | @spelling s rest proper =>
    obtain ⟨x, others, written, -⟩ := Spelling.heads proper
    have here : BeginsAt source (.behind before) x := by
      refine begins x (others ++ rest) _ ?_
      rw [written]
      rfl
    by_cases fits : s.Fits
    · rw [Spelling.outcome_of_fits fits]
      have first : s.text.head? = some x := by rw [written]; rfl
      exact .spelling proper (split.trans (List.append_assoc _ _ _).symm) first here here.caretUnder
    · cases s with
      | numeral digits =>
        simp only [Spelling.outcome, if_neg (show ¬ Decimal.value digits < Decimal.bound from fits)]
        exact ⟨x, here⟩
      | _ => exact absurd trivial fits
  | bareDash => exact ⟨_, begins _ _ _ rfl, rfl⟩
  | stray => exact ⟨_, begins _ _ _ rfl⟩

theorem WrittenAt.tokenAt {t : Located Token} (h : WrittenAt source t) :
    TokenAt source t.position := by
  cases h with
  | ending => exact .inl rfl
  | spelling _ _ _ begins _ => exact .inr ⟨_, begins⟩

theorem Passes.le {c d : Cursor} {passed : List Char} (h : c.Passes passed d) :
    c.position ≤ d.position := by
  rw [h.2]
  exact Position.le_advance _ _

/-- A token stands where its call begins to read, and before where that call leaves the cursor. -/
theorem position_of_next {c : Cursor} {t : Located Token} (read : c.next.1 = .ok t) :
    t.position = c.skipGap.position ∧ (t.value ≠ .ending → t.position < c.next.2.position) := by
  have call := call_next c
  generalize c.next = result at call read ⊢
  generalize c.skipGap = d at call ⊢
  obtain ⟨text, p⟩ := d
  cases call with
  | ending =>
    obtain rfl := Except.ok.inj read
    exact ⟨rfl, fun proper => absurd rfl proper⟩
  | @spelling s rest proper =>
    obtain rfl := Spelling.eq_of_outcome read
    obtain ⟨x, others, written, -⟩ := Spelling.heads proper
    exact ⟨rfl, fun _ => Position.lt_advance p (by simp [written])⟩
  | bareDash => cases read
  | stray => cases read

/-- The tokens of two calls stand in the order of the calls. -/
theorem position_lt (source : List Char) {j k : Nat} (order : j < k) {t u : Located Token}
    (first : ((ofSource source).after j).next.1 = .ok t) (proper : t.value ≠ .ending)
    (second : ((ofSource source).after k).next.1 = .ok u) : t.position < u.position := by
  obtain ⟨passed, h⟩ := exists_passes_after (ofSource source) (Nat.succ_le_of_lt order)
  obtain ⟨gap, h'⟩ := exists_passes_skipGap ((ofSource source).after k)
  calc t.position
      < ((ofSource source).after (j + 1)).position := (position_of_next first).2 proper
    _ ≤ ((ofSource source).after k).position := h.le
    _ ≤ ((ofSource source).after k).skipGap.position := h'.le
    _ = u.position := (position_of_next second).1.symm

/-- The tokens of a text are what the calls give one after the other. -/
theorem call_of_tokens (c : Cursor) :
    (∀ t ∈ c.tokens.tokens, ∃ k, (c.after k).next.1 = .ok t) ∧
      ∃ k, (c.after k).next.1 = c.tokens.ending.map fun p => ⟨p, .ending⟩ := by
  fun_induction tokens c with
  | case1 c fault d read => exact ⟨by simp, 0, by rw [after, read]; rfl⟩
  | case2 c t d read ends =>
    refine ⟨by simp, 0, ?_⟩
    rw [after, read]
    exact congrArg Except.ok (by rw [← ends])
  | case3 c t d read proper others ih =>
    obtain ⟨later, k, last⟩ := ih
    have shift (k : Nat) : d.after k = c.after (k + 1) := by rw [← after_next, read]
    refine ⟨fun u member => ?_, k + 1, by rw [← shift]; exact last⟩
    rcases List.mem_cons.mp member with rfl | member
    · exact ⟨0, by rw [after, read]⟩
    · obtain ⟨k, here⟩ := later u member
      exact ⟨k + 1, by rw [← shift]; exact here⟩

end Cursor

end LogicCircuit.Description
