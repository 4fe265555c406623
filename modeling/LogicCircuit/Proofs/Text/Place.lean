import LogicCircuit.Text.CharClass
import LogicCircuit.Text.Excerpt
import Mathlib.Data.List.Induction
import Mathlib.Data.List.TakeWhile
import Mathlib.Data.Prod.Lex
import Mathlib.Order.Basic

/-!
Places in a text: which line and column a run of characters leads to, and what the excerpt shows
there.
-/

namespace LogicCircuit

namespace Position

variable {p q : Position} {before : List Char} {c : Char}

/-- The place behind a beginning of a text: the newlines are counted, and the characters after the
last of them. -/
def behind (before : List Char) : Position :=
  ⟨before.count '\n', (before.reverse.takeWhile (· ≠ '\n')).length⟩

/-- Walking through the text leads there. -/
theorem origin_advance (before : List Char) : origin.advance before = behind before := by
  induction before using List.reverseRecOn with
  | nil => rfl
  | append_singleton before c ih =>
    rw [advance_append, ih, advance_cons, advance_nil, step, behind, behind]
    by_cases newline : c = '\n'
    · simp [newline]
    · simp [newline]

theorem behind_newline (before : List Char) :
    behind ('\n' :: before) = ⟨(behind before).line + 1, (behind before).column⟩ := by
  have column : (before.reverse ++ ['\n']).takeWhile (· ≠ '\n') =
      before.reverse.takeWhile (· ≠ '\n') := by
    rw [List.takeWhile_append]
    split
    case isTrue whole =>
      rw [(List.takeWhile_prefix _).eq_of_length whole]
      simp
    case isFalse => rfl
  rw [behind, behind, List.reverse_cons, column, List.count_cons_self]

/-- A character before a text moves its first line only. -/
theorem behind_cons (other : c ≠ '\n') (before : List Char) :
    behind (c :: before) =
      if (behind before).line = 0 then ⟨0, (behind before).column + 1⟩ else behind before := by
  have count : (c :: before).count '\n' = before.count '\n' :=
    List.count_cons_of_ne other
  rw [behind, behind, count, List.reverse_cons, List.takeWhile_append]
  by_cases first : before.count '\n' = 0
  · have whole : before.reverse.takeWhile (· ≠ '\n') = before.reverse := by
      rw [List.takeWhile_eq_self_iff]
      intro d member
      have newline : '\n' ∉ before := List.count_eq_zero.mp first
      exact decide_eq_true fun eq => newline (List.mem_reverse.mp (eq ▸ member))
    rw [whole, if_pos rfl, if_pos first]
    simp [first, other]
  · have short : (before.reverse.takeWhile (· ≠ '\n')).length ≠ before.reverse.length := by
      intro whole
      have all := (List.takeWhile_prefix _).eq_of_length whole
      rw [List.takeWhile_eq_self_iff] at all
      have newline : '\n' ∈ before := List.one_le_count_iff.mp (Nat.pos_of_ne_zero first)
      exact of_decide_eq_true (all '\n' (List.mem_reverse.mpr newline)) rfl
    rw [if_neg short, if_neg first]

instance : LinearOrder Position :=
  LinearOrder.lift' (fun p => toLex (p.line, p.column)) fun p q eq => by
    obtain ⟨⟩ := p
    obtain ⟨⟩ := q
    simpa using eq

theorem lt_iff : p < q ↔ p.line < q.line ∨ p.line = q.line ∧ p.column < q.column :=
  Prod.Lex.toLex_lt_toLex

theorem origin_le (p : Position) : origin ≤ p :=
  not_lt.mp fun before => by simp [lt_iff, origin] at before

theorem lt_step (p : Position) (c : Char) : p < p.step c := by
  rw [step]
  split
  · exact lt_iff.mpr (.inl (Nat.lt_succ_self _))
  · exact lt_iff.mpr (.inr ⟨rfl, Nat.lt_succ_self _⟩)

theorem le_advance (p : Position) (cs : List Char) : p ≤ p.advance cs := by
  induction cs generalizing p with
  | nil => exact le_refl p
  | cons c cs ih => exact (lt_step p c).le.trans (ih (p.step c))

theorem lt_advance (p : Position) {cs : List Char} (some : cs ≠ []) : p < p.advance cs := by
  obtain ⟨c, cs, rfl⟩ := List.exists_cons_of_ne_nil some
  exact (lt_step p c).trans_le (le_advance (p.step c) cs)

end Position

namespace Text

variable {source before after : List Char} {x : Char} {p : Position}

/-- What comes after a character that ends no line. -/
theorem lines_cons {c : Char} {rest : List Char} (newline : c ≠ '\n')
    (ending : c = '\r' → rest.head? ≠ some '\n') :
    ∃ line others, lines (c :: rest) = (c :: line) :: others ∧
      (lines rest = line :: others ∨ lines rest = [] ∧ line = [] ∧ others = []) := by
  rw [lines]
  · cases lines rest with
    | nil => exact ⟨[], [], rfl, .inr ⟨rfl, rfl, rfl⟩⟩
    | cons line others => exact ⟨line, others, rfl, .inl rfl⟩
  · exact newline
  · intro others carriage eq
    rw [eq] at ending
    exact ending carriage rfl

/-- The character at a place of a text, as the lines have it. -/
def charAt? (source : List Char) (p : Position) : Option Char :=
  (lines source)[p.line]?.bind fun row => row[p.column]?

theorem charAt?_cons {c : Char} {rest : List Char} (newline : c ≠ '\n')
    (ending : c = '\r' → rest.head? ≠ some '\n')
    (found : charAt? rest (.behind before) = some x) :
    charAt? (c :: rest) (.behind (c :: before)) = some x := by
  obtain ⟨first, others, eq, same | ⟨none, -, -⟩⟩ := lines_cons newline ending
  · rw [Position.behind_cons newline]
    rw [charAt?, same] at found
    split
    case isTrue here =>
      rw [here] at found
      rw [charAt?, eq]
      exact found
    case isFalse later =>
      obtain ⟨n, line⟩ := Nat.exists_eq_succ_of_ne_zero later
      rw [charAt?, eq]
      rw [line] at found ⊢
      exact found
  · rw [charAt?, none] at found
    cases found

/-- A character that is no blank is found in the lines, where walking through the text leads. -/
theorem charAt?_behind (before after : List Char) (visible : isBlank x = false) :
    charAt? (before ++ x :: after) (.behind before) = some x := by
  have newline : x ≠ '\n' := by
    rintro rfl
    exact absurd visible (by decide)
  have carriage : x ≠ '\r' := by
    rintro rfl
    exact absurd visible (by decide)
  have ending (c : Char) (before : List Char)
      (single : ∀ rest, c = '\r' → before = '\n' :: rest → False) (eq : c = '\r') :
      (before ++ x :: after).head? ≠ some '\n' := by
    cases before with
    | nil => simpa using newline
    | cons d before =>
      intro head
      exact single before eq (by rw [Option.some.inj head])
  -- the cases are those of how the lines begin
  induction before using lines.induct with
  | case1 =>
    have none : x = '\r' → after.head? ≠ some '\n' := fun eq => absurd eq carriage
    obtain ⟨line, others, eq, -⟩ := lines_cons newline none
    rw [List.nil_append, charAt?, eq]
    rfl
  | case2 before ih =>
    rw [charAt?, Position.behind_newline, List.cons_append, lines]
    exact ih
  | case3 before ih =>
    rw [charAt?, Position.behind_cons (by decide), Position.behind_newline,
      if_neg (Nat.succ_ne_zero _), List.cons_append, List.cons_append, lines]
    exact ih
  | case4 c before other single _ ih => exact charAt?_cons other (ending c before single) ih
  | case5 c before other single _ _ _ ih => exact charAt?_cons other (ending c before single) ih

/-- The excerpt that shows a line with the caret under the column, whatever the line. -/
def pointed (p : Position) (line : List Char) : String :=
  "Line " ++ toString p.line ++ ":\n" ++ String.ofList line ++ "\n" ++
    String.ofList (List.replicate p.column ' ') ++ "^\n"

theorem excerptOf_eq_pointed {line : List Char} (found : (lines source)[p.line]? = some line)
    (within : p.column ≤ line.length) : excerptOf source p = pointed p line := by
  rw [excerptOf, line?, found]
  simp [excerpt, pointed, Nat.min_eq_left within]

/-- The text has that character at the place, and the caret of the excerpt stands under it. -/
def CaretUnder (source : List Char) (p : Position) (x : Char) : Prop :=
  ∃ row, (lines source)[p.line]? = some row ∧ row[p.column]? = some x ∧
    excerptOf source p = pointed p row

/-- The text has that character before the place, and the caret stands right after it. -/
def CaretAfter (source : List Char) (p : Position) (x : Char) : Prop :=
  ∃ row, (lines source)[p.line]? = some row ∧ 0 < p.column ∧ row[p.column - 1]? = some x ∧
    excerptOf source p = pointed p row

theorem caretUnder_of_charAt? (found : charAt? source p = some x) : CaretUnder source p x := by
  obtain ⟨line, here, shown⟩ := Option.bind_eq_some_iff.mp found
  have within := (List.getElem?_eq_some_iff.mp shown).choose
  exact ⟨line, here, shown, excerptOf_eq_pointed here (Nat.le_of_lt within)⟩

theorem caretAfter_of_charAt? (newline : x ≠ '\n') (found : charAt? source p = some x) :
    CaretAfter source (p.step x) x := by
  obtain ⟨line, here, shown⟩ := Option.bind_eq_some_iff.mp found
  have within := (List.getElem?_eq_some_iff.mp shown).choose
  rw [Position.step, if_neg newline]
  exact ⟨line, here, Nat.succ_pos _, shown, excerptOf_eq_pointed here within⟩

end Text

end LogicCircuit
