import LogicCircuit.Description.Token
import LogicCircuit.Text.Decimal

/-!
A place in a description from which tokens are read one by one. Blanks and comments stand between
tokens; a comment runs from one pair of slashes to the next.
-/

namespace LogicCircuit.Description

open LogicCircuit.Text

/-- What is still to be read of a text, and where it begins. -/
structure Cursor where
  rest : List Char
  position : Position
  deriving DecidableEq, Repr

/-- The tokens of a text up to its end or its first fault. -/
structure Tokens where
  tokens : List (Located Token)
  ending : Except (Located LexicalFault) Position

namespace Cursor

def ofSource (source : List Char) : Cursor :=
  ⟨source, .origin⟩

/-- The cursor a number of characters further on. -/
def drop (c : Cursor) (count : Nat) : Cursor :=
  ⟨c.rest.drop count, c.position.advance (c.rest.take count)⟩

/-- Skips blanks and comments; a pair of slashes opens a comment and the next pair closes it. -/
def skip : (inComment : Bool) → List Char → Position → Cursor
  | _, [], p => ⟨[], p⟩
  | inComment, '/' :: '/' :: rest, p => skip (!inComment) rest ((p.step '/').step '/')
  | true, c :: rest, p => skip true rest (p.step c)
  | false, c :: rest, p => if isBlank c then skip false rest (p.step c) else ⟨c :: rest, p⟩

/-- The cursor at the next character of a token. -/
def skipGap (c : Cursor) : Cursor :=
  skip false c.rest c.position

/-- Reads a sign at the cursor. A dash must have its arrow head, and the fault of one that has not
lies behind it. A character that is no sign stays unread. -/
def sign (c : Cursor) : Except (Located LexicalFault) (Located Token) × Cursor :=
  match c.rest with
  | '=' :: _ => (.ok ⟨c.position, .equals⟩, c.drop 1)
  | '.' :: _ => (.ok ⟨c.position, .dot⟩, c.drop 1)
  | ',' :: _ => (.ok ⟨c.position, .comma⟩, c.drop 1)
  | ';' :: _ => (.ok ⟨c.position, .semicolon⟩, c.drop 1)
  | '-' :: '>' :: _ => (.ok ⟨c.position, .arrow⟩, c.drop 2)
  | '-' :: _ => (.error ⟨(c.drop 1).position, .bareDash⟩, c.drop 1)
  | x :: _ => (.error ⟨c.position, .strayCharacter x⟩, c)
  | [] => (.ok ⟨c.position, .ending⟩, c)

/-- Reads a number at the cursor. -/
def number (c : Cursor) : Except (Located LexicalFault) (Located Token) × Cursor :=
  let digits := c.rest.takeWhile isDigit
  let outcome :=
    if Decimal.value digits < Decimal.bound then
      .ok ⟨c.position, .number (Decimal.value digits)⟩
    else
      .error ⟨c.position, .numberTooLarge (String.ofList digits)⟩
  (outcome, c.drop digits.length)

/-- Reads a name or a keyword at the cursor. -/
def word (c : Cursor) : Except (Located LexicalFault) (Located Token) × Cursor :=
  let letters := c.rest.takeWhile isAlphanumeric
  (.ok ⟨c.position, .ofWord (String.ofList letters)⟩, c.drop letters.length)

/-- Reads the next token; gives the cursor behind what was read also when that was no token. -/
def next (c : Cursor) : Except (Located LexicalFault) (Located Token) × Cursor :=
  let c := c.skipGap
  if c.rest.head?.any isAlphabetic then c.word
  else if c.rest.head?.any isDigit then c.number
  else c.sign

theorem length_skip_le (inComment : Bool) (cs : List Char) (p : Position) :
    (skip inComment cs p).rest.length ≤ cs.length := by
  fun_induction skip inComment cs p with
  | case1 => exact Nat.le_refl _
  | case2 inComment rest p ih => simp only [List.length_cons]; omega
  | case3 p c rest _ ih => simp only [List.length_cons]; omega
  | case4 p c rest _ _ ih => simp only [List.length_cons]; omega
  | case5 => exact Nat.le_refl _

theorem length_drop_lt (c : Cursor) {count : Nat} (h : 0 < count) (more : c.rest ≠ []) :
    (c.drop count).rest.length < c.rest.length := by
  have := List.length_pos_iff.mpr more
  simp only [drop, List.length_drop]
  omega

theorem length_sign_lt {c c' : Cursor} {t : Located Token} (h : c.sign = (.ok t, c'))
    (proper : t.value ≠ .ending) : c'.rest.length < c.rest.length := by
  unfold sign at h
  split at h
  case h_8 =>
    obtain ⟨rfl, rfl⟩ := by simpa using h
    exact absurd rfl proper
  all_goals
    rename_i rest
    simp only [Prod.mk.injEq, Except.ok.injEq, reduceCtorEq, false_and] at h
  all_goals
    obtain ⟨_, rfl⟩ := h
    exact length_drop_lt c (by omega) (by simp [rest])

/-- A token other than the end takes at least one character. -/
theorem length_next_lt {c c' : Cursor} {t : Located Token} (h : c.next = (.ok t, c'))
    (proper : t.value ≠ .ending) : c'.rest.length < c.rest.length := by
  have gap : c.skipGap.rest.length ≤ c.rest.length := length_skip_le _ _ _
  suffices c'.rest.length < c.skipGap.rest.length from Nat.lt_of_lt_of_le this gap
  simp only [next] at h
  generalize c.skipGap = d at h
  split at h
  case isTrue alphabetic =>
    obtain ⟨rest, p⟩ := d
    match rest, alphabetic with
    | x :: rest, alphabetic =>
      obtain ⟨_, rfl⟩ := by simpa [word] using h
      refine length_drop_lt _ ?_ (by simp)
      simp [isAlphanumeric_of_isAlphabetic (by simpa using alphabetic)]
  case isFalse =>
    split at h
    case isTrue digit =>
      obtain ⟨rest, p⟩ := d
      match rest, digit with
      | x :: rest, digit =>
        simp only [number, Prod.mk.injEq] at h
        obtain ⟨_, rfl⟩ := h
        refine length_drop_lt _ ?_ (by simp)
        have : isDigit x = true := by simpa using digit
        simp [this]
    case isFalse => exact length_sign_lt h proper

/-- All tokens from the cursor on. -/
def tokens (c : Cursor) : Tokens :=
  match _ : c.next with
  | (.error fault, _) => ⟨[], .error fault⟩
  | (.ok t, c') =>
    if _ : t.value = .ending then ⟨[], .ok t.position⟩
    else
      let others := tokens c'
      ⟨t :: others.tokens, others.ending⟩
termination_by c.rest.length
decreasing_by exact length_next_lt ‹_› ‹_›

end Cursor

end LogicCircuit.Description
