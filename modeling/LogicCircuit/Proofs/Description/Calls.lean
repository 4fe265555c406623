import LogicCircuit.Proofs.Description.Printing

/-!
What one call of the lexer makes of the text that it finds behind blanks and comments: it reads a
spelling, or a dash without its arrow head, or stops at a character that begins no token.
-/

namespace LogicCircuit.Description

open LogicCircuit.Text

/-- Neither a word nor a numeral. -/
def Spelling.isSign (s : Spelling) : Bool :=
  !s.isWord && !s.isNumeral

namespace Cursor

variable {s : Spelling} {c : Cursor} {cs rest : List Char} {p : Position} {x : Char}

/-! Signs. -/

/-- What a text may begin with where no word and no number stands. -/
inductive SignView : List Char → Prop
  | none : SignView []
  | written {s : Spelling} (isSign : s.isSign = true) (rest : List Char) : SignView (s.text ++ rest)
  | dash {rest : List Char} (bare : rest.head?.any (· == '>') = false) : SignView ('-' :: rest)
  | stray {x : Char} (other : x ∉ ['=', '.', ',', ';', '-']) (rest : List Char) :
    SignView (x :: rest)

theorem signView (cs : List Char) : SignView cs := by
  cases cs with
  | nil => exact .none
  | cons x rest =>
    by_cases sign : x ∈ ['=', '.', ',', ';', '-']
    · simp only [List.mem_cons, List.not_mem_nil, or_false] at sign
      rcases sign with rfl | rfl | rfl | rfl | rfl
      · exact .written (s := .equals) rfl rest
      · exact .written (s := .dot) rfl rest
      · exact .written (s := .comma) rfl rest
      · exact .written (s := .semicolon) rfl rest
      · cases head : rest.head?.any (· == '>') with
        | false => exact .dash head
        | true =>
          obtain ⟨others, rfl⟩ : ∃ others, rest = '>' :: others := by
            cases rest with
            | nil => cases head
            | cons y others => exact ⟨others, by rw [beq_iff_eq.mp head]⟩
          exact .written (s := .arrow) rfl others
    · exact .stray sign rest

theorem sign_written (isSign : s.isSign = true) :
    (⟨s.text ++ rest, p⟩ : Cursor).sign = (.ok ⟨p, s.token⟩, ⟨rest, p.advance s.text⟩) := by
  cases s with
  | name _ | keyword _ | numeral _ => cases isSign
  | equals | dot | comma | semicolon | arrow => rfl

theorem sign_dash (bare : rest.head?.any (· == '>') = false) :
    (⟨'-' :: rest, p⟩ : Cursor).sign =
      (.error ⟨p.step '-', .bareDash⟩, ⟨rest, p.step '-'⟩) := by
  cases rest with
  | nil => rfl
  | cons y rest =>
    have other : y ≠ '>' := by simpa using bare
    unfold sign
    split
    case h_6 => simp_all [drop]
    case h_7 _ _ _ _ _ _ notDash eq => exact absurd (List.cons.inj eq).1.symm notDash
    all_goals simp_all

theorem sign_stray (other : x ∉ ['=', '.', ',', ';', '-']) :
    (⟨x :: rest, p⟩ : Cursor).sign = (.error ⟨p, .strayCharacter x⟩, ⟨x :: rest, p⟩) := by
  simp only [List.mem_cons, List.not_mem_nil, or_false, not_or] at other
  obtain ⟨equals, dot, comma, semicolon, dash⟩ := other
  rw [sign]
  all_goals simp_all

end Cursor

namespace Spelling

/-- Every run of letters and numbers that begins with a letter is the spelling of a word. -/
theorem exists_word {letters : List Char} (letter : letters.head?.any isAlphabetic = true)
    (all : letters.all isAlphanumeric = true) :
    ∃ s : Spelling, s.Proper ∧ s.isWord = true ∧ s.text = letters := by
  cases known : Keyword.ofText? (String.ofList letters) with
  | some k =>
    have same : k.text = String.ofList letters := by
      simpa using List.find?_some known
    exact ⟨.keyword k, trivial, rfl, by rw [text, same, String.toList_ofList]⟩
  | none =>
    have noKeyword : ∀ k ∈ Keyword.all, String.ofList letters ≠ k.text := fun k hk eq => by
      have := List.find?_eq_none.mp known k hk
      simp [eq] at this
    refine ⟨.name (String.ofList letters), ⟨?_, ?_, noKeyword⟩, rfl, String.toList_ofList⟩
    · rwa [String.toList_ofList]
    · rwa [String.toList_ofList]

end Spelling

namespace Cursor

variable {c d e : Cursor} {passed others : List Char}

/-- What a call makes of a text that begins neither with a blank nor with a comment, and where it
leaves the cursor. -/
inductive Call (p : Position) :
    List Char → Except (Located LexicalFault) (Located Token) × Cursor → Prop
  | ending : Call p [] (.ok ⟨p, .ending⟩, ⟨[], p⟩)
  | spelling {s : Spelling} {rest : List Char} (proper : s.Proper) :
      Call p (s.text ++ rest) (s.outcome p, ⟨rest, p.advance s.text⟩)
  | bareDash {rest : List Char} :
      Call p ('-' :: rest) (.error ⟨p.step '-', .bareDash⟩, ⟨rest, p.step '-'⟩)
  | stray {x : Char} {rest : List Char} (visible : isBlank x = false) :
      Call p (x :: rest) (.error ⟨p, .strayCharacter x⟩, ⟨x :: rest, p⟩)

/-- No blank is left where the next token begins. -/
theorem head?_skip (inComment : Bool) (cs : List Char) (p : Position) :
    (skip inComment cs p).rest.head?.all (fun x => !isBlank x) = true := by
  fun_induction skip inComment cs p with
  | case1 => rfl
  | case2 _ _ _ ih => exact ih
  | case3 _ _ _ _ ih => exact ih
  | case4 _ _ _ _ _ ih => exact ih
  | case5 _ _ _ _ visible => simpa using visible

theorem head?_dropWhile (q : Char → Bool) (text : List Char) :
    (text.dropWhile q).head?.any q = false := by
  have last := List.head?_dropWhile_not q text
  cases eq : (text.dropWhile q).head? with
  | none => rfl
  | some x =>
    rw [eq] at last
    simpa using last

theorem all_not_of_any {o : Option Char} {q : Char → Bool} (h : o.any q = false) :
    o.all (fun x => !q x) = true := by
  cases o with
  | none => rfl
  | some x => simpa using h

theorem call_word {text : List Char} {p : Position}
    (letter : text.head?.any isAlphabetic = true) :
    Call p text (⟨text, p⟩ : Cursor).word := by
  have split : text = text.takeWhile isAlphanumeric ++ text.dropWhile isAlphanumeric :=
    List.takeWhile_append_dropWhile.symm
  have first : (text.takeWhile isAlphanumeric).head?.any isAlphabetic = true := by
    cases text with
    | nil => cases letter
    | cons x text =>
      have alphabetic : isAlphabetic x = true := letter
      rw [List.takeWhile_cons_of_pos (isAlphanumeric_of_isAlphabetic alphabetic)]
      exact alphabetic
  obtain ⟨s, proper, isWord, written⟩ := Spelling.exists_word first List.all_takeWhile
  have stops : (text.dropWhile isAlphanumeric).head?.all (fun x => !s.goesOn x) = true := by
    have noNumeral : s.isNumeral = false := by cases s <;> first | rfl | cases isWord
    have goesOn : s.goesOn = isAlphanumeric := by
      funext x
      simp [Spelling.goesOn, isWord, noNumeral]
    rw [goesOn]
    exact all_not_of_any (head?_dropWhile isAlphanumeric text)
  have whole := word_text (p := p) proper isWord stops
  have outcome : s.outcome p = .ok ⟨p, s.token⟩ := by cases s <;> first | rfl | cases isWord
  have call : Call p (s.text ++ text.dropWhile isAlphanumeric)
      (s.outcome p, ⟨text.dropWhile isAlphanumeric, p.advance s.text⟩) := .spelling proper
  rw [outcome, ← whole, written, ← split] at call
  exact call

theorem call_number {text : List Char} {p : Position} (digit : text.head?.any isDigit = true) :
    Call p text (⟨text, p⟩ : Cursor).number := by
  have split : text = text.takeWhile isDigit ++ text.dropWhile isDigit :=
    List.takeWhile_append_dropWhile.symm
  have proper : (Spelling.numeral (text.takeWhile isDigit)).Proper := by
    refine ⟨?_, List.all_takeWhile⟩
    cases text with
    | nil => cases digit
    | cons x text =>
      rw [List.takeWhile_cons_of_pos (show isDigit x = true from digit)]
      exact List.cons_ne_nil _ _
  have stops : (text.dropWhile isDigit).head?.all
      (fun x => !(Spelling.numeral (text.takeWhile isDigit)).goesOn x) = true := by
    have goesOn : (Spelling.numeral (text.takeWhile isDigit)).goesOn = isDigit := by
      funext x
      simp [Spelling.goesOn, Spelling.isWord, Spelling.isNumeral]
    rw [goesOn]
    exact all_not_of_any (head?_dropWhile isDigit text)
  have whole := number_text (p := p) proper stops
  have call : Call p (text.takeWhile isDigit ++ text.dropWhile isDigit)
      ((Spelling.numeral (text.takeWhile isDigit)).outcome p,
        ⟨text.dropWhile isDigit, p.advance (text.takeWhile isDigit)⟩) := .spelling proper
  rw [← whole, ← split] at call
  exact call

theorem call_sign {text : List Char} {p : Position}
    (visible : text.head?.all (fun x => !isBlank x) = true) :
    Call p text (⟨text, p⟩ : Cursor).sign := by
  cases signView text with
  | none => exact .ending
  | @written s isSign rest =>
    have proper : s.Proper := by cases s <;> trivial
    have outcome : s.outcome p = .ok ⟨p, s.token⟩ := by cases s <;> first | rfl | cases isSign
    rw [sign_written isSign, ← outcome]
    exact .spelling proper
  | dash bare =>
    rw [sign_dash bare]
    exact .bareDash
  | stray other rest =>
    rw [sign_stray other]
    exact .stray (by simpa using visible)

/-- A call skips what stands before the next token, and then reads that token. -/
theorem call_next (c : Cursor) : Call c.skipGap.position c.skipGap.rest c.next := by
  have visible : c.skipGap.rest.head?.all (fun x => !isBlank x) = true :=
    head?_skip false c.rest c.position
  rw [next]
  generalize c.skipGap = d at visible
  obtain ⟨text, p⟩ := d
  split
  case isTrue letter => exact call_word letter
  case isFalse =>
    split
    case isTrue digit => exact call_number digit
    case isFalse => exact call_sign visible

/-- The second cursor stands behind what the first one still had to pass. -/
def Passes (c : Cursor) (passed : List Char) (d : Cursor) : Prop :=
  c.rest = passed ++ d.rest ∧ d.position = c.position.advance passed

namespace Passes

theorem refl (c : Cursor) : c.Passes [] c :=
  ⟨rfl, rfl⟩

theorem cons {x : Char} {rest : List Char} {p : Position}
    (h : (⟨rest, p.step x⟩ : Cursor).Passes passed d) :
    (⟨x :: rest, p⟩ : Cursor).Passes (x :: passed) d :=
  ⟨congrArg (x :: ·) h.1, h.2⟩

theorem trans (h : c.Passes passed d) (h' : d.Passes others e) : c.Passes (passed ++ others) e :=
  ⟨by rw [h.1, h'.1, List.append_assoc], by rw [h'.2, h.2, Position.advance_append]⟩

end Passes

theorem exists_passes_skip (inComment : Bool) (cs : List Char) (p : Position) :
    ∃ gap, (⟨cs, p⟩ : Cursor).Passes gap (skip inComment cs p) := by
  fun_induction skip inComment cs p with
  | case1 => exact ⟨[], .refl _⟩
  | case2 _ _ _ ih =>
    obtain ⟨gap, h⟩ := ih
    exact ⟨_, h.cons.cons⟩
  | case3 _ _ _ _ ih =>
    obtain ⟨gap, h⟩ := ih
    exact ⟨_, h.cons⟩
  | case4 _ _ _ _ _ ih =>
    obtain ⟨gap, h⟩ := ih
    exact ⟨_, h.cons⟩
  | case5 => exact ⟨[], .refl _⟩

theorem exists_passes_skipGap (c : Cursor) : ∃ gap, c.Passes gap c.skipGap :=
  exists_passes_skip false c.rest c.position

/-- What a call reads it passes. -/
theorem exists_passes_next (c : Cursor) : ∃ passed, c.skipGap.Passes passed c.next.2 := by
  have call := call_next c
  generalize c.next = result at call
  generalize c.skipGap = d at call
  obtain ⟨text, p⟩ := d
  cases call with
  | ending => exact ⟨[], .refl _⟩
  | @spelling s rest proper => exact ⟨s.text, rfl, rfl⟩
  | bareDash => exact ⟨['-'], rfl, rfl⟩
  | stray => exact ⟨[], .refl _⟩

/-- The cursor after a number of calls. -/
def after (c : Cursor) : Nat → Cursor
  | 0 => c
  | k + 1 => (c.after k).next.2

theorem after_next (c : Cursor) (k : Nat) : c.next.2.after k = c.after (k + 1) := by
  induction k with
  | zero => rfl
  | succ k ih =>
    rw [after, ih]
    rfl

/-- Calls pass the text from where they begin to where they leave the cursor. -/
theorem exists_passes_after (c : Cursor) {j k : Nat} (order : j ≤ k) :
    ∃ passed, (c.after j).Passes passed (c.after k) := by
  induction order with
  | refl => exact ⟨[], .refl _⟩
  | @step k _ ih =>
    obtain ⟨passed, h⟩ := ih
    obtain ⟨gap, h'⟩ := exists_passes_skipGap (c.after k)
    obtain ⟨text, h''⟩ := exists_passes_next (c.after k)
    exact ⟨_, (h.trans h').trans h''⟩

end Cursor

theorem Lexer.after_cursor (l : Lexer) (k : Nat) : (l.after k).cursor = l.cursor.after k := by
  induction k with
  | zero => rfl
  | succ k ih => rw [after, cursor_next, ih, Cursor.after]

end LogicCircuit.Description
