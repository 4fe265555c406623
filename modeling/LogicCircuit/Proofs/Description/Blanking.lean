import LogicCircuit.Proofs.Description.Calls

/-!
A comment is as good as blanks: a text in which each comment is made blank has the same tokens at
the same places, and the same faults.
-/

namespace LogicCircuit.Description

open LogicCircuit.Text

/-- The blank that takes the place of a character; the lines stay as they are. -/
def blankOf (c : Char) : Char :=
  if c = '\n' then '\n' else ' '

/-- The text with blanks for its comments. Outside of a comment a pair of slashes opens one, which
goes on through the next pair, or else to the end. -/
def blanked : (inComment : Bool) → List Char → List Char
  | _, [] => []
  | inComment, '/' :: '/' :: rest => ' ' :: ' ' :: blanked (!inComment) rest
  | true, c :: rest => blankOf c :: blanked true rest
  | false, c :: rest => c :: blanked false rest

example : String.ofList (blanked false "a//b\n/c/// d//e/".toList) = "a   \n    / d    " := by
  decide +kernel

theorem isBlank_blankOf (c : Char) : isBlank (blankOf c) = true := by
  rw [blankOf]
  split <;> rfl

theorem step_blankOf (p : Position) (c : Char) : p.step (blankOf c) = p.step c := by
  by_cases newline : c = '\n'
  · rw [blankOf, if_pos newline, newline]
  · rw [blankOf, if_neg newline, Position.step, Position.step, if_neg newline]
    rfl

section

variable {before after rest : List Char} {c : Char} {q : Char → Bool}

/-- Outside of a comment a character stays, unless it is a slash before another one. -/
theorem blanked_cons (h : ∀ others, c :: rest ≠ '/' :: '/' :: others) :
    blanked false (c :: rest) = c :: blanked false rest := by
  rw [blanked]
  exact fun others slash eq => h others (by rw [slash, eq])

theorem blanked_append (clean : '/' ∉ before) :
    blanked false (before ++ after) = before ++ blanked false after := by
  induction before with
  | nil => rfl
  | cons c before ih =>
    rw [List.mem_cons, not_or] at clean
    rw [List.cons_append, blanked_cons, ih clean.2, List.cons_append]
    exact fun others eq => clean.1 (List.cons.inj eq).1.symm

/-- The first character is the one of the text, or a blank instead of a slash. -/
theorem head?_blanked (slash : q '/' = false) (space : q ' ' = false) (text : List Char) :
    (blanked false text).head?.any q = text.head?.any q := by
  cases text with
  | nil => rfl
  | cons c rest =>
    by_cases opens : ∃ others, c :: rest = '/' :: '/' :: others
    · obtain ⟨others, eq⟩ := opens
      rw [eq, blanked]
      simp [slash, space]
    · rw [not_exists] at opens
      rw [blanked_cons opens]
      rfl

end

namespace Cursor

variable {c : Cursor} {cs rest : List Char} {p : Position} {inComment : Bool} {q : Char → Bool}

/-- The cursor at the same place of the text with blanks for comments. -/
def blanked (c : Cursor) : Cursor :=
  ⟨Description.blanked false c.rest, c.position⟩

theorem skip_isBlank {x : Char} (blank : isBlank x = true) :
    skip false (x :: rest) p = skip false rest (p.step x) :=
  skip_spacing (s := .blank x) blank

/-- What is skipped of the text is skipped as blanks, and the comments after it stay to be made
blank. -/
theorem skip_blanked (inComment : Bool) (cs : List Char) (p : Position) :
    skip false (Description.blanked inComment cs) p = (skip inComment cs p).blanked := by
  fun_induction skip inComment cs p with
  | case1 inComment p =>
    rw [Description.blanked]
    rfl
  | case2 inComment rest p ih =>
    rw [Description.blanked, skip_isBlank (by decide), skip_isBlank (by decide)]
    exact ih
  | case3 x rest p single ih =>
    rw [Description.blanked, skip_isBlank (isBlank_blankOf x), step_blankOf, ih]
    exact fun others slash eq => single others slash eq
  | case4 x rest p single blank ih =>
    rw [blanked_cons, skip_isBlank blank, ih]
    exact fun others eq => single others (List.cons.inj eq).1 (List.cons.inj eq).2
  | case5 x rest p single other =>
    have stays : Description.blanked false (x :: rest) = x :: Description.blanked false rest :=
      blanked_cons fun others eq => single others (List.cons.inj eq).1 (List.cons.inj eq).2
    have stops : skip false (x :: Description.blanked false rest) p =
        ⟨x :: Description.blanked false rest, p⟩ := by
      rw [skip, if_neg other]
      -- a single slash stays single, since no comment ends in a slash of the blanked text
      intro others slash eq
      have head : (Description.blanked false rest).head?.any (· == '/') = true := by rw [eq]; rfl
      cases rest with
      | nil => cases head
      | cons d rest =>
        by_cases opens : ∃ others, d :: rest = '/' :: '/' :: others
        · obtain ⟨others, eq⟩ := opens
          exact single _ slash (by rw [eq])
        · rw [not_exists] at opens
          rw [blanked_cons opens] at eq
          exact single rest slash (by rw [(List.cons.inj eq).1])
    rw [stays, stops, blanked, stays]

theorem skipGap_blanked (c : Cursor) : c.blanked.skipGap = c.skipGap.blanked :=
  skip_blanked false c.rest c.position

/-- No comment is left where the next token begins. -/
theorem rest_skip_ne (inComment : Bool) (cs : List Char) (p : Position) (others : List Char) :
    (skip inComment cs p).rest ≠ '/' :: '/' :: others := by
  fun_induction skip inComment cs p with
  | case1 => exact fun eq => by cases eq
  | case2 _ _ _ ih => exact ih
  | case3 _ _ _ _ ih => exact ih
  | case4 _ _ _ _ _ ih => exact ih
  | case5 _ _ _ single _ =>
    exact fun eq => single others (List.cons.inj eq).1 (List.cons.inj eq).2

theorem drop_blanked {before : List Char} (clean : '/' ∉ before) (rest : List Char)
    (p : Position) :
    (⟨before ++ rest, p⟩ : Cursor).blanked.drop before.length =
      ((⟨before ++ rest, p⟩ : Cursor).drop before.length).blanked := by
  rw [blanked, blanked_append clean, drop_text, drop_text, blanked]

/-- A run of characters other than slashes and blanks is the same in both texts. -/
theorem run_blanked (slash : q '/' = false) (space : q ' ' = false) (c : Cursor) :
    c.blanked.rest.takeWhile q = c.rest.takeWhile q ∧
      c.blanked.drop (c.rest.takeWhile q).length =
        (c.drop (c.rest.takeWhile q).length).blanked := by
  obtain ⟨cs, p⟩ := c
  have split : cs = cs.takeWhile q ++ cs.dropWhile q := List.takeWhile_append_dropWhile.symm
  have clean : '/' ∉ cs.takeWhile q := fun member => by
    have := List.all_eq_true.mp (List.all_takeWhile (l := cs)) '/' member
    rw [slash] at this
    cases this
  have stops : (Description.blanked false (cs.dropWhile q)).head?.all (fun x => !q x) = true := by
    exact all_not_of_any ((head?_blanked slash space _).trans (head?_dropWhile q cs))
  constructor
  · change (Description.blanked false cs).takeWhile q = cs.takeWhile q
    conv_lhs => rw [split, blanked_append clean]
    exact takeWhile_text List.all_takeWhile stops
  · have same := drop_blanked clean (cs.dropWhile q) p
    rwa [← split] at same

theorem head?_rest_blanked (slash : q '/' = false) (space : q ' ' = false) (c : Cursor) :
    c.blanked.rest.head?.any q = c.rest.head?.any q :=
  head?_blanked slash space c.rest

theorem word_blanked (c : Cursor) : c.blanked.word = (c.word.1, c.word.2.blanked) := by
  obtain ⟨letters, behind⟩ := run_blanked (q := isAlphanumeric) (by decide +kernel) (by decide) c
  simp only [word, letters, behind]
  rfl

theorem number_blanked (c : Cursor) : c.blanked.number = (c.number.1, c.number.2.blanked) := by
  obtain ⟨digits, behind⟩ := run_blanked (q := isDigit) (by decide) (by decide) c
  simp only [number, digits, behind]
  rfl

theorem sign_blanked (single : ∀ others, c.rest ≠ '/' :: '/' :: others) :
    c.blanked.sign = (c.sign.1, c.sign.2.blanked) := by
  obtain ⟨text, p⟩ := c
  cases signView text with
  | none => rfl
  | @written s isSign rest =>
    have clean : '/' ∉ s.text := by cases s <;> first | decide | cases isSign
    have stays : (⟨s.text ++ rest, p⟩ : Cursor).blanked =
        ⟨s.text ++ Description.blanked false rest, p⟩ := by
      rw [blanked, blanked_append clean]
    rw [stays, sign_written isSign, sign_written isSign, blanked]
  | @dash rest bare =>
    have stays : (⟨'-' :: rest, p⟩ : Cursor).blanked =
        ⟨'-' :: Description.blanked false rest, p⟩ := by
      rw [blanked, blanked_cons fun others eq => absurd (List.cons.inj eq).1 (by decide)]
    have bare' : (Description.blanked false rest).head?.any (· == '>') = false := by
      rw [head?_blanked rfl rfl, bare]
    rw [stays, sign_dash bare, sign_dash bare', blanked]
  | @stray x other rest =>
    have stays : (⟨x :: rest, p⟩ : Cursor).blanked =
        ⟨x :: Description.blanked false rest, p⟩ := by
      rw [blanked, blanked_cons single]
    rw [stays, sign_stray other, sign_stray other, stays]

/-- A call finds the same token or fault in both texts. -/
theorem next_blanked (c : Cursor) : c.blanked.next = (c.next.1, c.next.2.blanked) := by
  have single := rest_skip_ne false c.rest c.position
  rw [next, next, skipGap_blanked, head?_rest_blanked (by decide +kernel) (by decide),
    head?_rest_blanked (by decide) (by decide)]
  split
  case isTrue => exact word_blanked c.skipGap
  case isFalse =>
    split
    case isTrue => exact number_blanked c.skipGap
    case isFalse => exact sign_blanked single

end Cursor

namespace Lexer

/-- The lexer at the same place of the text with blanks for comments. -/
def blanked (l : Lexer) : Lexer :=
  ⟨l.cursor.blanked, l.symbols⟩

theorem next_blanked (l : Lexer) : l.blanked.next = (l.next.1, l.next.2.blanked) := by
  rw [next, next, blanked, Cursor.next_blanked]
  cases l.cursor.next with
  | mk outcome cursor => cases outcome <;> rfl

theorem blanked_after (l : Lexer) (calls : Nat) :
    l.blanked.after calls = (l.after calls).blanked := by
  induction calls with
  | zero => rfl
  | succ calls ih => rw [after, ih, next_blanked, after]

/-- So many calls later, both lexers stand at the same place with the same symbols, and the next
call gives the same token or fault. -/
theorem after_ofSource_blanked (source : List Char) (t : SymbolTable) (calls : Nat) :
    let l := (ofSource source t).after calls
    let m := (ofSource (Description.blanked false source) t).after calls
    m.next.1 = l.next.1 ∧ m.cursor.position = l.cursor.position ∧ m.symbols = l.symbols := by
  have same : (ofSource (Description.blanked false source) t).after calls =
      ((ofSource source t).after calls).blanked :=
    blanked_after (ofSource source t) calls
  intro l m
  rw [show m = l.blanked from same, next_blanked]
  exact ⟨rfl, rfl, rfl⟩

end Lexer

end LogicCircuit.Description
