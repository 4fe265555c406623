import LogicCircuit.Description.Lexer
import LogicCircuit.Proofs.Symbol
import Mathlib.Data.List.Chain

/-!
Lexing undoes printing: the tokens of a description, written one after the other with blanks and
comments between them, are what the lexer gives back.
-/

namespace LogicCircuit.Text

/-- The code points of the blanks. -/
def blankCodes : List Nat :=
  [9, 10, 11, 12, 13, 32, 0x85, 0xa0, 0x1680, 0x2000, 0x2001, 0x2002, 0x2003, 0x2004, 0x2005,
   0x2006, 0x2007, 0x2008, 0x2009, 0x200a, 0x2028, 0x2029, 0x202f, 0x205f, 0x3000]

variable {c : Char}

theorem toNat_mem_blankCodes (h : isBlank c = true) : c.toNat ∈ blankCodes := by
  simp only [isBlank, inRanges, List.any_cons, List.any_nil, Bool.or_false] at h
  simp only [blankCodes, List.mem_cons, List.not_mem_nil, or_false]
  split at h
  · simp only [Bool.or_eq_true, Bool.and_eq_true, decide_eq_true_eq, beq_iff_eq] at h
    omega
  · simp only [Bool.or_eq_true, Bool.and_eq_true, decide_eq_true_eq] at h
    omega

/-- The tables of letters and numbers hold no blank. -/
theorem not_isAlphanumeric_of_isBlank (h : isBlank c = true) : isAlphanumeric c = false := by
  have tables : ∀ n ∈ blankCodes, isAlphanumeric (Char.ofNat n) = false := by decide +kernel
  rw [← Char.ofNat_toNat c]
  exact tables _ (toNat_mem_blankCodes h)

theorem isDigit_iff : isDigit c = true ↔ 48 ≤ c.toNat ∧ c.toNat ≤ 57 := by
  rw [isDigit, Char.isDigit, Bool.and_eq_true, decide_eq_true_eq, decide_eq_true_eq]
  rfl

theorem not_isAlphabetic_of_isDigit (h : isDigit c = true) : isAlphabetic c = false := by
  have digits : ∀ n < 58, 48 ≤ n → isAlphabetic (Char.ofNat n) = false := by decide +kernel
  obtain ⟨lower, upper⟩ := isDigit_iff.mp h
  rw [← Char.ofNat_toNat c]
  exact digits _ (by omega) lower

theorem isAlphanumeric_of_isDigit (h : isDigit c = true) : isAlphanumeric c = true := by
  have digits : ∀ n < 58, 48 ≤ n → isAlphanumeric (Char.ofNat n) = true := by decide +kernel
  obtain ⟨lower, upper⟩ := isDigit_iff.mp h
  rw [← Char.ofNat_toNat c]
  exact digits _ (by omega) lower

end LogicCircuit.Text

namespace LogicCircuit.Description

open LogicCircuit.Text

/-- What stands between tokens: a blank, or a comment between two pairs of slashes. -/
inductive Spacing
  | blank (c : Char)
  | comment (body : List Char)
  deriving DecidableEq, Repr

namespace Spacing

def text : Spacing → List Char
  | blank c => [c]
  | comment body => '/' :: '/' :: (body ++ ['/', '/'])

/-- The body of a comment must not close it before its end. -/
def Proper : Spacing → Prop
  | blank c => isBlank c = true
  | comment body => ¬ ['/', '/'] <:+: body ∧ body.getLast? ≠ some '/'

instance (s : Spacing) : Decidable s.Proper :=
  match s with
  | blank c => inferInstanceAs (Decidable (isBlank c = true))
  | comment body =>
    inferInstanceAs (Decidable (¬ ['/', '/'] <:+: body ∧ body.getLast? ≠ some '/'))

end Spacing

def gapText (gap : List Spacing) : List Char :=
  gap.flatMap Spacing.text

/-- What a token is written as. -/
inductive Spelling
  | name (text : String)
  | keyword (k : Keyword)
  | numeral (digits : List Char)
  | equals
  | dot
  | comma
  | semicolon
  | arrow
  deriving DecidableEq, Repr

namespace Spelling

def text : Spelling → List Char
  | name text => text.toList
  | keyword k => k.text.toList
  | numeral digits => digits
  | equals => ['=']
  | dot => ['.']
  | comma => [',']
  | semicolon => [';']
  | arrow => ['-', '>']

def token : Spelling → Token
  | name text => .name text
  | keyword k => .keyword k
  | numeral digits => .number (Decimal.value digits)
  | equals => .equals
  | dot => .dot
  | comma => .comma
  | semicolon => .semicolon
  | arrow => .arrow

/-- A name begins with a letter, goes on with letters and numbers, and is no keyword; a numeral
consists of one or more digits. -/
def Proper : Spelling → Prop
  | name text => text.toList.head?.any isAlphabetic = true ∧
      text.toList.all isAlphanumeric = true ∧ ∀ k ∈ Keyword.all, text ≠ k.text
  | numeral digits => digits ≠ [] ∧ digits.all isDigit = true
  | _ => True

instance (s : Spelling) : Decidable s.Proper :=
  match s with
  | name text => inferInstanceAs (Decidable (text.toList.head?.any isAlphabetic = true ∧
      text.toList.all isAlphanumeric = true ∧ ∀ k ∈ Keyword.all, text ≠ k.text))
  | numeral digits => inferInstanceAs (Decidable (digits ≠ [] ∧ digits.all isDigit = true))
  | keyword _ | equals | dot | comma | semicolon | arrow => inferInstanceAs (Decidable True)

/-- Only a numeral may be more than a number can hold. -/
def Fits : Spelling → Prop
  | numeral digits => Decimal.value digits < Decimal.bound
  | _ => True

instance (s : Spelling) : Decidable s.Fits :=
  match s with
  | numeral digits => inferInstanceAs (Decidable (Decimal.value digits < Decimal.bound))
  | name _ | keyword _ | equals | dot | comma | semicolon | arrow =>
    inferInstanceAs (Decidable True)

/-- What the lexer is to make of a spelling that begins at `p`. -/
def outcome (s : Spelling) (p : Position) : Except (Located LexicalFault) (Located Token) :=
  match s with
  | numeral digits =>
    if Decimal.value digits < Decimal.bound then .ok ⟨p, .number (Decimal.value digits)⟩
    else .error ⟨p, .numberTooLarge (String.ofList digits)⟩
  | _ => .ok ⟨p, s.token⟩

def isWord : Spelling → Bool
  | name _ | keyword _ => true
  | _ => false

def isNumeral : Spelling → Bool
  | numeral _ => true
  | _ => false

/-- Whether the two would be read as one with nothing between them. A word after a numeral is
not: no letter continues a numeral. -/
def runsInto (s next : Spelling) : Bool :=
  (s.isWord && (next.isWord || next.isNumeral)) || (s.isNumeral && next.isNumeral)

end Spelling

/-- A token as it is written, after what stands before it. -/
structure Item where
  gap : List Spacing
  spelling : Spelling
  deriving DecidableEq, Repr

def Item.text (i : Item) : List Char :=
  gapText i.gap ++ i.spelling.text

/-- The tokens of a description as they are written, and what stands after the last of them. -/
structure Layout where
  items : List Item
  trailing : List Spacing
  deriving DecidableEq, Repr

def itemsText (items : List Item) : List Char :=
  items.flatMap Item.text

@[simp] theorem itemsText_nil : itemsText [] = [] := rfl

@[simp] theorem itemsText_cons (i : Item) (items : List Item) :
    itemsText (i :: items) = i.text ++ itemsText items := rfl

theorem itemsText_append (items others : List Item) :
    itemsText (items ++ others) = itemsText items ++ itemsText others :=
  List.flatMap_append

namespace Layout

def text (d : Layout) : List Char :=
  itemsText d.items ++ gapText d.trailing

/-- Neighbours that would be read as one are kept apart. -/
structure Proper (d : Layout) : Prop where
  gaps : ∀ i ∈ d.items, ∀ s ∈ i.gap, s.Proper
  spellings : ∀ i ∈ d.items, i.spelling.Proper
  trailing : ∀ s ∈ d.trailing, s.Proper
  apart : d.items.IsChain fun i j => i.spelling.runsInto j.spelling = true → j.gap ≠ []

/-- Where an item stands that so many items come before. -/
def place (d : Layout) (k : Nat) (i : Item) : Position :=
  Position.origin.advance (itemsText (d.items.take k) ++ gapText i.gap)

end Layout

/-! Blanks and comments are skipped. -/

namespace Cursor

variable {gap : List Spacing} {rest : List Char} {p : Position}

theorem skip_comment {body : List Char} (unclosed : ¬ ['/', '/'] <:+: body)
    (last : body.getLast? ≠ some '/') :
    skip true (body ++ '/' :: '/' :: rest) p =
      skip false rest (p.advance (body ++ ['/', '/'])) := by
  induction body generalizing p with
  | nil => rw [List.nil_append, skip]; rfl
  | cons c body ih =>
    -- A slash of the body is neither its last character nor followed by another slash.
    have single (others : List Char) (slash : c = '/') :
        body ++ '/' :: '/' :: rest ≠ '/' :: others := by
      subst slash
      intro eq
      cases body with
      | nil => exact last rfl
      | cons d body =>
        obtain rfl := (List.cons.inj eq).1
        exact unclosed ⟨[], body, rfl⟩
    have later : body.getLast? ≠ some '/' := by
      cases body with
      | nil => simp
      | cons d body => rwa [List.getLast?_cons_cons] at last
    have inside : ¬ ['/', '/'] <:+: body := fun h =>
      unclosed (h.trans (List.suffix_cons c body).isInfix)
    rw [List.cons_append, skip, ih inside later]
    · rfl
    · exact fun others eq => single others eq

theorem skip_spacing {s : Spacing} (proper : s.Proper) :
    skip false (s.text ++ rest) p = skip false rest (p.advance s.text) := by
  cases s with
  | blank c =>
    have other : c ≠ '/' := by
      rintro rfl
      exact absurd proper (by decide)
    rw [Spacing.text, List.singleton_append, skip, if_pos (show isBlank c = true from proper)]
    · rfl
    · exact fun _ eq => absurd eq other
  | comment body =>
    have same : Spacing.text (.comment body) ++ rest =
        '/' :: '/' :: (body ++ '/' :: '/' :: rest) := by
      simp [Spacing.text]
    rw [same, skip, Bool.not_false, skip_comment proper.1 proper.2]
    rfl

theorem skip_gap (proper : ∀ s ∈ gap, s.Proper) :
    skip false (gapText gap ++ rest) p = skip false rest (p.advance (gapText gap)) := by
  induction gap generalizing p with
  | nil => rfl
  | cons s gap ih =>
    rw [gapText, List.flatMap_cons, List.append_assoc, skip_spacing (proper s List.mem_cons_self),
      ← gapText, ih fun u hu => proper u (List.mem_cons_of_mem s hu), Position.advance_append]

end Cursor

/-! What a spelling begins with, and what does not go on with it. -/

namespace Spelling

variable {s next : Spelling}

/-- The characters that are taken for a part of the token before them. -/
def goesOn (s : Spelling) (c : Char) : Bool :=
  (s.isWord && isAlphanumeric c) || (s.isNumeral && isDigit c)

theorem outcome_of_fits {p : Position} (fits : s.Fits) : s.outcome p = .ok ⟨p, s.token⟩ := by
  cases s with
  | numeral digits => exact if_pos fits
  | _ => rfl

theorem fits_of_word {word : String} (written : s.token.word? = some word) : s.Fits := by
  cases s with
  | numeral digits => cases written
  | _ => trivial

theorem text_of_isWord (proper : s.Proper) (word : s.isWord = true) :
    s.text.head?.any isAlphabetic = true ∧ s.text.all isAlphanumeric = true ∧
      Token.ofWord (String.ofList s.text) = s.token := by
  cases s with
  | name text =>
    obtain ⟨letter, others, noKeyword⟩ := proper
    have absent : Keyword.ofText? text = none := by
      rw [Keyword.ofText?, List.find?_eq_none]
      intro k hk
      simpa using (noKeyword k hk).symm
    refine ⟨letter, others, ?_⟩
    rw [Spelling.text, String.ofList_toList, Token.ofWord, absent]
    rfl
  | keyword k => cases k <;> decide +kernel
  | _ => cases word

/-- The first character of a spelling tells what it is. -/
structure Heads (s : Spelling) (c : Char) : Prop where
  blank : isBlank c = false
  slash : c ≠ '/'
  alphabetic : isAlphabetic c = s.isWord
  digit : isDigit c = s.isNumeral
  alphanumeric : isAlphanumeric c = (s.isWord || s.isNumeral)

instance (s : Spelling) (c : Char) : Decidable (s.Heads c) :=
  decidable_of_iff (isBlank c = false ∧ c ≠ '/' ∧ isAlphabetic c = s.isWord ∧
      isDigit c = s.isNumeral ∧ isAlphanumeric c = (s.isWord || s.isNumeral))
    ⟨fun ⟨h₁, h₂, h₃, h₄, h₅⟩ => ⟨h₁, h₂, h₃, h₄, h₅⟩,
      fun ⟨h₁, h₂, h₃, h₄, h₅⟩ => ⟨h₁, h₂, h₃, h₄, h₅⟩⟩

theorem heads_name {text : String} {c : Char} (letter : isAlphabetic c = true) :
    (name text).Heads c where
  blank := Bool.eq_false_iff.mpr fun h =>
    absurd (isAlphanumeric_of_isAlphabetic letter) (by simp [not_isAlphanumeric_of_isBlank h])
  slash := by
    rintro rfl
    exact absurd letter (by decide +kernel)
  alphabetic := letter
  digit := Bool.eq_false_iff.mpr fun h => absurd letter (by simp [not_isAlphabetic_of_isDigit h])
  alphanumeric := isAlphanumeric_of_isAlphabetic letter

theorem heads_numeral {digits : List Char} {c : Char} (digit : isDigit c = true) :
    (numeral digits).Heads c where
  blank := Bool.eq_false_iff.mpr fun h =>
    absurd (isAlphanumeric_of_isDigit digit) (by simp [not_isAlphanumeric_of_isBlank h])
  slash := by
    rintro rfl
    exact absurd digit (by decide)
  alphabetic := not_isAlphabetic_of_isDigit digit
  digit := digit
  alphanumeric := isAlphanumeric_of_isDigit digit

theorem heads (proper : s.Proper) : ∃ c others, s.text = c :: others ∧ s.Heads c := by
  cases s with
  | name text =>
    obtain ⟨letter, -⟩ := proper
    rw [Spelling.text]
    cases eq : text.toList with
    | nil => simp [eq] at letter
    | cons c others => exact ⟨c, others, rfl, heads_name (by simpa [eq] using letter)⟩
  | keyword k => cases k <;> exact ⟨_, _, rfl, by decide +kernel⟩
  | numeral digits =>
    obtain ⟨written, all⟩ := proper
    obtain ⟨c, others, rfl⟩ := List.exists_cons_of_ne_nil written
    exact ⟨c, others, rfl, heads_numeral (List.all_eq_true.mp all c List.mem_cons_self)⟩
  | equals | dot | comma | semicolon | arrow => exact ⟨_, _, rfl, by decide +kernel⟩

theorem runsInto_of_goesOn {c : Char} (heads : next.Heads c) (h : s.goesOn c = true) :
    s.runsInto next = true := by
  rw [goesOn, heads.alphanumeric, heads.digit] at h
  exact h

end Spelling

namespace Layout

variable {items : List Item} {trailing : List Spacing} {i : Item}

/-- A gap that is not empty begins with a blank or a slash, with which no token goes on. -/
theorem goesOn_gap {gap : List Spacing} (s : Spelling) (proper : ∀ g ∈ gap, g.Proper)
    (some : gap ≠ []) (rest : List Char) :
    (gapText gap ++ rest).head?.all (fun c => !s.goesOn c) = true := by
  obtain ⟨g, gap, rfl⟩ := List.exists_cons_of_ne_nil some
  have other (c : Char) (h : isAlphanumeric c = false) : s.goesOn c = false := by
    have digit : isDigit c = false :=
      Bool.eq_false_iff.mpr fun d => by simp [isAlphanumeric_of_isDigit d] at h
    simp [Spelling.goesOn, h, digit]
  cases g with
  | blank c =>
    have blank : isBlank c = true := proper _ List.mem_cons_self
    simp [gapText, Spacing.text, other c (not_isAlphanumeric_of_isBlank blank)]
  | comment body =>
    simp [gapText, Spacing.text, other '/' (by decide +kernel)]

/-- What comes after an item does not go on with it. -/
theorem stops (proper : ({ items := i :: items, trailing := trailing } : Layout).Proper) :
    (itemsText items ++ gapText trailing).head?.all (fun c => !i.spelling.goesOn c) = true := by
  cases items with
  | nil =>
    by_cases none : trailing = []
    · subst none
      rfl
    · have := goesOn_gap i.spelling proper.trailing none []
      simpa using this
  | cons j items =>
    have member : j ∈ i :: j :: items := List.mem_cons_of_mem i List.mem_cons_self
    by_cases none : j.gap = []
    · have apart := (List.isChain_cons_cons.mp proper.apart).1
      obtain ⟨c, others, text, head⟩ := Spelling.heads (proper.spellings j member)
      have free : i.spelling.goesOn c = false :=
        Bool.eq_false_iff.mpr fun h => apart (Spelling.runsInto_of_goesOn head h) none
      simp [Item.text, none, gapText, text, free]
    · have := goesOn_gap i.spelling (proper.gaps j member) none
        (j.spelling.text ++ itemsText items ++ gapText trailing)
      simpa [Item.text] using this

theorem Proper.drop {d : Layout} (proper : d.Proper) (k : Nat) :
    ({ items := d.items.drop k, trailing := d.trailing } : Layout).Proper where
  gaps j hj := proper.gaps j (List.mem_of_mem_drop hj)
  spellings j hj := proper.spellings j (List.mem_of_mem_drop hj)
  trailing := proper.trailing
  apart := proper.apart.drop k

end Layout

namespace Cursor

variable {i : Item} {rest : List Char} {p : Position}

theorem takeWhile_text {q : Char → Bool} {text : List Char} (all : text.all q = true)
    (stops : rest.head?.all (fun c => !q c) = true) : (text ++ rest).takeWhile q = text := by
  rw [List.takeWhile_append_of_pos (List.all_eq_true.mp all)]
  cases rest with
  | nil => simp
  | cons c rest =>
    have : q c = false := by simpa using stops
    rw [List.takeWhile_cons_of_neg (by simp [this]), List.append_nil]

theorem skipGap_item (gaps : ∀ s ∈ i.gap, s.Proper) (proper : i.spelling.Proper) :
    (⟨i.text ++ rest, p⟩ : Cursor).skipGap =
      ⟨i.spelling.text ++ rest, p.advance (gapText i.gap)⟩ := by
  obtain ⟨c, others, text, head⟩ := Spelling.heads proper
  rw [skipGap, Item.text, List.append_assoc, skip_gap gaps, text, List.cons_append, skip,
    if_neg (by simp [head.blank])]
  exact fun _ eq => absurd eq head.slash

theorem drop_text (text : List Char) :
    (⟨text ++ rest, p⟩ : Cursor).drop text.length = ⟨rest, p.advance text⟩ := by
  rw [drop, List.drop_left, List.take_left]

theorem word_text {s : Spelling} (proper : s.Proper) (isWord : s.isWord = true)
    (stops : rest.head?.all (fun c => !s.goesOn c) = true) :
    (⟨s.text ++ rest, p⟩ : Cursor).word = (.ok ⟨p, s.token⟩, ⟨rest, p.advance s.text⟩) := by
  obtain ⟨-, all, token⟩ := Spelling.text_of_isWord proper isWord
  have letters : (s.text ++ rest).takeWhile isAlphanumeric = s.text := by
    refine takeWhile_text all ?_
    cases rest with
    | nil => rfl
    | cons c rest => simp_all [Spelling.goesOn]
  simp only [word, letters, token, drop_text]

theorem number_text {digits : List Char} (proper : (Spelling.numeral digits).Proper)
    (stops : rest.head?.all (fun c => !(Spelling.numeral digits).goesOn c) = true) :
    (⟨digits ++ rest, p⟩ : Cursor).number =
      ((Spelling.numeral digits).outcome p, ⟨rest, p.advance digits⟩) := by
  have all : (digits ++ rest).takeWhile isDigit = digits := takeWhile_text proper.2 stops
  simp only [number, all, drop_text, Spelling.outcome]

/-- One call reads one item, whatever comes after it. -/
theorem next_item (gaps : ∀ s ∈ i.gap, s.Proper) (proper : i.spelling.Proper)
    (stops : rest.head?.all (fun c => !i.spelling.goesOn c) = true) :
    (⟨i.text ++ rest, p⟩ : Cursor).next =
      (i.spelling.outcome (p.advance (gapText i.gap)), ⟨rest, p.advance i.text⟩) := by
  obtain ⟨c, others, text, head⟩ := Spelling.heads proper
  have letter : (i.spelling.text ++ rest).head?.any isAlphabetic = i.spelling.isWord := by
    simp [text, head.alphabetic]
  have digit : (i.spelling.text ++ rest).head?.any isDigit = i.spelling.isNumeral := by
    simp [text, head.digit]
  rw [next, skipGap_item gaps proper, letter, digit, Item.text, Position.advance_append]
  cases eq : i.spelling with
  | name word => exact word_text (eq ▸ proper) rfl (eq ▸ stops)
  | keyword k => exact word_text (eq ▸ proper) rfl (eq ▸ stops)
  | numeral digits => exact number_text (eq ▸ proper) (eq ▸ stops)
  | equals | dot | comma | semicolon | arrow => rfl

theorem next_trailing {gap : List Spacing} (proper : ∀ s ∈ gap, s.Proper) :
    (⟨gapText gap, p⟩ : Cursor).next =
      (.ok ⟨p.advance (gapText gap), .ending⟩, ⟨[], p.advance (gapText gap)⟩) := by
  have skipped : (⟨gapText gap, p⟩ : Cursor).skipGap = ⟨[], p.advance (gapText gap)⟩ := by
    have whole : skip false (gapText gap ++ []) p = skip false [] (p.advance (gapText gap)) :=
      skip_gap proper
    rwa [List.append_nil] at whole
  rw [next, skipped]
  rfl

end Cursor

namespace Lexer

/-- The lexer after a number of calls. -/
def after (l : Lexer) : Nat → Lexer
  | 0 => l
  | k + 1 => (l.after k).next.2

theorem mem_texts_next {l : Lexer} {word : String} (h : word ∈ l.symbols.texts) :
    word ∈ l.next.2.symbols.texts ∧ l.next.2.symbols.symbol word = l.symbols.symbol word := by
  rw [next]
  split
  case h_1 t cursor eq =>
    cases written : t.value.word? with
    | none => exact ⟨h, rfl⟩
    | some other => exact ⟨SymbolTable.mem_add.mpr (Or.inr h), SymbolTable.symbol_add h⟩
  case h_2 => exact ⟨h, rfl⟩

/-- A word that was given a symbol keeps it in all calls to come. -/
theorem text?_after {l : Lexer} {word : String} {k j : Nat} (order : k ≤ j)
    (h : word ∈ (l.after k).symbols.texts) :
    (l.after j).symbols.text? ((l.after k).symbols.symbol word) = some word := by
  have kept : word ∈ (l.after j).symbols.texts ∧
      (l.after j).symbols.symbol word = (l.after k).symbols.symbol word := by
    induction order with
    | refl => exact ⟨h, rfl⟩
    | step _ ih =>
      obtain ⟨known, same⟩ := mem_texts_next ih.1
      exact ⟨known, same.trans ih.2⟩
  rw [← kept.2, SymbolTable.text?_symbol kept.1]

theorem next_word {l : Lexer} {t : Located Token} {word : String} (h : l.next.1 = .ok t)
    (written : t.value.word? = some word) : word ∈ l.next.2.symbols.texts := by
  rw [next] at h ⊢
  split
  case h_1 u cursor eq =>
    rw [eq] at h
    obtain rfl := Except.ok.inj h
    simp only [written, Option.map_some, Option.getD_some]
    exact SymbolTable.mem_add.mpr (Or.inl rfl)
  case h_2 fault cursor eq =>
    rw [eq] at h
    cases h

/-- What the call after `k` others gives for a layout: the item that is due, as it is written and
where it stands, or a fault, if that is a numeral beyond all numbers; after the last item, the
end. A word has a symbol from then on, which stands for that word. -/
structure Recovers (start : Lexer) (d : Layout) (k : Nat) : Prop where
  item : ∀ i, d.items[k]? = some i → i.spelling.Fits →
    (start.after k).next.1 = .ok ⟨d.place k i, i.spelling.token⟩
  symbol : ∀ i word, d.items[k]? = some i → i.spelling.token.word? = some word →
    ∀ j, k < j →
      (start.after j).symbols.text? ((start.after (k + 1)).symbols.symbol word) = some word
  tooLarge : ∀ gap digits, d.items[k]? = some ⟨gap, .numeral digits⟩ →
    Decimal.bound ≤ Decimal.value digits →
      (start.after k).next.1 =
        .error ⟨d.place k ⟨gap, .numeral digits⟩, .numberTooLarge (String.ofList digits)⟩
  ending : d.items.length ≤ k →
    (start.after k).next.1 = .ok ⟨Position.origin.advance d.text, .ending⟩

variable {d : Layout} {t : SymbolTable} {k : Nat}

theorem cursor_next (l : Lexer) : l.next.2.cursor = l.cursor.next.2 := by
  rw [next]
  split <;> simp only [*]

theorem outcome_next (l : Lexer) : l.next.1 = l.cursor.next.1 := by
  rw [next]
  split <;> simp only [*]

/-- A call with `k` items behind it reads the next one. -/
theorem cursor_next_at (proper : d.Proper) {i : Item} (at_k : d.items[k]? = some i) (p : Position) :
    (⟨itemsText (d.items.drop k) ++ gapText d.trailing, p⟩ : Cursor).next =
      (i.spelling.outcome (p.advance (gapText i.gap)),
        ⟨itemsText (d.items.drop (k + 1)) ++ gapText d.trailing, p.advance i.text⟩) := by
  have here : d.items.drop k = i :: d.items.drop (k + 1) := by
    obtain ⟨inside, rfl⟩ := List.getElem?_eq_some_iff.mp at_k
    exact List.drop_eq_getElem_cons inside
  have member : i ∈ d.items := List.mem_of_getElem? at_k
  have stops := Layout.stops (here ▸ proper.drop k)
  rw [here, itemsText_cons, List.append_assoc,
    Cursor.next_item (proper.gaps i member) (proper.spellings i member) stops]

/-- So many calls leave so many items behind, also where one of them ended in a fault. -/
theorem cursor_after (proper : d.Proper) (inside : k ≤ d.items.length) :
    ((ofSource d.text t).after k).cursor =
      ⟨itemsText (d.items.drop k) ++ gapText d.trailing,
        Position.origin.advance (itemsText (d.items.take k))⟩ := by
  induction k with
  | zero => rfl
  | succ k ih =>
    have at_k : d.items[k]? = some d.items[k] := List.getElem?_eq_getElem inside
    have taken : itemsText (d.items.take (k + 1)) =
        itemsText (d.items.take k) ++ d.items[k].text := by
      rw [List.take_add_one, at_k, itemsText_append, Option.toList_some, itemsText_cons,
        itemsText_nil, List.append_nil]
    rw [after, cursor_next, ih (Nat.le_of_succ_le inside), cursor_next_at proper at_k, taken,
      Position.advance_append]

theorem next_after_item (proper : d.Proper) {i : Item} (at_k : d.items[k]? = some i) :
    ((ofSource d.text t).after k).next.1 = i.spelling.outcome (d.place k i) := by
  have inside : k ≤ d.items.length :=
    Nat.le_of_lt (List.getElem?_eq_some_iff.mp at_k).choose
  rw [outcome_next, cursor_after proper inside, cursor_next_at proper at_k, Layout.place,
    Position.advance_append]

/-- Behind the last item every call finds the end, and leaves the cursor there. -/
theorem next_after_items (proper : d.Proper) (behind : d.items.length ≤ k) :
    ((ofSource d.text t).after k).cursor.next =
      (.ok ⟨Position.origin.advance d.text, .ending⟩,
        ⟨[], Position.origin.advance d.text⟩) := by
  induction behind with
  | refl =>
    rw [cursor_after proper (Nat.le_refl _), List.drop_length, List.take_length, itemsText_nil,
      List.nil_append, Cursor.next_trailing proper.trailing, ← Position.advance_append,
      ← Layout.text]
  | step _ ih =>
    rw [after, cursor_next, ih]
    rfl

/-- Lexing undoes printing. -/
theorem recovers_layout (proper : d.Proper) (t : SymbolTable) (k : Nat) :
    Recovers (ofSource d.text t) d k where
  item i at_k fits := by
    rw [next_after_item proper at_k, Spelling.outcome_of_fits fits]
  symbol i word at_k written j later := by
    have fits : i.spelling.Fits := Spelling.fits_of_word written
    have read : ((ofSource d.text t).after k).next.1 = .ok ⟨d.place k i, i.spelling.token⟩ := by
      rw [next_after_item proper at_k, Spelling.outcome_of_fits fits]
    exact text?_after later (next_word read written)
  tooLarge gap digits at_k large := by
    rw [next_after_item proper at_k, Spelling.outcome, if_neg (Nat.not_lt.mpr large)]
  ending behind := by
    rw [outcome_next, next_after_items proper behind]

/-- A layout with hardly a blank in it: `//a/b//DEVICES//// 007G1=18446744073709551616->`. -/
def closeLayout : Layout where
  items :=
    [⟨[.comment ['a', '/', 'b']], .keyword .devices⟩,
      ⟨[.comment [], .blank ' '], .numeral ['0', '0', '7']⟩,
      ⟨[], .name "G1"⟩,
      ⟨[], .equals⟩,
      ⟨[], .numeral "18446744073709551616".toList⟩,
      ⟨[], .arrow⟩]
  trailing := [.blank '\n']

theorem proper_closeLayout : closeLayout.Proper where
  gaps := by decide +kernel
  spellings := by decide +kernel
  trailing := by decide +kernel
  apart := by decide +kernel

theorem closeLayout_recovered :
    let l := ofSource closeLayout.text SymbolTable.empty
    (l.after 1).next.1 = .ok ⟨⟨0, 19⟩, .number 7⟩ ∧
      (l.after 2).next.1 = .ok ⟨⟨0, 22⟩, .name "G1"⟩ ∧
      (l.after 4).next.1 = .error ⟨⟨0, 25⟩, .numberTooLarge "18446744073709551616"⟩ ∧
      (l.after 9).next.1 = .ok ⟨⟨1, 0⟩, .ending⟩ := by
  have recovers := recovers_layout proper_closeLayout SymbolTable.empty
  exact ⟨(recovers 1).item _ rfl (by decide), (recovers 2).item _ rfl trivial,
    (recovers 4).tooLarge _ _ rfl (by decide), (recovers 9).ending (by decide)⟩

end Lexer

end LogicCircuit.Description
