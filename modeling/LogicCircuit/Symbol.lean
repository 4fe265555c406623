/-!
Symbols: names that have been given a number, and the table that hands the numbers out in the
order in which the names are first seen.
-/

namespace LogicCircuit

/-- The number of an interned name. -/
structure Symbol where
  index : Nat
  deriving DecidableEq, Repr

/-- The interned names in the order of their numbers, and the index in which names are looked up,
with the newest entry first. The two are inverse to each other. -/
structure SymbolTable where
  texts : List String
  index : List (String × Symbol)
  inverse : ∀ text s, index.lookup text = some s ↔ texts[s.index]? = some text
  deriving DecidableEq, Repr

namespace SymbolTable

def empty : SymbolTable :=
  ⟨[], [], by simp⟩

def size (t : SymbolTable) : Nat :=
  t.texts.length

/-- The symbol of a name, if the name is interned. -/
def find? (t : SymbolTable) (text : String) : Option Symbol :=
  t.index.lookup text

/-- The name behind a symbol, if the table has handed that symbol out. -/
def text? (t : SymbolTable) (s : Symbol) : Option String :=
  t.texts[s.index]?

/-- The name behind a symbol; one that was never handed out shows as its number in angle
brackets. -/
def display (t : SymbolTable) (s : Symbol) : String :=
  (t.text? s).getD s!"<{s.index}>"

theorem getElem?_concat_eq_some_iff {texts : List String} {new text : String} {i : Nat} :
    (texts ++ [new])[i]? = some text ↔
      texts[i]? = some text ∨ i = texts.length ∧ new = text := by
  rw [List.getElem?_append]
  split
  case isTrue inside =>
    simp [Nat.ne_of_lt inside]
  case isFalse outside =>
    rw [List.getElem?_eq_none (Nat.le_of_not_lt outside), List.getElem?_singleton]
    by_cases last : i = texts.length
    · simp [last]
    · have beyond : i - texts.length ≠ 0 := by omega
      simp [last, beyond]

/-- A name that the index does not have can go to the end of the names. -/
theorem inverse_concat {texts : List String} {index : List (String × Symbol)} {new : String}
    (inverse : ∀ text s, index.lookup text = some s ↔ texts[s.index]? = some text)
    (fresh : index.lookup new = none) (text : String) (s : Symbol) :
    ((new, ⟨texts.length⟩) :: index).lookup text = some s ↔
      (texts ++ [new])[s.index]? = some text := by
  rw [List.lookup_cons, getElem?_concat_eq_some_iff, ← inverse]
  by_cases same : text = new
  · subst same
    obtain ⟨i⟩ := s
    simp [fresh, eq_comm]
  · simp [beq_false_of_ne same, Ne.symm same]

/-- The table after a name was looked up: a new name goes to the end. -/
def add (t : SymbolTable) (text : String) : SymbolTable :=
  match fresh : t.find? text with
  | some _ => t
  | none => ⟨t.texts ++ [text], (text, ⟨t.size⟩) :: t.index, inverse_concat t.inverse fresh⟩

def addAll (t : SymbolTable) (texts : List String) : SymbolTable :=
  texts.foldl add t

/-- The symbol that a name has, or gets when it is added next. -/
def symbol (t : SymbolTable) (text : String) : Symbol :=
  (t.find? text).getD ⟨t.size⟩

/-- Looks a name up, adding it if it is new. -/
def intern (t : SymbolTable) (text : String) : Symbol × SymbolTable :=
  (t.symbol text, t.add text)

/-- Looks up each name of a list in turn. -/
def internAll (t : SymbolTable) : List String → List Symbol × SymbolTable
  | [] => ([], t)
  | text :: rest =>
    let (s, t) := t.intern text
    let (others, t) := t.internAll rest
    (s :: others, t)

/-- The table of a list of names, read in order. -/
def ofList (texts : List String) : SymbolTable :=
  empty.addAll texts

end SymbolTable

end LogicCircuit
