import LogicCircuit.Description.Keyword
import LogicCircuit.Text.Bytes
import LogicCircuit.Text.CharClass

/-!
The search for keywords that stand alone in a text, whatever else the text holds.
-/

namespace LogicCircuit.Description

open LogicCircuit.Text

/-- The places, in bytes, at which a word is found from left to right, where `place` bytes come
before the text. The search goes on behind each match: the first `skip` characters belong to the
last one. -/
def occurrencesFrom (word : List Char) (skip place : Nat) : List Char → List Nat
  | [] => []
  | c :: rest =>
    match skip with
    | skip + 1 => occurrencesFrom word skip (place + c.utf8Size) rest
    | 0 =>
      if word.isPrefixOf (c :: rest) then
        place :: occurrencesFrom word (word.length - 1) (place + c.utf8Size) rest
      else occurrencesFrom word 0 (place + c.utf8Size) rest

def occurrences (word text : List Char) : List Nat :=
  occurrencesFrom word 0 0 text

/-- Whether a blank or an end of the text is on either side of the word at that place. There is no
answer if one of the sides is inside of a character. -/
def isAloneAt? (word text : List Char) (place : Nat) : Option Bool := do
  let (before, _) ← splitAtByte? text place
  let (_, after) ← splitAtByte? text (place + byteLength word)
  return before.getLast?.all isBlank && after.head?.all isBlank

/-- Whether the word that is found is alone at some place. -/
def occursAlone? (word text : List Char) : Option Bool :=
  (occurrences word text).anyM (isAloneAt? word text)

section

variable {word text : List Char} {skip place start : Nat}

theorem exists_of_mem_occurrencesFrom (h : place ∈ occurrencesFrom word skip start text) :
    ∃ before after, text = before ++ word ++ after ∧ place = start + byteLength before := by
  induction text generalizing skip start with
  | nil => cases h
  | cons c rest ih =>
    have later {skip : Nat} (h : place ∈ occurrencesFrom word skip (start + c.utf8Size) rest) :
        ∃ before after, c :: rest = before ++ word ++ after ∧
          place = start + byteLength before := by
      obtain ⟨before, after, rfl, eq⟩ := ih h
      exact ⟨c :: before, after, rfl, by rw [eq, byteLength_cons, Nat.add_assoc]⟩
    cases skip with
    | succ skip => exact later h
    | zero =>
      simp only [occurrencesFrom] at h
      split at h
      · next found =>
        obtain rfl | behind := List.mem_cons.mp h
        · obtain ⟨after, eq⟩ := List.isPrefixOf_iff_prefix.mp found
          exact ⟨[], after, eq.symm, rfl⟩
        · exact later behind
      · exact later h

theorem exists_of_mem_occurrences (h : place ∈ occurrences word text) :
    ∃ before after, text = before ++ word ++ after ∧ place = byteLength before := by
  obtain ⟨before, after, split, eq⟩ := exists_of_mem_occurrencesFrom h
  exact ⟨before, after, split, eq.trans (Nat.zero_add _)⟩

theorem isAloneAt?_append (before after : List Char) :
    isAloneAt? word (before ++ word ++ after) (byteLength before) =
      some (before.getLast?.all isBlank && after.head?.all isBlank) := by
  have first := splitAtByte?_append before (word ++ after)
  have second := splitAtByte?_append (before ++ word) after
  rw [← List.append_assoc] at first
  rw [byteLength_append] at second
  rw [isAloneAt?, first, second]
  rfl

theorem anyM_eq_some {f : Nat → Option Bool} {places : List Nat}
    (answers : ∀ place ∈ places, ∃ b, f place = some b) :
    places.anyM f = some (places.any fun place => f place = some true) := by
  induction places with
  | nil => rfl
  | cons place rest ih =>
    obtain ⟨first, others⟩ := List.forall_mem_cons.mp answers
    obtain ⟨b, here⟩ := first
    rw [List.anyM, List.any_cons, here, ih others]
    cases b <;> rfl

theorem occursAlone?_eq (word text : List Char) : occursAlone? word text =
    some ((occurrences word text).any fun place => isAloneAt? word text place = some true) := by
  refine anyM_eq_some fun place found => ?_
  obtain ⟨before, after, rfl, rfl⟩ := exists_of_mem_occurrences found
  exact ⟨_, isAloneAt?_append before after⟩

end

/-- The search has an answer, since a word that is found begins and ends between two characters. -/
def occursAlone (word text : List Char) : Bool :=
  (occursAlone? word text).get (by rw [occursAlone?_eq, Option.isSome_some])

/-- The keywords that stand alone nowhere in the text. -/
def missingKeywords (source : List Char) : List Keyword :=
  Keyword.all.filter fun k => !occursAlone k.text.toList source

end LogicCircuit.Description
