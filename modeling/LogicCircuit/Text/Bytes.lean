/-!
Texts that are cut in two at a place which is counted in bytes.
-/

namespace LogicCircuit.Text

/-- The bytes of a text in UTF-8. -/
def byteLength : List Char → Nat
  | [] => 0
  | c :: rest => c.utf8Size + byteLength rest

/-- The parts of a text before and behind a place. There are none if the place is inside of a
character or behind the end. -/
def splitAtByte? : List Char → Nat → Option (List Char × List Char)
  | text, 0 => some ([], text)
  | [], _ + 1 => none
  | c :: rest, place + 1 =>
    if c.utf8Size ≤ place + 1 then
      (splitAtByte? rest (place + 1 - c.utf8Size)).map fun parts => (c :: parts.1, parts.2)
    else none

theorem byteLength_cons (c : Char) (text : List Char) :
    byteLength (c :: text) = c.utf8Size + byteLength text := rfl

theorem byteLength_append (text more : List Char) :
    byteLength (text ++ more) = byteLength text + byteLength more := by
  induction text with
  | nil => exact (Nat.zero_add _).symm
  | cons c rest ih => rw [List.cons_append, byteLength_cons, byteLength_cons, ih, Nat.add_assoc]

theorem splitAtByte?_zero (text : List Char) : splitAtByte? text 0 = some ([], text) := by
  cases text <;> rfl

theorem splitAtByte?_append (before after : List Char) :
    splitAtByte? (before ++ after) (byteLength before) = some (before, after) := by
  induction before with
  | nil => exact splitAtByte?_zero after
  | cons c rest ih =>
    obtain ⟨place, size⟩ : ∃ place, byteLength (c :: rest) = place + 1 :=
      Nat.exists_eq_add_one.mpr (Nat.lt_of_lt_of_le c.utf8Size_pos (Nat.le_add_right _ _))
    have fits : c.utf8Size ≤ place + 1 := size ▸ Nat.le_add_right _ _
    have left : place + 1 - c.utf8Size = byteLength rest := by
      rw [← size, byteLength_cons, Nat.add_sub_cancel_left]
    rw [size, List.cons_append, splitAtByte?, if_pos fits, left, ih]
    rfl

end LogicCircuit.Text
