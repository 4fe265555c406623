import LogicCircuit.Text.Alphabetic
import LogicCircuit.Text.Numeric

/-!
The character classes that a circuit description is read by: blanks, letters, digits and what
may continue a name. ASCII is decided without a look at the tables.
-/

namespace LogicCircuit.Text

/-- Whether some range of the list holds the character. -/
def inRanges (ranges : List (Nat × Nat)) (c : Char) : Bool :=
  ranges.any fun range => range.1 ≤ c.toNat && c.toNat ≤ range.2

/-- The Unicode property White_Space. -/
def isBlank (c : Char) : Bool :=
  if c.toNat < 128 then c.toNat == 32 || (9 ≤ c.toNat && c.toNat ≤ 13)
  else inRanges [(0x85, 0x85), (0xa0, 0xa0), (0x1680, 0x1680), (0x2000, 0x200a),
    (0x2028, 0x2029), (0x202f, 0x202f), (0x205f, 0x205f), (0x3000, 0x3000)] c

/-- The Unicode property Alphabetic. -/
def isAlphabetic (c : Char) : Bool :=
  if c.toNat < 128 then c.isAlpha else inRanges alphabeticRanges c

/-- The digits that a number is written with: ASCII only. -/
def isDigit (c : Char) : Bool :=
  c.isDigit

/-- Alphabetic characters and numbers of every script. -/
def isAlphanumeric (c : Char) : Bool :=
  if c.toNat < 128 then c.isAlphanum
  else inRanges alphabeticRanges c || inRanges numericRanges c

theorem isAlphanumeric_of_isAlphabetic {c : Char} (h : isAlphabetic c = true) :
    isAlphanumeric c = true := by
  unfold isAlphabetic at h
  unfold isAlphanumeric
  by_cases ascii : c.toNat < 128
  · simp only [ascii, if_true] at h ⊢
    simp [Char.isAlphanum, h]
  · simp only [ascii, if_false] at h ⊢
    simp [h]

end LogicCircuit.Text
