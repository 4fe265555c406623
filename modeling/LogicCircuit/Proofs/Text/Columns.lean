import LogicCircuit.Proofs.Text.Place
import Mathlib.Data.List.DropRight
import Mathlib.Data.String.Basic

/-!
Reading a text back that was written in lines and columns: the lines are those that were written,
a line is cut where a mark first stands, and a column loses what it was padded with.
-/

namespace LogicCircuit.Text

variable {text line mark before after : List Char}

/-- The text before the first place where the mark stands, and the text behind it. -/
def cutAt? (mark : List Char) : List Char → Option (List Char × List Char)
  | [] => none
  | c :: rest =>
    if mark.isPrefixOf (c :: rest) then some ([], (c :: rest).drop mark.length)
    else (cutAt? mark rest).map fun parts => (c :: parts.1, parts.2)

theorem cutAt?_append (visible : mark ≠ [])
    (first : ∀ b a, before ++ (mark ++ after) = b ++ (mark ++ a) → before.length ≤ b.length) :
    cutAt? mark (before ++ (mark ++ after)) = some (before, after) := by
  induction before with
  | nil =>
    obtain ⟨c, rest, rfl⟩ := List.exists_cons_of_ne_nil visible
    have starts : (c :: rest).isPrefixOf (c :: (rest ++ after)) = true :=
      List.isPrefixOf_iff_prefix.mpr (List.prefix_append (c :: rest) after)
    rw [List.nil_append, List.cons_append, cutAt?, if_pos starts, ← List.cons_append,
      List.drop_left]
  | cons c before ih =>
    have later : ¬ mark.isPrefixOf (c :: (before ++ (mark ++ after))) = true := by
      intro starts
      obtain ⟨a, eq⟩ := List.isPrefixOf_iff_prefix.mp starts
      exact absurd (first [] a eq.symm) (by simp)
    rw [List.cons_append, cutAt?, if_neg later, ih, Option.map_some]
    intro b a eq
    exact Nat.le_of_succ_le_succ (first (c :: b) a (congrArg (c :: ·) eq))

/-- The text without the blanks at its two ends. -/
def trimmed (text : List Char) : List Char :=
  (text.dropWhile isBlank).rdropWhile isBlank

theorem trimmed_padded (solid : ∀ c ∈ text, isBlank c = false) (k : ℕ) :
    trimmed (text ++ List.replicate k ' ') = text := by
  have blanks : ∀ c ∈ List.replicate k ' ', isBlank c = true := by
    intro c member
    rw [List.eq_of_mem_replicate member]
    rfl
  have keeps {l : List Char} (same : ∀ c ∈ l, isBlank c = false) : l.dropWhile isBlank = l := by
    rw [List.dropWhile_eq_self_iff]
    intro some
    simp [same l[0] (List.getElem_mem some)]
  have front : (text ++ List.replicate k ' ').dropWhile isBlank = text ++ List.replicate k ' ' ∨
      text = [] := by
    cases text with
    | nil => exact .inr rfl
    | cons c rest => exact .inl (List.dropWhile_cons_of_neg (by simp [solid c]))
  rw [trimmed]
  obtain same | rfl := front
  · rw [same, List.rdropWhile, List.reverse_append, List.reverse_replicate,
      List.dropWhile_append_of_pos blanks,
      keeps fun c member => solid c (List.mem_reverse.mp member), List.reverse_reverse]
  · rw [List.nil_append, List.dropWhile_eq_nil_iff.mpr blanks]
    rfl

theorem lines_append_newline (newline : '\n' ∉ line) (carriage : '\r' ∉ line)
    (rest : List Char) : lines (line ++ '\n' :: rest) = line :: lines rest := by
  induction line with
  | nil => rw [List.nil_append, lines]
  | cons c line ih =>
    rw [List.mem_cons, not_or] at newline carriage
    obtain ⟨first, others, split, same | ⟨none, -, -⟩⟩ :=
      @lines_cons c (line ++ '\n' :: rest) (Ne.symm newline.1)
        fun eq => absurd eq.symm carriage.1
    all_goals
      rw [ih newline.2 carriage.2] at *
    · obtain ⟨rfl, rfl⟩ := List.cons.inj same
      exact split
    · cases none

/-- Lines that are written one after the other are read back. -/
theorem lines_flatMap {rows : List (List Char)}
    (rules : ∀ row ∈ rows, '\n' ∉ row ∧ '\r' ∉ row) :
    lines (rows.flatMap fun row => row ++ ['\n']) = rows := by
  induction rows with
  | nil => rfl
  | cons row rows ih =>
    obtain ⟨newline, carriage⟩ := rules row List.mem_cons_self
    rw [List.flatMap_cons, List.append_assoc, List.singleton_append,
      lines_append_newline newline carriage, ih fun r hr => rules r (List.mem_cons_of_mem row hr)]

/-- No text has more characters than bytes. -/
theorem length_le_utf8ByteSize (text : String) : text.length ≤ text.utf8ByteSize := by
  rw [← String.ofList_toList (s := text), String.utf8ByteSize_ofList, String.length_ofList]
  induction text.toList with
  | nil => exact Nat.le_refl 0
  | cons c rest ih => exact Nat.add_le_add ih c.utf8Size_pos

end LogicCircuit.Text
