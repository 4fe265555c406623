import LogicCircuit.Symbol
import Mathlib.Data.List.Basic

/-!
Symbols stand for one name each, and a name keeps its symbol while the table grows.
-/

namespace LogicCircuit.SymbolTable

variable {t u : SymbolTable} {a b : String}

theorem find?_eq_some_text? {s : Symbol} : t.find? a = some s ↔ t.text? s = some a :=
  t.inverse a s

theorem isSome_find?_iff : (t.find? a).isSome ↔ a ∈ t.texts := by
  rw [Option.isSome_iff_exists, List.mem_iff_getElem?]
  constructor
  · intro h
    obtain ⟨s, found⟩ := h
    exact ⟨s.index, find?_eq_some_text?.mp found⟩
  · intro h
    obtain ⟨i, inside⟩ := h
    exact ⟨⟨i⟩, find?_eq_some_text?.mpr inside⟩

theorem find?_symbol (ha : a ∈ t.texts) : t.find? a = some (t.symbol a) := by
  obtain ⟨s, found⟩ := Option.isSome_iff_exists.mp (isSome_find?_iff.mpr ha)
  rw [symbol, found, Option.getD_some]

theorem symbol_of_not_mem (ha : a ∉ t.texts) : t.symbol a = ⟨t.size⟩ := by
  rw [symbol, Option.not_isSome_iff_eq_none.mp (mt isSome_find?_iff.mp ha), Option.getD_none]

theorem text?_symbol (ha : a ∈ t.texts) : t.text? (t.symbol a) = some a :=
  find?_eq_some_text?.mp (find?_symbol ha)

theorem find?_eq_some_iff {s : Symbol} : t.find? a = some s ↔ a ∈ t.texts ∧ s = t.symbol a := by
  constructor
  · intro h
    have known : a ∈ t.texts := isSome_find?_iff.mp (by rw [h, Option.isSome_some])
    rw [find?_symbol known] at h
    exact ⟨known, (Option.some.inj h).symm⟩
  · intro h
    obtain ⟨known, rfl⟩ := h
    exact find?_symbol known

theorem text?_eq_some_iff {s : Symbol} : t.text? s = some a ↔ a ∈ t.texts ∧ s = t.symbol a :=
  find?_eq_some_text?.symm.trans find?_eq_some_iff

theorem symbol_inj (ha : a ∈ t.texts) : t.symbol a = t.symbol b ↔ a = b := by
  refine ⟨fun same => ?_, fun same => same ▸ rfl⟩
  by_cases hb : b ∈ t.texts
  · have texts := text?_symbol ha
    rw [same, text?_symbol hb] at texts
    exact (Option.some.inj texts).symm
  · have inside := (List.getElem?_eq_some_iff.mp (text?_symbol ha)).choose
    rw [same, symbol_of_not_mem hb] at inside
    exact absurd inside (Nat.lt_irrefl _)

/-! Tables that grow. -/

theorem text?_of_prefix {s : Symbol} (grows : t.texts <+: u.texts) (h : t.text? s = some a) :
    u.text? s = some a := by
  obtain ⟨more, eq⟩ := grows
  rw [text?, ← eq, List.getElem?_append_left (List.getElem?_eq_some_iff.mp h).choose]
  exact h

theorem symbol_of_prefix (grows : t.texts <+: u.texts) (ha : a ∈ t.texts) :
    u.symbol a = t.symbol a := by
  have carried := text?_of_prefix grows (text?_symbol ha)
  exact (text?_eq_some_iff.mp carried).2.symm

theorem add_of_mem (ha : a ∈ t.texts) : t.add a = t := by
  rw [add]
  split
  · rfl
  · next fresh =>
    rw [find?_symbol ha] at fresh
    cases fresh

theorem texts_add (t : SymbolTable) (a : String) :
    (t.add a).texts = if a ∈ t.texts then t.texts else t.texts ++ [a] := by
  by_cases known : a ∈ t.texts
  · rw [add_of_mem known, if_pos known]
  · rw [if_neg known, add]
    split
    · next found =>
      exact absurd (find?_eq_some_iff.mp found).1 known
    · rfl

theorem mem_add : b ∈ (t.add a).texts ↔ b = a ∨ b ∈ t.texts := by
  rw [texts_add]
  by_cases known : a ∈ t.texts
  · rw [if_pos known]
    constructor
    · exact Or.inr
    · rintro (rfl | h)
      · exact known
      · exact h
  · rw [if_neg known, List.mem_append, List.mem_singleton, or_comm]

theorem prefix_add (t : SymbolTable) (a : String) : t.texts <+: (t.add a).texts := by
  rw [texts_add]
  split
  · exact List.prefix_rfl
  · exact List.prefix_append _ _

theorem symbol_add (hb : b ∈ t.texts) : (t.add a).symbol b = t.symbol b :=
  symbol_of_prefix (prefix_add t a) hb

/-- A name that is added gets the symbol that it was to have. -/
theorem symbol_add_self (t : SymbolTable) (a : String) : (t.add a).symbol a = t.symbol a := by
  by_cases known : a ∈ t.texts
  · rw [add_of_mem known]
  · have last : (t.add a).text? ⟨t.size⟩ = some a := by
      rw [text?, texts_add, if_neg known]
      exact List.getElem?_concat_length
    rw [symbol_of_not_mem known]
    exact (text?_eq_some_iff.mp last).2.symm

theorem addAll_cons (t : SymbolTable) (a : String) (as : List String) :
    t.addAll (a :: as) = (t.add a).addAll as := rfl

theorem addAll_append (t : SymbolTable) (as bs : List String) :
    t.addAll (as ++ bs) = (t.addAll as).addAll bs := List.foldl_append

theorem mem_addAll {as : List String} : b ∈ (t.addAll as).texts ↔ b ∈ as ∨ b ∈ t.texts := by
  induction as generalizing t with
  | nil => simp [addAll]
  | cons a as ih =>
    rw [addAll_cons, ih, mem_add, List.mem_cons]
    tauto

theorem prefix_addAll (t : SymbolTable) (as : List String) :
    t.texts <+: (t.addAll as).texts := by
  induction as generalizing t with
  | nil => exact List.prefix_rfl
  | cons a as ih => exact (prefix_add t a).trans (ih (t.add a))

theorem symbol_addAll {as : List String} (hb : b ∈ t.texts) :
    (t.addAll as).symbol b = t.symbol b :=
  symbol_of_prefix (prefix_addAll t as) hb

end LogicCircuit.SymbolTable
