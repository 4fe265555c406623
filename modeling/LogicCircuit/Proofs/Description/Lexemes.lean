import LogicCircuit.Description.MonitorEntry
import Mathlib.Data.List.Basic

/-!
What a text is seen to hold before it is read: its tokens, whose names consist of letters and
digits.
-/

namespace LogicCircuit.Description

open LogicCircuit.Text (isAlphabetic isAlphanumeric isDigit)

/-- The tokens of a text up to its end or its first lexical fault. -/
def lexemes (source : String) : List Token :=
  (Cursor.ofSource source.toList).tokens.tokens.map Located.value

namespace Cursor

variable {c c' : Cursor} {t : Located Token} {text : String}

theorem sign_ne_name (h : c.sign = (.ok t, c')) : t.value ≠ .name text := by
  rw [sign] at h
  split at h
  all_goals
    simp only [Prod.mk.injEq, Except.ok.injEq, reduceCtorEq, false_and] at h
  all_goals
    obtain ⟨rfl, -⟩ := h
    simp

theorem number_ne_name (h : c.number = (.ok t, c')) : t.value ≠ .name text := by
  simp only [number, Prod.mk.injEq] at h
  obtain ⟨h, -⟩ := h
  split at h
  · cases h
    simp
  · cases h

theorem word_name (h : c.word = (.ok t, c')) (name : t.value = .name text) :
    ∀ x ∈ text.toList, isAlphanumeric x = true := by
  simp only [word, Prod.mk.injEq, Except.ok.injEq] at h
  obtain ⟨rfl, -⟩ := h
  simp only [Token.ofWord] at name
  split at name
  · cases name
  · obtain rfl := Token.name.inj name
    intro x hx
    rw [String.toList_ofList] at hx
    exact List.all_eq_true.mp List.all_takeWhile x hx

theorem next_name (h : c.next = (.ok t, c')) (name : t.value = .name text) :
    ∀ x ∈ text.toList, isAlphanumeric x = true := by
  simp only [next] at h
  by_cases alphabetic : c.skipGap.rest.head?.any isAlphabetic = true
  · rw [if_pos alphabetic] at h
    exact word_name h name
  · rw [if_neg alphabetic] at h
    by_cases digit : c.skipGap.rest.head?.any isDigit = true
    · rw [if_pos digit] at h
      exact absurd name (number_ne_name h)
    · rw [if_neg digit] at h
      exact absurd name (sign_ne_name h)

theorem mem_tokens (h : t ∈ c.tokens.tokens) : t.value ≠ .ending ∧
    ∀ text, t.value = .name text → ∀ x ∈ text.toList, isAlphanumeric x = true := by
  fun_induction tokens c with
  | case1 => cases h
  | case2 => cases h
  | case3 c u c' eq proper others ih =>
    rcases List.mem_cons.mp h with rfl | later
    · exact ⟨proper, fun text name => next_name eq name⟩
    · exact ih later

end Cursor

/-- The name of the low source is none that a text can hold. -/
theorem ne_groundName {t : Located Token} {c : Cursor} (h : t ∈ c.tokens.tokens) {text : String}
    (name : t.value = .name text) : text ≠ groundName := by
  intro eq
  have sign : isAlphanumeric '#' = true :=
    (Cursor.mem_tokens h).2 text name '#' (eq ▸ by decide +kernel)
  revert sign
  decide +kernel

end LogicCircuit.Description
