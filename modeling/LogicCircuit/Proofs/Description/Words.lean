import LogicCircuit.Description.Words
import Mathlib.Data.List.Basic
import Mathlib.Data.String.Basic

/-!
The words of a text, which are its longest stretches without blanks. The search for a keyword passes
over what overlaps with an earlier match, and yet it finds the keyword alone if and only if that is
one of the words.
-/

namespace LogicCircuit.Description

open LogicCircuit.Text

variable {word text before after : List Char} {skip start : ℕ}

/-- The word stands somewhere with a blank or an end of the text on either side. -/
def StandsAlone (word text : List Char) : Prop :=
  ∃ before after, text = before ++ word ++ after ∧
    before.getLast?.all isBlank = true ∧ after.head?.all isBlank = true

/-- There is no blank in the word. -/
def Unbroken (word : List Char) : Prop :=
  ∀ c ∈ word, isBlank c = false

instance (word : List Char) : Decidable (Unbroken word) :=
  List.decidableBAll (fun c => isBlank c = false) word

/-- The words of a text in their order. -/
def words (text : List Char) : List (List Char) :=
  (text.splitOnP isBlank).filter fun piece => piece ≠ []

theorem unbroken_or_exists_blank (text : List Char) : Unbroken text ∨
    ∃ head c rest, text = head ++ c :: rest ∧ Unbroken head ∧ isBlank c = true := by
  induction text with
  | nil => exact .inl fun c hc => absurd hc List.not_mem_nil
  | cons c rest ih =>
    cases here : isBlank c with
    | true => exact .inr ⟨[], c, rest, rfl, fun c hc => absurd hc List.not_mem_nil, here⟩
    | false =>
      obtain whole | ⟨head, d, more, rfl, unbroken, blank⟩ := ih
      · exact .inl (List.forall_mem_cons.mpr ⟨here, whole⟩)
      · exact .inr ⟨c :: head, d, more, rfl, List.forall_mem_cons.mpr ⟨here, unbroken⟩, blank⟩

theorem StandsAlone.behind {c : Char} (h : StandsAlone word text) (blank : isBlank c = true)
    (head : List Char) : StandsAlone word (head ++ c :: text) := by
  obtain ⟨before, after, rfl, first, last⟩ := h
  refine ⟨head ++ c :: before, after, by simp, ?_, last⟩
  rw [List.getLast?_append, List.getLast?_cons]
  cases ends : before.getLast? with
  | none => exact blank
  | some b =>
    rw [ends] at first
    exact first

theorem standsAlone_of_mem_splitOnP (h : word ∈ text.splitOnP isBlank) :
    Unbroken word ∧ StandsAlone word text := by
  induction size : text.length using Nat.strong_induction_on generalizing text with
  | h n ih =>
    obtain whole | ⟨head, c, rest, rfl, unbroken, blank⟩ := unbroken_or_exists_blank text
    · rw [List.splitOnP_eq_singleton whole, List.mem_singleton] at h
      subst h
      exact ⟨whole, [], [], by simp, rfl, rfl⟩
    · rw [List.splitOnP_append_cons_of_forall_mem unbroken c blank] at h
      obtain rfl | later := List.mem_cons.mp h
      · exact ⟨unbroken, [], c :: rest, rfl, rfl, blank⟩
      · obtain ⟨unbroken, alone⟩ := ih rest.length (by rw [← size]; simp; omega) later rfl
        exact ⟨unbroken, alone.behind blank head⟩

theorem mem_splitOnP_of_standsAlone (unbroken : Unbroken word) (h : StandsAlone word text) :
    word ∈ text.splitOnP isBlank := by
  obtain ⟨before, after, rfl, first, last⟩ := h
  have starts : word ∈ (word ++ after).splitOnP isBlank := by
    cases after with
    | nil => rw [List.append_nil, List.splitOnP_eq_singleton unbroken, List.mem_singleton]
    | cons c after =>
      rw [List.splitOnP_append_cons_of_forall_mem unbroken c last]
      exact List.mem_cons_self
  obtain rfl | ⟨front, c, rfl⟩ := List.eq_nil_or_concat' before
  · exact starts
  · have blank : isBlank c = true := by rwa [List.getLast?_concat] at first
    rw [List.append_assoc, List.append_assoc, List.singleton_append,
      List.splitOnP_append_cons _ _ blank]
    exact List.mem_append_right _ starts

/-- A word is without blanks, and it goes on neither before nor behind. -/
theorem mem_words_iff :
    word ∈ words text ↔ word ≠ [] ∧ Unbroken word ∧ StandsAlone word text := by
  rw [words, List.mem_filter, decide_eq_true_iff, and_comm]
  exact and_congr_right fun _ =>
    ⟨standsAlone_of_mem_splitOnP, fun h => mem_splitOnP_of_standsAlone h.1 h.2⟩

/-! The search. -/

/-- No match that begins before a word can overlap with it, since the blank before the word would
lie within the match. -/
theorem length_le_of_prefix (unbroken : Unbroken word) (bound : before.getLast?.all isBlank = true)
    (found : word <+: before ++ text) (some : before ≠ []) : word.length ≤ before.length := by
  by_contra overlaps
  have within : before <+: word :=
    List.prefix_of_prefix_length_le (List.prefix_append _ _) found (by omega)
  have blank : isBlank (before.getLast some) = true := by
    rwa [List.getLast?_eq_some_getLast some] at bound
  rw [unbroken _ (within.subset (List.getLast_mem some))] at blank
  cases blank

theorem mem_occurrencesFrom (proper : word ≠ []) (unbroken : Unbroken word)
    (bound : before.getLast?.all isBlank = true) (room : skip ≤ before.length) :
    start + byteLength before ∈ occurrencesFrom word skip start (before ++ word ++ after) := by
  induction before generalizing skip start with
  | nil =>
    obtain rfl : skip = 0 := Nat.le_zero.mp room
    obtain ⟨c, rest, rfl⟩ := List.exists_cons_of_ne_nil proper
    have found : (c :: rest).isPrefixOf (c :: (rest ++ after)) = true :=
      List.isPrefixOf_iff_prefix.mpr (List.prefix_append (c :: rest) after)
    simp only [List.nil_append, List.cons_append, occurrencesFrom, if_pos found]
    exact List.mem_cons_self
  | cons b before ih =>
    have bound' : before.getLast?.all isBlank = true := by
      cases before with
      | nil => rfl
      | cons c before => rwa [List.getLast?_cons_cons] at bound
    have later {skip : ℕ} (room : skip ≤ before.length) : start + byteLength (b :: before) ∈
        occurrencesFrom word skip (start + b.utf8Size) (before ++ word ++ after) := by
      rw [byteLength_cons, ← Nat.add_assoc]
      exact ih bound' room
    cases skip with
    | succ skip => exact later (Nat.le_of_succ_le_succ room)
    | zero =>
      simp only [List.cons_append, occurrencesFrom]
      split
      · next found =>
        have inside := List.isPrefixOf_iff_prefix.mp found
        rw [List.append_assoc, ← List.cons_append] at inside
        have fits := length_le_of_prefix unbroken bound inside (List.cons_ne_nil b before)
        exact List.mem_cons_of_mem _ (later (Nat.sub_le_of_le_add fits))
      · exact later (Nat.zero_le _)

theorem occursAlone_iff (proper : word ≠ []) (unbroken : Unbroken word) :
    occursAlone word text = true ↔ StandsAlone word text := by
  simp only [occursAlone, occursAlone?_eq, Option.get_some, List.any_eq_true, decide_eq_true_iff]
  constructor
  · intro h
    obtain ⟨place, found, alone⟩ := h
    obtain ⟨before, after, rfl, rfl⟩ := exists_of_mem_occurrences found
    rw [isAloneAt?_append, Option.some.injEq, Bool.and_eq_true] at alone
    exact ⟨before, after, rfl, alone⟩
  · intro h
    obtain ⟨before, after, rfl, bounds⟩ := h
    have found : 0 + byteLength before ∈ occurrencesFrom word 0 0 (before ++ word ++ after) :=
      mem_occurrencesFrom proper unbroken bounds.1 (Nat.zero_le _)
    rw [Nat.zero_add] at found
    refine ⟨byteLength before, found, ?_⟩
    rw [isAloneAt?_append, bounds.1, bounds.2]
    rfl

theorem Keyword.unbroken_text (k : Keyword) : k.text.toList ≠ [] ∧ Unbroken k.text.toList := by
  cases k <;> decide +kernel

theorem Keyword.occursAlone_iff (k : Keyword) :
    occursAlone k.text.toList text = true ↔ StandsAlone k.text.toList text :=
  Description.occursAlone_iff k.unbroken_text.1 k.unbroken_text.2

theorem missingKeywords_eq_nil_iff {source : List Char} : missingKeywords source = [] ↔
    ∀ k ∈ Keyword.all, StandsAlone k.text.toList source := by
  simp only [missingKeywords, List.filter_eq_nil_iff, ← Keyword.occursAlone_iff,
    Bool.not_eq_true', Bool.not_eq_false]

/-! Places in a text. -/

theorem utf8ByteSize_eq_byteLength (text : List Char) :
    (String.ofList text).utf8ByteSize = byteLength text := by
  rw [String.utf8ByteSize_ofList]
  induction text with
  | nil => rfl
  | cons c rest ih => rw [String.utf8Len, ih, byteLength_cons, Nat.add_comm]

/-- Behind a part of a text that it begins with, there is no character that is cut. -/
theorem isValid_of_split {source : String} (split : source.toList = before ++ after) :
    String.Pos.Raw.IsValid source ⟨byteLength before⟩ := by
  refine String.Pos.Raw.isValid_iff_exists_append.mpr
    ⟨String.ofList before, String.ofList after, ?_, ?_⟩
  · rw [← String.ofList_append, ← split, String.ofList_toList]
  · rw [String.Pos.Raw.ext_iff, String.byteIdx_rawEndPos, utf8ByteSize_eq_byteLength]

/-- The keywords that are missing are those that are none of the words; and the search for them cuts
the text only between two characters. -/
theorem missingKeywords_eq_filter (source : String) :
    missingKeywords source.toList = [Keyword.devices, .connect, .monitor, .finish].filter
      (fun k => k.text.toList ∉ words source.toList) ∧
    ∀ k : Keyword, (occursAlone? k.text.toList source.toList).isSome ∧
      ∀ place ∈ occurrences k.text.toList source.toList,
        String.Pos.Raw.IsValid source ⟨place⟩ ∧
        String.Pos.Raw.IsValid source ⟨place + byteLength k.text.toList⟩ := by
  refine ⟨List.filter_congr fun k _ => ?_, fun k => ⟨?_, fun place found => ?_⟩⟩
  · have same : occursAlone k.text.toList source.toList = true ↔
        k.text.toList ∈ words source.toList := by
      rw [k.occursAlone_iff, mem_words_iff, and_iff_right k.unbroken_text.1,
        and_iff_right k.unbroken_text.2]
    rw [decide_not, Bool.eq_iff_iff.mpr (same.trans decide_eq_true_iff.symm)]
  · rw [occursAlone?_eq, Option.isSome_some]
  · obtain ⟨before, after, split, rfl⟩ := exists_of_mem_occurrences found
    rw [← byteLength_append]
    exact ⟨isValid_of_split (split.trans (List.append_assoc _ _ _)), isValid_of_split split⟩

end LogicCircuit.Description
