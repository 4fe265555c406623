import LogicCircuit.PinMap
import Mathlib.Data.List.Sort

/-!
Lookups determine a map, and what an insertion does to the pins and the lookups.
-/

namespace LogicCircuit.PinMap

open PinKey (rank)

variable {κ α β : Type} [PinKey κ]

theorem mem_entries_iff {m : PinMap κ α} {k : κ} {a : α} :
    (k, a) ∈ m.entries ↔ m.get? k = some a := by
  obtain ⟨es, ordered⟩ := m
  simp only [get?]
  induction es with
  | nil => simp
  | cons e rest ih =>
    obtain ⟨below, ordered'⟩ := List.pairwise_cons.mp ordered
    by_cases hit : rank e.1 = rank k
    · have same : e.1 = k := PinKey.rank_injective hit
      have absent : (k, a) ∉ rest := by
        intro h
        have := below _ h
        simp only [hit] at this
        omega
      rw [List.find?_cons_of_pos (by simpa using hit), List.mem_cons]
      simp only [absent, or_false, Option.map_some, Option.some.injEq]
      constructor
      · rintro rfl
        rfl
      · rintro rfl
        exact Prod.ext same.symm rfl
    · have other : (k, a) ≠ e := by
        rintro rfl
        exact hit rfl
      rw [List.find?_cons_of_neg (by simpa using hit), List.mem_cons]
      simp only [other, false_or]
      exact ih ordered'

theorem ext_get? {m n : PinMap κ α} (h : ∀ k, m.get? k = n.get? k) : m = n := by
  have members : ∀ e, e ∈ m.entries ↔ e ∈ n.entries := by
    rintro ⟨k, a⟩
    rw [mem_entries_iff, mem_entries_iff, h]
  have distinct (l : PinMap κ α) : l.entries.Nodup :=
    l.sorted.imp fun lt eq => by simp [eq] at lt
  have perm : m.entries.Perm n.entries :=
    (List.perm_ext_iff_of_nodup (distinct m) (distinct n)).mpr members
  have entries : m.entries = n.entries :=
    perm.eq_of_pairwise (fun a b _ _ lt gt => absurd lt (Nat.lt_asymm gt)) m.sorted n.sorted
  cases m
  cases n
  cases entries
  rfl

theorem mem_keys_iff {m : PinMap κ α} {k : κ} : k ∈ m.keys ↔ (m.get? k).isSome := by
  rw [keys, List.mem_map, Option.isSome_iff_exists]
  constructor
  · rintro ⟨⟨_, a⟩, h, rfl⟩
    exact ⟨a, mem_entries_iff.mp h⟩
  · rintro ⟨a, h⟩
    exact ⟨(k, a), mem_entries_iff.mpr h, rfl⟩

theorem contains_iff {m : PinMap κ α} {k : κ} : m.contains k = true ↔ k ∈ m.keys := by
  rw [mem_keys_iff, contains]

theorem get?_insert (m : PinMap κ α) (k l : κ) (a : α) [Decidable (l = k)] :
    (m.insert k a).get? l = if l = k then some a else m.get? l := by
  split
  · next same => rw [same, get?_insert_self]
  · next other => exact get?_insert_of_ne m a other

theorem keys_sorted (m : PinMap κ α) : m.keys.Pairwise fun k l => rank k < rank l :=
  List.pairwise_map.mpr m.sorted

theorem keys_nodup (m : PinMap κ α) : m.keys.Nodup :=
  m.keys_sorted.imp fun lt eq => by simp [eq] at lt

/-- The pins of a map come in one order only. -/
theorem keys_ext {m : PinMap κ α} {n : PinMap κ β} (h : ∀ k, k ∈ m.keys ↔ k ∈ n.keys) :
    m.keys = n.keys :=
  ((List.perm_ext_iff_of_nodup m.keys_nodup n.keys_nodup).mpr h).eq_of_pairwise
    (fun _ _ _ _ lt gt => absurd lt (Nat.lt_asymm gt)) m.keys_sorted n.keys_sorted

theorem mem_keys_insert [DecidableEq κ] {m : PinMap κ α} {k l : κ} {a : α} :
    l ∈ (m.insert k a).keys ↔ l = k ∨ l ∈ m.keys := by
  rw [mem_keys_iff, mem_keys_iff, get?_insert]
  by_cases same : l = k <;> simp [same]

theorem mem_keys_single [DecidableEq κ] {k l : κ} {a : α} :
    l ∈ ((empty : PinMap κ α).insert k a).keys ↔ l = k := by
  rw [mem_keys_insert]
  simp [mem_keys_iff]

theorem keys_insert_of_mem [DecidableEq κ] {m : PinMap κ α} {k : κ} (a : α) (h : k ∈ m.keys) :
    (m.insert k a).keys = m.keys := by
  refine keys_ext fun l => ?_
  rw [mem_keys_insert]
  constructor
  · rintro (rfl | h')
    · exact h
    · exact h'
  · exact Or.inr

theorem insert_insert [DecidableEq κ] (m : PinMap κ α) (k : κ) (a b : α) :
    (m.insert k a).insert k b = m.insert k b := by
  refine ext_get? fun l => ?_
  simp only [get?_insert]
  by_cases same : l = k <;> simp [same]

theorem insert_comm [DecidableEq κ] (m : PinMap κ α) {k l : κ} (other : k ≠ l) (a b : α) :
    (m.insert k a).insert l b = (m.insert l b).insert k a := by
  refine ext_get? fun i => ?_
  simp only [get?_insert]
  by_cases first : i = k
  · simp [first, other]
  · simp [first]

/-- Of two insertions that are made twice, only the second time counts. -/
theorem insert_twice [DecidableEq κ] (m : PinMap κ α) (k l : κ) (a b a' b' : α) :
    (((m.insert k a).insert l b).insert k a').insert l b' = (m.insert k a').insert l b' := by
  refine ext_get? fun i => ?_
  simp only [get?_insert]
  by_cases second : i = l <;> by_cases first : i = k <;> simp [first, second]

theorem get?_replicate [DecidableEq κ] (pins : List κ) (a : α) (k : κ) :
    (replicate pins a).get? k = if k ∈ pins then some a else none := by
  have general (m : PinMap κ α) : (pins.foldl (fun m k => m.insert k a) m).get? k =
      if k ∈ pins then some a else m.get? k := by
    induction pins generalizing m with
    | nil => simp
    | cons p rest ih =>
      rw [List.foldl_cons, ih, get?_insert]
      by_cases first : k = p
      · simp [first]
      · simp [first]
  simpa [replicate] using general empty

theorem mem_keys_replicate [DecidableEq κ] {pins : List κ} {a : α} {k : κ} :
    k ∈ (replicate pins a).keys ↔ k ∈ pins := by
  rw [mem_keys_iff, get?_replicate]
  by_cases h : k ∈ pins <;> simp [h]

end LogicCircuit.PinMap
