import LogicCircuit.Symbol

/-!
Finite maps from pins to values, kept in increasing order of the pins. An unnamed pin comes
before every named one.
-/

namespace LogicCircuit

/-- Keys that are told apart and ordered by a number. -/
class PinKey (κ : Type) where
  rank : κ → Nat
  rank_injective : ∀ {a b : κ}, rank a = rank b → a = b

instance : PinKey Symbol where
  rank := Symbol.index
  rank_injective := by
    intro a b h
    cases a
    cases b
    exact congrArg Symbol.mk h

instance : PinKey (Option Symbol) where
  rank
    | none => 0
    | some s => s.index + 1
  rank_injective := by
    intro a b h
    match a, b with
    | none, none => rfl
    | some ⟨i⟩, some ⟨j⟩ =>
      have eq : i = j := Nat.succ.inj h
      exact congrArg (fun n => some (Symbol.mk n)) eq

/-- Entries in increasing order of their keys, so that maps with the same entries are equal. -/
structure PinMap (κ α : Type) [PinKey κ] where
  entries : List (κ × α)
  sorted : entries.Pairwise fun e f => PinKey.rank e.1 < PinKey.rank f.1

namespace PinMap

variable {κ α : Type} [PinKey κ]

open PinKey (rank)

instance [DecidableEq κ] [DecidableEq α] : DecidableEq (PinMap κ α) := fun m n =>
  if h : m.entries = n.entries then
    isTrue (by cases m; cases n; cases h; rfl)
  else
    isFalse fun eq => h (congrArg entries eq)

def empty : PinMap κ α := ⟨[], List.Pairwise.nil⟩

def keys (m : PinMap κ α) : List κ :=
  m.entries.map Prod.fst

def get? (m : PinMap κ α) (k : κ) : Option α :=
  (m.entries.find? fun e => rank e.1 == rank k).map Prod.snd

def contains (m : PinMap κ α) (k : κ) : Bool :=
  (m.get? k).isSome

/-- Puts an entry in its place in a sorted list, in the stead of one with the same key. -/
def insertEntry (k : κ) (a : α) : List (κ × α) → List (κ × α)
  | [] => [(k, a)]
  | e :: rest =>
    if rank k < rank e.1 then (k, a) :: e :: rest
    else if rank k = rank e.1 then (k, a) :: rest
    else e :: insertEntry k a rest

theorem mem_insertEntry {k : κ} {a : α} {f : κ × α} {es : List (κ × α)}
    (h : f ∈ insertEntry k a es) : f = (k, a) ∨ f ∈ es := by
  induction es with
  | nil => exact Or.inl (by simpa [insertEntry] using h)
  | cons e rest ih =>
    simp only [insertEntry] at h
    split at h
    · simpa using h
    · split at h
      · rcases List.mem_cons.mp h with h | h
        · exact Or.inl h
        · exact Or.inr (List.mem_cons_of_mem _ h)
      · rcases List.mem_cons.mp h with h | h
        · exact Or.inr (h ▸ List.mem_cons_self)
        · exact (ih h).imp id (List.mem_cons_of_mem _)

theorem sorted_insertEntry (k : κ) (a : α) {es : List (κ × α)}
    (h : es.Pairwise fun e f => rank e.1 < rank f.1) :
    (insertEntry k a es).Pairwise fun e f => rank e.1 < rank f.1 := by
  induction es with
  | nil => exact List.pairwise_singleton _ _
  | cons e rest ih =>
    obtain ⟨below, ordered⟩ := List.pairwise_cons.mp h
    simp only [insertEntry]
    split
    case isTrue lt =>
      refine List.pairwise_cons.mpr ⟨fun f hf => ?_, h⟩
      rcases List.mem_cons.mp hf with rfl | hf
      · exact lt
      · exact Nat.lt_trans lt (below f hf)
    case isFalse notLt =>
      split
      case isTrue eq =>
        exact List.pairwise_cons.mpr ⟨fun f hf => eq ▸ below f hf, ordered⟩
      case isFalse ne =>
        refine List.pairwise_cons.mpr ⟨fun f hf => ?_, ih ordered⟩
        rcases mem_insertEntry hf with rfl | hf
        · exact Nat.lt_of_le_of_ne (Nat.le_of_not_lt notLt) (Ne.symm ne)
        · exact below f hf

def insert (m : PinMap κ α) (k : κ) (a : α) : PinMap κ α :=
  ⟨insertEntry k a m.entries, sorted_insertEntry k a m.sorted⟩

def erase (m : PinMap κ α) (k : κ) : PinMap κ α :=
  ⟨m.entries.filter fun e => rank e.1 != rank k, m.sorted.filter _⟩

/-- The map that sends each pin of a list to one value. -/
def replicate (pins : List κ) (a : α) : PinMap κ α :=
  pins.foldl (fun m k => m.insert k a) empty

@[simp] theorem get?_empty (k : κ) : (empty : PinMap κ α).get? k = none := rfl

theorem get?_insert_self (m : PinMap κ α) (k : κ) (a : α) : (m.insert k a).get? k = some a := by
  obtain ⟨es, ordered⟩ := m
  simp only [get?, insert]
  induction es with
  | nil => simp [insertEntry]
  | cons e rest ih =>
    simp only [insertEntry]
    split
    · simp
    · split
      · simp
      case isFalse ne =>
        rw [List.find?_cons_of_neg (by simpa using Ne.symm ne)]
        exact ih ordered.of_cons

theorem get?_insert_of_ne (m : PinMap κ α) {k l : κ} (a : α) (h : l ≠ k) :
    (m.insert k a).get? l = m.get? l := by
  have apart : ¬ rank k = rank l := fun eq => h (PinKey.rank_injective eq).symm
  obtain ⟨es, ordered⟩ := m
  simp only [get?, insert]
  induction es with
  | nil => simp [insertEntry, apart]
  | cons e rest ih =>
    simp only [insertEntry]
    split
    · rw [List.find?_cons_of_neg (by simpa using apart)]
    · split
      case isTrue eq =>
        have apart' : ¬ rank e.1 = rank l := eq ▸ apart
        rw [List.find?_cons_of_neg (by simpa using apart),
          List.find?_cons_of_neg (by simpa using apart')]
      case isFalse =>
        by_cases hit : rank e.1 = rank l
        · rw [List.find?_cons_of_pos (by simpa using hit),
            List.find?_cons_of_pos (by simpa using hit)]
        · rw [List.find?_cons_of_neg (by simpa using hit),
            List.find?_cons_of_neg (by simpa using hit)]
          exact ih ordered.of_cons

end PinMap

end LogicCircuit
