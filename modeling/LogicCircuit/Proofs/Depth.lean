import Mathlib.Data.List.Perm.Subperm
import Mathlib.Logic.Relation
import Mathlib.Order.Lattice.Nat

/-!
Paths along a relation without cycles whose places stand in some order: how many backward edges
the paths that end at a place have at most.
-/

namespace LogicCircuit

/-- No place is reached from itself. -/
def Acyclic {α : Type} (R : α → α → Prop) : Prop :=
  ∀ a, ¬ Relation.TransGen R a a

/-- How many edges of a path end at a place that does not come later than their start. -/
def backward {α : Type} (pos : α → Nat) : List α → Nat
  | u :: w :: rest => (if pos w ≤ pos u then 1 else 0) + backward pos (w :: rest)
  | _ => 0

/-- The counts of backward edges on all paths. -/
def backwardCounts {α : Type} (R : α → α → Prop) (pos : α → Nat) : Set Nat :=
  {count | ∃ path : List α, path.IsChain R ∧ backward pos path = count}

/-- The most backward edges on a path to a place. -/
noncomputable def depth {α : Type} (R : α → α → Prop) (pos : α → Nat) (a : α) : Nat :=
  sSup {count | ∃ before : List α, (before ++ [a]).IsChain R ∧
    backward pos (before ++ [a]) = count}

variable {α : Type} {R : α → α → Prop} {pos : α → Nat} {path nodes : List α} {u w : α} {b : Nat}

theorem acyclic_of_lt (height : α → Nat) (h : ∀ u w, R u w → height u < height w) :
    Acyclic R := by
  have up (u w : α) (path : Relation.TransGen R u w) : height u < height w := by
    induction path with
    | single edge => exact h _ _ edge
    | tail _ edge ih => exact ih.trans (h _ _ edge)
  intro a cycle
  exact lt_irrefl _ (up a a cycle)

theorem nodup_of_isChain (acyclic : Acyclic R) (chain : path.IsChain R) : path.Nodup := by
  have far : path.Pairwise (Relation.TransGen R) :=
    (chain.imp fun _ _ edge => Relation.TransGen.single edge).pairwise
  refine far.imp ?_
  intro u w reach eq
  exact acyclic u (eq ▸ reach)

theorem length_le_of_isChain (acyclic : Acyclic R) (ends : ∀ u w, R u w → w ∈ nodes)
    (chain : path.IsChain R) : path.length ≤ nodes.length + 1 := by
  cases path with
  | nil => simp
  | cons a rest =>
    have nodup := (List.nodup_cons.mp (nodup_of_isChain acyclic chain)).2
    have inside : rest ⊆ nodes := by
      intro w hw
      have reach := chain
      induction rest generalizing a with
      | nil => cases hw
      | cons c rest ih =>
        obtain ⟨edge, later⟩ := List.isChain_cons_cons.mp reach
        rcases List.mem_cons.mp hw with here | deeper
        · exact here ▸ ends a c edge
        · exact ih c later (List.nodup_cons.mp nodup).2 deeper later
    have := (nodup.subperm inside).length_le
    simp only [List.length_cons]
    omega

theorem backward_le_length (path : List α) : backward pos path ≤ path.length := by
  induction path with
  | nil => simp [backward]
  | cons u rest ih =>
    cases rest with
    | nil => simp [backward]
    | cons w rest =>
      simp only [backward, List.length_cons] at ih ⊢
      split <;> omega

theorem backward_concat (before : List α) (u w : α) : backward pos (before ++ [u] ++ [w]) =
    backward pos (before ++ [u]) + if pos w ≤ pos u then 1 else 0 := by
  induction before with
  | nil => simp [backward]
  | cons a rest ih =>
    cases rest with
    | nil => simp [backward]
    | cons c rest =>
      simp only [List.cons_append, backward] at ih ⊢
      rw [ih]
      omega

section
variable (pos) (acyclic : Acyclic R) (ends : ∀ u w, R u w → w ∈ nodes)
include acyclic ends

theorem bddAbove_backwardCounts : BddAbove (backwardCounts R pos) := by
  refine ⟨nodes.length + 1, ?_⟩
  intro count h
  obtain ⟨path, chain, eq⟩ := h
  rw [← eq]
  exact (backward_le_length path).trans (length_le_of_isChain acyclic ends chain)

theorem exists_isGreatest_backwardCounts : ∃ b, IsGreatest (backwardCounts R pos) b := by
  have bound := bddAbove_backwardCounts pos acyclic ends
  exact ⟨_, Nat.sSup_mem ⟨0, [], .nil, rfl⟩ bound, fun _ h => le_csSup bound h⟩

/-- Some path to a place has as many backward edges as the depth says, and none has more. -/
theorem isGreatest_depth (a : α) : IsGreatest {count | ∃ before : List α,
    (before ++ [a]).IsChain R ∧ backward pos (before ++ [a]) = count} (depth R pos a) := by
  have bound : BddAbove {count | ∃ before : List α, (before ++ [a]).IsChain R ∧
      backward pos (before ++ [a]) = count} := by
    refine (bddAbove_backwardCounts pos acyclic ends).mono ?_
    intro count h
    obtain ⟨before, chain, eq⟩ := h
    exact ⟨_, chain, eq⟩
  exact ⟨Nat.sSup_mem ⟨0, [], .singleton a, rfl⟩ bound, fun _ h => le_csSup bound h⟩

theorem depth_le (greatest : IsGreatest (backwardCounts R pos) b) (a : α) :
    depth R pos a ≤ b := by
  obtain ⟨before, chain, eq⟩ := (isGreatest_depth pos acyclic ends a).1
  exact greatest.2 ⟨_, chain, eq⟩

/-- Ranks do not fall along an edge, and rise along a backward one. -/
theorem depth_edge (edge : R u w) :
    depth R pos u + (if pos w ≤ pos u then 1 else 0) ≤ depth R pos w := by
  obtain ⟨before, chain, eq⟩ := (isGreatest_depth pos acyclic ends u).1
  rw [← eq, ← backward_concat]
  refine (isGreatest_depth pos acyclic ends w).2 ⟨before ++ [u], ?_, rfl⟩
  rw [List.append_assoc, List.singleton_append, List.isChain_append_cons_cons]
  exact ⟨chain, edge, .singleton w⟩

end

end LogicCircuit
