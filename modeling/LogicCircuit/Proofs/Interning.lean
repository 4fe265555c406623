import LogicCircuit.Proofs.Symbol
import Mathlib.Data.List.Induction

/-!
A table in use. Whatever is asked of a new table, it holds the names that were to be interned, each
of them once and in the order in which they came, and what it has handed out stays as it is.
-/

namespace LogicCircuit.SymbolTable

/-- What can be asked of a table. -/
inductive Request
  | internAll (texts : List String)
  | intern (text : String)
  | find (text : String)
  | read (s : Symbol)
  | display (s : Symbol)
  deriving DecidableEq

inductive Answer
  | symbols (ss : List Symbol)
  | symbol (s : Symbol)
  | found (s? : Option Symbol)
  | text (text? : Option String)
  | shown (text : String)
  deriving DecidableEq

namespace Request

/-- The answer to a request, and the table after it. -/
def perform (t : SymbolTable) : Request → Answer × SymbolTable
  | .internAll as => (.symbols (t.internAll as).1, (t.internAll as).2)
  | .intern a => (.symbol (t.intern a).1, (t.intern a).2)
  | .find a => (.found (t.find? a), t)
  | .read s => (.text (t.text? s), t)
  | .display s => (.shown (t.display s), t)

/-- The names that are to be interned. -/
def names : Request → List String
  | .internAll as => as
  | .intern a => [a]
  | .find _ | .read _ | .display _ => []

/-- The request only reads. -/
def IsQuery : Request → Prop
  | .internAll _ | .intern _ => False
  | .find _ | .read _ | .display _ => True

end Request

/-- The table after several requests. -/
def after (t : SymbolTable) (requests : List Request) : SymbolTable :=
  requests.foldl (fun t request => (request.perform t).2) t

/-- The answers to several requests. -/
def answers (t : SymbolTable) : List Request → List Answer
  | [] => []
  | request :: rest => (request.perform t).1 :: (request.perform t).2.answers rest

/-! One request. -/

theorem internAll_eq (t : SymbolTable) (as : List String) :
    t.internAll as = (as.map (t.addAll as).symbol, t.addAll as) := by
  induction as generalizing t with
  | nil => rfl
  | cons a as ih =>
    have first : ((t.add a).addAll as).symbol a = t.symbol a := by
      rw [symbol_addAll (mem_add.mpr (.inl rfl)), symbol_add_self]
    simp only [internAll, intern, ih, addAll_cons, List.map_cons, first]

theorem Request.perform_snd (t : SymbolTable) (request : Request) :
    (request.perform t).2 = t.addAll request.names := by
  cases request with
  | internAll as => rw [perform, internAll_eq, names]
  | intern a => rfl
  | find a => rfl
  | read s => rfl
  | display s => rfl

/-- The symbol that a name gets is the one that it is found under from then on. -/
theorem find?_intern (t : SymbolTable) (a : String) :
    (t.intern a).2.find? a = some (t.intern a).1 := by
  rw [intern, find?_symbol (mem_add.mpr (.inl rfl)), symbol_add_self]

/-! Several requests. -/

theorem after_eq (t : SymbolTable) (requests : List Request) :
    t.after requests = t.addAll (requests.flatMap Request.names) := by
  induction requests generalizing t with
  | nil => rfl
  | cons request rest ih =>
    rw [List.flatMap_cons, addAll_append, ← request.perform_snd]
    exact ih _

theorem eraseDups_concat (as : List String) (a : String) :
    (as ++ [a]).eraseDups = if a ∈ as then as.eraseDups else as.eraseDups ++ [a] := by
  rw [List.eraseDups_append]
  by_cases known : a ∈ as <;> simp [List.removeAll, known, List.eraseDups_cons]

/-- The names stand in the order in which they came, without those that came before. -/
theorem texts_ofList (as : List String) : (ofList as).texts = as.eraseDups := by
  induction as using List.reverseRecOn with
  | nil => rfl
  | append_singleton as a ih =>
    have last : ofList (as ++ [a]) = (ofList as).add a := addAll_append empty as [a]
    simp only [last, texts_add, ih, List.mem_eraseDups, eraseDups_concat]

theorem answers_map_intern (t : SymbolTable) (as : List String) :
    t.answers (as.map .intern) = (t.internAll as).1.map .symbol := by
  induction as generalizing t with
  | nil => rfl
  | cons a as ih =>
    rw [List.map_cons, answers, internAll, List.map_cons, Request.perform, ih]

/-- The table is one that was new before the requests, and it goes on like that. -/
structure Serves (requests : List Request) (t : SymbolTable) : Prop where
  texts : t.texts = (requests.flatMap Request.names).eraseDups
  inverse : ∀ a s, t.find? a = some s ↔ t.text? s = some a
  known : ∀ a, (t.find? a).isSome ↔ a ∈ requests.flatMap Request.names
  stable : ∀ more a s, t.text? s = some a →
    (t.after more).text? s = some a ∧ (t.after more).find? a = some s
  given : ∀ a, (t.intern a).2.find? a = some (t.intern a).1
  queries : ∀ request : Request, request.IsQuery → (request.perform t).2 = t
  oneByOne : ∀ as, t.after [.internAll as] = t.after (as.map .intern) ∧
    ∃ ss, t.answers [.internAll as] = [.symbols ss] ∧
      t.answers (as.map .intern) = ss.map .symbol

/-- Interning is a bijection that grows. -/
theorem serves_after (requests : List Request) : Serves requests (empty.after requests) where
  texts := by
    rw [after_eq]
    exact texts_ofList _
  inverse _ _ := find?_eq_some_text?
  known a := by
    rw [isSome_find?_iff, after_eq, mem_addAll]
    exact or_iff_left List.not_mem_nil
  stable more a s here := by
    have kept : ((empty.after requests).after more).text? s = some a := by
      rw [after_eq _ more]
      exact text?_of_prefix (prefix_addAll _ _) here
    exact ⟨kept, find?_eq_some_text?.mpr kept⟩
  given := find?_intern _
  queries request reads := by
    cases request with
    | internAll as => exact reads.elim
    | intern a => exact reads.elim
    | find a => rfl
    | read s => rfl
    | display s => rfl
  oneByOne as := by
    refine ⟨?_, _, rfl, answers_map_intern _ as⟩
    rw [after_eq _ [.internAll as], after_eq _ (as.map .intern), List.flatMap_map]
    simp only [Request.names, List.flatMap_singleton, List.flatMap_singleton']

end LogicCircuit.SymbolTable
