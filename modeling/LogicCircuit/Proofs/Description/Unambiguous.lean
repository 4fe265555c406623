import LogicCircuit.Proofs.Description.Declared
import LogicCircuit.Proofs.Description.Document

/-!
No text begins with the tokens of two documents. The name of a device may be followed by a pin, so
that what ends with a signal is told apart only if no dot comes after it.
-/

namespace LogicCircuit.Description

variable {ι : Type} {f : ι → List Token} {r r' : List Token} {c : Token} {p q : Option String}

/-- Nothing that may follow an item can be taken for a part of it. -/
def Readable (f : ι → List Token) : Prop :=
  ∀ ⦃x y r r'⦄, r.head? ≠ some .dot → r'.head? ≠ some .dot → f x ++ r = f y ++ r' → x = y ∧ r = r'

/-- Every item begins with a token that is neither a dot nor the one after the last item. -/
def Begins (f : ι → List Token) (c : Token) : Prop :=
  ∀ x, ∃ a l, f x = a :: l ∧ a ≠ .dot ∧ a ≠ c

theorem Begins.head?_ne (h : Begins f c) (end_ne : c ≠ .dot) (xs : List ι) :
    (xs.flatMap f ++ c :: r).head? ≠ some .dot := by
  cases xs with
  | nil => simpa using end_ne
  | cons x xs =>
    obtain ⟨a, l, eq, other, -⟩ := h x
    simpa [eq] using other

theorem Readable.flatMap (h : Readable f) (begins : Begins f c) (end_ne : c ≠ .dot)
    {xs ys : List ι} (eq : xs.flatMap f ++ c :: r = ys.flatMap f ++ c :: r') :
    xs = ys ∧ r = r' := by
  induction xs generalizing ys with
  | nil =>
    cases ys with
    | nil => exact ⟨rfl, (List.cons.inj eq).2⟩
    | cons y ys =>
      obtain ⟨a, l, start, -, other⟩ := begins y
      simp only [List.flatMap_nil, List.nil_append, List.flatMap_cons, start, List.cons_append,
        List.cons.injEq] at eq
      exact absurd eq.1.symm other
  | cons x xs ih =>
    cases ys with
    | nil =>
      obtain ⟨a, l, start, -, other⟩ := begins x
      simp only [List.flatMap_nil, List.nil_append, List.flatMap_cons, start, List.cons_append,
        List.cons.injEq] at eq
      exact absurd eq.1 other
    | cons y ys =>
      rw [List.flatMap_cons, List.append_assoc, List.flatMap_cons, List.append_assoc] at eq
      -- what follows an item is the next one or the end, and neither begins with a dot
      obtain ⟨rfl, rest⟩ := h (begins.head?_ne end_ne xs) (begins.head?_ne end_ne ys) eq
      obtain ⟨rfl, same⟩ := ih rest
      exact ⟨rfl, same⟩

theorem pinTokens_append_inj (hr : r.head? ≠ some .dot) (hr' : r'.head? ≠ some .dot)
    (eq : pinTokens p ++ r = pinTokens q ++ r') : p = q ∧ r = r' := by
  cases p with
  | none =>
    cases q with
    | none => exact ⟨rfl, eq⟩
    | some pin =>
      rw [show r = .dot :: .name pin :: r' from eq] at hr
      exact absurd rfl hr
  | some pin =>
    cases q with
    | none =>
      rw [show r' = .dot :: .name pin :: r from eq.symm] at hr'
      exact absurd rfl hr'
    | some pin' =>
      simp only [pinTokens, List.cons_append, List.nil_append, List.cons.injEq, true_and,
        Token.name.injEq] at eq
      exact ⟨congrArg some eq.1, eq.2⟩

theorem Signal.readable : Readable Signal.tokens := by
  intro a b r r' hr hr' eq
  obtain ⟨device, pin⟩ := a
  obtain ⟨device', pin'⟩ := b
  simp only [Signal.tokens, List.cons_append, List.cons.injEq, Token.name.injEq] at eq
  obtain ⟨rfl, eq⟩ := eq
  obtain ⟨rfl, same⟩ := pinTokens_append_inj hr hr' eq
  exact ⟨rfl, same⟩

/-- A signal with a token after it. -/
theorem Signal.tokens_append_inj {a b : Signal} (other : c ≠ .dot)
    (eq : a.tokens ++ c :: r = b.tokens ++ c :: r') : a = b ∧ r = r' := by
  obtain ⟨rfl, same⟩ := Signal.readable (by simpa using other) (by simpa using other) eq
  exact ⟨rfl, (List.cons.inj same).2⟩

theorem Signal.readable_entry : Readable Signal.entry := by
  intro a b r r' _ _ eq
  rw [Signal.entry, Signal.entry, List.append_assoc, List.append_assoc] at eq
  exact Signal.tokens_append_inj (by simp) eq

theorem Declaration.readable : Readable Declaration.tokens := by
  intro a b r r' _ _ eq
  obtain ⟨name, kind, numbers⟩ := a
  obtain ⟨name', kind', numbers'⟩ := b
  simp only [Declaration.tokens, List.cons_append, List.append_assoc, List.nil_append,
    List.cons.injEq, Token.name.injEq, true_and] at eq
  obtain ⟨rfl, kinds, eq⟩ := eq
  obtain rfl := Vocabulary.text_injective _ _ kinds
  have number : Readable fun n : Nat => [Token.comma, .number n] := by
    intro n m r r' _ _ eq
    simpa using eq
  have begins : Begins (fun n : Nat => [Token.comma, .number n]) .semicolon :=
    fun n => ⟨.comma, [.number n], rfl, by simp, by simp⟩
  obtain ⟨rfl, same⟩ := number.flatMap begins (by simp) eq
  exact ⟨rfl, same⟩

theorem Connection.readable : Readable Connection.tokens := by
  intro a b r r' _ _ eq
  obtain ⟨source, first, others⟩ := a
  obtain ⟨source', first', others'⟩ := b
  simp only [Connection.tokens, List.cons_append, List.append_assoc, List.nil_append] at eq
  obtain ⟨rfl, after⟩ := Signal.tokens_append_inj (by simp) eq
  have other : Readable fun s : Signal => Token.comma :: s.tokens := by
    intro s s' r r' hr hr' eq
    exact Signal.readable hr hr' (List.cons.inj eq).2
  have begins : Begins (fun s : Signal => Token.comma :: s.tokens) .semicolon :=
    fun s => ⟨.comma, s.tokens, rfl, by simp, by simp⟩
  obtain ⟨rfl, last⟩ := Signal.readable (begins.head?_ne (by simp) others)
    (begins.head?_ne (by simp) others') after
  obtain ⟨rfl, same⟩ := other.flatMap begins (by simp) last
  exact ⟨rfl, same⟩

/-- A text is read as one document at most. -/
theorem Document.eq_of_tokens_prefix {d d' : Document} {l : List Token} (h : d.tokens <+: l)
    (h' : d'.tokens <+: l) : d = d' := by
  obtain ⟨r, eq⟩ := h
  obtain ⟨r', eq'⟩ := h'
  obtain ⟨devices, connections, monitors⟩ := d
  obtain ⟨devices', connections', monitors'⟩ := d'
  have same := eq.trans eq'.symm
  simp only [Document.tokens, List.cons_append, List.append_assoc, List.cons.injEq,
    true_and] at same
  have device : Begins Declaration.tokens (.keyword .connect) :=
    fun e => ⟨.name e.name, _, rfl, by simp, by simp⟩
  have connection : Begins Connection.tokens (.keyword .monitor) :=
    fun e => ⟨.name e.source.device, _, rfl, by simp, by simp⟩
  have monitor : Begins Signal.entry (.keyword .finish) :=
    fun s => ⟨.name s.device, _, rfl, by simp, by simp⟩
  obtain ⟨rfl, wires⟩ := Declaration.readable.flatMap device (by simp) same
  obtain ⟨rfl, watched⟩ := Connection.readable.flatMap connection (by simp) wires
  obtain ⟨rfl, -⟩ := Signal.readable_entry.flatMap monitor (by simp) watched
  rfl

end LogicCircuit.Description
