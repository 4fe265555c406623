/-!
What an action that ends well went through, part by part, and when two actions come to the same.
-/

/-- Both are results that are related, or both are the same error. -/
inductive Except.Rel {ε α β : Type} (R : α → β → Prop) : Except ε α → Except ε β → Prop
  | ok {a : α} {b : β} : R a b → Rel R (.ok a) (.ok b)
  | error (e : ε) : Rel R (.error e) (.error e)

theorem Except.Rel.map {ε α β γ δ : Type} {R : α → β → Prop} {S : γ → δ → Prop} {f : α → γ}
    {g : β → δ} (related : ∀ a b, R a b → S (f a) (g b)) {x : Except ε α} {y : Except ε β}
    (h : Rel R x y) : Rel S (x.map f) (y.map g) := by
  cases h with
  | ok pair => exact .ok (related _ _ pair)
  | error e => exact .error e

theorem Except.Rel.mono {ε α β : Type} {R S : α → β → Prop} (sub : ∀ a b, R a b → S a b)
    {x : Except ε α} {y : Except ε β} (h : Rel R x y) : Rel S x y := by
  cases h with
  | ok pair => exact .ok (sub _ _ pair)
  | error e => exact .error e

namespace EStateM

variable {ε σ α β : Type} {x : EStateM ε σ α} {f : α → EStateM ε σ β} {s s' t : σ}
  {a a' : α} {b : β}

theorem bind_ok_iff : (x >>= f) s = .ok b s' ↔ ∃ a t, x s = .ok a t ∧ f a t = .ok b s' := by
  simp only [bind, EStateM.bind]
  constructor
  · intro h
    split at h
    · exact ⟨_, _, ‹_›, h⟩
    · cases h
  · rintro ⟨a, t, first, second⟩
    simp only [first, second]

theorem seq_ok_iff {x : EStateM ε σ Unit} {f : Unit → EStateM ε σ β} :
    (x >>= f) s = .ok b s' ↔ ∃ t, x s = .ok () t ∧ f () t = .ok b s' := by
  rw [bind_ok_iff]
  constructor
  · intro h
    obtain ⟨_, t, first, second⟩ := h
    exact ⟨t, first, second⟩
  · intro h
    obtain ⟨t, first, second⟩ := h
    exact ⟨(), t, first, second⟩

theorem bind_of_ok (h : x s = .ok a t) : (x >>= f) s = f a t := by
  simp only [bind, EStateM.bind, h]

theorem bind_error_iff {e : ε} : (x >>= f) s = .error e s' ↔
    x s = .error e s' ∨ ∃ a t, x s = .ok a t ∧ f a t = .error e s' := by
  simp only [bind, EStateM.bind]
  cases x s with
  | ok a t =>
    constructor
    · exact fun h => Or.inr ⟨a, t, rfl, h⟩
    · rintro (h | ⟨_, _, h, second⟩)
      · cases h
      · obtain ⟨rfl, rfl⟩ := Result.ok.inj h
        exact second
  | error _ t => simp

theorem bind_congr {y : EStateM ε σ α} (h : x s = y s') : (x >>= f) s = (y >>= f) s' := by
  simp only [bind, EStateM.bind, h]

theorem bind_of_error {e : ε} (h : x s = .error e t) : (x >>= f) s = .error e t := by
  simp only [bind, EStateM.bind, h]

theorem map_congr {y : EStateM ε σ α} {g : α → β} (h : x s = y s') :
    (g <$> x) s = (g <$> y) s' := by
  simp only [Functor.map, EStateM.map, h]

theorem pure_ok_iff : (pure a : EStateM ε σ α) s = .ok a' s' ↔ a = a' ∧ s = s' := by
  simp [pure, EStateM.pure]

def Result.state {ε σ α : Type} : Result ε σ α → σ
  | .ok _ s | .error _ s => s

/-- What holds after each part of an action, however that part ends, holds after the whole. -/
theorem state_bind {P : σ → Prop} (first : P (x s).state)
    (second : ∀ a t, P t → P (f a t).state) : P ((x >>= f) s).state := by
  simp only [bind, EStateM.bind]
  cases h : x s with
  | ok a t =>
    rw [h] at first
    exact second a t first
  | error _ t =>
    rw [h] at first
    exact first

def Result.isOk : Result ε σ α → Bool
  | .ok _ _ => true
  | .error _ _ => false

theorem Result.exists_of_isOk {r : Result ε σ α} (h : r.isOk = true) : ∃ a t, r = .ok a t := by
  cases r with
  | ok a t => exact ⟨a, t, rfl⟩
  | error _ _ => cases h

def Result.any (P : α → σ → Bool) : Result ε σ α → Bool
  | .ok a s => P a s
  | .error _ _ => false

theorem Result.exists_of_any {r : Result ε σ α} {P : α → σ → Bool} (h : r.any P = true) :
    ∃ a t, r = .ok a t ∧ P a t = true := by
  cases r with
  | ok a t => exact ⟨a, t, rfl, h⟩
  | error _ _ => cases h

theorem Result.eq_ok_of_isOk {r : Result ε σ Unit} (h : r.isOk = true) : r = .ok () r.state := by
  cases r with
  | ok _ t => rfl
  | error _ _ => cases h

/-- The same answer or the same error, in states that are related. -/
inductive Result.Rel {τ : Type} (S : σ → τ → Prop) : Result ε σ α → Result ε τ α → Prop
  | ok (a : α) {s : σ} {t : τ} : S s t → Rel S (.ok a s) (.ok a t)
  | error (e : ε) {s : σ} {t : τ} : S s t → Rel S (.error e s) (.error e t)

theorem Result.Rel.mono {τ : Type} {S T : σ → τ → Prop} (sub : ∀ s t, S s t → T s t)
    {r : Result ε σ α} {r' : Result ε τ α} (h : Result.Rel S r r') : Result.Rel T r r' := by
  cases h with
  | ok a states => exact .ok a (sub _ _ states)
  | error e states => exact .error e (sub _ _ states)

theorem Result.Rel.bind {τ : Type} {S : σ → τ → Prop} {y : EStateM ε τ α} {g : α → EStateM ε τ β}
    {t : τ} (first : Result.Rel S (x s) (y t))
    (second : ∀ a s t, S s t → Result.Rel S (f a s) (g a t)) :
    Result.Rel S ((x >>= f) s) ((y >>= g) t) := by
  simp only [Bind.bind, EStateM.bind]
  generalize x s = r at first
  generalize y t = r' at first
  cases first with
  | ok a states => exact second a _ _ states
  | error e states => exact .error e states

end EStateM
