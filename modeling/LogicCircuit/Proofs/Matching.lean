import LogicCircuit.Device
import LogicCircuit.Proofs.PinMap
import LogicCircuit.Proofs.Symbol
import LogicCircuit.Proofs.Vocabulary
import Mathlib.Data.List.Forall2
import Mathlib.Data.List.Nodup
import Mathlib.Logic.Relator

/-!
Two tables give each name a symbol of its own. What is put together from the symbols of one table
matches what is put together from those of another if it is the same by name; the pins may come in
different orders.
-/

namespace LogicCircuit

open Relator (BiUnique)

namespace SymbolTable

variable {t t' u u' : SymbolTable} {a : String} {s s' : Symbol}

/-- The symbols have one name, each in its own table. -/
def SameName (t t' : SymbolTable) (s s' : Symbol) : Prop :=
  ∃ a, t.text? s = some a ∧ t'.text? s' = some a

theorem sameName_symbol (h : a ∈ t.texts) (h' : a ∈ t'.texts) :
    SameName t t' (t.symbol a) (t'.symbol a) :=
  ⟨a, text?_symbol h, text?_symbol h'⟩

theorem biUnique_sameName (t t' : SymbolTable) : BiUnique (SameName t t') := by
  constructor
  · rintro r s u ⟨a, hr, hu⟩ ⟨b, hs, hu'⟩
    obtain rfl := Option.some.inj (hu.symm.trans hu')
    rw [(text?_eq_some_iff.mp hr).2, (text?_eq_some_iff.mp hs).2]
  · rintro r s u ⟨a, hr, hs⟩ ⟨b, hr', hu⟩
    obtain rfl := Option.some.inj (hr.symm.trans hr')
    rw [(text?_eq_some_iff.mp hs).2, (text?_eq_some_iff.mp hu).2]

theorem SameName.mono (grows : t.texts <+: u.texts) (grows' : t'.texts <+: u'.texts)
    (h : SameName t t' s s') : SameName u u' s s' := by
  obtain ⟨a, known, known'⟩ := h
  exact ⟨a, text?_of_prefix grows known, text?_of_prefix grows' known'⟩

theorem SameName.text? (h : SameName t t' s s') : t.text? s = t'.text? s' := by
  obtain ⟨a, known, known'⟩ := h
  rw [known, known']

theorem SameName.display (h : SameName t t' s s') : t.display s = t'.display s' := by
  obtain ⟨a, known, known'⟩ := h
  rw [SymbolTable.display, SymbolTable.display, known, known']
  rfl

end SymbolTable

section Lists

variable {α β γ : Type} {R : α → β → Prop}

theorem isSome_eq_of_rel {o : Option α} {o' : Option β} (h : Option.Rel R o o') :
    o.isSome = o'.isSome := by
  cases h <;> rfl

theorem eq_iff_of_biUnique (one : BiUnique R) {a b : α} {a' b' : β}
    (h : R a a') (h' : R b b') : a = b ↔ a' = b' := by
  constructor
  · rintro rfl
    exact one.2 h h'
  · rintro rfl
    exact one.1 h h'

theorem eq_of_rel_eq {o o' : Option α} (h : Option.Rel Eq o o') : o = o' := by
  cases h with
  | some eq => exact congrArg some eq
  | none => rfl

theorem map_eq_of_rel {f : α → γ} {g : β → γ} (same : ∀ a b, R a b → f a = g b) {o : Option α}
    {o' : Option β} (h : Option.Rel R o o') : o.map f = o'.map g := by
  cases h with
  | some pair => exact congrArg some (same _ _ pair)
  | none => rfl

theorem bind_eq_of_rel {f : α → Option γ} {g : β → Option γ} (same : ∀ a b, R a b → f a = g b)
    {o : Option α} {o' : Option β} (h : Option.Rel R o o') : o.bind f = o'.bind g := by
  cases h with
  | some pair => exact same _ _ pair
  | none => rfl

theorem rel_bind {δ : Type} {S : γ → δ → Prop} {f : α → Option γ} {g : β → Option δ}
    (related : ∀ a b, R a b → Option.Rel S (f a) (g b)) {o : Option α} {o' : Option β}
    (h : Option.Rel R o o') : Option.Rel S (o.bind f) (o'.bind g) := by
  cases h with
  | some pair => exact related _ _ pair
  | none => exact .none

theorem exists_of_forall₂ {as : List α} {bs : List β} {a : α} (h : List.Forall₂ R as bs)
    (ha : a ∈ as) : ∃ b ∈ bs, R a b := by
  induction h with
  | nil => cases ha
  | @cons a' b as bs related _ ih =>
    obtain rfl | later := List.mem_cons.mp ha
    · exact ⟨b, List.mem_cons_self, related⟩
    · obtain ⟨b', hb, related'⟩ := ih later
      exact ⟨b', List.mem_cons_of_mem b hb, related'⟩

theorem contains_eq_of_rel [DecidableEq α] [DecidableEq β] (one : BiUnique R) {a : α} {b : β}
    (pair : R a b) {l : List α} {l' : List β} (h : List.Forall₂ R l l') :
    l.contains a = l'.contains b := by
  rw [Bool.eq_iff_iff, List.contains_iff_mem, List.contains_iff_mem]
  exact List.rel_mem one pair h

theorem rel_find? {p : α → Bool} {q : β → Bool} (same : ∀ a b, R a b → p a = q b) {l : List α}
    {l' : List β} (h : List.Forall₂ R l l') : Option.Rel R (l.find? p) (l'.find? q) := by
  induction h with
  | nil => exact .none
  | @cons a b l l' pair _ ih =>
    rw [List.find?_cons, List.find?_cons, ← same a b pair]
    cases p a with
    | true => exact .some pair
    | false => exact ih

theorem lookup_eq_of_rel [DecidableEq α] [DecidableEq β] (one : BiUnique R) {a : α} {b : β}
    (pair : R a b) {l : List (α × γ)} {l' : List (β × γ)}
    (h : List.Forall₂ (fun e e' => R e.1 e'.1 ∧ e.2 = e'.2) l l') :
    l.lookup a = l'.lookup b := by
  induction h with
  | nil => rfl
  | @cons e e' l l' first _ ih =>
    have same := eq_iff_of_biUnique one pair first.1
    by_cases here : a = e.1
    · rw [List.lookup_cons, List.lookup_cons, beq_iff_eq.mpr here, beq_iff_eq.mpr (same.mp here),
        first.2]
    · rw [List.lookup_cons, List.lookup_cons, beq_eq_false_iff_ne.mpr here,
        beq_eq_false_iff_ne.mpr (mt same.mpr here), ih]

/-- Of two lists without repetitions that hold the same up to a pairing, the one is an order of the
other. -/
theorem exists_perm_of_biUnique (one : BiUnique R) {l : List α} {l' : List β} (nodup : l.Nodup)
    (nodup' : l'.Nodup) (forth : ∀ a ∈ l, ∃ b ∈ l', R a b) (back : ∀ b ∈ l', ∃ a ∈ l, R a b) :
    ∃ k, List.Forall₂ R l k ∧ k.Perm l' := by
  have lift (m : List α) (inside : ∀ a ∈ m, a ∈ l) :
      ∃ k, List.Forall₂ R m k ∧ ∀ b ∈ k, b ∈ l' := by
    induction m with
    | nil => exact ⟨[], .nil, by simp⟩
    | cons a m ih =>
      obtain ⟨b, hb, pair⟩ := forth a (inside a List.mem_cons_self)
      obtain ⟨k, pairs, members⟩ := ih fun c hc => inside c (List.mem_cons_of_mem a hc)
      exact ⟨b :: k, .cons pair pairs, List.forall_mem_cons.mpr ⟨hb, members⟩⟩
  obtain ⟨k, pairs, members⟩ := lift l fun _ h => h
  have distinct : k.Nodup := (List.rel_nodup one pairs).mp nodup
  refine ⟨k, pairs, (List.perm_ext_iff_of_nodup distinct nodup').mpr fun b => ⟨members b, ?_⟩⟩
  intro hb
  obtain ⟨a, ha, pair⟩ := back b hb
  exact (List.rel_mem one pair pairs).mp ha

end Lists

namespace PinMap

variable {κ α : Type} [PinKey κ] {K : κ → κ → Prop} {V : α → α → Prop} {m m' n n' : PinMap κ α}
  {k k' : κ} {a a' : α}

/-- The maps have the same entries up to a pairing of their pins. -/
structure Matches (K : κ → κ → Prop) (V : α → α → Prop) (m m' : PinMap κ α) : Prop where
  forth : ∀ k a, m.get? k = some a → ∃ k' a', K k k' ∧ m'.get? k' = some a' ∧ V a a'
  back : ∀ k' a', m'.get? k' = some a' → ∃ k a, K k k' ∧ m.get? k = some a ∧ V a a'

theorem Matches.mono {K' : κ → κ → Prop} {V' : α → α → Prop} (hk : ∀ k k', K k k' → K' k k')
    (hv : ∀ a a', V a a' → V' a a') (h : m.Matches K V m') : m.Matches K' V' m' where
  forth k a known := by
    obtain ⟨k', a', pins, known', values⟩ := h.forth k a known
    exact ⟨k', a', hk _ _ pins, known', hv _ _ values⟩
  back k' a' known' := by
    obtain ⟨k, a, pins, known, values⟩ := h.back k' a' known'
    exact ⟨k, a, hk _ _ pins, known, hv _ _ values⟩

theorem matches_empty : (empty : PinMap κ α).Matches K V empty where
  forth k _ known := by simp at known
  back k' _ known := by simp at known

section

variable (one : BiUnique K) (h : m.Matches K V m')
include one h

theorem Matches.get? (pins : K k k') : Option.Rel V (m.get? k) (m'.get? k') := by
  cases known : m.get? k with
  | some a =>
    obtain ⟨l, a', pins', known', values⟩ := h.forth k a known
    rw [one.2 pins pins', known']
    exact .some values
  | none =>
    cases known' : m'.get? k' with
    | none => exact .none
    | some a' =>
      obtain ⟨l, a, pins', known'', -⟩ := h.back k' a' known'
      rw [one.1 pins pins', known''] at known
      cases known

theorem Matches.contains (pins : K k k') : m.contains k = m'.contains k' := by
  rw [PinMap.contains, PinMap.contains, isSome_eq_of_rel (h.get? one pins)]

theorem Matches.insert (pins : K k k') (values : V a a') :
    (m.insert k a).Matches K V (m'.insert k' a') where
  forth l b known := by
    by_cases same : l = k
    · rw [same, get?_insert_self] at known
      obtain rfl := Option.some.inj known
      exact ⟨k', a', same ▸ pins, get?_insert_self _ _ _, values⟩
    · rw [get?_insert_of_ne _ _ same] at known
      obtain ⟨l', b', pins', known', values'⟩ := h.forth l b known
      have other : l' ≠ k' := fun eq => same (one.1 pins' (eq ▸ pins))
      exact ⟨l', b', pins', (get?_insert_of_ne _ _ other).trans known', values'⟩
  back l' b' known' := by
    by_cases same : l' = k'
    · rw [same, get?_insert_self] at known'
      obtain rfl := Option.some.inj known'
      exact ⟨k, a, same ▸ pins, get?_insert_self _ _ _, values⟩
    · rw [get?_insert_of_ne _ _ same] at known'
      obtain ⟨l, b, pins', known, values'⟩ := h.back l' b' known'
      have other : l ≠ k := fun eq => same (one.2 pins' (eq ▸ pins))
      exact ⟨l, b, pins', (get?_insert_of_ne _ _ other).trans known, values'⟩

theorem Matches.keys : ∃ ks, List.Forall₂ K m.keys ks ∧ ks.Perm m'.keys := by
  refine exists_perm_of_biUnique one m.keys_nodup m'.keys_nodup ?_ ?_
  · intro k hk
    obtain ⟨a, known⟩ := Option.isSome_iff_exists.mp (mem_keys_iff.mp hk)
    obtain ⟨k', a', pins, known', -⟩ := h.forth k a known
    exact ⟨k', mem_keys_iff.mpr (by rw [known']; rfl), pins⟩
  · intro k' hk'
    obtain ⟨a', known'⟩ := Option.isSome_iff_exists.mp (mem_keys_iff.mp hk')
    obtain ⟨k, a, pins, known, -⟩ := h.back k' a' known'
    exact ⟨k, mem_keys_iff.mpr (by rw [known]; rfl), pins⟩

end

theorem matches_replicate (one : BiUnique K) {pins pins' : List κ}
    (h : List.Forall₂ K pins pins') (values : V a a') :
    (replicate pins a).Matches K V (replicate pins' a') := by
  have general {m m' : PinMap κ α} (start : m.Matches K V m') :
      (pins.foldl (fun m k => m.insert k a) m).Matches K V
        (pins'.foldl (fun m k => m.insert k a') m') := by
    induction h generalizing m m' with
    | nil => exact start
    | cons pair _ ih => exact ih (start.insert one pair values)
  exact general matches_empty

theorem Matches.unique (one : BiUnique K) (h : m.Matches K Eq m') (h' : m.Matches K Eq n') :
    m' = n' := by
  have sub {p q : PinMap κ α} (hp : m.Matches K Eq p) (hq : m.Matches K Eq q) (k' : κ) (a : α)
      (known : p.get? k' = some a) : q.get? k' = some a := by
    obtain ⟨k, b, pins, known', rfl⟩ := hp.back k' a known
    have same := hq.get? one pins
    rw [known'] at same
    exact (eq_of_rel_eq same).symm
  exact ext_get? fun k' => Option.ext fun a => ⟨sub h h' k' a, sub h' h k' a⟩

theorem Matches.flip (h : m.Matches K Eq m') : m'.Matches (flip K) Eq m where
  forth k' a known' := by
    obtain ⟨k, b, pins, known, rfl⟩ := h.back k' a known'
    exact ⟨k, b, pins, known, rfl⟩
  back k a known := by
    obtain ⟨k', b, pins, known', rfl⟩ := h.forth k a known
    exact ⟨k', a, pins, known', rfl⟩

/-- Maps with the same values are equal or not, whatever symbols their pins have. -/
theorem Matches.eq_iff (one : BiUnique K) (h : m.Matches K Eq m') (h' : n.Matches K Eq n') :
    m = n ↔ m' = n' := by
  constructor
  · rintro rfl
    exact h.unique one h'
  · rintro rfl
    have one' : BiUnique (Function.swap K) :=
      ⟨fun _ _ _ h h' => one.2 h h', fun _ _ _ h h' => one.1 h h'⟩
    exact h.flip.unique one' h'.flip

end PinMap

variable {R : Symbol → Symbol → Prop}

namespace Terminal

/-- The terminals have the same name, that of the device and that of the pin. -/
def Matches (R : Symbol → Symbol → Prop) (o o' : Terminal) : Prop :=
  R o.device o'.device ∧ Option.Rel R o.pin o'.pin

end Terminal

theorem rel_mono {R S : Symbol → Symbol → Prop} (sub : ∀ s s', R s s' → S s s')
    {p p' : Option Symbol} (h : Option.Rel R p p') : Option.Rel S p p' := by
  cases h with
  | some pair => exact .some (sub _ _ pair)
  | none => exact .none

theorem Terminal.Matches.mono {S : Symbol → Symbol → Prop} (sub : ∀ s s', R s s' → S s s')
    {o o' : Terminal} (h : o.Matches R o') : o.Matches S o' :=
  ⟨sub _ _ h.1, rel_mono sub h.2⟩

theorem biUnique_rel (one : BiUnique R) : BiUnique (Option.Rel R) := by
  constructor
  · rintro _ _ _ (h | _) (h' | _)
    · exact congrArg some (one.1 h h')
    · rfl
  · rintro _ _ _ (h | _) (h' | _)
    · exact congrArg some (one.2 h h')
    · rfl

theorem Terminal.biUnique_matches (one : BiUnique R) : BiUnique (Terminal.Matches R) := by
  have pins := biUnique_rel one
  constructor
  · rintro ⟨d, p⟩ ⟨e, q⟩ _ ⟨devices, names⟩ ⟨devices', names'⟩
    exact congrArg₂ Terminal.mk (one.1 devices devices') (pins.1 names names')
  · rintro _ ⟨d, p⟩ ⟨e, q⟩ ⟨devices, names⟩ ⟨devices', names'⟩
    exact congrArg₂ Terminal.mk (one.2 devices devices') (pins.2 names names')

structure FlipFlopPins.Matches (R : Symbol → Symbol → Prop) (p p' : FlipFlopPins) : Prop where
  clock : R p.clock p'.clock
  set : R p.set p'.set
  clear : R p.clear p'.clear
  data : R p.data p'.data
  q : R p.q p'.q
  qbar : R p.qbar p'.qbar

theorem FlipFlopPins.Matches.inputs {p p' : FlipFlopPins} (h : p.Matches R p') :
    List.Forall₂ R p.inputs p'.inputs :=
  .cons h.clock (.cons h.set (.cons h.clear (.cons h.data .nil)))

theorem FlipFlopPins.Matches.outputs {p p' : FlipFlopPins} (h : p.Matches R p') :
    List.Forall₂ R p.outputs p'.outputs :=
  .cons h.q (.cons h.qbar .nil)

namespace Vocabulary

structure Matches (R : Symbol → Symbol → Prop) (v v' : Vocabulary) : Prop where
  kinds : List.Forall₂ (fun e e' => R e.1 e'.1 ∧ e.2 = e'.2) v.kinds v'.kinds
  flipFlop : v.flipFlop.Matches R v'.flipFlop
  gateInputs : List.Forall₂ R v.gateInputs v'.gateInputs

variable {v v' : Vocabulary} {s s' : Symbol}

theorem Matches.mono {S : Symbol → Symbol → Prop} (sub : ∀ s s', R s s' → S s s')
    (h : v.Matches R v') : v.Matches S v' where
  kinds := h.kinds.imp fun _ _ pair => ⟨sub _ _ pair.1, pair.2⟩
  flipFlop :=
    ⟨sub _ _ h.flipFlop.clock, sub _ _ h.flipFlop.set, sub _ _ h.flipFlop.clear,
      sub _ _ h.flipFlop.data, sub _ _ h.flipFlop.q, sub _ _ h.flipFlop.qbar⟩
  gateInputs := h.gateInputs.imp sub

theorem matches_ofTable {t t' : SymbolTable} (h : ∀ w ∈ words, w ∈ t.texts)
    (h' : ∀ w ∈ words, w ∈ t'.texts) :
    (ofTable t).Matches (SymbolTable.SameName t t') (ofTable t') := by
  have word (w : String) (hw : w ∈ words) : SymbolTable.SameName t t' (t.symbol w) (t'.symbol w) :=
    SymbolTable.sameName_symbol (h w hw) (h' w hw)
  have pin (w : String) (hw : w ∈ ["CLK", "SET", "CLEAR", "DATA", "Q", "QBAR"]) :=
    word w (flipFlop_words w hw)
  refine ⟨?_, ⟨pin "CLK" (by decide), pin "SET" (by decide), pin "CLEAR" (by decide),
    pin "DATA" (by decide), pin "Q" (by decide), pin "QBAR" (by decide)⟩, ?_⟩
  · rw [ofTable, ofTable, List.forall₂_map_left_iff, List.forall₂_map_right_iff,
      List.forall₂_same]
    exact fun k hk => ⟨word _ (List.mem_append_left _
      (List.mem_append_left _ (List.mem_map_of_mem hk))), rfl⟩
  · rw [ofTable, ofTable, List.forall₂_map_left_iff, List.forall₂_map_right_iff,
      List.forall₂_same]
    exact fun w hw => word w (List.mem_append_right _ hw)

section

variable (one : BiUnique R) (h : v.Matches R v') (names : R s s')
include one h names

theorem Matches.kind? : v.kind? s = v'.kind? s' := by
  have same (e e' : Symbol × Kind) (pair : R e.1 e'.1 ∧ e.2 = e'.2) :
      decide (e.1 = s) = decide (e'.1 = s') :=
    decide_eq_decide.mpr (eq_iff_of_biUnique one pair.1 names)
  exact map_eq_of_rel (fun _ _ pair => pair.2) (rel_find? same h.kinds)

theorem Matches.isFlipFlopInput : v.isFlipFlopInput s = v'.isFlipFlopInput s' :=
  contains_eq_of_rel one names h.flipFlop.inputs

theorem Matches.isFlipFlopOutput : v.isFlipFlopOutput s = v'.isFlipFlopOutput s' :=
  contains_eq_of_rel one names h.flipFlop.outputs

theorem Matches.isReserved : v.isReserved s = v'.isReserved s' := by
  rw [Vocabulary.isReserved, Vocabulary.isReserved, h.kind? one names, h.isFlipFlopInput one names,
    h.isFlipFlopOutput one names]

end

end Vocabulary

end LogicCircuit
