import LogicCircuit.Netlist.Cycle
import LogicCircuit.Netlist.Ground
import LogicCircuit.Proofs.Device.Matching
import LogicCircuit.Proofs.Netlist.Lookup

/-!
Netlists that are the same by name are built alike and take the same course.
-/

namespace LogicCircuit

open Relator (BiUnique)

variable {R S : Symbol → Symbol → Prop}

namespace Netlist

variable {n n' : Netlist} {s s' pin pin' : Symbol} {a a' b b' o o' : Terminal} {d d' : Device}

structure Matches (R : Symbol → Symbol → Prop) (n n' : Netlist) : Prop where
  vocabulary : n.vocabulary.Matches R n'.vocabulary
  devices : List.Forall₂ (Device.Matches R) n.devices n'.devices

theorem Matches.mono (sub : ∀ s s', R s s' → S s s') (h : n.Matches R n') : n.Matches S n' where
  vocabulary := h.vocabulary.mono sub
  devices := h.devices.imp fun _ _ => Device.Matches.mono sub

theorem Matches.symbols (h : n.Matches R n') : List.Forall₂ R n.symbols n'.symbols := by
  rw [Netlist.symbols, Netlist.symbols, List.forall₂_map_left_iff, List.forall₂_map_right_iff]
  exact h.devices.imp fun _ _ pair => pair.symbol

/-- The devices of some kinds. -/
theorem Matches.filter (h : n.Matches R n') (kinds : Kind → Bool) :
    List.Forall₂ (Device.Matches R) (n.devices.filter fun d => kinds d.kind)
      (n'.devices.filter fun d => kinds d.kind) :=
  List.rel_filter (fun _ _ pair => by simp only [pair.kind]) h.devices

theorem Matches.symbolsOf (h : n.Matches R n') (kind : Kind) :
    List.Forall₂ R (n.symbolsOf kind) (n'.symbolsOf kind) := by
  rw [Netlist.symbolsOf, Netlist.symbolsOf, List.forall₂_map_left_iff,
    List.forall₂_map_right_iff]
  exact (h.filter fun k => k = kind).imp fun _ _ pair => pair.symbol

theorem Matches.add (h : n.Matches R n') (pair : d.Matches R d') :
    (n.add d).Matches R (n'.add d') :=
  ⟨h.vocabulary, List.rel_append h.devices (.cons pair .nil)⟩

theorem Matches.map (h : n.Matches R n') {f f' : Device → Device}
    (related : ∀ d d', d.Matches R d' → (f d).Matches R (f' d')) :
    Matches R { n with devices := n.devices.map f } { n' with devices := n'.devices.map f' } :=
  ⟨h.vocabulary, List.rel_map related h.devices⟩

section

variable (one : BiUnique R) (h : n.Matches R n')
include one h

theorem Matches.device? (names : R s s') :
    Option.Rel (Device.Matches R) (n.device? s) (n'.device? s') :=
  rel_find? (fun _ _ pair => decide_eq_decide.mpr (eq_iff_of_biUnique one pair.symbol names))
    h.devices

theorem Matches.kindOf? (names : R s s') : n.kindOf? s = n'.kindOf? s' :=
  map_eq_of_rel (fun _ _ pair => pair.kind) (h.device? one names)

theorem Matches.update (names : R s s') {f f' : Device → Device}
    (related : ∀ d d', d.Matches R d' → (f d).Matches R (f' d')) :
    (n.update s f).Matches R (n'.update s' f') := by
  refine ⟨h.vocabulary, ?_⟩
  have first {ds ds' : List Device} (pairs : List.Forall₂ (Device.Matches R) ds ds') :
      List.Forall₂ (Device.Matches R) (updateFirst s f ds) (updateFirst s' f' ds') := by
    induction pairs with
    | nil => exact .nil
    | @cons d d' ds ds' pair pairs ih =>
      have same := eq_iff_of_biUnique one pair.symbol names
      by_cases hit : d.symbol = s
      · rw [updateFirst, if_pos hit, updateFirst, if_pos (same.mp hit)]
        exact .cons (related d d' pair) pairs
      · rw [updateFirst, if_neg hit, updateFirst, if_neg (fun hit' => hit (same.mpr hit'))]
        exact .cons pair ih
  exact first h.devices

theorem Matches.declare (names : R s s') (kind : Kind) (first second : Option Nat) :
    Except.Rel (Matches R) (n.declare s kind first second) (n'.declare s' kind first second) := by
  rw [Netlist.declare, Netlist.declare, isSome_eq_of_rel (h.device? one names)]
  split
  · exact .error _
  · exact (Device.rel_make one names h.vocabulary kind first second).map fun _ _ pair => h.add pair

theorem Matches.started : n.started.Matches R n'.started :=
  h.map fun _ _ pair => pair.started one h.vocabulary.flipFlop

theorem Matches.stepSources : n.stepSources.Matches R n'.stepSources :=
  h.map fun _ _ pair => pair.stepped one

theorem Matches.level? (names : o.Matches R o') : n.level? o = n'.level? o' :=
  bind_eq_of_rel (fun _ _ pair => eq_of_rel_eq (pair.outputs.get? (biUnique_rel one) names.2))
    (h.device? one names.1)

theorem Matches.driver? (names : R s s') (pins : R pin pin') :
    Option.Rel (Terminal.Matches R) (n.driver? s pin) (n'.driver? s' pin') :=
  rel_bind (fun _ _ pair => pair.driver? one pins) (h.device? one names)

theorem Matches.reads (names : R s s') (pins : R pin pin') : n.reads s pin = n'.reads s' pin' :=
  bind_eq_of_rel (fun _ _ outputs => h.level? one outputs) (h.driver? one names pins)

theorem Matches.wired (names : R s s') (pins : R pin pin') (outputs : o.Matches R o') :
    (n.update s (Device.wired pin o)).Matches R (n'.update s' (Device.wired pin' o')) :=
  h.update one names fun _ _ pair => pair.wired one pins outputs

/-- Two ends are connected or refused alike. -/
theorem Matches.connect (firsts : a.Matches R a') (seconds : b.Matches R b') :
    Except.Rel (Matches R) (n.connect a b) (n'.connect a' b') := by
  have found := h.device? one firsts.1
  have found' := h.device? one seconds.1
  unfold Netlist.connect
  generalize n.device? a.device = x at found
  generalize n'.device? a'.device = x' at found
  generalize n.device? b.device = y at found'
  generalize n'.device? b'.device = y' at found'
  cases found with
  | none => exact .error _
  | @some d d' first =>
    cases found' with
    | none => exact .error _
    | @some e e' second =>
      have input := first.input? one firsts.2
      have input' := second.input? one seconds.2
      have output := first.hasOutput one firsts.2
      have output' := second.hasOutput one seconds.2
      have taken' := second.hasInput one seconds.2
      dsimp only
      rw [output, output', taken']
      generalize d.input? a.pin = i at input
      generalize d'.input? a'.pin = i' at input
      generalize e.input? b.pin = j at input'
      generalize e'.input? b'.pin = j' at input'
      cases input with
      | @some i i' pair =>
        obtain ⟨pin, driver⟩ := i
        obtain ⟨pin', driver'⟩ := i'
        obtain ⟨pins, drivers⟩ := pair
        cases drivers with
        | some _ => exact .error _
        | none =>
          dsimp only
          split
          · exact .error _
          · split
            · exact .ok (h.wired one firsts.1 pins seconds)
            · exact .error _
      | none =>
        dsimp only
        split
        · split
          · exact .error _
          · cases input' with
            | none => exact .error _
            | @some j j' pair =>
              obtain ⟨pin, driver⟩ := j
              obtain ⟨pin', driver'⟩ := j'
              obtain ⟨pins, drivers⟩ := pair
              cases drivers with
              | some _ => exact .error _
              | none => exact .ok (h.wired one seconds.1 pins firsts)
        · exact .error _

end

/-! Wiring of loose inputs. -/

end Netlist

namespace Device

variable {d : Device} {o : Terminal} {p q : Symbol}

/-- Lets an output drive an input, if there is such an input and nothing drives it. -/
def linked (o : Terminal) (pin : Symbol) (d : Device) : Device :=
  if d.hasOutput (some pin) = false ∧ d.inputs.get? pin = some none then d.wired pin o else d

theorem symbol_linked (d : Device) : (d.linked o p).symbol = d.symbol := by
  rw [linked]
  split <;> rfl

theorem hasOutput_linked (d : Device) (pin : Option Symbol) :
    (d.linked o p).hasOutput pin = d.hasOutput pin := by
  rw [linked]
  split <;> rfl

theorem linked_comm (d : Device) : (d.linked o q).linked o p = (d.linked o p).linked o q := by
  by_cases same : p = q
  · rw [same]
  · have apart {p q : Symbol} (other : p ≠ q) :
        (d.linked o q).linked o p =
          if d.hasOutput (some p) = false ∧ d.inputs.get? p = some none then
            (d.linked o q).wired p o
          else d.linked o q := by
      have free : (d.linked o q).inputs.get? p = d.inputs.get? p := by
        rw [linked]
        split
        · exact PinMap.get?_insert_of_ne _ _ other
        · rfl
      rw [linked, hasOutput_linked, free]
    rw [apart same, apart (Ne.symm same), linked, linked]
    split
    · split
      · simp only [wired, PinMap.insert_comm d.inputs same]
      · rfl
    · rfl

end Device

namespace Netlist

variable {n n' : Netlist} {g g' s t : Symbol}

theorem updateFirst_comm {f h : Device → Device} (hf : ∀ d, (f d).symbol = d.symbol)
    (hh : ∀ d, (h d).symbol = d.symbol) (comm : ∀ d, f (h d) = h (f d)) (ds : List Device) :
    updateFirst s f (updateFirst t h ds) = updateFirst t h (updateFirst s f ds) := by
  induction ds with
  | nil => rfl
  | cons d rest ih =>
    by_cases first : d.symbol = s <;> by_cases second : d.symbol = t
    · simp only [updateFirst, hf, hh, if_pos first, if_pos second, comm]
    · simp only [updateFirst, hf, if_pos first, if_neg second]
    · simp only [updateFirst, hh, if_neg first, if_pos second]
    · simp only [updateFirst, if_neg first, if_neg second, ih]

theorem update_eq_of_device? {d : Device} {f : Device → Device} (found : n.device? s = some d) :
    n.update s f = n.update s fun _ => f d := by
  have first (ds : List Device) (found : ds.find? (fun d => d.symbol = s) = some d) :
      updateFirst s f ds = updateFirst s (fun _ => f d) ds := by
    induction ds with
    | nil => rfl
    | cons e rest ih =>
      by_cases hit : e.symbol = s
      · simp only [List.find?_cons, hit, decide_true, Option.some.injEq] at found
        rw [updateFirst, updateFirst, if_pos hit, if_pos hit, found]
      · simp only [List.find?_cons, hit, decide_false] at found
        rw [updateFirst, updateFirst, if_neg hit, if_neg hit, ih found]
  rw [update, update, first n.devices found]

/-- Connecting the unnamed output of a device goes by what the device with the input is like. -/
theorem connect_eq_linked (n : Netlist) (g : Symbol) (i : Symbol × Symbol) :
    ((n.connect ⟨g, none⟩ ⟨i.1, some i.2⟩).toOption.getD n) =
      if (n.device? g).any (Device.hasOutput · none) then
        n.update i.1 (Device.linked ⟨g, none⟩ i.2)
      else n := by
  rw [connect]
  cases source : n.device? g with
  | none => rfl
  | some d =>
    cases target : n.device? i.1 with
    | none =>
      have absent := updateFirst_of_not_mem (f := Device.linked ⟨g, none⟩ i.2)
        (device?_eq_none_iff.mp target)
      simp [Except.toOption, update, absent]
    | some e =>
      rw [update_eq_of_device? target]
      by_cases shown : d.hasOutput none = true
      · by_cases taken : e.hasOutput (some i.2) = true
        · have same : e.linked ⟨g, none⟩ i.2 = e := by simp [Device.linked, taken]
          simp [Device.input?, shown, taken, same, update_of_device? target, Except.toOption]
        · cases input : e.inputs.get? i.2 with
          | none =>
            have same : e.linked ⟨g, none⟩ i.2 = e := by simp [Device.linked, input]
            simp [Device.input?, shown, taken, input, same, update_of_device? target,
              Except.toOption]
          | some driver =>
            cases driver with
            | some _ =>
              have same : e.linked ⟨g, none⟩ i.2 = e := by simp [Device.linked, input]
              simp [Device.input?, shown, taken, input, same, update_of_device? target,
                Except.toOption]
            | none =>
              have same : e.linked ⟨g, none⟩ i.2 = e.wired i.2 ⟨g, none⟩ := by
                simp [Device.linked, input, taken]
              simp [Device.input?, shown, taken, input, same, Except.toOption,
                update_eq_of_device? target]
      · simp [Device.input?, shown, Except.toOption]

theorem any_device?_linked (n : Netlist) (g s p : Symbol) (o : Terminal) (pin : Option Symbol) :
    ((n.update s (Device.linked o p)).device? g).any (Device.hasOutput · pin) =
      (n.device? g).any (Device.hasOutput · pin) := by
  by_cases same : g = s
  · subst same
    rw [device?_update_self n fun d eq => (Device.symbol_linked d).trans eq]
    cases n.device? g with
    | none => rfl
    | some d => exact Device.hasOutput_linked d pin
  · rw [device?_update_of_ne n (fun d eq => (Device.symbol_linked d).trans eq) same]

/-- It does not matter in what order inputs are connected to one output. -/
theorem connectAll_perm (n : Netlist) (g : Symbol) {l l' : List (Symbol × Symbol)}
    (h : l.Perm l') : n.connectAll ⟨g, none⟩ l = n.connectAll ⟨g, none⟩ l' := by
  have comm : RightCommutative fun (n : Netlist) (i : Symbol × Symbol) =>
      (n.connect ⟨g, none⟩ ⟨i.1, some i.2⟩).toOption.getD n := by
    refine ⟨fun n i j => ?_⟩
    simp only [connect_eq_linked]
    by_cases shown : (n.device? g).any (Device.hasOutput · none) = true
    · simp only [shown, if_true, any_device?_linked]
      have swap := updateFirst_comm (s := j.1) (t := i.1) (f := Device.linked ⟨g, none⟩ j.2)
        (h := Device.linked ⟨g, none⟩ i.2) Device.symbol_linked Device.symbol_linked
        Device.linked_comm n.devices
      simp only [update, swap]
    · simp only [shown, if_false, Bool.false_eq_true]
  exact h.foldl_eq n

section

variable (one : BiUnique R) (h : n.Matches R n')
include one h

theorem Matches.connectAll {o o' : Terminal} (outputs : o.Matches R o')
    {l l' : List (Symbol × Symbol)}
    (inputs : List.Forall₂ (fun i i' => R i.1 i'.1 ∧ R i.2 i'.2) l l') :
    (n.connectAll o l).Matches R (n'.connectAll o' l') := by
  induction inputs generalizing n n' with
  | nil => exact h
  | @cons i i' l l' pair _ ih =>
    have step : Except.Rel (Matches R) (n.connect o ⟨i.1, some i.2⟩)
        (n'.connect o' ⟨i'.1, some i'.2⟩) := h.connect one outputs ⟨pair.1, .some pair.2⟩
    have next : ((n.connect o ⟨i.1, some i.2⟩).toOption.getD n).Matches R
        ((n'.connect o' ⟨i'.1, some i'.2⟩).toOption.getD n') := by
      generalize n.connect o ⟨i.1, some i.2⟩ = x at step
      generalize n'.connect o' ⟨i'.1, some i'.2⟩ = x' at step
      cases step with
      | ok built => exact built
      | error e => exact h
    exact ih next

/-- The loose inputs are the same, but those of one device may come in another order. -/
theorem Matches.floatingOf (kinds : Kind → Bool) :
    ∃ l, List.Forall₂ (fun i i' => R i.1 i'.1 ∧ R i.2 i'.2) (n.floatingOf kinds) l ∧
      l.Perm (n'.floatingOf kinds) := by
  have pairs := h.filter kinds
  rw [Netlist.floatingOf, Netlist.floatingOf]
  generalize n.devices.filter (fun d => kinds d.kind) = ds at pairs ⊢
  generalize n'.devices.filter (fun d => kinds d.kind) = ds' at pairs ⊢
  induction pairs with
  | nil => exact ⟨[], .nil, .nil⟩
  | @cons d d' ds ds' pair _ ih =>
    obtain ⟨ps, pins, perm⟩ := pair.floating one
    obtain ⟨l, inputs, perm'⟩ := ih
    refine ⟨ps.map (fun pin => (d'.symbol, pin)) ++ l, ?_, ?_⟩
    · refine List.rel_append ?_ inputs
      rw [List.forall₂_map_left_iff, List.forall₂_map_right_iff]
      exact pins.imp fun _ _ names => ⟨pair.symbol, names⟩
    · exact (perm.map _).append perm'

theorem Matches.addSwitch {s s' : Symbol} (names : R s s') (level : Level) :
    (n.addSwitch s level).Matches R (n'.addSwitch s' level) :=
  h.add (Device.matches_newSwitch one names level)

theorem Matches.grounded (names : R g g') : (n.grounded g).Matches R (n'.grounded g') := by
  obtain ⟨l, inputs, perm⟩ := h.floatingOf one fun kind => kind = .flipFlop
  rw [Netlist.grounded, Netlist.grounded, ← connectAll_perm _ _ perm,
    isSome_eq_of_rel (h.device? one names)]
  refine Matches.connectAll one ?_ ⟨names, .none⟩ inputs
  split
  · exact h
  · exact h.addSwitch one names .low

end

/-! The parts of a cycle. -/

section

open EStateM (Result.Rel)

variable (one : BiUnique R) (h : n.Matches R n')
include one h

theorem Matches.latch {s s' : Symbol} (names : R s s') :
    Result.Rel (Matches R) (latch s n) (latch s' n') := by
  have pins := h.vocabulary.flipFlop
  rw [Netlist.latch, Netlist.latch, h.reads one names pins.clock, h.reads one names pins.data]
  split
  · exact .error _ h
  · split
    · exact .error _ h
    · exact .ok _ (h.update one names fun _ _ pair => pair.remembering _)
  · exact .ok _ h

theorem Matches.latchAll {l l' : List Symbol} (names : List.Forall₂ R l l') :
    Result.Rel (Matches R) (latchAll l n) (latchAll l' n') := by
  induction names generalizing n n' with
  | nil => exact .ok _ h
  | cons pair _ ih => exact (h.latch one pair).bind fun _ _ _ next => ih next

theorem Matches.refresh {s s' : Symbol} (names : R s s') :
    Result.Rel (Matches R) (refresh s n) (refresh s' n') := by
  have found := h.device? one names
  rw [Netlist.refresh, Netlist.refresh]
  generalize n.device? s = x at found
  generalize n'.device? s' = x' at found
  cases found with
  | none => exact .error _ h
  | @some d d' pair =>
    have answer : Option.Rel (Device.Matches R) (d.respond n.vocabulary.flipFlop n.level?)
        (d'.respond n'.vocabulary.flipFlop n'.level?) :=
      pair.respond one h.vocabulary.flipFlop fun _ _ outputs => h.level? one outputs
    dsimp only
    generalize d.respond n.vocabulary.flipFlop n.level? = y at answer
    generalize d'.respond n'.vocabulary.flipFlop n'.level? = y' at answer
    cases answer with
    | none => exact .error _ h
    | @some e e' pair' =>
      have still := pair'.outputs.eq_iff (biUnique_rel one) pair.outputs
      simp only [still]
      exact .ok _ (h.update one names fun _ _ _ => pair')

theorem Matches.sweep {l l' : List Symbol} (names : List.Forall₂ R l l') :
    Result.Rel (Matches R) (sweep l n) (sweep l' n') := by
  induction names generalizing n n' with
  | nil => exact .ok _ h
  | cons pair _ ih =>
    exact (h.refresh one pair).bind fun _ _ _ next => (ih next).bind fun _ _ _ last => .ok _ last

theorem Matches.settle {l l' : List Symbol} (names : List.Forall₂ R l l') (passes : Nat) :
    Result.Rel (Matches R) (settle l passes n) (settle l' passes n') := by
  induction passes generalizing n n' with
  | zero => exact .error _ h
  | succ passes ih =>
    refine (h.sweep one names).bind fun still _ _ next => ?_
    cases still with
    | true => exact .ok _ next
    | false => exact ih next

theorem Matches.cycle (limit : Nat) : Result.Rel (Matches R) (n.cycle limit) (n'.cycle limit) := by
  have stepped := h.stepSources one
  have latched := stepped.latchAll one (stepped.symbolsOf .flipFlop)
  exact latched.bind fun _ _ _ next => next.settle one next.symbols limit

end

end Netlist

end LogicCircuit
