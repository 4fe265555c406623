import LogicCircuit.Netlist.Connect
import LogicCircuit.Proofs.Action
import LogicCircuit.Proofs.Device.Make
import LogicCircuit.Proofs.Device.Respond
import LogicCircuit.Proofs.Matching
import Mathlib.Data.List.Perm.Basic

/-!
Devices that are the same by name, each in its own table, are made alike, move on alike and respond
alike.
-/

namespace LogicCircuit

open Relator (BiUnique)

/-- Lists of values that are the same up to their order have them all, or both lack one. -/
theorem rel_mapM_perm {α β γ : Type} {f : α → Option γ} {g : β → Option γ} {l : List α}
    {l' : List β} (h : (l.map f).Perm (l'.map g)) : Option.Rel List.Perm (l.mapM f) (l'.mapM g) := by
  have known {as bs : List (Option γ)} {cs : List γ} (h : as.Perm bs) (eq : as = cs.map some) :
      ∃ ds : List γ, bs = ds.map some ∧ cs.Perm ds := by
    have order : Relation.Comp (fun bs ds => bs = List.map some ds) List.Perm bs cs := by
      rw [List.eq_map_comp_perm]
      simpa only [eq] using h.symm
    obtain ⟨ds, same, perm⟩ := order
    exact ⟨ds, same, perm.symm⟩
  cases first : l.mapM f with
  | some as =>
    obtain ⟨bs, eq, perm⟩ := known h (mapM_eq_some_iff.mp first)
    rw [mapM_eq_some_iff.mpr eq]
    exact .some perm
  | none =>
    cases second : l'.mapM g with
    | none => exact .none
    | some bs =>
      obtain ⟨as, eq, -⟩ := known h.symm (mapM_eq_some_iff.mp second)
      rw [mapM_eq_some_iff.mpr eq] at first
      cases first

/-- A gate does not see in what order it reads its inputs. -/
theorem Gate.combine_perm (g : Gate) {levels levels' : List Level} (h : levels.Perm levels') :
    g.combine levels = g.combine levels' := by
  cases g <;> simp only [combine, h.all_eq, h.any_eq, h.countP_eq]

variable {R : Symbol → Symbol → Prop}

namespace Device

variable {d d' : Device} {p p' : FlipFlopPins} {v v' : Vocabulary} {s s' : Symbol}
  {o o' : Terminal} {pin pin' : Symbol} {lv lv' : Terminal → Option Level}

/-- The devices have the same name, the same memory, and pins of the same names with the same
drivers and levels. -/
structure Matches (R : Symbol → Symbol → Prop) (d d' : Device) : Prop where
  symbol : R d.symbol d'.symbol
  body : d.body = d'.body
  inputs : d.inputs.Matches R (Option.Rel (Terminal.Matches R)) d'.inputs
  outputs : d.outputs.Matches (Option.Rel R) Eq d'.outputs

theorem Matches.kind (h : d.Matches R d') : d.kind = d'.kind :=
  congrArg Body.kind h.body

theorem Matches.ite {c : Prop} [Decidable c] {e e' : Device} (h : d.Matches R d')
    (h' : e.Matches R e') : (if c then d else e).Matches R (if c then d' else e') := by
  split
  · exact h
  · exact h'

/-- New levels on matching outputs. -/
theorem Matches.shown (h : d.Matches R d') {body : Body} {m m' : PinMap (Option Symbol) Level}
    (outputs : m.Matches (Option.Rel R) Eq m') :
    ({ d with body := body, outputs := m } : Device).Matches R
      { d' with body := body, outputs := m' } :=
  ⟨h.symbol, rfl, h.inputs, outputs⟩

section

variable (one : BiUnique R) (h : d.Matches R d')
include one h

theorem Matches.insert_none (level : Level) :
    (d.outputs.insert none level).Matches (Option.Rel R) Eq (d'.outputs.insert none level) :=
  h.outputs.insert (biUnique_rel one) .none rfl

theorem Matches.get?_none : d.outputs.get? none = d'.outputs.get? none :=
  eq_of_rel_eq (h.outputs.get? (biUnique_rel one) .none)

theorem Matches.insert_outputs (pins : p.Matches R p') (level level' : Level) :
    ((d.outputs.insert (some p.q) level).insert (some p.qbar) level').Matches (Option.Rel R) Eq
      ((d'.outputs.insert (some p'.q) level).insert (some p'.qbar) level') :=
  (h.outputs.insert (biUnique_rel one) (.some pins.q) rfl).insert (biUnique_rel one)
    (.some pins.qbar) rfl

theorem Matches.started (pins : p.Matches R p') : (d.started p).Matches R (d'.started p') := by
  rw [Device.started, Device.started, ← h.body]
  cases d.body with
  | gate g => exact h.shown (h.insert_none one _)
  | clock halfPeriod counter => exact h.shown (h.insert_none one _)
  | switch level => exact h.shown (h.insert_none one _)
  | flipFlop memory => exact h.shown (h.insert_outputs one pins _ _)
  | generator high low counter => exact h.shown (h.insert_none one _)

theorem Matches.stepped : d.stepped.Matches R d'.stepped := by
  rw [Device.stepped, Device.stepped, ← h.body, ← h.get?_none one]
  cases body : d.body with
  | gate g => exact h
  | clock halfPeriod counter =>
    exact .ite (h.shown (h.insert_none one _)) (h.shown (h.insert_none one _))
  | switch level => exact h.shown (h.insert_none one _)
  | flipFlop memory => exact h
  | generator high low counter =>
    exact .ite (h.shown (h.insert_none one _)) (h.shown (h.insert_none one _))

theorem Matches.driver? (pins : R pin pin') :
    Option.Rel (Terminal.Matches R) (d.driver? pin) (d'.driver? pin') := by
  have found := h.inputs.get? one pins
  rw [Device.driver?, Device.driver?]
  generalize d.inputs.get? pin = driver at found
  generalize d'.inputs.get? pin' = driver' at found
  cases found with
  | some drivers => exact drivers
  | none => exact .none

theorem Matches.reads (pins : R pin pin')
    (levels : ∀ o o', Terminal.Matches R o o' → lv o = lv' o') :
    d.reads lv pin = d'.reads lv' pin' :=
  bind_eq_of_rel levels (h.driver? one pins)

/-- All that a gate reads, in the order of its own pins each. -/
theorem Matches.reads_keys (levels : ∀ o o', Terminal.Matches R o o' → lv o = lv' o') :
    (d.inputs.keys.map (d.reads lv)).Perm (d'.inputs.keys.map (d'.reads lv')) := by
  obtain ⟨ks, pairs, perm⟩ := h.inputs.keys one
  have same : d.inputs.keys.map (d.reads lv) = ks.map (d'.reads lv') := by
    rw [← List.forall₂_eq_eq_eq, List.forall₂_map_left_iff, List.forall₂_map_right_iff]
    exact pairs.imp fun pin pin' pins => h.reads one pins levels
  rw [same]
  exact perm.map _

theorem Matches.respond (pins : p.Matches R p')
    (levels : ∀ o o', Terminal.Matches R o o' → lv o = lv' o') :
    Option.Rel (Device.Matches R) (d.respond p lv) (d'.respond p' lv') := by
  rw [Device.respond, Device.respond, ← h.body]
  cases body : d.body with
  | gate g =>
    refine rel_bind (fun levels levels' perm => ?_) (rel_mapM_perm (h.reads_keys one levels))
    rw [g.combine_perm perm]
    exact .some (h.shown (h.insert_none one _))
  | flipFlop memory =>
    rw [h.reads one pins.set levels, h.reads one pins.clear levels]
    cases d'.reads lv' p'.set with
    | none => exact .none
    | some set =>
      cases d'.reads lv' p'.clear with
      | none => exact .none
      | some clear => exact .some (h.shown (h.insert_outputs one pins _ _))
  | clock _ _ | switch _ | generator _ _ _ => exact .some h

end

theorem Matches.remembering (h : d.Matches R d') (level : Level) :
    (d.remembering level).Matches R (d'.remembering level) := by
  rw [Device.remembering, Device.remembering, ← h.body]
  cases d.body with
  | flipFlop memory => exact h.shown h.outputs
  | _ => exact h

theorem Matches.mono {S : Symbol → Symbol → Prop} (sub : ∀ s s', R s s' → S s s')
    (h : d.Matches R d') : d.Matches S d' where
  symbol := sub _ _ h.symbol
  body := h.body
  inputs := h.inputs.mono sub fun _ _ driver => by
    cases driver with
    | some drivers => exact .some (drivers.mono sub)
    | none => exact .none
  outputs := h.outputs.mono (fun _ _ => rel_mono sub) fun _ _ => id

/-! New devices. -/

section

variable (one : BiUnique R) (names : R s s')
include one names

theorem matches_fresh (pins : p.Matches R p') (body : Body) {inputs inputs' : List Symbol}
    (same : List.Forall₂ R inputs inputs') :
    (fresh p s body inputs).Matches R (fresh p' s' body inputs') := by
  have unwired : (⟨s, body, PinMap.replicate inputs none, PinMap.empty⟩ : Device).Matches R
      ⟨s', body, PinMap.replicate inputs' none, PinMap.empty⟩ :=
    ⟨names, rfl, PinMap.matches_replicate one same .none, PinMap.matches_empty⟩
  exact unwired.started one pins

theorem matches_newSwitch (level : Level) :
    (newSwitch s level).Matches R (newSwitch s' level) :=
  ⟨names, rfl, PinMap.matches_empty, PinMap.matches_empty.insert (biUnique_rel one) .none rfl⟩

theorem matches_newGate (vocabulary : v.Matches R v') (g : Gate) (n : Nat) :
    (newGate v s g n).Matches R (newGate v' s' g n) :=
  matches_fresh one names vocabulary.flipFlop _ (List.forall₂_take n vocabulary.gateInputs)

theorem rel_make (vocabulary : v.Matches R v') (kind : Kind) (first second : Option Nat) :
    Except.Rel (Device.Matches R) (make v s kind first second) (make v' s' kind first second) := by
  have pins := vocabulary.flipFlop
  unfold make
  split
  · exact .error _
  · split
    · exact .ok (matches_newGate one names vocabulary _ _)
    · exact .error _
    · exact .error _
    · split
      · exact .ok (matches_newGate one names vocabulary _ _)
      · exact .error _
    · exact .error _
    · split
      · exact .error _
      · exact .ok (matches_fresh one names pins _ .nil)
    · exact .error _
    · split
      · exact .error _
      · exact .ok (matches_newSwitch one names _)
    · exact .ok (matches_fresh one names pins _ pins.inputs)
    · exact .error _
    · split
      · exact .error _
      · split
        · exact .error _
        · exact .ok (matches_fresh one names pins _ .nil)
    · exact .error _

end

/-! Pins. -/

theorem Matches.hasOutput (one : BiUnique R) (h : d.Matches R d') {pin pin' : Option Symbol}
    (pins : Option.Rel R pin pin') : d.hasOutput pin = d'.hasOutput pin' :=
  h.outputs.contains (biUnique_rel one) pins

theorem Matches.input? (one : BiUnique R) (h : d.Matches R d') {pin pin' : Option Symbol}
    (pins : Option.Rel R pin pin') :
    Option.Rel (fun e e' => R e.1 e'.1 ∧ Option.Rel (Terminal.Matches R) e.2 e'.2)
      (d.input? pin) (d'.input? pin') := by
  cases pins with
  | none => exact .none
  | @some p p' names =>
    have found := h.inputs.get? one names
    simp only [Device.input?, Option.bind_some]
    generalize d.inputs.get? p = driver at found
    generalize d'.inputs.get? p' = driver' at found
    cases found with
    | some drivers => exact .some ⟨names, drivers⟩
    | none => exact .none

theorem Matches.hasInput (one : BiUnique R) (h : d.Matches R d') {pin pin' : Option Symbol}
    (pins : Option.Rel R pin pin') : d.hasInput pin = d'.hasInput pin' :=
  isSome_eq_of_rel (h.input? one pins)

theorem Matches.wired (one : BiUnique R) (h : d.Matches R d') (pins : R pin pin')
    (outputs : o.Matches R o') : (d.wired pin o).Matches R (d'.wired pin' o') :=
  ⟨h.symbol, h.body, h.inputs.insert one pins (.some outputs), h.outputs⟩

theorem Matches.floating (one : BiUnique R) (h : d.Matches R d') :
    ∃ ps, List.Forall₂ R d.floating ps ∧ ps.Perm d'.floating := by
  have distinct (e : Device) : e.floating.Nodup :=
    e.inputs.keys_nodup.sublist (List.filter_sublist.map _)
  refine exists_perm_of_biUnique one (distinct d) (distinct d') ?_ ?_
  · intro pin hp
    obtain ⟨pin', driver, pins, found, drivers⟩ := h.inputs.forth _ _ (mem_floating.mp hp)
    cases drivers
    exact ⟨pin', mem_floating.mpr found, pins⟩
  · intro pin' hp
    obtain ⟨pin, driver, pins, found, drivers⟩ := h.inputs.back _ _ (mem_floating.mp hp)
    cases drivers
    exact ⟨pin, mem_floating.mpr found, pins⟩

end Device

end LogicCircuit
