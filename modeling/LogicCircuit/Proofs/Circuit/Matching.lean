import LogicCircuit.Circuit
import LogicCircuit.Proofs.Netlist.Matching

/-!
Circuits that are the same by name run alike and are drawn alike.
-/

namespace LogicCircuit

open EStateM (Result.Rel)
open Relator (BiUnique)
open SymbolTable (SameName biUnique_sameName)

variable {R S : Symbol → Symbol → Prop} {n n' : Netlist} {t t' : SymbolTable}

/-- The monitors watch outputs of one name and have the same trace. -/
def Monitor.Matches (R : Symbol → Symbol → Prop) (m m' : Monitor) : Prop :=
  m.output.Matches R m'.output ∧ m.trace = m'.trace

namespace Monitors

variable {ms ms' : Monitors} {o o' : Terminal}

def Matches (R : Symbol → Symbol → Prop) (ms ms' : Monitors) : Prop :=
  List.Forall₂ (Monitor.Matches R) ms ms'

theorem Matches.mono (sub : ∀ s s', R s s' → S s s') (h : ms.Matches R ms') : ms.Matches S ms' :=
  h.imp fun _ _ pair => ⟨pair.1.mono sub, pair.2⟩

theorem Matches.reset (h : ms.Matches R ms') : ms.reset.Matches R ms'.reset :=
  List.rel_map (fun _ _ pair => ⟨pair.1, rfl⟩) h

section

variable (one : BiUnique R) (netlists : n.Matches R n') (h : ms.Matches R ms')
include one h

theorem Matches.watches (outputs : o.Matches R o') : ms.watches o = ms'.watches o' := by
  rw [Monitors.watches, Monitors.watches]
  induction h with
  | nil => rfl
  | @cons m m' ms ms' pair _ ih =>
    have same := eq_iff_of_biUnique (Terminal.biUnique_matches one) pair.1 outputs
    rw [List.any_cons, List.any_cons, ih, decide_eq_decide.mpr same]

include netlists

theorem Matches.watch (outputs : o.Matches R o') (cycles : Nat) :
    Except.Rel (Matches R) (ms.watch n o cycles) (ms'.watch n' o' cycles) := by
  have found := netlists.device? one outputs.1
  rw [Monitors.watch, Monitors.watch, h.watches one outputs]
  generalize n.device? o.device = x at found
  generalize n'.device? o'.device = x' at found
  cases found with
  | none => exact .error _
  | @some d d' pair =>
    dsimp only
    rw [pair.outputs.contains (biUnique_rel one) outputs.2]
    split
    · exact .error _
    · split
      · exact .error _
      · exact .ok (List.rel_append h (.cons ⟨outputs, rfl⟩ .nil))

theorem Matches.record : (ms.record n).Matches R (ms'.record n') :=
  List.rel_map (fun _ _ pair => ⟨pair.1, by rw [pair.2, netlists.level? one pair.1]⟩) h

end

/-! Drawings show names only. -/

theorem outputText?_eq (netlists : n.Matches (SameName t t') n')
    (outputs : o.Matches (SameName t t') o') : n.outputText? t o = n'.outputText? t' o' := by
  refine bind_eq_of_rel (fun d d' pair => ?_)
    (netlists.device? (biUnique_sameName t t') outputs.1)
  rw [pair.symbol.text?]
  obtain ⟨device, pin⟩ := o
  obtain ⟨device', pin'⟩ := o'
  cases outputs.2 with
  | none => rfl
  | some pins => simp only [pins.text?]

theorem label_eq (netlists : n.Matches (SameName t t') n') {m m' : Monitor}
    (pair : m.Matches (SameName t t') m') : label t n m = label t' n' m' := by
  rw [label, label, outputText?_eq netlists pair.1, pair.1.1.display]

theorem Matches.draw (netlists : n.Matches (SameName t t') n')
    (h : ms.Matches (SameName t t') ms') : ms.draw t n = ms'.draw t' n' := by
  have labels : ms.map (label t n) = ms'.map (label t' n') := by
    rw [← List.forall₂_eq_eq_eq]
    exact List.rel_map (fun _ _ pair => label_eq netlists pair) h
  have lines (width : Nat) : ms.map (fun m => drawLine width (label t n m) m.trace) =
      ms'.map fun m => drawLine width (label t' n' m) m.trace := by
    rw [← List.forall₂_eq_eq_eq]
    exact List.rel_map (fun _ _ pair => by rw [label_eq netlists pair, pair.2]) h
  simp only [Monitors.draw, labels, lines]

end Monitors

namespace Circuit

variable {c c' : Circuit}

/-- The circuits are the same by name: devices in the same states with the same wiring, and
monitors with the same traces. Their tables may hold other names besides. -/
structure Matches (c c' : Circuit) : Prop where
  netlist : c.netlist.Matches (SameName c.symbols c'.symbols) c'.netlist
  limit : c.limit = c'.limit
  monitors : c.monitors.Matches (SameName c.symbols c'.symbols) c'.monitors
  cycles : c.cycles = c'.cycles

theorem matches_withSymbols (t t' : SymbolTable) (limit : Nat) :
    (withSymbols t limit).Matches (withSymbols t' limit) := by
  have known (t : SymbolTable) : ∀ w ∈ Vocabulary.words, w ∈ (t.addAll Vocabulary.words).texts :=
    fun _ hw => SymbolTable.mem_addAll.mpr (.inl hw)
  have first := known t
  have second := known t'
  rw [withSymbols, withSymbols]
  generalize t.addAll Vocabulary.words = u at first ⊢
  generalize t'.addAll Vocabulary.words = u' at second ⊢
  exact ⟨⟨Vocabulary.matches_ofTable first second, .nil⟩, rfl, .nil, rfl⟩

/-- More names do not change what the circuits are by name. -/
theorem Matches.extended (h : c.Matches c') (grows : c.symbols.texts <+: t.texts)
    (grows' : c'.symbols.texts <+: t'.texts) :
    Matches { c with symbols := t } { c' with symbols := t' } :=
  have sub : ∀ s s', SameName c.symbols c'.symbols s s' → SameName t t' s s' :=
    fun _ _ names => names.mono grows grows'
  ⟨h.netlist.mono sub, h.limit, h.monitors.mono sub, h.cycles⟩

theorem Matches.draw (h : c.Matches c') : c.draw = c'.draw :=
  h.monitors.draw h.netlist

theorem Matches.started (h : c.Matches c') : c.started.Matches c'.started :=
  ⟨h.netlist.started (biUnique_sameName _ _), h.limit, h.monitors.reset, rfl⟩

theorem Matches.cycle (h : c.Matches c') : Result.Rel Matches (c.cycle) (c'.cycle) := by
  have one := biUnique_sameName c.symbols c'.symbols
  have step := h.netlist.cycle one c.limit
  rw [Circuit.cycle, Circuit.cycle, ← h.limit, ← h.cycles]
  generalize c.netlist.cycle c.limit = x at step
  generalize c'.netlist.cycle c.limit = x' at step
  cases step with
  | ok a next =>
    exact .ok () ⟨next, rfl, h.monitors.record one next, rfl⟩
  | error e next => exact .error _ ⟨next, rfl, h.monitors, rfl⟩

theorem Matches.resume (h : c.Matches c') (cycles : Nat) :
    Result.Rel Matches (resume cycles c) (resume cycles c') := by
  induction cycles generalizing c c' with
  | zero => exact .ok _ h
  | succ cycles ih => exact h.cycle.bind fun _ _ _ next => ih next

theorem Matches.run (h : c.Matches c') (cycles : Nat) :
    Result.Rel Matches (run cycles c) (run cycles c') :=
  h.started.resume cycles

end Circuit

end LogicCircuit
