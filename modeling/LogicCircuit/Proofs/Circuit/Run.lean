import LogicCircuit.Circuit
import LogicCircuit.Proofs.Action
import Mathlib.Data.List.Basic

/-!
Runs, cycle by cycle: what two circuits have in common after each cycle, if each cycle keeps it, and
what their monitors have recorded by then.
-/

namespace LogicCircuit

namespace Monitors

variable {ms ms' : Monitors} {n n' : Netlist} {out : Terminal} {P : Terminal → Prop}

/-- On the outputs of some class the monitors of both lists have recorded the same. -/
def Agree (P : Terminal → Prop) (ms ms' : Monitors) : Prop :=
  ∀ m ∈ ms, ∀ m' ∈ ms', m.output = m'.output → P m.output → m.trace = m'.trace

theorem agree_reset (P : Terminal → Prop) (ms ms' : Monitors) : Agree P ms.reset ms'.reset := by
  intro m hm m' hm' _ _
  obtain ⟨_, -, rfl⟩ := List.mem_map.mp hm
  obtain ⟨_, -, rfl⟩ := List.mem_map.mp hm'
  rfl

theorem Agree.record (h : Agree P ms ms') (levels : ∀ out, P out → n.level? out = n'.level? out) :
    Agree P (ms.record n) (ms'.record n') := by
  intro m hm m' hm' same known
  obtain ⟨before, member, rfl⟩ := List.mem_map.mp hm
  obtain ⟨before', member', rfl⟩ := List.mem_map.mp hm'
  dsimp only at same known ⊢
  rw [h before member before' member' same known, levels _ known, same]

theorem outputs_reset (ms : Monitors) :
    ms.reset.map Monitor.output = ms.map Monitor.output := by
  rw [reset, List.map_map]
  rfl

theorem outputs_record (ms : Monitors) (n : Netlist) :
    (ms.record n).map Monitor.output = ms.map Monitor.output := by
  rw [record, List.map_map]
  rfl

theorem watches_iff : ms.watches out = true ↔ out ∈ ms.map Monitor.output := by
  simp [watches]

theorem Agree.exists_trace (h : Agree P ms ms') (known : P out)
    (watched : out ∈ ms.map Monitor.output) (watched' : out ∈ ms'.map Monitor.output) :
    ∃ trace, ms.trace? out = some trace ∧ ms'.trace? out = some trace := by
  have find {ms : Monitors} (watched : out ∈ ms.map Monitor.output) :
      ∃ m ∈ ms, m.output = out ∧ ms.trace? out = some m.trace := by
    obtain ⟨m, hm⟩ : ∃ m, (ms.find? fun m => m.output = out) = some m := by
      rw [← Option.isSome_iff_exists, List.find?_isSome]
      simpa using List.mem_map.mp watched
    exact ⟨m, List.mem_of_find?_eq_some hm, by simpa using List.find?_some hm,
      by rw [trace?, hm, Option.map_some]⟩
  obtain ⟨m, hm, output, eq⟩ := find watched
  obtain ⟨m', hm', output', eq'⟩ := find watched'
  refine ⟨m.trace, eq, ?_⟩
  rw [eq', h m hm m' hm' (output.trans output'.symm) (output ▸ known)]

end Monitors

namespace Circuit

variable {a a' b b' c c' : Circuit} {R : Nat → Circuit → Circuit → Prop} {cycles k : Nat}

theorem cycle_ok_iff : cycle c = .ok () c' ↔ ∃ n, c.netlist.cycle c.limit = .ok () n ∧
    c' = { c with netlist := n, monitors := c.monitors.record n, cycles := c.cycles + 1 } := by
  rw [cycle]
  cases h : c.netlist.cycle c.limit with
  | ok _ n =>
    simp only [EStateM.Result.ok.injEq, true_and, exists_eq_left', eq_comm]
  | error _ n => simp

theorem cycle_error_iff {o : Oscillation} : cycle c = .error o c' ↔
    ∃ stall n, c.netlist.cycle c.limit = .error stall n ∧ o = ⟨c.cycles⟩ ∧
      c' = { c with netlist := n } := by
  rw [cycle]
  cases h : c.netlist.cycle c.limit with
  | ok _ n => simp
  | error stall n =>
    simp only [EStateM.Result.error.injEq, and_assoc, exists_and_left, exists_eq_left', eq_comm]

theorem resume_succ_ok_iff : resume (k + 1) c = .ok () c' ↔
    ∃ c'', cycle c = .ok () c'' ∧ resume k c'' = .ok () c' :=
  EStateM.seq_ok_iff

/-- A run leaves the outputs under watch as they are. -/
theorem outputs_resume (run : resume k c = .ok () c') :
    c'.monitors.map Monitor.output = c.monitors.map Monitor.output := by
  induction k generalizing c with
  | zero =>
    obtain ⟨-, rfl⟩ := EStateM.pure_ok_iff.mp run
    rfl
  | succ k ih =>
    obtain ⟨d, first, later⟩ := resume_succ_ok_iff.mp run
    obtain ⟨n, -, rfl⟩ := cycle_ok_iff.mp first
    rw [ih later]
    exact Monitors.outputs_record _ n

theorem outputs_run (h : run k c = .ok () c') :
    c'.monitors.map Monitor.output = c.monitors.map Monitor.output :=
  (outputs_resume h).trans (Monitors.outputs_reset _)

/-- A relation to a circuit that runs, kept by each cycle while the rest of the run gets shorter,
holds after each cycle. -/
theorem exists_resume (step : ∀ rest a b b', R (rest + 1) a b → cycle b = .ok () b' →
    ∃ a', cycle a = .ok () a' ∧ R rest a' b') (start : R cycles a b)
    (run : resume cycles b = .ok () b') : ∀ k ≤ cycles, ∃ a'' b'',
      resume k a = .ok () a'' ∧ resume k b = .ok () b'' ∧ R (cycles - k) a'' b'' := by
  induction cycles generalizing a b with
  | zero =>
    intro k hk
    obtain rfl := Nat.le_zero.mp hk
    exact ⟨a, b, rfl, rfl, start⟩
  | succ cycles ih =>
    obtain ⟨d, first, later⟩ := resume_succ_ok_iff.mp run
    obtain ⟨e, first', next⟩ := step cycles a b d start first
    intro k hk
    cases k with
    | zero => exact ⟨a, b, rfl, rfl, start⟩
    | succ k =>
      obtain ⟨a'', b'', run', run'', related⟩ := ih next later k (by omega)
      refine ⟨a'', b'', resume_succ_ok_iff.mpr ⟨e, first', run'⟩,
        resume_succ_ok_iff.mpr ⟨d, first, run''⟩, ?_⟩
      rwa [Nat.add_sub_add_right]

/-- A circuit with one monitor. -/
def watching (n : Netlist) (output : Terminal) : Circuit :=
  ⟨SymbolTable.ofList Vocabulary.words, n, defaultLimit, [⟨output, []⟩], 0⟩

theorem netlist_watching (n : Netlist) (output : Terminal) : (watching n output).netlist = n := rfl

theorem limit_watching (n : Netlist) (output : Terminal) :
    (watching n output).limit = defaultLimit := rfl

theorem watches_watching (n : Netlist) (output : Terminal) :
    (watching n output).monitors.watches output = true := by
  simp [watching, Monitors.watches]

end Circuit

end LogicCircuit
