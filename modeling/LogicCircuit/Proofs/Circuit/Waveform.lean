import LogicCircuit.Proofs.Circuit.Composition
import LogicCircuit.Proofs.Circuit.Operations
import LogicCircuit.Proofs.Device.Waveform
import LogicCircuit.Proofs.Netlist.Sources
import LogicCircuit.Text.Decimal

/-!
What clocks and generators show in the course of a circuit: it depends on how many cycles have begun
since the last start, and neither on how these were split into runs nor on any other device.
-/

namespace LogicCircuit.Circuit

open LogicCircuit.Text

variable {c : Circuit} {s : Symbol} {d : Device} {half high low counter since : Nat}

/-- How many cycles have begun since the last start, after a call. -/
def Call.begun (c : Circuit) (since : Nat) : Call → Nat
  | .run cycles => c.started.netlist.begins c.limit cycles
  | .resume cycles => since + c.netlist.begins c.limit cycles
  | .setSwitch _ _ => since

/-- How many cycles have begun since the last start, after several calls. -/
def begunAfter (since : Nat) (c : Circuit) : List Call → Nat
  | [] => since
  | call :: rest => begunAfter (call.begun c since) (call.apply c) rest

/-- Whether a call, if it is a run, goes through. -/
def Call.completes (c : Circuit) : Call → Bool
  | .run cycles => (Circuit.run cycles c).isOk
  | .resume cycles => (Circuit.resume cycles c).isOk
  | .setSwitch _ _ => true

/-- Whether all runs among the calls go through. -/
def completes (c : Circuit) : List Call → Bool
  | [] => true
  | call :: rest => call.completes c && completes (call.apply c) rest

/-! The count of cycles. -/

theorem begun_of_isOk {cycles : Nat} (whole : (resume cycles c).isOk = true) :
    c.netlist.begins c.limit cycles = cycles ∧
      (resume cycles c).state.cycles = c.cycles + cycles := by
  obtain ⟨_, b, run⟩ := EStateM.Result.exists_of_isOk whole
  obtain ⟨complete, -⟩ := resume_ok_iff.mp run
  refine ⟨Netlist.begins_of_complete complete, ?_⟩
  rw [state_resume, advanced, complete]

theorem Call.begun_of_completes {call : Call} (whole : call.completes c = true)
    (count : since = c.cycles) : call.begun c since = (call.apply c).cycles := by
  cases call with
  | run cycles =>
    obtain ⟨all, total⟩ := begun_of_isOk (c := c.started) whole
    exact all.trans ((Nat.zero_add cycles).symm.trans total.symm)
  | resume cycles =>
    obtain ⟨all, total⟩ := begun_of_isOk whole
    rw [begun, all, count]
    exact total.symm
  | setSwitch name isHigh =>
    rw [begun, count, apply]
    split
    · next c' done =>
      obtain ⟨-, n, -, rfl⟩ := setSwitch_ok_iff.mp done
      rfl
    · rfl

/-- As long as all runs go through, the cycles that have begun are those that the circuit counts. -/
theorem begunAfter_of_completes {calls : List Call} (whole : c.completes calls = true)
    (count : since = c.cycles) : begunAfter since c calls = (c.after calls).cycles := by
  induction calls generalizing c since with
  | nil => exact count
  | cons call rest ih =>
    rw [completes, Bool.and_eq_true] at whole
    exact ih whole.2 (Call.begun_of_completes whole.1 count)

/-! Sources that are no switches. -/

section
variable (source : d.kind.isSource = true) (other : d.kind ≠ .switch)
include source other

theorem Call.device?_source (found : c.netlist.device? s =
    some (Device.stepped^[since] (d.started c.netlist.vocabulary.flipFlop))) (call : Call) :
    (call.apply c).netlist.device? s = some (Device.stepped^[call.begun c since]
      (d.started (call.apply c).netlist.vocabulary.flipFlop)) := by
  have kind (pins : FlipFlopPins) (k : Nat) :
      (Device.stepped^[k] (d.started pins)).kind = d.kind := by
    rw [Device.kind_iterate_stepped, (Device.started_frame pins d).2.1]
  have source' (pins : FlipFlopPins) (k : Nat) :
      (Device.stepped^[k] (d.started pins)).kind.isSource = true := (kind pins k).symm ▸ source
  cases call with
  | run cycles =>
    have start : c.started.netlist.device? s =
        some (d.started c.netlist.vocabulary.flipFlop) := by
      change c.netlist.started.device? s = _
      rw [Netlist.started, Netlist.device?_map fun d => (Device.started_frame _ d).1, found,
        Option.map_some, Device.started_iterate_stepped, Device.started_started]
    rw [apply, state_run, Device.started_of_isSource source]
    exact Netlist.device?_advanced_of_isSource start (source' _ 0) c.limit cycles
  | resume cycles =>
    rw [apply, state_resume, Device.started_of_isSource source, begun, Nat.add_comm since,
      Function.iterate_add_apply]
    exact Netlist.device?_advanced_of_isSource found (source' _ since) c.limit cycles
  | setSwitch name isHigh =>
    rw [apply, Device.started_of_isSource source]
    split
    · next c' done =>
      obtain ⟨-, n, set, rfl⟩ := setSwitch_ok_iff.mp done
      obtain ⟨e, switch, setting, -⟩ := Netlist.setSwitch?_eq_some_iff.mp set
      have apart : s ≠ c.symbols.symbol name := by
        intro same
        rw [← same, found, Option.some.injEq] at switch
        exact other ((kind _ since).symm.trans (switch ▸ setting))
      rw [begun, Netlist.device?_setSwitch_of_ne set apart]
      exact found
    · exact found

theorem device?_source_after (found : c.netlist.device? s =
    some (Device.stepped^[since] (d.started c.netlist.vocabulary.flipFlop)))
    (calls : List Call) : (c.after calls).netlist.device? s =
      some (Device.stepped^[begunAfter since c calls]
        (d.started (c.after calls).netlist.vocabulary.flipFlop)) := by
  induction calls generalizing c since with
  | nil => exact found
  | cons call rest ih => exact ih (call.device?_source source other found)

/-- After a start, whatever calls come after it. -/
theorem device?_source_started (found : c.netlist.device? s = some d) (calls : List Call) :
    (c.started.after calls).netlist.device? s = some (Device.stepped^[begunAfter 0 c.started calls]
      (d.started (c.started.after calls).netlist.vocabulary.flipFlop)) := by
  refine device?_source_after source other ?_ calls
  change c.netlist.started.device? s = _
  rw [Netlist.started, Netlist.device?_map fun d => (Device.started_frame _ d).1, found]
  rfl

end

/-- A clock and a generator of a long period, with a gate between the clock and a switch. -/
def timers : Circuit :=
  let t := SymbolTable.ofList (Vocabulary.words ++ ["C", "G", "S", "A"])
  let input (i : Nat) : Symbol := (Vocabulary.ofTable t).gateInputs.getD i ⟨0⟩
  let declared := (Netlist.empty t).declareAll
    [(t.symbol "C", .clock, some 2, none),
      (t.symbol "G", .generator, some 2, some (Decimal.bound - 1)),
      (t.symbol "S", .switch, some 0, none), (t.symbol "A", .gate .and, some 2, none)]
  let clocked := declared.connectAll ⟨t.symbol "C", none⟩ [(t.symbol "A", input 0)]
  let gated := clocked.connectAll ⟨t.symbol "S", none⟩ [(t.symbol "A", input 1)]
  ⟨t, gated, defaultLimit, [], 0⟩

/-- A run of the circuit in several parts, after a start that is made twice. -/
def timing : List Call :=
  [.resume 1, .setSwitch "S" true, .run 2, .setSwitch "S" false, .resume 4]

theorem timers_complete : timers.started.completes timing = true ∧
    (timers.started.after timing).cycles = 6 := by
  decide +kernel

/-- A clock shows what the number of cycles since the start says, and its counter stays within the
half period. -/
theorem clock_after_start (found : c.netlist.device? s = some d)
    (body : d.body = .clock half counter) (positive : 1 ≤ half) (bounded : half < Decimal.bound)
    (calls : List Call) :
    let k := begunAfter 0 c.started calls
    (c.started.completes calls = true → k = (c.started.after calls).cycles) ∧
    (1 ≤ k → (c.started.after calls).netlist.level? ⟨s, none⟩ = some (.ofClock half k)) ∧
    ∃ e, (c.started.after calls).netlist.device? s = some e ∧ e.body = .clock half (k % half) ∧
      ∃ sum, e.counted? = some sum ∧ sum < Decimal.bound := by
  intro k
  have source : d.kind.isSource = true := by simp [Device.kind, body, Body.kind, Kind.isSource]
  have other : d.kind ≠ .switch := by simp [Device.kind, body, Body.kind]
  have later := device?_source_started source other found calls
  rw [Device.iterate_stepped_clock positive body] at later
  refine ⟨fun whole => begunAfter_of_completes whole rfl, fun some_cycle => ?_, ?_⟩
  · rw [Netlist.level?, later, Option.bind_some, Device.clockAt, PinMap.get?_insert_self,
      if_neg (Nat.pos_iff_ne_zero.mp some_cycle)]
  · refine ⟨_, later, rfl, _, Device.counted?_of_clock rfl, ?_⟩
    exact Nat.lt_of_le_of_lt (Nat.mod_lt _ positive) bounded

theorem clock_timers : timers.started.completes timing = true ∧
    (timers.started.after timing).cycles = 6 ∧
    (timers.started.after timing).netlist.level? ⟨timers.symbols.symbol "C", none⟩ =
      some .rising := by
  have known : (timers.netlist.device? (timers.symbols.symbol "C")).any
      (fun d => d.body = .clock 2 0) = true := by
    decide +kernel
  obtain ⟨d, found, body⟩ := (Option.any_eq_true _ _).mp known
  obtain ⟨counts, shows, -⟩ :=
    clock_after_start found (of_decide_eq_true body) (by decide) (by decide) timing
  obtain ⟨whole, cycles⟩ := timers_complete
  rw [counts whole, cycles] at shows
  exact ⟨whole, cycles, shows (by decide)⟩

/-- A generator shows what the number of cycles since the start says, and its counter stays within
the longer phase. -/
theorem generator_after_start (found : c.netlist.device? s = some d)
    (body : d.body = .generator high low counter) (positive : 1 ≤ high ∧ 1 ≤ low)
    (bounded : high < Decimal.bound ∧ low < Decimal.bound) (calls : List Call) :
    let k := begunAfter 0 c.started calls
    (c.started.completes calls = true → k = (c.started.after calls).cycles) ∧
    (1 ≤ k → (c.started.after calls).netlist.level? ⟨s, none⟩ =
      some (.ofGenerator high low k)) ∧
    ∃ e now, (c.started.after calls).netlist.device? s = some e ∧
      e.body = .generator high low now ∧ now < Decimal.bound ∧
        ∀ sum ∈ e.counted?, sum < Decimal.bound := by
  intro k
  have source : d.kind.isSource = true := by simp [Device.kind, body, Body.kind, Kind.isSource]
  have other : d.kind ≠ .switch := by simp [Device.kind, body, Body.kind]
  have later := device?_source_started source other found calls
  rw [Device.iterate_stepped_generator positive.1 positive.2 body] at later
  have longest : max high low < Decimal.bound := max_lt bounded.1 bounded.2
  refine ⟨fun whole => begunAfter_of_completes whole rfl, fun _ => ?_, ?_⟩
  · rw [Netlist.level?, later, Option.bind_some, Device.generatorAt, PinMap.get?_insert_self]
  · refine ⟨_, _, later, rfl, ?_, fun sum counts => ?_⟩
    · refine Nat.lt_of_le_of_lt (Device.generatorCount_le positive.1 positive.2 _) ?_
      split
      · exact bounded.1
      · exact bounded.2
    · exact Nat.lt_of_le_of_lt (Device.counted?_of_generator rfl sum counts) longest

theorem generator_timers : timers.started.completes timing = true ∧
    (timers.started.after timing).cycles = 6 ∧
    (timers.started.after timing).netlist.level? ⟨timers.symbols.symbol "G", none⟩ =
      some .low := by
  have known : (timers.netlist.device? (timers.symbols.symbol "G")).any
      (fun d => d.body = .generator 2 (Decimal.bound - 1) 0) = true := by
    decide +kernel
  obtain ⟨d, found, body⟩ := (Option.any_eq_true _ _).mp known
  obtain ⟨counts, shows, -⟩ :=
    generator_after_start found (of_decide_eq_true body) (by decide) (by decide) timing
  obtain ⟨whole, cycles⟩ := timers_complete
  rw [counts whole, cycles] at shows
  exact ⟨whole, cycles, shows (by decide)⟩

end LogicCircuit.Circuit
