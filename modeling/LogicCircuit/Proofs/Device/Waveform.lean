import LogicCircuit.Device.Respond
import LogicCircuit.Proofs.PinMap
import Mathlib.Logic.Function.Iterate

/-!
The waveforms of clocks and generators in closed form. A source counts the cycles of one phase only
and finds the phase from the level that it shows; so both are followed step by step from a start.
-/

namespace LogicCircuit

variable {half k : Nat}

namespace Level

/-- What a clock of that half period shows after a number of cycles. -/
def ofClock (half cycles : Nat) : Level :=
  let phase := cycles % (2 * half)
  if phase = half then rising
  else if phase = 0 then falling
  else if half < phase then high
  else low

/-- What a generator shows after a number of cycles, the first of which is spent high. -/
def ofGenerator (high low cycles : Nat) : Level :=
  ofBool ((cycles - 1) % (high + low) < high)

/-- Whole half periods and the rest: an edge where the rest is nothing, and otherwise the level
that the last edge led to. -/
theorem ofClock_eq (positive : 1 ≤ half) (k : Nat) : ofClock half k =
    if k % half = 0 then (if k / half % 2 = 1 then rising else falling)
    else ofBool (k / half % 2 = 1) := by
  have rest : k % half < half := Nat.mod_lt k positive
  have phase : k % (2 * half) = k % half + half * (k / half % 2) := by
    rw [Nat.mul_comm 2 half, Nat.mod_mul]
  unfold ofClock
  rw [phase]
  obtain even | odd := Nat.mod_two_eq_zero_or_one (k / half)
  · have apart : ¬ k % half = half := by omega
    have below : ¬ half < k % half := by omega
    simp [even, apart, below, ofBool]
  · have some_half : half ≠ 0 := by omega
    by_cases edge : k % half = 0
    · simp [odd, edge]
    · have above : 0 < k % half := Nat.pos_of_ne_zero edge
      simp [odd, edge, some_half, ofBool, above]

/-- Once its edge is over, a clock is high in every second half period. -/
theorem settled_ofClock (positive : 1 ≤ half) (k : Nat) :
    (if k = 0 then .low else ofClock half k).settled = .ofBool (k / half % 2 = 1) := by
  by_cases first : k = 0
  · simp [first, settled, ofBool]
  · rw [if_neg first, ofClock_eq positive]
    by_cases edge : k % half = 0 <;> by_cases odd : k / half % 2 = 1 <;>
      simp [edge, odd, settled, ofBool]

/-- A half period of two cycles. -/
example : (List.range 6).map (fun k => ofClock 2 (k + 1)) =
    [low, rising, high, falling, low, rising] := by
  decide

end Level

/-- One cycle more completes a period or does not. -/
theorem next_rest {period : Nat} (positive : 1 ≤ period) (k : Nat) :
    (k % period + 1 = period ∧ (k + 1) % period = 0 ∧ (k + 1) / period = k / period + 1) ∨
      (k % period + 1 < period ∧ (k + 1) % period = k % period + 1 ∧
        (k + 1) / period = k / period) := by
  have rest : k % period < period := Nat.mod_lt k positive
  have whole : k % period + period * (k / period) = k := Nat.mod_add_div k period
  by_cases last : k % period + 1 = period
  · have next : (k + 1) / period = k / period + 1 ∧ (k + 1) % period = 0 := by
      rw [Nat.div_mod_unique positive, Nat.mul_add]
      omega
    exact Or.inl ⟨last, next.2, next.1⟩
  · have next : (k + 1) / period = k / period ∧ (k + 1) % period = k % period + 1 := by
      rw [Nat.div_mod_unique positive]
      omega
    exact Or.inr ⟨by omega, next.2, next.1⟩

namespace Device

variable {pins : FlipFlopPins} {d : Device} {high low counter : Nat}

/-- The sum that a source forms in its next step, if it counts on. -/
def counted? (d : Device) : Option Nat :=
  match d.body with
  | .clock _ counter => some (counter + 1)
  | .generator high low counter =>
    let current := ((d.outputs.get? none).map Level.isHigh).getD true
    if counter < (if current then high else low) then some (counter + 1) else none
  | .gate _ | .switch _ | .flipFlop _ => none

/-! Clocks. -/

/-- The device as a clock, after a number of cycles. -/
def clockAt (d : Device) (half k : Nat) : Device :=
  { d with
    body := .clock half (k % half)
    outputs := d.outputs.insert none (if k = 0 then .low else .ofClock half k) }

theorem stepped_clockAt (positive : 1 ≤ half) (k : Nat) :
    (d.clockAt half k).stepped = d.clockAt half (k + 1) := by
  have settled := Level.settled_ofClock positive k
  have high : (if k = 0 then .low else Level.ofClock half k).isHigh =
      decide (k / half % 2 = 1) := by
    rw [← Level.isHigh_settled, settled, Level.isHigh_ofBool]
  rw [stepped, clockAt, clockAt]
  dsimp only
  rw [PinMap.get?_insert_self, Option.getD_some, PinMap.insert_insert, PinMap.insert_insert,
    settled, high, if_neg (Nat.succ_ne_zero k), Level.ofClock_eq positive]
  obtain ⟨last, rest, turns⟩ | ⟨more, rest, turns⟩ := next_rest positive k
  · have toggles : (k / half + 1) % 2 = 1 ↔ ¬ k / half % 2 = 1 := by omega
    rw [if_pos (by omega), rest, turns, if_pos rfl]
    by_cases odd : k / half % 2 = 1 <;> simp [odd, toggles]
  · rw [if_neg (by omega), rest, turns, if_neg (Nat.succ_ne_zero _)]

/-- A clock after a start and a number of cycles. -/
theorem iterate_stepped_clock (positive : 1 ≤ half) (body : d.body = .clock half counter)
    (k : Nat) : stepped^[k] (d.started pins) = d.clockAt half k := by
  induction k with
  | zero => rw [Function.iterate_zero, id_eq, started, body, clockAt, if_pos rfl, Nat.zero_mod]
  | succ k ih => rw [Function.iterate_succ_apply', ih, stepped_clockAt positive]

theorem counted?_of_clock (body : d.body = .clock half counter) :
    d.counted? = some (counter + 1) := by
  rw [counted?, body]

/-! Generators. -/

/-- The cycles that a generator has spent in the phase in which it is. -/
def generatorCount (high low : Nat) : Nat → Nat
  | 0 => 0
  | k + 1 =>
    let position := k % (high + low)
    if position < high then position + 1 else position - high + 1

/-- The device as a generator, after a number of cycles. -/
def generatorAt (d : Device) (high low k : Nat) : Device :=
  { d with
    body := .generator high low (generatorCount high low k)
    outputs := d.outputs.insert none (.ofGenerator high low k) }

theorem ofGenerator_zero (positive : 1 ≤ high) : Level.ofGenerator high low 0 = .high := by
  have first : 0 < high := positive
  simp [Level.ofGenerator, Level.ofBool, first]

/-- A generator counts on in the phase in which it is, or begins the other one with a count of
one. -/
theorem generator_next (positive : 1 ≤ high) (positive' : 1 ≤ low) (k : Nat) :
    let current := (Level.ofGenerator high low k).isHigh
    let length := if current then high else low
    (generatorCount high low k < length ∧
        generatorCount high low (k + 1) = generatorCount high low k + 1 ∧
        Level.ofGenerator high low (k + 1) = .ofBool current) ∨
      (¬ generatorCount high low k < length ∧ generatorCount high low (k + 1) = 1 ∧
        Level.ofGenerator high low (k + 1) = .ofBool !current) := by
  have first : 0 < high := positive
  cases k with
  | zero => exact Or.inl (by simp [generatorCount, Level.ofGenerator, first])
  | succ k =>
    simp only [Level.ofGenerator, generatorCount, Level.isHigh_ofBool, Nat.add_sub_cancel]
    have period : 1 ≤ high + low := Nat.le_add_right_of_le positive
    obtain ⟨last, rest, -⟩ | ⟨more, rest, -⟩ := next_rest period k
    · -- the low phase ends
      have phase : ¬ k % (high + low) < high := by omega
      refine Or.inr ⟨?_, by simp [rest, first], by simp [rest, first, phase]⟩
      simp only [phase, decide_false, Bool.false_eq_true, if_false]
      omega
    · by_cases phase : k % (high + low) < high
      · by_cases on : k % (high + low) + 1 < high
        · exact Or.inl (by simp [rest, phase, on])
        · -- the high phase ends
          refine Or.inr ⟨by simp [phase, on], ?_, by simp [rest, phase, on]⟩
          rw [rest, if_neg on]
          omega
      · have on : ¬ k % (high + low) + 1 < high := by omega
        refine Or.inl ⟨?_, ?_, by simp [rest, phase, on]⟩
        · simp only [phase, decide_false, Bool.false_eq_true, if_false]
          omega
        · rw [rest, if_neg on, if_neg phase]
          omega

theorem stepped_generatorAt (positive : 1 ≤ high) (positive' : 1 ≤ low) (k : Nat) :
    (d.generatorAt high low k).stepped = d.generatorAt high low (k + 1) := by
  rw [stepped, generatorAt, generatorAt]
  dsimp only
  rw [PinMap.get?_insert_self, Option.map_some, Option.getD_some, PinMap.insert_insert,
    PinMap.insert_insert]
  obtain ⟨more, count, level⟩ | ⟨last, count, level⟩ := generator_next positive positive' k
  · rw [if_pos more, count, level]
  · rw [if_neg last, count, level]

/-- A generator after a start and a number of cycles. -/
theorem iterate_stepped_generator (positive : 1 ≤ high) (positive' : 1 ≤ low)
    (body : d.body = .generator high low counter) (k : Nat) :
    stepped^[k] (d.started pins) = d.generatorAt high low k := by
  induction k with
  | zero =>
    rw [Function.iterate_zero, id_eq, started, body, generatorAt, generatorCount,
      ofGenerator_zero positive]
  | succ k ih => rw [Function.iterate_succ_apply', ih, stepped_generatorAt positive positive']

/-- The count is within the phase. -/
theorem generatorCount_le (positive : 1 ≤ high) (positive' : 1 ≤ low) (k : Nat) :
    generatorCount high low k ≤
      if (Level.ofGenerator high low k).isHigh then high else low := by
  cases k with
  | zero => exact Nat.zero_le _
  | succ k =>
    have position : k % (high + low) < high + low := Nat.mod_lt k (by omega)
    simp only [generatorCount, Level.ofGenerator, Level.isHigh_ofBool, Nat.add_sub_cancel]
    by_cases phase : k % (high + low) < high
    · simpa only [phase, if_true, decide_true] using Nat.succ_le_of_lt phase
    · simp only [phase, decide_false, if_false, Bool.false_eq_true]
      omega

/-- A generator counts no further than to the end of a phase. -/
theorem counted?_of_generator (body : d.body = .generator high low counter) :
    ∀ n ∈ d.counted?, n ≤ max high low := by
  intro n counts
  simp only [counted?, body, Option.mem_def, Option.ite_none_right_eq_some, Option.some.injEq]
    at counts
  obtain ⟨more, rfl⟩ := counts
  generalize ((d.outputs.get? none).map Level.isHigh).getD true = current at more
  cases current with
  | true => exact Nat.le_trans more (Nat.le_max_left high low)
  | false => exact Nat.le_trans more (Nat.le_max_right high low)

end Device

end LogicCircuit
