import LogicCircuit.Device.Make
import LogicCircuit.Proofs.PinMap

/-!
The devices that can be made, kind by kind, with the numbers each is made from.
-/

namespace LogicCircuit

namespace Device

variable {v : Vocabulary} {s : Symbol} {k : Kind} {first second : Option Nat} {d : Device}

/-- The numbers that suit a kind, and the device that they make. -/
inductive Made (v : Vocabulary) (s : Symbol) : Kind → Option Nat → Option Nat → Device → Prop
  | gate (g : Gate) (n : Nat) (sized : g ≠ .xor) (low : 1 ≤ n) (high : n ≤ Gate.maxInputs) :
    Made v s (.gate g) (some n) none (newGate v s g n)
  | xor : Made v s (.gate .xor) none none (newGate v s .xor 2)
  | clock (n : Nat) (low : 1 ≤ n) :
    Made v s .clock (some n) none (fresh v.flipFlop s (.clock n 0) [])
  | switch (n : Nat) (high : n ≤ 1) :
    Made v s .switch (some n) none (newSwitch s (.ofBool (n == 1)))
  | flipFlop :
    Made v s .flipFlop none none (fresh v.flipFlop s (.flipFlop .low) v.flipFlop.inputs)
  | generator (n m : Nat) (high : 1 ≤ n) (low : 1 ≤ m) :
    Made v s .generator (some n) (some m) (fresh v.flipFlop s (.generator n m 0) [])

theorem made_of_make (h : make v s k first second = .ok d) : Made v s k first second d := by
  unfold make at h
  split at h
  · cases h
  · next wanted =>
    have none_of (other : k ≠ .generator) : second = none := by
      cases second with
      | none => rfl
      | some _ => exact absurd ⟨other, rfl⟩ wanted
    split at h
    · rw [none_of (by simp), ← Except.ok.inj h]
      exact Made.xor
    · cases h
    · cases h
    · next g n sized =>
      split at h
      · next range =>
        rw [none_of (by simp), ← Except.ok.inj h]
        exact Made.gate g n sized range.1 range.2
      · cases h
    · cases h
    · split at h
      · cases h
      · rw [none_of (by simp), ← Except.ok.inj h]
        exact Made.clock _ (by omega)
    · cases h
    · split at h
      · cases h
      · rw [none_of (by simp), ← Except.ok.inj h]
        exact Made.switch _ (by omega)
    · rw [none_of (by simp), ← Except.ok.inj h]
      exact Made.flipFlop
    · cases h
    · split at h
      · cases h
      · split at h
        · cases h
        · rw [← Except.ok.inj h]
          exact Made.generator _ _ (by omega) (by omega)
    · cases h

theorem make_of_made (h : Made v s k first second d) : make v s k first second = .ok d := by
  cases h with
  | gate g n sized low high => cases g <;> simp_all [make]
  | xor => rfl
  | clock n low => simp [make, Nat.ne_of_gt low]
  | switch n high => simp [make, Nat.not_lt.mpr high]
  | flipFlop => rfl
  | generator n m high low => simp [make, Nat.ne_of_gt high, Nat.ne_of_gt low]

theorem started_frame (pins : FlipFlopPins) (d : Device) :
    (d.started pins).symbol = d.symbol ∧ (d.started pins).kind = d.kind ∧
      (d.started pins).inputs = d.inputs := by
  rw [started]
  cases body : d.body <;> simp [kind, body, Body.kind]

theorem fresh_frame (pins : FlipFlopPins) (s : Symbol) (body : Body) (inputs : List Symbol) :
    (fresh pins s body inputs).symbol = s ∧ (fresh pins s body inputs).kind = body.kind ∧
      (fresh pins s body inputs).inputs = PinMap.replicate inputs none :=
  started_frame pins _

theorem mem_keys_fresh {pins : FlipFlopPins} {body : Body} {inputs : List Symbol} {pin : Symbol} :
    pin ∈ (fresh pins s body inputs).inputs.keys ↔ pin ∈ inputs := by
  rw [(fresh_frame pins s body inputs).2.2, PinMap.mem_keys_replicate]

theorem mem_floating {pin : Symbol} : pin ∈ d.floating ↔ d.inputs.get? pin = some none := by
  rw [Device.floating, List.mem_map]
  constructor
  · rintro ⟨⟨p, driver⟩, entry, rfl⟩
    obtain ⟨member, free⟩ := List.mem_filter.mp entry
    rw [Option.isNone_iff_eq_none] at free
    exact PinMap.mem_entries_iff.mp (free ▸ member)
  · intro found
    exact ⟨(pin, none), List.mem_filter.mpr ⟨PinMap.mem_entries_iff.mpr found, rfl⟩, rfl⟩

theorem Made.symbol (h : Made v s k first second d) : d.symbol = s := by
  cases h with
  | switch => rfl
  | _ => exact (fresh_frame _ _ _ _).1

theorem Made.kind (h : Made v s k first second d) : d.kind = k := by
  cases h with
  | switch => rfl
  | _ => exact (fresh_frame _ _ _ _).2.1

/-- No input of a new device is wired. -/
theorem Made.get?_inputs (h : Made v s k first second d) (pin : Symbol) :
    d.inputs.get? pin = if pin ∈ d.inputs.keys then some none else none := by
  have unwired (inputs : List Symbol) (eq : d.inputs = PinMap.replicate inputs none) :
      d.inputs.get? pin = if pin ∈ d.inputs.keys then some none else none := by
    simp only [eq, PinMap.mem_keys_replicate, PinMap.get?_replicate]
  cases h with
  | switch => exact unwired [] rfl
  | _ => exact unwired _ (fresh_frame _ _ _ _).2.2

theorem Made.driver? (h : Made v s k first second d) (pin : Symbol) : d.driver? pin = none := by
  rw [Device.driver?, h.get?_inputs]
  split <;> rfl

end Device

end LogicCircuit
