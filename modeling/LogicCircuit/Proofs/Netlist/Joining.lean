import LogicCircuit.Proofs.Netlist.Editing

/-!
Connecting two ends of a netlist, a free input and an output, whichever of them comes first. That it
does not matter which does rests on the names of the pins: no output has the name of an input.
-/

namespace LogicCircuit

namespace Vocabulary

/-- The pins that inputs are named with, of flip-flops and of gates. -/
def inputPins (v : Vocabulary) : List Symbol :=
  v.flipFlop.inputs ++ v.gateInputs

theorem exists_of_mem_inputPins {t : SymbolTable} {pin : Symbol}
    (h : pin ∈ (ofTable t).inputPins) : ∃ w ∈ words, w ∉ ["Q", "QBAR"] ∧ t.symbol w = pin := by
  have inputs : (ofTable t).inputPins =
      (["CLK", "SET", "CLEAR", "DATA"] ++ gateInputTexts).map t.symbol := rfl
  have known : ∀ w ∈ ["CLK", "SET", "CLEAR", "DATA"] ++ gateInputTexts,
      w ∈ words ∧ w ∉ ["Q", "QBAR"] := by decide +kernel
  rw [inputs] at h
  obtain ⟨w, hw, same⟩ := List.mem_map.mp h
  exact ⟨w, (known w hw).1, (known w hw).2, same⟩

theorem IsProper.not_mem_inputPins {v : Vocabulary} (h : v.IsProper) {pin : Symbol}
    (output : pin ∈ v.flipFlop.outputs) : pin ∉ v.inputPins := by
  obtain ⟨t, known, rfl⟩ := h
  have outputs : (ofTable t).flipFlop.outputs = ["Q", "QBAR"].map t.symbol := rfl
  have words : ∀ w ∈ ["Q", "QBAR"], w ∈ words := by decide +kernel
  rw [outputs] at output
  obtain ⟨w, hw, rfl⟩ := List.mem_map.mp output
  intro input
  obtain ⟨u, -, other, same⟩ := exists_of_mem_inputPins input
  have eq := (SymbolTable.symbol_inj (known w (words w hw))).mp same.symm
  exact other (eq ▸ hw)

end Vocabulary

namespace Device

variable {v : Vocabulary} {d : Device} {pin : Symbol} {output : Terminal}

theorem HasPins.mem_inputPins (h : d.HasPins v) (input : pin ∈ d.inputs.keys) :
    pin ∈ v.inputPins := by
  obtain ⟨first, second, made, how, inputs, -⟩ := h
  rw [inputs] at input
  rw [Vocabulary.inputPins, List.mem_append]
  generalize d.kind = k at how
  cases how with
  | gate g n sized low high => exact .inr (List.mem_of_mem_take (mem_keys_fresh.mp input))
  | xor => exact .inr (List.mem_of_mem_take (mem_keys_fresh.mp input))
  | clock n low => exact absurd (mem_keys_fresh.mp input) List.not_mem_nil
  | switch n high => exact absurd input List.not_mem_nil
  | flipFlop => exact .inl (mem_keys_fresh.mp input)
  | generator n m high low => exact absurd (mem_keys_fresh.mp input) List.not_mem_nil

/-- Only gates and flip-flops have inputs. -/
theorem HasPins.mem_inputs (pins : d.HasPins v) (known : pin ∈ d.inputs.keys) :
    (∃ g, d.kind = .gate g) ∨ d.kind = .flipFlop ∧ pin ∈ v.flipFlop.inputs := by
  obtain ⟨first, second, made, how, inputs, -⟩ := pins
  rw [inputs] at known
  generalize d.kind = k at how ⊢
  cases how with
  | gate g | xor => exact Or.inl ⟨_, rfl⟩
  | flipFlop => exact Or.inr ⟨rfl, mem_keys_fresh.mp known⟩
  | switch => simp [newSwitch, PinMap.mem_keys_iff] at known
  | clock | generator => cases mem_keys_fresh.mp known

theorem HasPins.mem_outputs (h : d.HasPins v) (output : some pin ∈ d.outputs.keys) :
    pin ∈ v.flipFlop.outputs := by
  obtain ⟨first, second, made, how, -, outputs⟩ := h
  rw [outputs] at output
  have unnamed {m : PinMap (Option Symbol) Level} {level : Level}
      (single : m = PinMap.empty.insert none level) (named : some pin ∈ m.keys) :
      pin ∈ v.flipFlop.outputs := by
    rw [single, PinMap.mem_keys_single] at named
    cases named
  generalize d.kind = k at how
  cases how with
  | flipFlop =>
    obtain same | named := PinMap.mem_keys_insert.mp output
    · rw [Option.some.inj same]
      exact List.mem_cons_of_mem _ List.mem_cons_self
    · rw [Option.some.inj (PinMap.mem_keys_single.mp named)]
      exact List.mem_cons_self
  | _ => exact unnamed rfl output

theorem HasPins.wired (h : d.HasPins v) (input : pin ∈ d.inputs.keys) :
    (d.wired pin output).HasPins v := by
  obtain ⟨first, second, made, how, inputs, outputs⟩ := h
  exact ⟨first, second, made, how, (keys_wired input).trans inputs, outputs⟩

theorem hasInput_iff {p : Option Symbol} :
    d.hasInput p = true ↔ ∃ pin ∈ d.inputs.keys, p = some pin := by
  rw [hasInput, Option.isSome_iff_exists]
  constructor
  · rintro ⟨⟨pin, driver⟩, found⟩
    obtain ⟨named, known⟩ := input?_eq_some_iff.mp found
    exact ⟨pin, PinMap.mem_keys_iff.mpr (Option.isSome_iff_exists.mpr ⟨driver, known⟩), named⟩
  · rintro ⟨pin, member, named⟩
    obtain ⟨driver, known⟩ := Option.isSome_iff_exists.mp (PinMap.mem_keys_iff.mp member)
    exact ⟨⟨pin, driver⟩, input?_eq_some_iff.mpr ⟨named, known⟩⟩

/-- A pin does not name an input and an output at once. -/
theorem HasPins.not_hasInput (h : d.HasPins v) (words : v.IsProper) {p : Option Symbol}
    (output : d.hasOutput p = true) : d.hasInput p = false := by
  rw [Bool.eq_false_iff]
  intro input
  obtain ⟨pin, member, rfl⟩ := hasInput_iff.mp input
  have named := h.mem_outputs (PinMap.contains_iff.mp output)
  exact words.not_mem_inputPins named (h.mem_inputPins member)

end Device

namespace Netlist

variable {n m : Netlist} {a b input output : Terminal} {d e : Device} {s : Symbol}

/-- A netlist that was put together from devices and wires. A switch may come in under a name that
is in use, and is not found under it then. -/
inductive Composed : Netlist → Prop
  | empty (t : SymbolTable) (known : ∀ w ∈ Vocabulary.words, w ∈ t.texts) :
    Composed (Netlist.empty t)
  | declare {n m : Netlist} {s : Symbol} {kind : Kind} {first second : Option Nat}
    (before : Composed n) (step : n.declare s kind first second = .ok m) : Composed m
  | addSwitch {n : Netlist} (before : Composed n) (s : Symbol) (level : Level) :
    Composed (n.addSwitch s level)
  | connect {n m : Netlist} {first second : Terminal}
    (before : Composed n) (step : n.connect first second = .ok m) : Composed m

theorem additive_composed : Additive Composed :=
  ⟨fun _ _ _ _ _ _ h step => h.declare step, fun _ s level h _ => h.addSwitch s level,
    fun _ _ _ _ h step => h.connect step⟩

/-- All devices have the pins of their kind, in the words of one table. -/
structure Pinned (n : Netlist) : Prop where
  vocabulary : n.vocabulary.IsProper
  pins : ∀ d ∈ n.devices, d.HasPins n.vocabulary

theorem Pinned.add (h : n.Pinned) (pins : d.HasPins n.vocabulary) : (n.add d).Pinned := by
  refine ⟨h.vocabulary, fun e he => ?_⟩
  obtain old | new := List.mem_append.mp he
  · exact h.pins e old
  · exact List.mem_singleton.mp new ▸ pins

theorem Pinned.wires (h : n.Pinned) (wires : Wires n m input output) : m.Pinned := by
  obtain ⟨d, -, pin, found, -, -, free, -, rfl⟩ := wires
  have known : pin ∈ d.inputs.keys := PinMap.mem_keys_iff.mpr (by rw [free]; rfl)
  refine ⟨h.vocabulary, fun e he => ?_⟩
  obtain old | rfl := mem_update found he
  · exact h.pins e old
  · exact (h.pins d (mem_of_device? found)).wired known

theorem Composed.pinned (h : n.Composed) : n.Pinned := by
  induction h with
  | empty t known =>
    exact ⟨Vocabulary.isProper_ofTable known, fun d hd => absurd hd List.not_mem_nil⟩
  | declare before step ih =>
    obtain ⟨-, d, made, rfl⟩ := declare_ok_iff.mp step
    exact ih.add made.hasPins
  | addSwitch before s level ih =>
    exact ih.add ⟨some 0, none, _, .switch 0 (by decide), rfl, rfl⟩
  | connect before step ih =>
    obtain forward | backward := wires_of_connect step
    · exact ih.wires forward
    · exact ih.wires backward

theorem Proper.pinned (h : n.Proper) : n.Pinned :=
  ⟨h.vocabulary, fun d hd => h.pins d.symbol d (device?_of_mem h.nodup hd)⟩

/-! When two ends are connected, and to what. -/

/-- The end names an input of its device that nothing drives. -/
def FreeInput (n : Netlist) (input : Terminal) : Prop :=
  ∃ d pin, n.device? input.device = some d ∧ input.pin = some pin ∧ d.inputs.get? pin = some none

/-- The device found under the name of an input has that input driven by the output in the second
netlist, and is the same otherwise, as all other devices are; in the first netlist nothing drives
that input. -/
structure Joined (n m : Netlist) (input output : Terminal) : Prop where
  vocabulary : m.vocabulary = n.vocabulary
  device : ∃ before d after pin, ∃ inputs : PinMap Symbol (Option Terminal),
    input.pin = some pin ∧ d.symbol = input.device ∧ (∀ e ∈ before, e.symbol ≠ input.device) ∧
    n.devices = before ++ d :: after ∧ d.inputs.get? pin = some none ∧
    m.devices = before ++ { d with inputs := inputs } :: after ∧
    ∀ p, inputs.get? p = if p = pin then some (some output) else d.inputs.get? p

theorem exists_wires_iff : (∃ m, Wires n m input output) ↔
    n.FreeInput input ∧ n.HasOutput output := by
  constructor
  · rintro ⟨m, d, e, pin, hd, he, named, free, shown, -⟩
    exact ⟨⟨d, pin, hd, named, free⟩, e, he, PinMap.contains_iff.mp shown⟩
  · rintro ⟨⟨d, pin, hd, named, free⟩, e, he, shown⟩
    exact ⟨_, d, e, pin, hd, he, named, free, PinMap.contains_iff.mpr shown, rfl⟩

theorem updateFirst_append {f : Device → Device} {before after : List Device}
    (others : ∀ e ∈ before, e.symbol ≠ s) (here : d.symbol = s) :
    updateFirst s f (before ++ d :: after) = before ++ f d :: after := by
  induction before with
  | nil => rw [List.nil_append, updateFirst, if_pos here, List.nil_append]
  | cons e rest ih =>
    rw [List.cons_append, updateFirst, if_neg (others e List.mem_cons_self),
      ih fun e he => others e (List.mem_cons_of_mem _ he), List.cons_append]

theorem Wires.joined (h : Wires n m input output) : Joined n m input output := by
  obtain ⟨d, -, pin, found, -, named, free, -, rfl⟩ := h
  obtain ⟨here, before, after, split, others⟩ := List.find?_eq_some_iff_append.mp found
  have here : d.symbol = input.device := of_decide_eq_true here
  have others : ∀ e ∈ before, e.symbol ≠ input.device := by simpa using others
  refine ⟨rfl, before, d, after, pin, d.inputs.insert pin (some output), named, here, others, split,
    free, ?_, fun p => PinMap.get?_insert _ _ _ _⟩
  rw [update, split, updateFirst_append others here]
  rfl

theorem connect_deviceAbsent_iff : n.connect a b = .error .deviceAbsent ↔
    n.device? a.device = none ∨ n.device? b.device = none := by
  rw [connect]
  cases hd : n.device? a.device with
  | none => simp
  | some d =>
    cases he : n.device? b.device with
    | none => simp
    | some e =>
      simp only [reduceCtorEq, or_self, iff_false]
      intro absent
      repeat' split at absent
      all_goals cases absent

section
variable (h : n.Pinned)
include h

theorem Pinned.input?_eq_none (found : n.device? s = some d) {p : Option Symbol}
    (shown : d.hasOutput p = true) : d.input? p = none := by
  have deaf := (h.pins d (mem_of_device? found)).not_hasInput h.vocabulary shown
  exact Option.not_isSome_iff_eq_none.mp (Bool.eq_false_iff.mp deaf)

theorem Pinned.hasOutput_eq_false (found : n.device? s = some d) {p : Option Symbol}
    {input : Symbol × Option Terminal} (named : d.input? p = some input) :
    d.hasOutput p = false := by
  rw [Bool.eq_false_iff]
  intro shown
  rw [h.input?_eq_none found shown] at named
  cases named

/-- Either end may be the input. -/
theorem Pinned.connect_ok_iff : n.connect a b = .ok m ↔ Wires n m a b ∨ Wires n m b a := by
  refine ⟨wires_of_connect, ?_⟩
  rintro (forward | backward)
  · obtain ⟨d, e, pin, hd, he, named, free, shown, rfl⟩ := forward
    have here : d.input? a.pin = some (pin, none) := Device.input?_eq_some_iff.mpr ⟨named, free⟩
    have deaf : e.hasInput b.pin = false := by
      rw [Device.hasInput, h.input?_eq_none he shown, Option.isSome_none]
    simp [connect, hd, he, here, deaf, shown]
  · obtain ⟨e, d, pin, he, hd, named, free, shown, rfl⟩ := backward
    have here : e.input? b.pin = some (pin, none) := Device.input?_eq_some_iff.mpr ⟨named, free⟩
    exact connect_to_input hd he (h.input?_eq_none hd shown) shown
      (h.hasOutput_eq_false he here) here

theorem Pinned.connect_outputToOutput_iff :
    n.connect a b = .error .outputToOutput ↔ n.HasOutput a ∧ n.HasOutput b := by
  constructor
  · intro refused
    rw [connect] at refused
    split at refused
    · next d e hd he =>
      split at refused
      · cases refused
      · split at refused
        · cases refused
        · split at refused <;> cases refused
      · split at refused
        · next shown =>
          split at refused
          · next shown' =>
            exact ⟨⟨d, hd, PinMap.contains_iff.mp shown⟩, e, he, PinMap.contains_iff.mp shown'⟩
          · split at refused <;> cases refused
        · cases refused
    · cases refused
  · rintro ⟨⟨d, hd, shown⟩, e, he, shown'⟩
    have shown : d.hasOutput a.pin = true := PinMap.contains_iff.mpr shown
    have shown' : e.hasOutput b.pin = true := PinMap.contains_iff.mpr shown'
    simp [connect, hd, he, h.input?_eq_none hd shown, shown, shown']

end

/-- What connecting two ends comes to. -/
structure Connecting (n : Netlist) (a b : Terminal) : Prop where
  /-- Two ends fit if both are there, one of them as a free input and the other as an output. -/
  ok_iff : (∃ m, n.connect a b = .ok m) ↔
    n.FreeInput a ∧ n.HasOutput b ∨ n.FreeInput b ∧ n.HasOutput a
  joined : ∀ m, n.connect a b = .ok m →
    n.FreeInput a ∧ n.HasOutput b ∧ Joined n m a b ∨ n.FreeInput b ∧ n.HasOutput a ∧ Joined n m b a
  refused : ∀ mismatch, n.connect a b = .error mismatch → (Edit.connect a b).apply n = n
  swapped : ∀ m, n.connect a b = .ok m ↔ n.connect b a = .ok m
  deviceAbsent : n.connect a b = .error .deviceAbsent ↔
    n.device? a.device = none ∨ n.device? b.device = none
  outputToOutput : n.connect a b = .error .outputToOutput ↔ n.HasOutput a ∧ n.HasOutput b

/-- In every netlist that was put together, whatever ends are asked for, a connection is made where
an input and an output fit, in either order, and changes that input only. -/
theorem connecting_of_composed (built : n.Composed) (a b : Terminal) : n.Connecting a b where
  ok_iff := by
    simp only [built.pinned.connect_ok_iff, exists_or, exists_wires_iff]
  joined m done := by
    refine (wires_of_connect done).imp (fun wires => ?_) fun wires => ?_
    all_goals
      obtain ⟨free, shown⟩ := exists_wires_iff.mp ⟨m, wires⟩
      exact ⟨free, shown, wires.joined⟩
  refused mismatch done := by rw [Edit.apply, done, Except.toOption, Option.getD_none]
  swapped m := by rw [built.pinned.connect_ok_iff, built.pinned.connect_ok_iff, or_comm]
  deviceAbsent := connect_deviceAbsent_iff
  outputToOutput := built.pinned.connect_outputToOutput_iff

/-- A gate and a flip-flop, and a switch that has the name of the gate. -/
def shadowed : Netlist :=
  ((Netlist.empty (SymbolTable.ofList Vocabulary.words)).declareAll
    [(⟨40⟩, .gate .and, some 2, none), (⟨41⟩, .flipFlop, none, none)]).addSwitch ⟨40⟩ .high

theorem shadowed_connecting : shadowed.Composed ∧
    ∀ input ∈ shadowed.vocabulary.gateInputs.take 2,
      (∃ m, shadowed.connect ⟨⟨40⟩, some input⟩ ⟨⟨41⟩, some shadowed.vocabulary.flipFlop.q⟩ =
        .ok m) ∧
      shadowed.Connecting ⟨⟨40⟩, some input⟩ ⟨⟨41⟩, some shadowed.vocabulary.flipFlop.q⟩ := by
  have known : ∀ w ∈ Vocabulary.words, w ∈ (SymbolTable.ofList Vocabulary.words).texts := by
    decide +kernel
  have built : shadowed.Composed :=
    (additive_composed.declareAll (.empty _ known) _).addSwitch ⟨40⟩ .high
  have free : ∀ input ∈ shadowed.vocabulary.gateInputs.take 2,
      (shadowed.connect ⟨⟨40⟩, some input⟩
        ⟨⟨41⟩, some shadowed.vocabulary.flipFlop.q⟩).toOption.isSome = true := by
    decide +kernel
  refine ⟨built, fun input member => ⟨?_, connecting_of_composed built _ _⟩⟩
  have done := free input member
  generalize shadowed.connect ⟨⟨40⟩, some input⟩ _ = result at done
  cases result with
  | error _ => cases done
  | ok m => exact ⟨m, rfl⟩

end Netlist

end LogicCircuit
