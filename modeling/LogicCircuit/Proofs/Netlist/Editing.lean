import LogicCircuit.Proofs.Netlist.Switching

/-!
Everything that is done to the devices of a netlist, from the first declaration on and in any order,
refusals and stalls included. It leaves every device with the pins of its kind and every wired input
with a driver that exists; and what is declared or wired once stays so.
-/

namespace LogicCircuit

/-- The names of the inputs and of the outputs that a device of a kind may have. -/
inductive Kind.Shape : Kind → List String → List (Option String) → Prop
  | gate (g : Gate) (n : Nat) (sized : g ≠ .xor) (low : 1 ≤ n) (high : n ≤ 16) :
    Shape (.gate g) ((List.range n).map fun i => Vocabulary.gateInputText (i + 1)) [none]
  | xor : Shape (.gate .xor) ["I1", "I2"] [none]
  | clock : Shape .clock [] [none]
  | switch : Shape .switch [] [none]
  | flipFlop : Shape .flipFlop ["CLK", "SET", "CLEAR", "DATA"] [some "Q", some "QBAR"]
  | generator : Shape .generator [] [none]

/-- No phase of a source is empty. -/
def Body.Paced : Body → Prop
  | .clock halfPeriod _ => 1 ≤ halfPeriod
  | .generator high low _ => 1 ≤ high ∧ 1 ≤ low
  | .gate _ | .switch _ | .flipFlop _ => True

namespace Device

variable {t : SymbolTable} {v : Vocabulary} {s : Symbol} {k : Kind} {first second : Option Nat}
  {d d' : Device} {level : Level} {pins : FlipFlopPins} {lv : Terminal → Option Level}

/-- The device has the inputs and the outputs of its kind, and no others. -/
def Regular (t : SymbolTable) (d : Device) : Prop :=
  ∃ ins outs, d.kind.Shape ins outs ∧
    (∀ pin, pin ∈ d.inputs.keys ↔ pin ∈ ins.map t.symbol) ∧
    ∀ pin, pin ∈ d.outputs.keys ↔ pin ∈ outs.map (Option.map t.symbol)

theorem regular_of_shape {ins : List String} {outs : List (Option String)} (shape : k.Shape ins outs)
    (kind : d.kind = k) (inputs : ∀ pin, pin ∈ d.inputs.keys ↔ pin ∈ ins.map t.symbol)
    (outputs : ∀ pin, pin ∈ d.outputs.keys ↔ pin ∈ outs.map (Option.map t.symbol)) :
    d.Regular t :=
  ⟨ins, outs, kind ▸ shape, inputs, outputs⟩

theorem Made.regular (h : Made (Vocabulary.ofTable t) s k first second d) : d.Regular t := by
  have kind := h.kind
  have unnamed (level : Level) (pin : Option Symbol) :
      pin ∈ (PinMap.empty.insert none level : PinMap (Option Symbol) Level).keys ↔
        pin ∈ [none].map (Option.map t.symbol) :=
    PinMap.mem_keys_single.trans List.mem_singleton.symm
  cases h with
  | gate g n sized low high =>
    refine regular_of_shape (.gate g n sized low high) kind (fun pin => ?_) (unnamed _)
    rw [newGate, mem_keys_fresh, Vocabulary.gateInputs_take high]
  | xor =>
    refine regular_of_shape .xor kind (fun pin => ?_) (unnamed _)
    rw [newGate, mem_keys_fresh, Vocabulary.gateInputs_take (by decide)]
    rfl
  | clock n low => exact regular_of_shape .clock kind (fun _ => mem_keys_fresh) (unnamed _)
  | switch n high => exact regular_of_shape .switch kind (fun _ => Iff.rfl) (unnamed _)
  | flipFlop =>
    refine regular_of_shape .flipFlop kind (fun _ => mem_keys_fresh) fun pin => ?_
    refine PinMap.mem_keys_insert.trans ?_
    rw [PinMap.mem_keys_single, or_comm]
    simp [Vocabulary.ofTable]
  | generator n m high low =>
    exact regular_of_shape .generator kind (fun _ => mem_keys_fresh) (unnamed _)

theorem HasPins.regular (h : d.HasPins (Vocabulary.ofTable t)) : d.Regular t := by
  obtain ⟨first, second, made, how, inputs, outputs⟩ := h
  obtain ⟨ins, outs, shape, mem_ins, mem_outs⟩ := how.regular
  rw [how.kind] at shape
  exact ⟨ins, outs, shape, inputs ▸ mem_ins, outputs ▸ mem_outs⟩

theorem Made.paced (h : Made v s k first second d) : d.body.Paced := by
  cases h with
  | gate | xor | switch | flipFlop => trivial
  | clock n low => exact low
  | generator n m high low => exact ⟨high, low⟩

theorem paced_started (h : d.body.Paced) : (d.started pins).body.Paced := by
  rw [started]
  cases body : d.body <;> simp_all [Body.Paced]

theorem paced_stepped (h : d.body.Paced) : d.stepped.body.Paced := by
  rw [stepped]
  cases body : d.body with
  | clock halfPeriod counter =>
    rw [body] at h
    dsimp only
    split <;> exact h
  | generator high low counter =>
    rw [body] at h
    dsimp only
    generalize ((d.outputs.get? none).map Level.isHigh).getD true = current
    by_cases more : counter < (if current then high else low)
    · rw [if_pos more]
      exact h
    · rw [if_neg more]
      exact h
  | gate _ | switch _ | flipFlop _ => simp [body, Body.Paced]

theorem paced_remembering (level : Level) (h : d.body.Paced) :
    (d.remembering level).body.Paced := by
  rw [remembering]
  cases body : d.body <;> simp_all [Body.Paced]

theorem paced_respond (h : d.body.Paced) (answer : d.respond pins lv = some d') :
    d'.body.Paced := by
  obtain ⟨_, _, _, _, rfl⟩ | ⟨_, _, _, _, _, _, rfl⟩ | rfl := respond_cases answer
  · exact h
  · trivial
  · exact h

/-- The device has the kind and the pins of another one, and keeps the drivers of that one. -/
structure Outgrows (e d : Device) : Prop where
  kind : e.kind = d.kind
  inputs : e.inputs.keys = d.inputs.keys
  outputs : e.outputs.keys = d.outputs.keys
  drivers : ∀ pin output, d.driver? pin = some output → e.driver? pin = some output

end Device

namespace Netlist

variable {t : SymbolTable} {n m k : Netlist} {s : Symbol} {d e : Device} {pin : Symbol}
  {input output : Terminal}

/-- No source of the netlist has an empty phase. -/
def Paced (n : Netlist) : Prop :=
  ∀ d ∈ n.devices, d.body.Paced

theorem kept_paced : Kept Paced :=
  kept_forall (L := fun _ => True) (fun _ _ _ _ _ => trivial) (fun _ => Device.paced_stepped)
    (fun level _ _ => Device.paced_remembering level.settled) fun _ _ _ _ => Device.paced_respond

/-- What is done to the devices of a netlist. -/
inductive Edit
  | declare (s : Symbol) (kind : Kind) (first second : Option Nat)
  | addSwitch (s : Symbol) (level : Level)
  | connect (first second : Terminal)
  | setSwitch (s : Symbol) (level : Level)
  | start
  | cycle (limit : Nat)

/-- The netlist after an edit. One that is refused changes nothing; what a cycle did before it
stalled stays done. -/
def Edit.apply (n : Netlist) : Edit → Netlist
  | .declare s kind first second => (n.declare s kind first second).toOption.getD n
  | .addSwitch s level => n.addSwitch s level
  | .connect first second => (n.connect first second).toOption.getD n
  | .setSwitch s level => (n.setSwitch? s level).getD n
  | .start => n.started
  | .cycle limit => (n.cycle limit).state

def edited (n : Netlist) (edits : List Edit) : Netlist :=
  edits.foldl Edit.apply n

/-- A switch is only added under a name that is free, for that is not looked after. -/
def Edit.Permitted (n : Netlist) : Edit → Prop
  | .addSwitch s _ => n.device? s = none
  | .declare _ _ _ _ | .connect _ _ | .setSwitch _ _ | .start | .cycle _ => True

/-- Each edit is permitted when its turn comes. -/
def Permitted : Netlist → List Edit → Prop
  | _, [] => True
  | n, e :: rest => e.Permitted n ∧ Permitted (e.apply n) rest

/-- All devices have names of their own, are what their kind says, and are driven by outputs that
exist. -/
structure Orderly (t : SymbolTable) (n : Netlist) : Prop where
  vocabulary : n.vocabulary = Vocabulary.ofTable t
  nodup : n.symbols.Nodup
  regular : ∀ d ∈ n.devices, d.Regular t
  paced : n.Paced
  drivers : ∀ d ∈ n.devices, ∀ pin output, d.driver? pin = some output → n.HasOutput output

/-- Every device of the first netlist is in the second one and keeps its drivers. -/
def Grows (n m : Netlist) : Prop :=
  ∀ s d, n.device? s = some d → ∃ e, m.device? s = some e ∧ e.Outgrows d

theorem Grows.refl (n : Netlist) : n.Grows n :=
  fun _ d found => ⟨d, found, rfl, rfl, rfl, fun _ _ drives => drives⟩

theorem Grows.trans (h : n.Grows m) (h' : m.Grows k) : n.Grows k := by
  intro s d found
  obtain ⟨e, found, first⟩ := h s d found
  obtain ⟨f, found, second⟩ := h' s e found
  exact ⟨f, found, second.kind.trans first.kind, second.inputs.trans first.inputs,
    second.outputs.trans first.outputs, fun pin out drives =>
      second.drivers pin out (first.drivers pin out drives)⟩

theorem SameLayout.grows (h : n.SameLayout m) : n.Grows m := by
  intro s d found
  obtain ⟨e, found', same⟩ := h.device? found
  refine ⟨e, found', (Device.kind_congr same).symm, ?_, (congrArg Layout.outputs same).symm, ?_⟩
  · rw [Device.inputs_congr same]
  · intro pin output drives
    rw [← Device.driver?_congr same, drives]

theorem grows_add (n : Netlist) (d : Device) : n.Grows (n.add d) :=
  fun _ e found => ⟨e, device?_add_of_device? found, rfl, rfl, rfl, fun _ _ drives => drives⟩

/-- An input that is wired was free, so that no driver is lost. -/
theorem Wires.grows (h : Wires n m input output) : n.Grows m := by
  obtain ⟨d, -, pin, found, -, -, unwired, -, rfl⟩ := h
  have name : ∀ e : Device, e.symbol = input.device →
      (e.wired pin output).symbol = input.device := fun _ name => name
  have known : pin ∈ d.inputs.keys := PinMap.mem_keys_iff.mpr (by rw [unwired]; rfl)
  intro s e found'
  by_cases hit : s = input.device
  · subst hit
    obtain rfl := Option.some.inj (found.symm.trans found')
    refine ⟨d.wired pin output, ?_, rfl, Device.keys_wired known, rfl, fun other out drives => ?_⟩
    · rw [device?_update_self n name, found, Option.map_some]
    · have apart : other ≠ pin := by
        rintro rfl
        rw [Device.driver?, unwired] at drives
        cases drives
      rw [Device.driver?_wired_of_ne d output apart, drives]
  · rw [← device?_update_of_ne n name hit] at found'
    exact ⟨e, found', rfl, rfl, rfl, fun _ _ drives => drives⟩

/-- All that an edit can do: the state of the devices changes, a device with free inputs comes in
under a name of its own, or a free input is wired. -/
inductive Outcome (n : Netlist) : Netlist → Prop
  | state {m : Netlist} (layout : n.SameLayout m) (paced : n.Paced → m.Paced) : Outcome n m
  | added (d : Device) (free : n.device? d.symbol = none) (pins : d.HasPins n.vocabulary)
    (unwired : ∀ pin, d.driver? pin = none) (paced : d.body.Paced) : Outcome n (n.add d)
  | wired {m : Netlist} {input output : Terminal} (wires : Wires n m input output) : Outcome n m

theorem Edit.outcome (proper : n.Proper) (op : Edit) (permitted : op.Permitted n) :
    Outcome n (op.apply n) := by
  have unchanged : Outcome n n := .state (SameLayout.refl n) id
  cases op with
  | declare s kind first second =>
    rw [apply]
    cases done : n.declare s kind first second with
    | error _ => exact unchanged
    | ok m =>
      obtain ⟨free, d, made, rfl⟩ := declare_ok_iff.mp done
      exact .added d (made.symbol.symm ▸ free) made.hasPins made.driver? made.paced
  | addSwitch s level =>
    have pins : (Device.newSwitch s level).HasPins n.vocabulary :=
      ⟨some 0, none, _, .switch 0 (by decide), rfl, rfl⟩
    exact .added _ permitted pins (fun _ => rfl) trivial
  | connect first second =>
    rw [apply]
    cases done : n.connect first second with
    | error _ => exact unchanged
    | ok m =>
      obtain h | h := wires_of_connect done
      · exact .wired h
      · exact .wired h
  | setSwitch s level =>
    rw [apply]
    cases done : n.setSwitch? s level with
    | none => exact unchanged
    | some m =>
      refine .state (sameLayout_setSwitch proper done) fun paced => ?_
      obtain ⟨-, -, -, rfl⟩ := setSwitch?_eq_some_iff.mp done
      intro d hd
      obtain old | ⟨-, -, -, rfl⟩ := mem_updateFirst hd
      · exact paced d old
      · trivial
  | start =>
    refine .state (sameLayout_started proper) fun paced d hd => ?_
    obtain ⟨e, he, rfl⟩ := List.mem_map.mp hd
    exact Device.paced_started (paced e he)
  | cycle limit =>
    exact .state ((kept_sameLayout proper).cycle (SameLayout.refl n) limit) fun paced =>
      kept_paced.cycle paced limit

theorem Outcome.grows (h : Outcome n m) : n.Grows m := by
  cases h with
  | state layout paced => exact layout.grows
  | added d free pins unwired paced => exact grows_add n d
  | wired wires => exact wires.grows

theorem Outcome.proper (h : Outcome n m) (proper : n.Proper) : m.Proper := by
  cases h with
  | state layout paced => exact layout.proper proper
  | added d free pins unwired paced => exact proper_add proper free pins unwired
  | wired wires => exact proper_wires proper wires

theorem Outcome.vocabulary (h : Outcome n m) : m.vocabulary = n.vocabulary := by
  cases h with
  | state layout paced => exact layout.1.symm
  | added d free pins unwired paced => rfl
  | wired wires =>
    obtain ⟨-, -, -, -, -, -, -, -, rfl⟩ := wires
    rfl

theorem Outcome.paced (h : Outcome n m) (paced : n.Paced) : m.Paced := by
  cases h with
  | state layout kept => exact kept paced
  | added d free pins unwired new =>
    intro e he
    obtain old | new_eq := List.mem_append.mp he
    · exact paced e old
    · exact List.mem_singleton.mp new_eq ▸ new
  | wired wires =>
    obtain ⟨-, -, -, -, -, -, -, -, rfl⟩ := wires
    intro e he
    obtain old | ⟨d, hd, -, rfl⟩ := mem_updateFirst he
    · exact paced e old
    · exact paced d hd

theorem Permitted.append {edits more : List Edit} (h : n.Permitted (edits ++ more)) :
    n.Permitted edits ∧ (n.edited edits).Permitted more := by
  induction edits generalizing n with
  | nil => exact ⟨trivial, h⟩
  | cons op rest ih => exact ⟨⟨h.1, (ih h.2).1⟩, (ih h.2).2⟩

theorem edited_induction {P : Netlist → Prop} {edits : List Edit}
    (step : ∀ n m, n.Proper → Outcome n m → P n → P m) (proper : n.Proper)
    (permitted : n.Permitted edits) (start : P n) : P (n.edited edits) := by
  induction edits generalizing n with
  | nil => exact start
  | cons op rest ih =>
    have outcome := op.outcome proper permitted.1
    exact ih (outcome.proper proper) permitted.2 (step n _ proper outcome start)

/-- A netlist that begins without devices is orderly after any edits, whether they go through or
not; and all that it consists of then stays, whatever is done to it later on. -/
theorem orderly_edited (t : SymbolTable) (edits more : List Edit)
    (permitted : (Netlist.empty (t.addAll Vocabulary.words)).Permitted (edits ++ more)) :
    ((Netlist.empty (t.addAll Vocabulary.words)).edited edits).Orderly
      (t.addAll Vocabulary.words) ∧
    ((Netlist.empty (t.addAll Vocabulary.words)).edited edits).Grows
      ((Netlist.empty (t.addAll Vocabulary.words)).edited (edits ++ more)) := by
  obtain ⟨first, later⟩ := permitted.append
  have start : (Netlist.empty (t.addAll Vocabulary.words)).Proper :=
    proper_empty fun w hw => SymbolTable.mem_addAll.mpr (Or.inl hw)
  have proper := edited_induction (fun _ _ _ outcome => outcome.proper) start first start
  have words : ((Netlist.empty (t.addAll Vocabulary.words)).edited edits).vocabulary =
      Vocabulary.ofTable (t.addAll Vocabulary.words) :=
    edited_induction (fun _ _ _ outcome => outcome.vocabulary.trans) start first rfl
  have paced := edited_induction (fun _ _ _ outcome => outcome.paced) start first
    (fun d hd => by cases hd)
  have found {d : Device} := device?_of_mem (d := d) proper.nodup
  refine ⟨⟨words, proper.nodup, fun d hd => ?_, paced, fun d hd => ?_⟩, ?_⟩
  · exact (words ▸ proper.pins d.symbol d (found hd)).regular
  · exact proper.drivers d.symbol d (found hd)
  · rw [edited, edited, List.foldl_append]
    exact edited_induction (fun _ _ _ outcome grown => grown.trans outcome.grows) proper later
      (Grows.refl _)

/-- A gate, a flip-flop and a switch with one wire; one declaration is out of range, another one
takes a name that is in use, and the cycle stalls because most inputs are free. -/
def begun : List Edit :=
  let v := Vocabulary.ofTable (SymbolTable.empty.addAll Vocabulary.words)
  [.declare ⟨40⟩ (.gate .and) (some 17) none, .declare ⟨40⟩ (.gate .and) (some 2) none,
    .declare ⟨41⟩ .flipFlop none none, .declare ⟨41⟩ .clock (some 1) none, .addSwitch ⟨42⟩ .high,
    .connect ⟨⟨42⟩, none⟩ ⟨⟨40⟩, v.gateInputs[0]?⟩, .cycle 20]

/-- The wired input is asked for once more, and the other one is wired from its own side. -/
def continued : List Edit :=
  let v := Vocabulary.ofTable (SymbolTable.empty.addAll Vocabulary.words)
  [.connect ⟨⟨41⟩, some v.flipFlop.q⟩ ⟨⟨40⟩, v.gateInputs[0]?⟩,
    .connect ⟨⟨40⟩, v.gateInputs[1]?⟩ ⟨⟨41⟩, some v.flipFlop.qbar⟩, .setSwitch ⟨42⟩ .falling,
    .start, .cycle 20]

theorem begun_orderly :
    (Netlist.empty (SymbolTable.empty.addAll Vocabulary.words)).Permitted (begun ++ continued) ∧
    ((Netlist.empty (SymbolTable.empty.addAll Vocabulary.words)).edited begun).Orderly
      (SymbolTable.empty.addAll Vocabulary.words) ∧
    ((Netlist.empty (SymbolTable.empty.addAll Vocabulary.words)).edited begun).Grows
      ((Netlist.empty (SymbolTable.empty.addAll Vocabulary.words)).edited (begun ++ continued)) := by
  have free : (((Netlist.empty (SymbolTable.empty.addAll Vocabulary.words)).edited
      (begun.take 4)).device? ⟨42⟩).isNone = true := by
    decide +kernel
  have permitted : (Netlist.empty (SymbolTable.empty.addAll Vocabulary.words)).Permitted
      (begun ++ continued) :=
    ⟨trivial, trivial, trivial, trivial, Option.isNone_iff_eq_none.mp free, trivial, trivial,
      trivial, trivial, trivial, trivial, trivial, trivial⟩
  exact ⟨permitted, orderly_edited SymbolTable.empty begun continued permitted⟩

end Netlist

end LogicCircuit
