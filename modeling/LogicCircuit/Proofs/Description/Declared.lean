import LogicCircuit.Proofs.Description.Document
import LogicCircuit.Proofs.Device.Make
import LogicCircuit.Proofs.Vocabulary
import Mathlib.Data.List.Range

/-!
The devices that are made from declarations, and the names of their pins.
-/

namespace LogicCircuit

namespace Vocabulary

open Description (Declaration)

variable {t : SymbolTable} {text : String} {k : Kind}

theorem text_injective : ∀ k l : Kind, k.text = l.text → k = l := by
  intro k l
  cases k <;> cases l <;> simp [Kind.text]
  all_goals
    rename_i g
    cases g <;> simp [Gate.text]
  all_goals
    rename_i h
    cases h <;> simp

theorem text_words (k : Kind) : k.text ∈ words := by
  rw [words]
  exact List.mem_append_left _ (List.mem_append_left _ (List.mem_map_of_mem k.mem_all))

section
variable (known : ∀ w ∈ words, w ∈ t.texts)
include known

theorem kind?_symbol_iff : (ofTable t).kind? (t.symbol text) = some k ↔ text = k.text := by
  have same (k : Kind) : t.symbol k.text = t.symbol text ↔ k.text = text :=
    SymbolTable.symbol_inj (known _ (text_words k))
  have find : (ofTable t).kind? (t.symbol text) = Kind.all.find? fun k => k.text = text := by
    rw [kind?, ofTable, List.find?_map, Option.map_map]
    simp only [Function.comp_def, same, Option.map_id']
  rw [find]
  constructor
  · intro h
    have := List.find?_some h
    exact (of_decide_eq_true this).symm
  · intro h
    rw [h]
    cases k with
    | gate g => cases g <;> rfl
    | _ => rfl

theorem isFlipFlopOutput_symbol_iff :
    (ofTable t).isFlipFlopOutput (t.symbol text) = true ↔ text = "Q" ∨ text = "QBAR" := by
  have same (w : String) (h : w ∈ ["CLK", "SET", "CLEAR", "DATA", "Q", "QBAR"]) :
      t.symbol text = t.symbol w ↔ text = w := by
    rw [eq_comm, SymbolTable.symbol_inj (known _ (flipFlop_words w h)), eq_comm]
  simp only [isFlipFlopOutput, FlipFlopPins.outputs, ofTable, List.contains_eq_mem,
    List.mem_cons, List.not_mem_nil, or_false, decide_eq_true_eq]
  rw [same "Q" (by decide), same "QBAR" (by decide)]

theorem isFlipFlopInput_symbol_iff : (ofTable t).isFlipFlopInput (t.symbol text) = true ↔
    text ∈ ["CLK", "SET", "CLEAR", "DATA"] := by
  have same (w : String) (h : w ∈ ["CLK", "SET", "CLEAR", "DATA", "Q", "QBAR"]) :
      t.symbol text = t.symbol w ↔ text = w := by
    rw [eq_comm, SymbolTable.symbol_inj (known _ (flipFlop_words w h)), eq_comm]
  simp only [isFlipFlopInput, FlipFlopPins.inputs, ofTable, List.contains_eq_mem,
    List.mem_cons, List.not_mem_nil, or_false, decide_eq_true_eq]
  rw [same "CLK" (by decide), same "SET" (by decide), same "CLEAR" (by decide),
    same "DATA" (by decide)]

theorem isReserved_symbol_iff :
    (ofTable t).isReserved (t.symbol text) = true ↔ text ∈ Declaration.reserved := by
  have kinds : ((ofTable t).kind? (t.symbol text)).isSome = true ↔
      text ∈ Kind.all.map Kind.text := by
    simp only [Option.isSome_iff_exists, kind?_symbol_iff known, List.mem_map]
    constructor
    · intro h
      obtain ⟨k, eq⟩ := h
      exact ⟨k, k.mem_all, eq.symm⟩
    · intro h
      obtain ⟨k, -, eq⟩ := h
      exact ⟨k, eq.symm⟩
  have split : Declaration.reserved =
      Kind.all.map Kind.text ++ (["CLK", "SET", "CLEAR", "DATA"] ++ ["Q", "QBAR"]) := rfl
  rw [isReserved, Bool.or_eq_true, Bool.or_eq_true, kinds, isFlipFlopInput_symbol_iff known,
    isFlipFlopOutput_symbol_iff known, split, List.mem_append, List.mem_append, or_assoc]
  simp

end

end Vocabulary

/-- The numbers are as many as the kind takes, and each is one of those that it takes. -/
def Description.Declaration.Suits (kind : Kind) (numbers : List Nat) : Prop :=
  numbers.length = kind.parameterCount ∧ ∀ n ∈ numbers, accepts kind n

theorem Description.Declaration.Suits.length_le {kind : Kind} {l : List Nat}
    (h : Suits kind l) : l.length ≤ 2 := by
  rw [h.1]
  cases kind with
  | gate g => cases g <;> decide
  | _ => decide

namespace Device

open Description.Declaration (Suits accepts)

variable {v : Vocabulary} {s : Symbol} {k : Kind} {first second : Option Nat} {l : List Nat}
  {d : Device}

theorem exists_made (suits : Suits k l) : ∃ d, Made v s k l[0]? l[1]? d := by
  obtain ⟨count, range⟩ := suits
  cases k with
  | gate g =>
    by_cases xor : g = .xor
    · subst xor
      obtain rfl := List.length_eq_zero_iff.mp count
      exact ⟨_, .xor⟩
    · have one : l.length = 1 := by cases g <;> simp_all [Kind.parameterCount]
      obtain ⟨n, rfl⟩ := List.length_eq_one_iff.mp one
      obtain ⟨low, high⟩ := range n List.mem_cons_self
      exact ⟨_, .gate g n xor low high⟩
  | clock =>
    obtain ⟨n, rfl⟩ := List.length_eq_one_iff.mp count
    exact ⟨_, .clock n (range n List.mem_cons_self)⟩
  | switch =>
    obtain ⟨n, rfl⟩ := List.length_eq_one_iff.mp count
    have setting := range n List.mem_cons_self
    exact ⟨_, .switch n (by simp only [accepts] at setting; omega)⟩
  | flipFlop =>
    obtain rfl := List.length_eq_zero_iff.mp count
    exact ⟨_, .flipFlop⟩
  | generator =>
    obtain ⟨n, m, rfl⟩ := List.length_eq_two.mp count
    exact ⟨_, .generator n m (range n (by simp)) (range m (by simp))⟩

/-- No device is made from other numbers. -/
theorem Made.exists_suits (h : Made v s k first second d) :
    ∃ l, Suits k l ∧ first = l[0]? ∧ second = l[1]? := by
  cases h with
  | gate g n sized low high =>
    have one : (Kind.gate g).parameterCount = 1 := by cases g <;> simp_all [Kind.parameterCount]
    exact ⟨[n], ⟨one.symm, fun m hm => List.mem_singleton.mp hm ▸ ⟨low, high⟩⟩, rfl, rfl⟩
  | xor => exact ⟨[], ⟨rfl, nofun⟩, rfl, rfl⟩
  | clock n low => exact ⟨[n], ⟨rfl, fun m hm => List.mem_singleton.mp hm ▸ low⟩, rfl, rfl⟩
  | switch n high =>
    have setting : accepts .switch n := Nat.le_one_iff_eq_zero_or_eq_one.mp high
    exact ⟨[n], ⟨rfl, fun m hm => List.mem_singleton.mp hm ▸ setting⟩, rfl, rfl⟩
  | flipFlop => exact ⟨[], ⟨rfl, nofun⟩, rfl, rfl⟩
  | generator n m high low =>
    refine ⟨[n, m], ⟨rfl, fun k hk => ?_⟩, rfl, rfl⟩
    rcases List.mem_pair.mp hk with rfl | rfl
    · exact high
    · exact low

end Device

namespace Description.Declaration

open LogicCircuit (Device)

variable {t : SymbolTable} {e : Declaration} {s k : Symbol} {d : Device}

/-- The device is as it is made for the declaration. -/
def Makes (t : SymbolTable) (e : Declaration) (d : Device) : Prop :=
  Device.Made (Vocabulary.ofTable t) (t.symbol e.name) e.kind e.numbers[0]? e.numbers[1]? d

theorem exists_makes (count : e.numbers.length = e.kind.parameterCount)
    (range : ∀ n ∈ e.numbers, accepts e.kind n) : ∃ d, e.Makes t d :=
  Device.exists_made ⟨count, range⟩

/-- A gate that takes a number has so many inputs. -/
theorem inputs_gate {name : String} {g : Gate} {numbers : List Nat} {n : Nat} (sized : g ≠ .xor)
    (first : numbers[0]? = some n) : inputs ⟨name, .gate g, numbers⟩ =
      (List.range n).map fun i => Vocabulary.gateInputText (i + 1) := by
  have head : numbers.headD 0 = n := by
    rw [← List.head?_eq_getElem?] at first
    rw [List.headD_eq_head?_getD, first, Option.getD_some]
  cases g with
  | xor => exact absurd rfl sized
  | _ => simp only [inputs, head, Vocabulary.gateInputText]

theorem Makes.mem_inputs (h : e.Makes t d) :
    k ∈ d.inputs.keys ↔ ∃ pin ∈ e.inputs, k = t.symbol pin := by
  obtain ⟨name, kind, numbers⟩ := e
  rw [Makes] at h
  simp only at h
  generalize first : numbers[0]? = a at h
  generalize numbers[1]? = b at h
  have texts (pins : List String) :
      k ∈ pins.map t.symbol ↔ ∃ pin ∈ pins, k = t.symbol pin := by
    simp only [List.mem_map, eq_comm]
  cases h with
  | gate g n sized low high =>
    rw [Device.newGate, Device.mem_keys_fresh, Vocabulary.gateInputs_take high,
      inputs_gate sized first, texts]
  | xor =>
    rw [Device.newGate, Device.mem_keys_fresh, ← texts]
    rfl
  | flipFlop =>
    rw [Device.mem_keys_fresh, ← texts]
    rfl
  | clock n low | generator n m high low =>
    rw [Device.mem_keys_fresh]
    simp [inputs]
  | switch n high =>
    simp [inputs, Device.newSwitch, PinMap.empty, PinMap.keys]

theorem Makes.mem_outputs {o : Option Symbol} (h : e.Makes t d) :
    o ∈ d.outputs.keys ↔ ∃ pin ∈ e.outputs, o = pin.map t.symbol := by
  obtain ⟨name, kind, numbers⟩ := e
  rw [Makes] at h
  simp only at h
  generalize numbers[0]? = a at h
  generalize numbers[1]? = b at h
  cases h with
  | flipFlop =>
    simp only [Device.fresh, Device.started, outputs, Vocabulary.ofTable]
    rw [PinMap.mem_keys_insert, PinMap.mem_keys_single]
    simp [or_comm]
  | switch n high =>
    simp [Device.newSwitch, PinMap.mem_keys_single, outputs]
  | _ =>
    simp [Device.newGate, Device.fresh, Device.started, PinMap.mem_keys_single, outputs]

/-- No pin is both an input and an output of one device. -/
theorem not_mem_outputs {pin : String} (h : pin ∈ e.inputs) : some pin ∉ e.outputs := by
  obtain ⟨name, kind, numbers⟩ := e
  cases kind with
  | flipFlop =>
    revert h
    simp only [inputs, outputs]
    revert pin
    decide
  | _ => simp [outputs]

theorem Makes.inputs_words (h : e.Makes t d) : ∀ pin ∈ e.inputs, pin ∈ Vocabulary.words := by
  obtain ⟨name, kind, numbers⟩ := e
  rw [Makes] at h
  simp only at h
  generalize first : numbers[0]? = a at h
  generalize numbers[1]? = b at h
  have numbered (i : Nat) (few : i < Gate.maxInputs) :
      Vocabulary.gateInputText (i + 1) ∈ Vocabulary.words :=
    List.mem_append_right _ (List.mem_map.mpr ⟨i, List.mem_range.mpr few, rfl⟩)
  intro pin hp
  cases h with
  | gate g n sized low high =>
    rw [inputs_gate sized first] at hp
    obtain ⟨i, hi, rfl⟩ := List.mem_map.mp hp
    exact numbered i (Nat.lt_of_lt_of_le (List.mem_range.mp hi) high)
  | xor =>
    have all : ∀ w ∈ ["I1", "I2"], w ∈ Vocabulary.words := by decide +kernel
    exact all pin hp
  | flipFlop =>
    have all : ∀ w ∈ ["CLK", "SET", "CLEAR", "DATA"], w ∈ Vocabulary.words := by decide +kernel
    exact all pin hp
  | clock n low | switch n high | generator n m high low => simp [inputs] at hp

end Description.Declaration

end LogicCircuit
