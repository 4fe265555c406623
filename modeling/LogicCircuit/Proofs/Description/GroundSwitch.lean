import LogicCircuit.Proofs.Circuit.Calls
import LogicCircuit.Proofs.Description.Assembly
import LogicCircuit.Proofs.Matching

/-!
The inputs that a description leaves out read what the low source is set to, which is low until
somebody sets it by its name.
-/

namespace LogicCircuit.Description

open LogicCircuit (Circuit Device)
open LogicCircuit.Circuit (Call)

variable {source : String} {compiled : Compiled} {c : Circuit} {d : Document} {e : Declaration}
  {dev : Device} {t : SymbolTable} {drives : Signal → Option Signal} {name pin : String}

theorem Shows.kind (h : Shows t drives e dev) : dev.kind = e.kind := by
  obtain ⟨made, make, body, -, -⟩ := h.made
  rw [Device.kind, body]
  exact (Device.made_of_make make).kind

theorem Shows.symbol (h : Shows t drives e dev) :
    e.name ∈ t.texts ∧ dev.symbol = t.symbol e.name :=
  SymbolTable.text?_eq_some_iff.mp h.named

theorem Shows.makes (h : Shows t drives e dev) : ∃ made, e.Makes t made ∧
    dev.body = made.body ∧ dev.outputs = made.outputs ∧ dev.inputs.keys = made.inputs.keys := by
  obtain ⟨made, make, same⟩ := h.made
  rw [h.symbol.2] at make
  exact ⟨made, Device.made_of_make make, same⟩

/-- A device of the circuit is a declared one or the low source. -/
theorem Realises.device_cases (realises : Realises d c) (hd : dev ∈ c.netlist.devices) :
    (∃ e ∈ d.devices, Shows c.symbols d.driver? e dev) ∨
      d.loose ≠ [] ∧ dev = Device.newSwitch (c.symbols.symbol groundName) .low := by
  obtain ⟨declared, shows, eq⟩ := realises.devices
  rw [eq, List.mem_append] at hd
  obtain member | ground := hd
  · exact Or.inl (exists_of_forall₂ shows.flip member)
  · split at ground
    · cases ground
    · next loose => exact Or.inr ⟨loose, List.mem_singleton.mp ground⟩

namespace Document

/-- The names under which a switch can be set: those of the declared ones, and that of the low
source, if there is one. -/
def Switchable (d : Document) (name : String) : Prop :=
  (∃ e ∈ d.devices, e.name = name ∧ e.kind = .switch) ∨ name = groundName ∧ d.loose ≠ []

end Document

section
variable (realises : Realises d c) (proper : c.netlist.Proper)
include realises proper

theorem Realises.exists_device? (he : e ∈ d.devices) : ∃ dev,
    c.netlist.device? (c.symbols.symbol e.name) = some dev ∧ Shows c.symbols d.driver? e dev := by
  obtain ⟨declared, shows, eq⟩ := realises.devices
  obtain ⟨dev, member, shows⟩ := exists_of_forall₂ shows he
  have known : dev ∈ c.netlist.devices := eq ▸ List.mem_append_left _ member
  refine ⟨dev, ?_, shows⟩
  rw [← shows.symbol.2, Netlist.device?_of_mem proper.nodup known]

theorem Realises.device?_ground (loose : d.loose ≠ []) :
    c.netlist.device? (c.symbols.symbol groundName) =
      some (Device.newSwitch (c.symbols.symbol groundName) .low) := by
  obtain ⟨declared, -, eq⟩ := realises.devices
  have known : Device.newSwitch (c.symbols.symbol groundName) .low ∈ c.netlist.devices := by
    rw [eq, if_neg loose]
    exact List.mem_append_right _ (List.mem_singleton.mpr rfl)
  exact Netlist.device?_of_mem proper.nodup known

/-- The devices of a compiled circuit that are switches have the names that can be set. -/
theorem Realises.switchable_iff : d.Switchable name ↔ name ∈ c.symbols.texts ∧
    c.netlist.kindOf? (c.symbols.symbol name) = some .switch := by
  constructor
  · intro h
    obtain ⟨e, he, rfl, kind⟩ | ⟨rfl, loose⟩ := h
    · obtain ⟨dev, found, shows⟩ := realises.exists_device? proper he
      exact ⟨shows.symbol.1, by rw [Netlist.kindOf?, found, Option.map_some, shows.kind, kind]⟩
    · refine ⟨realises.ground loose, ?_⟩
      rw [Netlist.kindOf?, realises.device?_ground proper loose]
      rfl
  · intro h
    obtain ⟨known, kind⟩ := h
    obtain ⟨dev, found, kind⟩ := Option.map_eq_some_iff.mp kind
    have symbol := Netlist.symbol_of_device? found
    have member := Netlist.mem_of_device? found
    obtain ⟨e, he, shows⟩ | ⟨loose, rfl⟩ := realises.device_cases member
    · have named := (SymbolTable.symbol_inj known).mp (symbol.symm.trans shows.symbol.2)
      exact Or.inl ⟨e, he, named.symm, shows.kind.symm.trans kind⟩
    · exact Or.inr ⟨(SymbolTable.symbol_inj known).mp symbol.symm, loose⟩

theorem Realises.driver?_of_loose (loose : ⟨name, some pin⟩ ∈ d.loose) : ∃ dev,
    c.netlist.device? (c.symbols.symbol name) = some dev ∧
      dev.driver? (c.symbols.symbol pin) = some ⟨c.symbols.symbol groundName, none⟩ := by
  obtain ⟨e, he, -, pin', hp, eq, -⟩ := mem_looseInputs.mp loose
  simp only [Signal.mk.injEq, Option.some.injEq] at eq
  obtain ⟨rfl, rfl⟩ := eq
  obtain ⟨dev, found, shows⟩ := realises.exists_device? proper he
  refine ⟨dev, found, ?_⟩
  rw [shows.driver pin hp, Document.driver?, if_pos loose]
  rfl

/-- What the inputs that are left out read after any calls. -/
theorem Realises.reads_after (loose : ⟨name, some pin⟩ ∈ d.loose) (calls : List Call) :
    (c.after calls).netlist.reads (c.symbols.symbol name) (c.symbols.symbol pin) =
      some (.ofBool (Circuit.settingAfter groundName false calls)) := by
  have some_loose : d.loose ≠ [] := List.ne_nil_of_mem loose
  have low : c.netlist.device? (c.symbols.symbol groundName) =
      some (Device.newSwitch (c.symbols.symbol groundName) (.ofBool false)) :=
    realises.device?_ground proper some_loose
  have ground := Circuit.device?_after rfl (realises.ground some_loose) low calls
  obtain ⟨dev, found, drives⟩ := realises.driver?_of_loose proper loose
  obtain ⟨dev', found', same⟩ := (Circuit.sameLayout_after proper calls).2.device? found
  rw [Device.driver?_congr same] at drives
  rw [Netlist.reads, Netlist.driver?, found', Option.bind_some, drives, Option.bind_some,
    Netlist.level?, ground]
  rfl

theorem Realises.setSwitch_after (calls : List Call) (isHigh : Bool) :
    (∃ c', (c.after calls).setSwitch name isHigh = .ok c') ↔ d.Switchable name := by
  obtain ⟨symbols, same⟩ := Circuit.sameLayout_after proper calls
  rw [realises.switchable_iff proper, Circuit.exists_setSwitch_iff, symbols, same.kindOf?]

end

/-- The circuit, after these calls, holds the inputs that are left out at the last setting of the
low source, and takes settings under the names that can be set and no others. -/
structure Serves (d : Document) (calls : List Call) (c : Circuit) : Prop where
  reads : ∀ name pin, ⟨name, some pin⟩ ∈ d.loose →
    c.netlist.reads (c.symbols.symbol name) (c.symbols.symbol pin) =
      some (.ofBool (Circuit.settingAfter groundName false calls))
  accepts : ∀ name isHigh, d.Switchable name → ∃ c', c.setSwitch name isHigh = .ok c'
  refuses : ∀ name isHigh, ¬ d.Switchable name →
    c.setSwitch name isHigh = .error ⟨name⟩ ∧ (Call.setSwitch name isHigh).apply c = c

/-- The inputs of flip-flops that a text leaves out are low through all runs and settings of
switches, unless the low source itself is set by its name: then they are as it was set last. -/
theorem ground_after_calls (run : compile source = .ok compiled) (ok : compiled.isOk = true) :
    ∃ d : Document, (∀ d' : Document, d'.tokens <+: lexemes source ↔ d' = d) ∧
      ∀ calls, Serves d calls (compiled.circuit.after calls) := by
  obtain ⟨-, d, -, tokens, realises⟩ := exists_document run ok
  have proper := Netlist.proper_of_assembled (assembled_compile run)
  refine ⟨d, fun d' => ?_, fun calls => ⟨fun name pin loose => ?_, fun name isHigh set => ?_,
    fun name isHigh other => ?_⟩⟩
  · constructor
    · intro other
      exact Document.eq_of_tokens_prefix other tokens
    · intro eq
      exact eq ▸ tokens
  · rw [(Circuit.sameLayout_after proper calls).1]
    exact realises.reads_after proper loose calls
  · exact (realises.setSwitch_after proper calls isHigh).mpr set
  · cases set : (compiled.circuit.after calls).setSwitch name isHigh with
    | ok c' => exact absurd ((realises.setSwitch_after proper calls isHigh).mp ⟨c', set⟩) other
    | error u =>
      rw [Circuit.setSwitch_error set, Call.apply, set]
      exact ⟨rfl, rfl⟩

/-- A flip-flop all inputs of which are left out. -/
def looseText : String :=
  "DEVICES F = DTYPE; CONNECT MONITOR F.Q; END"

theorem looseText_serves : ∃ compiled, compile looseText = .ok compiled ∧
    compiled.isOk = true ∧ ∃ d : Document,
      (∀ d' : Document, d'.tokens <+: lexemes looseText ↔ d' = d) ∧
        ∀ calls, Serves d calls (compiled.circuit.after calls) := by
  have accepted : (compile looseText).toOption.any Compiled.isOk = true := by decide +kernel
  cases run : compile looseText with
  | error fault =>
    rw [run] at accepted
    cases accepted
  | ok compiled =>
    rw [run] at accepted
    exact ⟨compiled, rfl, accepted, ground_after_calls run accepted⟩

/-- Nothing declares the low source or connects an input here, and yet it can be set high. -/
theorem looseText_driven_high : ∃ compiled c, compile looseText = .ok compiled ∧
    compiled.isOk = true ∧ .name groundName ∉ lexemes looseText ∧ .arrow ∉ lexemes looseText ∧
      compiled.circuit.setSwitch groundName true = .ok c ∧
      c.netlist.reads (c.symbols.symbol "F") (c.symbols.symbol "SET") = some .high := by
  have driven : (compile looseText).toOption.any (fun compiled => compiled.isOk &&
      (compiled.circuit.setSwitch groundName true).toOption.any fun c =>
        c.netlist.reads (c.symbols.symbol "F") (c.symbols.symbol "SET") = some .high) = true := by
    decide +kernel
  cases run : compile looseText with
  | error fault =>
    rw [run] at driven
    cases driven
  | ok compiled =>
    rw [run] at driven
    obtain ⟨ok, driven⟩ := Bool.and_eq_true_iff.mp driven
    cases set : compiled.circuit.setSwitch groundName true with
    | error u =>
      rw [set] at driven
      cases driven
    | ok c =>
      rw [set] at driven
      exact ⟨compiled, c, rfl, ok, by decide +kernel, by decide +kernel, set,
        of_decide_eq_true driven⟩

end LogicCircuit.Description
