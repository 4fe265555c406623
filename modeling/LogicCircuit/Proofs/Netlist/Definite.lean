import LogicCircuit.Proofs.Netlist.Switching

/-!
Blanks stand for cycles that were not recorded; no device ever puts one out.
-/

namespace LogicCircuit

namespace Level

variable {level set clear : Level}

theorem ofBool_ne_blank (b : Bool) : ofBool b ≠ blank := by
  cases b <;> decide

theorem settled_ne_blank (h : level ≠ blank) : level.settled ≠ blank := by
  cases level <;> simp_all [settled]

theorem inverted_ne_blank (h : level ≠ blank) : level.inverted ≠ blank := by
  cases level <;> simp_all [inverted]

theorem preset_ne_blank (h : level ≠ blank) : preset set clear level ≠ blank := by
  rw [preset]
  split
  · decide
  · split
    · decide
    · exact h

end Level

namespace Device

variable {d d' : Device} {level : Level} {pins : FlipFlopPins} {lv : Terminal → Option Level}

/-- No output of a device is blank. -/
def Lit (outputs : PinMap (Option Symbol) Level) : Prop :=
  ∀ pin level, outputs.get? pin = some level → level ≠ .blank

theorem lit_empty : Lit PinMap.empty := by
  intro pin level h
  cases h

theorem Lit.insert {outputs : PinMap (Option Symbol) Level} (h : Lit outputs) (pin : Option Symbol)
    (new : level ≠ .blank) : Lit (outputs.insert pin level) := by
  intro other level' shown
  rw [PinMap.get?_insert] at shown
  split at shown
  · exact Option.some.inj shown ▸ new
  · exact h other level' shown

/-- Neither on an output nor in what the device keeps is there a blank. -/
structure Definite (d : Device) : Prop where
  lit : Lit d.outputs
  setting : ∀ level, d.body = .switch level → level ≠ .blank
  memory : ∀ level, d.body = .flipFlop level → level ≠ .blank

theorem Definite.stepped (h : d.Definite) : d.stepped.Definite := by
  have lit := h.lit
  have source {body : Body} {new : Level} (apart : ∀ level, body ≠ .switch level)
      (apart' : ∀ level, body ≠ .flipFlop level) (shown : new ≠ .blank) :
      Definite { d with body := body, outputs := d.outputs.insert none new } :=
    ⟨lit.insert none shown, fun level eq => absurd eq (apart level),
      fun level eq => absurd eq (apart' level)⟩
  rw [Device.stepped]
  cases body : d.body with
  | gate _ | flipFlop _ => exact h
  | switch level =>
    exact ⟨lit.insert none (h.setting level body), fun _ eq => h.setting _ (body.trans eq), by simp⟩
  | clock halfPeriod counter =>
    dsimp only
    split
    · refine source (by simp) (by simp) ?_
      split <;> decide
    · refine source (by simp) (by simp) (Level.settled_ne_blank ?_)
      cases shown : d.outputs.get? none with
      | none => decide
      | some level => exact lit none level shown
  | generator high low counter =>
    dsimp only
    generalize ((d.outputs.get? none).map Level.isHigh).getD true = current
    by_cases more : counter < (if current then high else low)
    · rw [if_pos more]
      exact source (by simp) (by simp) (Level.ofBool_ne_blank _)
    · rw [if_neg more]
      exact source (by simp) (by simp) (Level.ofBool_ne_blank _)

theorem Definite.remembering (h : d.Definite) (known : level ≠ .blank) :
    (d.remembering level.settled).Definite := by
  rw [Device.remembering]
  cases body : d.body with
  | flipFlop memory =>
    refine ⟨h.lit, by simp, fun level' eq => ?_⟩
    exact Body.flipFlop.inj eq ▸ Level.settled_ne_blank known
  | gate _ | clock _ _ | switch _ | generator _ _ _ => exact h

theorem Definite.respond (h : d.Definite) (answer : d.respond pins lv = some d') :
    d'.Definite := by
  obtain ⟨g, levels, body, -, rfl⟩ | ⟨memory, set, clear, body, -, -, rfl⟩ | rfl :=
    respond_cases answer
  · exact ⟨h.lit.insert none (Level.ofBool_ne_blank _), h.setting, h.memory⟩
  · have kept : Level.preset set clear memory ≠ .blank :=
      Level.preset_ne_blank (h.memory memory body)
    refine ⟨(h.lit.insert _ kept).insert _ (Level.inverted_ne_blank kept), by simp, fun _ eq => ?_⟩
    exact Body.flipFlop.inj eq ▸ kept
  · exact h

theorem definite_started (lit : Lit d.outputs)
    (setting : ∀ level, d.body = .switch level → level ≠ .blank) :
    (d.started pins).Definite := by
  rw [started]
  cases body : d.body with
  | switch level =>
    exact ⟨lit.insert none (setting level body), fun _ eq => setting _ (body.trans eq), by simp⟩
  | flipFlop memory =>
    refine ⟨(lit.insert _ (by decide)).insert _ (by decide), by simp, fun level eq => ?_⟩
    exact Body.flipFlop.inj eq ▸ by decide
  | gate _ | clock _ _ | generator _ _ _ =>
    exact ⟨lit.insert none (by decide), by simp, by simp⟩

theorem definite_newSwitch (s : Symbol) (known : level ≠ .blank) : (newSwitch s level).Definite :=
  ⟨lit_empty.insert none known, fun _ eq => Body.switch.inj eq ▸ known, by simp [newSwitch]⟩

theorem definite_fresh (s : Symbol) {body : Body} (inputs : List Symbol)
    (other : ∀ level, body ≠ .switch level) : (fresh pins s body inputs).Definite :=
  definite_started lit_empty fun level eq => absurd eq (other level)

/-- Devices are definite as they are made. -/
theorem Made.definite {v : Vocabulary} {s : Symbol} {k : Kind} {first second : Option Nat}
    (h : Made v s k first second d) : d.Definite := by
  cases h with
  | switch n high => exact definite_newSwitch s (Level.ofBool_ne_blank _)
  | _ => exact definite_fresh s _ (by simp)

theorem Definite.switched (h : d.Definite) (b : Bool) : (d.switched (.ofBool b)).Definite := by
  have known : (Level.ofBool b).settled ≠ .blank := Level.settled_ne_blank (Level.ofBool_ne_blank b)
  exact ⟨h.lit.insert none known, fun _ eq => Body.switch.inj eq ▸ known, by simp [Device.switched]⟩

end Device

namespace Netlist

variable {n m : Netlist} {s : Symbol} {out : Terminal} {level : Level}

/-- No device of the netlist puts out a blank, or keeps one. -/
def Definite (n : Netlist) : Prop :=
  ∀ d ∈ n.devices, d.Definite

theorem kept_definite : Kept Definite :=
  kept_forall (fun _ h => h.lit) (fun _ h => h.stepped) (fun _ _ known h => h.remembering known)
    fun _ _ _ _ h answer => h.respond answer

theorem Definite.started (h : n.Definite) : n.started.Definite := by
  intro d hd
  obtain ⟨e, he, rfl⟩ := List.mem_map.mp hd
  exact Device.definite_started (h e he).lit (h e he).setting

theorem Definite.setSwitch {b : Bool} (h : n.Definite)
    (set : n.setSwitch? s (.ofBool b) = some m) : m.Definite := by
  obtain ⟨d, found, kind, rfl⟩ := setSwitch?_eq_some_iff.mp set
  intro e he
  obtain old | ⟨e', he', -, rfl⟩ := mem_updateFirst he
  · exact h e old
  · exact (h e' he').switched b

theorem Definite.ne_blank (h : n.Definite) (shown : n.level? out = some level) :
    level ≠ .blank := by
  obtain ⟨d, found, shown⟩ := Option.bind_eq_some_iff.mp shown
  exact (h d (mem_of_device? found)).lit _ _ shown

end Netlist

end LogicCircuit
