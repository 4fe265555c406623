import LogicCircuit.Description.Compile
import LogicCircuit.Proofs.Action
import Mathlib.Data.List.Basic
import Mathlib.Logic.Relation

/-!
A reading goes on in steps: it takes tokens, writes problems down, and builds. Whatever each of
these steps keeps is kept by every part of a reading, also by one that ends in a fault. Each section
has steps of its own, and what they alone keep is kept by that section.
-/

namespace LogicCircuit.Description

/-- Whether the problem is an unwired input. -/
def Problem.isFloating : Problem → Bool
  | floatingInput _ _ => true
  | _ => false

namespace Reader

variable {α β : Type} {m : Reading α} {r s r' : Reader}

/-! The loops, one turn at a time. -/

theorem skipUntil_eq (stop : Token → Bool) (r : Reader) : skipUntil stop r = (read >>= fun t s =>
    if t.value = .ending then .ok t s
    else if stop t.value then .ok t s
    else skipUntil stop s) r := by
  conv_lhs => unfold skipUntil
  simp only [Bind.bind, EStateM.bind]
  split
  · next eq => rw [eq]
  · next eq =>
    rw [eq]
    rfl

theorem entries_eq {entry : Located Token → Reading (Option (Located Token))}
    (progress : ∀ t, YieldsSome (entry t)) (t : Located Token) (r : Reader) :
    entries entry progress t r =
      if t.value.endsSection then .ok (some t) r
      else (entry t >>= fun a =>
        match a with
        | none => pure none
        | some next => entries entry progress next) r := by
  conv_lhs => unfold entries
  split
  · rfl
  · simp only [Bind.bind, EStateM.bind]
    split
    · next eq => rw [eq]
    · next eq =>
      rw [eq]
      rfl
    · next eq => rw [eq]

theorem destinations_eq (output : Option Terminal) (t : Located Token) (r : Reader) :
    destinations output t r = (destination output t >>= fun separator =>
      if separator.value = .comma then read >>= destinations output
      else
        match separator.value with
        | .semicolon => read
        | .name _ => fail separator.position .expectedComma
        | _ => fail separator.position .expectedSemicolon) r := by
  conv_lhs => unfold destinations
  simp only [Bind.bind, EStateM.bind]
  split
  · next eq => rw [eq]
  · next separator s eq =>
    rw [eq]
    dsimp only
    split
    · split
      · next eq' => simp only [EStateM.bind, eq']
      · next eq' => simp only [EStateM.bind, eq']
    · cases separator.value <;> rfl

theorem monitorEntries_eq (t : Located Token) (r : Reader) :
    monitorEntries t r =
      if beginsMonitor t.value then (monitorEntry t >>= monitorEntries) r
      else .ok t r := by
  conv_lhs => unfold monitorEntries
  split
  · simp only [Bind.bind, EStateM.bind]
    split
    · next eq => rw [eq]
    · next eq => rw [eq]
  · rfl

/-! The steps. -/

inductive Step (r : Reader) : Reader → Prop
  | read : Step r (read r).state
  | record (p : Option Position) (problem : Problem) : Step r (record p problem r).state
  | declare (p : Position) (name : Mention) (kind : Kind) (first second : Option Nat) :
    Step r (declare p name kind first second r).state
  | attach (output : Option Terminal) (p : Position) (device : Mention) (pin : Option Mention) :
    Step r (attach output p device pin r).state
  | watch (output : Option Terminal) (p : Position) (device : Mention) :
    Step r (watch output p device r).state
  | ground : Step r (ground r).state
  | recordFloating : Step r (recordFloating r).state

/-- Every part of a reading takes tokens and writes problems with them down. -/
class EntryStep (S : Reader → Reader → Prop) : Prop where
  read (r : Reader) : S r (read r).state
  record (r : Reader) (p : Option Position) (problem : Problem)
    (other : problem.isFloating = false) : S r (record p problem r).state

class DeviceStep (S : Reader → Reader → Prop) : Prop extends EntryStep S where
  declare (r : Reader) (p : Position) (name : Mention) (kind : Kind) (first second : Option Nat) :
    S r (declare p name kind first second r).state

class ConnectionStep (S : Reader → Reader → Prop) : Prop extends EntryStep S where
  attach (r : Reader) (output : Option Terminal) (p : Position) (device : Mention)
    (pin : Option Mention) : S r (attach output p device pin r).state

class MonitorStep (S : Reader → Reader → Prop) : Prop extends EntryStep S where
  watch (r : Reader) (output : Option Terminal) (p : Position) (device : Mention) :
    S r (watch output p device r).state

class ClosingStep (S : Reader → Reader → Prop) : Prop where
  ground (r : Reader) : S r (ground r).state
  recordFloating (r : Reader) : S r (recordFloating r).state

instance : DeviceStep Step where
  read _ := .read
  record _ p problem _ := .record p problem
  declare _ := .declare

instance : ConnectionStep Step where
  attach _ := .attach

instance : MonitorStep Step where
  watch _ := .watch

instance : ClosingStep Step where
  ground _ := .ground
  recordFloating _ := .recordFloating

variable {S : Reader → Reader → Prop}

/-- The action does nothing but such steps. -/
def Moves (S : Reader → Reader → Prop) (m : Reading α) : Prop :=
  ∀ r, Relation.ReflTransGen S r (m r).state

theorem moves_pure (a : α) : Moves S (pure a : Reading α) := fun _ => .refl

theorem moves_fail (p : Position) (cause : Cause) : Moves S (fail p cause : Reading α) :=
  fun _ => .refl

theorem moves_circuitNow : Moves S circuitNow := fun _ => .refl

/-- What comes later may build on what the first part gives. -/
theorem Moves.bind_of {V : α → Prop} {f : α → Reading β} (hm : Moves S m)
    (value : ∀ {r a s}, m r = .ok a s → V a) (hf : ∀ a, V a → Moves S (f a)) :
    Moves S (m >>= f) := by
  intro r
  have first := hm r
  simp only [Bind.bind, EStateM.bind]
  cases h : m r with
  | ok a s =>
    rw [h] at first
    exact first.trans (hf a (value h) s)
  | error e s =>
    rw [h] at first
    exact first

theorem Moves.bind {f : α → Reading β} (hm : Moves S m) (hf : ∀ a, Moves S (f a)) :
    Moves S (m >>= f) :=
  hm.bind_of (fun _ => trivial) fun a _ => hf a

theorem moves_get_bind {f : Reader → Reading β} (hf : ∀ r, Moves S (f r)) :
    Moves S (get >>= f) := fun r => hf r r

theorem Moves.map {f : α → β} (hm : Moves S m) : Moves S (f <$> m) := by
  rw [map_eq_pure_bind]
  exact hm.bind fun a => moves_pure _

theorem moves_expectName (t : Located Token) : Moves S (expectName t) := by
  rw [expectName]
  split
  · exact moves_circuitNow.bind fun _ => moves_pure _
  · exact moves_fail _ _

theorem moves_expect (token : Token) (cause : Cause) (t : Located Token) :
    Moves S (expect token cause t) := by
  rw [expect]
  split
  · exact moves_pure _
  · exact moves_fail _ _

theorem moves_stray (next : Keyword) (p : Position) (cause : Cause) :
    Moves S (stray next p cause : Reading (Option α)) := by
  refine moves_get_bind fun r => ?_
  split
  · exact moves_pure _
  · exact moves_fail _ _

theorem moves_entries {entry : Located Token → Reading (Option (Located Token))}
    (progress : ∀ t, YieldsSome (entry t)) (steps : ∀ t, Moves S (entry t)) (t : Located Token) :
    Moves S (entries entry progress t) := by
  intro r
  have first := steps t r
  fun_induction entries entry progress t r with
  | case1 => exact .refl
  | case2 t r ends fault s eq | case3 t r ends s eq =>
    rw [eq] at first
    exact first
  | case4 t r ends next s eq ih =>
    rw [eq] at first
    exact first.trans (ih (steps next s))

theorem moves_expectNumber (kind : Kind) (t : Located Token) : Moves S (expectNumber kind t) := by
  rw [expectNumber]
  split
  · split
    · exact moves_fail _ _
    · split
      · exact moves_pure _
      · exact moves_fail _ _
  · exact moves_fail _ _

theorem moves_isOutputPin (pin : Mention) : Moves S (isOutputPin pin) :=
  moves_circuitNow.bind fun _ => moves_pure _

theorem moves_expectKind (t : Located Token) : Moves S (expectKind t) := by
  refine (moves_expectName t).bind fun name => moves_circuitNow.bind fun c => ?_
  split
  · exact moves_pure _
  · exact moves_fail _ _

theorem moves_needlessPin (device : Mention) (t : Located Token) :
    Moves S (needlessPin device t) := by
  rw [needlessPin]
  split
  · refine (moves_expectName t).bind fun pin => (moves_isOutputPin pin).bind fun isOutput => ?_
    split <;> exact moves_pure _
  · exact moves_pure _

theorem isFloating_needlessPin {device : Mention} {t : Located Token} {problem : Problem}
    (run : needlessPin device t r = .ok problem s) : problem.isFloating = false := by
  rw [needlessPin] at run
  cases value : t.value with
  | name text =>
    simp only [value] at run
    obtain ⟨pin, s₁, -, run⟩ := bind_ok run
    obtain ⟨isOutput, s₂, -, run⟩ := bind_ok run
    split at run
    · rw [← (EStateM.pure_ok_iff.mp run).1]
      rfl
    · rw [← (EStateM.pure_ok_iff.mp run).1]
      rfl
  | _ =>
    simp only [value] at run
    rw [← (EStateM.pure_ok_iff.mp run).1]
    rfl

section Entry

variable [EntryStep S]

theorem moves_read : Moves S read := fun r => .single (EntryStep.read r)

theorem moves_record (p : Option Position) {problem : Problem}
    (other : problem.isFloating = false) : Moves S (record p problem) :=
  fun r => .single (EntryStep.record r p problem other)

theorem moves_recordOnce (p : Position) {problem : Problem} (other : problem.isFloating = false) :
    Moves S (recordOnce p problem) := by
  refine moves_get_bind fun r => ?_
  split
  · exact moves_pure _
  · exact moves_record _ other

theorem moves_skipUntil (stop : Token → Bool) : Moves S (skipUntil stop) := by
  intro r
  have first := moves_read (S := S) r
  fun_induction skipUntil stop r with
  | case1 r fault s eq | case2 r u s eq ends | case3 r u s eq proper stops =>
    rw [eq] at first
    exact first
  | case4 r u s eq proper goes ih =>
    rw [eq] at first
    exact first.trans (ih (moves_read s))

theorem moves_resume (next : Keyword) : Moves S (resume next) :=
  moves_get_bind fun _ => (moves_recordOnce _ rfl).bind fun _ => moves_skipUntil _

theorem moves_part {entry : Located Token → Reading (Option (Located Token))}
    (progress : ∀ t, YieldsSome (entry t)) (steps : ∀ t, Moves S (entry t)) (next : Keyword) :
    Moves S (part entry progress next) := by
  refine moves_read.bind fun t => (moves_entries progress steps t).bind fun last => ?_
  cases last with
  | some t => exact moves_pure _
  | none => exact moves_resume next

/-! The parts of the entries. -/

theorem moves_numbers (p : Position) (kind : Kind) : Moves S (numbers p kind) := by
  refine moves_read.bind fun t => ?_
  split
  · refine moves_read.bind fun _ => (moves_expectNumber _ _).bind fun _ => ?_
    refine moves_read.bind fun _ => ?_
    split
    · refine (moves_expect _ _ _).bind fun _ => moves_read.bind fun _ => ?_
      refine (moves_expectNumber _ _).bind fun _ => moves_read.bind fun _ => ?_
      exact (moves_expect _ _ _).bind fun _ => moves_pure _
    · exact (moves_expect _ _ _).bind fun _ => moves_pure _
  · split
    · exact moves_pure _
    · exact moves_fail _ _
  · exact moves_fail _ _

theorem moves_outputPin (device : Mention) {wrong : Mention → Problem} {missing : Problem}
    (other : ∀ pin, (wrong pin).isFloating = false) (other' : missing.isFloating = false)
    (t : Located Token) : Moves S (outputPin device wrong missing t) := by
  rw [outputPin]
  split
  · refine moves_read.bind fun u => (moves_expectName u).bind fun pin =>
      (moves_isOutputPin pin).bind fun isOutput => ?_
    split
    · exact moves_read.bind fun _ => moves_pure _
    · exact (moves_record _ (other _)).bind fun _ => moves_read.bind fun _ => moves_pure _
  · exact (moves_record _ other').bind fun _ => moves_pure _

theorem moves_connectionOutput (kind : Kind) (device : Mention) :
    Moves S (connectionOutput kind device) := by
  refine moves_read.bind fun t => ?_
  split
  · exact moves_outputPin _ (fun _ => rfl) rfl _
  · exact moves_pure _

theorem moves_arrow (kind : Kind) (device : Mention) (t : Located Token) :
    Moves S (arrow kind device t) := by
  rw [arrow]
  split
  · exact moves_pure _
  · split
    · exact moves_fail _ _
    · split
      · refine moves_read.bind fun pin =>
          (moves_needlessPin _ _).bind_of isFloating_needlessPin fun problem other => ?_
        refine (moves_record _ other).bind fun _ => ?_
        refine ((moves_skipUntil _).bind fun _ => moves_expect _ _ _).bind fun _ => ?_
        exact moves_pure _
      · exact moves_stray _ _ _

theorem moves_skipEntry : Moves S skipEntry := by
  refine (moves_skipUntil _).bind fun t => ?_
  split
  · exact moves_read
  · exact moves_pure _

theorem moves_monitorOutput (kind : Option Kind) (device : Mention) :
    Moves S (monitorOutput kind device) := by
  refine moves_read.bind fun t => ?_
  split
  · exact moves_outputPin _ (fun _ => rfl) rfl _
  · split
    · refine moves_read.bind fun pin => (moves_expectName pin).bind fun _ => ?_
      split
      · exact (moves_record _ rfl).bind fun _ => moves_read.bind fun _ => moves_pure _
      · exact moves_read.bind fun _ => moves_pure _
    · exact moves_pure _

theorem moves_sectionOf {body : Reading (Located Token)} (h : Moves S body) (keyword : Keyword)
    (t : Located Token) : Moves S (sectionOf keyword body t) := by
  rw [sectionOf]
  split
  · exact h
  · exact (moves_recordOnce _ rfl).bind fun _ => moves_pure _

end Entry

/-! The sections, each with its own steps. -/

section

variable [DeviceStep S]

theorem moves_declare (p : Position) (name : Mention) (kind : Kind) (first second : Option Nat) :
    Moves S (declare p name kind first second) :=
  fun r => .single (DeviceStep.declare r p name kind first second)

theorem moves_declaration (p : Position) (name : Mention) : Moves S (declaration p name) := by
  refine moves_read.bind fun _ => (moves_expectKind _).bind fun _ => ?_
  refine (moves_numbers _ _).bind fun _ => (moves_declare _ _ _ _ _).bind fun _ => ?_
  exact moves_read

theorem moves_deviceEntry (t : Located Token) : Moves S (deviceEntry t) := by
  refine (moves_expectName t).bind fun name => moves_circuitNow.bind fun c => ?_
  dsimp only
  split
  · exact moves_stray _ _ _
  · split
    · exact moves_stray _ _ _
    · refine moves_read.bind fun equals => ?_
      split
      · exact (moves_declaration _ _).map
      · exact moves_stray _ _ _

theorem moves_devices : Moves S devices :=
  moves_part _ moves_deviceEntry _

end

section

variable [ConnectionStep S]

theorem moves_attach (output : Option Terminal) (p : Position) (device : Mention)
    (pin : Option Mention) : Moves S (attach output p device pin) :=
  fun r => .single (ConnectionStep.attach r output p device pin)

theorem moves_destination (output : Option Terminal) (t : Located Token) :
    Moves S (destination output t) := by
  refine (moves_expectName t).bind fun device => moves_read.bind fun next => ?_
  split
  · refine moves_read.bind fun u => (moves_expectName u).bind fun pin => ?_
    exact moves_read.bind fun _ => (moves_attach _ _ _ _).bind fun _ => moves_pure _
  · exact (moves_attach _ _ _ _).bind fun _ => moves_pure _

theorem moves_destinations (output : Option Terminal) (t : Located Token) :
    Moves S (destinations output t) := by
  intro r
  have first := moves_destination (S := S) output t r
  fun_induction destinations output t r with
  | case1 t r fault s eq =>
    rw [eq] at first
    exact first
  | case2 t r separator s eq comma fault s' eq' =>
    rw [eq] at first
    have second := moves_read (S := S) s
    rw [eq'] at second
    exact first.trans second
  | case3 t r separator s eq comma next s' eq' ih =>
    rw [eq] at first
    have second := moves_read (S := S) s
    rw [eq'] at second
    exact (first.trans second).trans (ih (moves_destination output next s'))
  | case4 t r separator s eq _ _ =>
    rw [eq] at first
    exact first.trans (moves_read s)
  | case5 t r separator s eq _ _ _ =>
    rw [eq] at first
    exact first
  | case6 t r separator s eq _ _ _ =>
    rw [eq] at first
    exact first

theorem moves_connectionEntry (t : Located Token) : Moves S (connectionEntry t) := by
  refine (moves_expectName t).bind fun device => moves_circuitNow.bind fun c => ?_
  split
  · exact (moves_record _ rfl).bind fun _ => moves_skipEntry.map
  · refine (moves_connectionOutput _ _).bind fun out => (moves_arrow _ _ _).bind fun passed => ?_
    cases passed with
    | none => exact moves_pure _
    | some _ => exact moves_read.bind fun first => Moves.map (moves_destinations _ _)

theorem moves_connections : Moves S connections :=
  moves_part _ moves_connectionEntry _

end

section

variable [MonitorStep S]

theorem moves_watch (output : Option Terminal) (p : Position) (device : Mention) :
    Moves S (watch output p device) :=
  fun r => .single (MonitorStep.watch r output p device)

theorem moves_monitorEntry (t : Located Token) : Moves S (monitorEntry t) := by
  refine (moves_expectName t).bind fun _ => moves_circuitNow.bind fun _ => ?_
  refine (moves_monitorOutput _ _).bind fun _ => (moves_expect _ _ _).bind fun _ => ?_
  exact (moves_watch _ _ _).bind fun _ => moves_read

theorem moves_monitorEntries (t : Located Token) : Moves S (monitorEntries t) := by
  intro r
  have first := moves_monitorEntry (S := S) t r
  fun_induction monitorEntries t r with
  | case1 t r begins fault s eq =>
    rw [eq] at first
    exact first
  | case2 t r begins next s eq ih =>
    rw [eq] at first
    exact first.trans (ih (moves_monitorEntry next s))
  | case3 => exact .refl

end

theorem moves_ground [ClosingStep S] : Moves S ground :=
  fun r => .single (ClosingStep.ground r)

theorem moves_recordFloating [ClosingStep S] : Moves S recordFloating :=
  fun r => .single (ClosingStep.recordFloating r)

theorem moves_monitors [MonitorStep S] [ClosingStep S] : Moves S monitors :=
  moves_read.bind fun t => Moves.bind (moves_monitorEntries t) fun _ =>
    moves_ground.bind fun _ => moves_recordFloating.bind fun _ => moves_pure _

end Reader

end LogicCircuit.Description
