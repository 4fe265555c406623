import LogicCircuit.Proofs.Netlist.FlipFlops

/-!
When a flip-flop holds. In a cycle without an edge of its clock it obeys its set and clear inputs at
each of its turns in the passes, and remembers what they demanded last, also if they have gone low
again when the passes end.
-/

namespace LogicCircuit

theorem Device.latched_of_ne_rising {pins : FlipFlopPins} {lv : Terminal → Option Level}
    {d : Device} (rests : d.reads lv pins.clock ≠ some .rising) : d.latched pins lv = d := by
  rw [latched]
  split
  · next rises _ => exact absurd rises rests
  · rfl

namespace Netlist

variable {start n m k : Netlist} {s t : Symbol} {d : Device} {memory : Level} {still : Bool}
  {order : List Symbol} {passes limit : Nat}

/-- What a flip-flop shows on its output QBAR. -/
def qbar? (n : Netlist) (s : Symbol) : Option Level :=
  n.level? ⟨s, some n.vocabulary.flipFlop.qbar⟩

/-- What a flip-flop is asked for: to be set, or else to be cleared, or neither. -/
def demand? (n : Netlist) (s : Symbol) : Option Level :=
  if (n.reads s n.vocabulary.flipFlop.set).any Level.isHigh then some .high
  else if (n.reads s n.vocabulary.flipFlop.clear).any Level.isHigh then some .low
  else none

theorem demand?_eq_none_iff : n.demand? s = none ↔ n.Idle s := by
  have low (read : Option Level) :
      (∀ level ∈ read, level.isHigh = false) ↔ read.any Level.isHigh = false := by
    cases read <;> simp
  simp only [demand?, Idle, List.mem_cons, List.not_mem_nil, or_false, forall_eq_or_imp, forall_eq,
    low]
  cases (n.reads s n.vocabulary.flipFlop.set).any Level.isHigh <;>
    cases (n.reads s n.vocabulary.flipFlop.clear).any Level.isHigh <;> simp

/-- The states in which a device has its turn in a pass. -/
def turnsInSweep (s : Symbol) : List Symbol → Netlist → List Netlist
  | [], _ => []
  | t :: rest, n =>
    (if t = s then [n] else []) ++ turnsInSweep s rest (refresh t n).state

/-- The states in which a device has its turns in several passes. -/
def turnsInSettle (s : Symbol) (order : List Symbol) : Nat → Netlist → List Netlist
  | 0, _ => []
  | passes + 1, n =>
    turnsInSweep s order n ++
      match sweep order n with
      | .ok false k => turnsInSettle s order passes k
      | _ => []

/-- The states in which a device has its turns in a cycle. -/
def turns (limit : Nat) (s : Symbol) (n : Netlist) : List Netlist :=
  match latchAll (n.stepSources.symbolsOf .flipFlop) n.stepSources with
  | .ok () k => turnsInSettle s k.symbols limit k
  | .error _ _ => []

/-- The level in the memory of a flip-flop. -/
def Remembers (n : Netlist) (s : Symbol) (memory : Level) : Prop :=
  ∃ d, n.device? s = some d ∧ d.body = .flipFlop memory

/-- What is in the memory of a flip-flop after its turns. -/
def heldAfter (s : Symbol) (memory : Level) (turns : List Netlist) : Level :=
  turns.foldl (fun memory k => (k.demand? s).getD memory) memory

theorem heldAfter_append (memory : Level) (turns others : List Netlist) :
    heldAfter s memory (turns ++ others) = heldAfter s (heldAfter s memory turns) others :=
  List.foldl_append

theorem heldAfter_of_idle {turns : List Netlist} (idle : ∀ k ∈ turns, k.Idle s) :
    heldAfter s memory turns = memory := by
  induction turns generalizing memory with
  | nil => rfl
  | cons k rest ih =>
    have none := demand?_eq_none_iff.mpr (idle k List.mem_cons_self)
    rw [heldAfter, List.foldl_cons, none]
    exact ih fun k hk => idle k (List.mem_cons_of_mem _ hk)

/-- The last demand counts. -/
theorem heldAfter_of_demand {before after : List Netlist} {level : Level}
    (demand : k.demand? s = some level) (idle : ∀ k ∈ after, k.Idle s) :
    heldAfter s memory (before ++ k :: after) = level := by
  rw [heldAfter_append, heldAfter, List.foldl_cons, demand]
  exact heldAfter_of_idle idle

theorem remembers_refresh (h : refresh t n = .ok still m) (remembers : n.Remembers s memory) :
    m.Remembers s (heldAfter s memory (if t = s then [n] else [])) := by
  obtain ⟨d, found, body⟩ := remembers
  by_cases here : t = s
  · subst here
    obtain ⟨e, e', found', answer, -, rfl⟩ := refresh_ok_iff.mp h
    obtain rfl := Option.some.inj (found.symm.trans found')
    obtain ⟨set, clear, hs, hc, eq⟩ := (Device.respond_flipFlop_iff body).mp answer
    have demanded : (n.demand? t).getD memory = Level.preset set clear memory := by
      rw [demand?, reads_of_device? found, hs, hc, Level.preset, Option.any_some, Option.any_some]
      split
      · rfl
      · split <;> rfl
    refine ⟨e', device?_refresh found answer, ?_⟩
    rw [if_pos rfl, heldAfter, List.foldl_cons, List.foldl_nil, demanded, eq]
  · rw [if_neg here]
    exact ⟨d, ((refreshed_of_refresh h).others s (Ne.symm here)).trans found, body⟩

theorem remembers_sweep (h : sweep order n = .ok still m) (remembers : n.Remembers s memory) :
    m.Remembers s (heldAfter s memory (turnsInSweep s order n)) := by
  induction order generalizing n memory still with
  | nil =>
    obtain ⟨-, rfl⟩ := EStateM.pure_ok_iff.mp h
    exact remembers
  | cons t rest ih =>
    obtain ⟨first, k, others, head, tail, -⟩ := sweep_cons_ok_iff.mp h
    rw [turnsInSweep, heldAfter_append, head]
    exact ih tail (remembers_refresh head remembers)

theorem remembers_settle (h : settle order passes n = .ok () m)
    (remembers : n.Remembers s memory) :
    m.Remembers s (heldAfter s memory (turnsInSettle s order passes n)) := by
  induction passes generalizing n memory with
  | zero => cases h
  | succ passes ih =>
    rw [turnsInSettle, heldAfter_append]
    rcases settle_succ_ok_iff.mp h with pass | ⟨k, pass, later⟩
    · rw [pass]
      exact remembers_sweep pass remembers
    · rw [pass]
      exact ih later (remembers_sweep pass remembers)

/-- Without an edge of its clock a flip-flop comes to the passes with what it remembers, and leaves
them with what they demand. -/
theorem remembers_cycle (proper : n.Proper) (remembers : n.Remembers s memory)
    (rests : n.stepSources.reads s n.vocabulary.flipFlop.clock ≠ some .rising)
    (run : n.cycle limit = .ok () m) :
    m.Remembers s (heldAfter s memory (n.turns limit s)) := by
  obtain ⟨d, found, body⟩ := remembers
  obtain ⟨k, latched, settles⟩ := cycle_ok_iff.mp run
  have proper' := (sameLayout_stepSources proper).proper proper
  have kind : d.kind = .flipFlop := by rw [Device.kind, body, Body.kind]
  have stepped := device?_stepSources_of_flipFlop found kind
  have held : k.device? s = some d := by
    rw [device?_latched proper'.nodup latched, stepped, Option.map_some,
      Device.latched_of_ne_rising]
    rwa [← reads_of_device? stepped]
  rw [turns, latched]
  exact remembers_settle settles ⟨d, held, body⟩

/-! The last turn. -/

theorem sweep_still_cons_iff : sweep (t :: order) n = .ok true m ↔
    ∃ k, refresh t n = .ok true k ∧ sweep order k = .ok true m := by
  rw [sweep_cons_ok_iff]
  constructor
  · rintro ⟨first, k, others, head, tail, still⟩
    obtain ⟨rfl, rfl⟩ : first = true ∧ others = true := by simpa using still.symm
    exact ⟨k, head, tail⟩
  · rintro ⟨k, head, tail⟩
    exact ⟨true, k, true, head, tail, rfl⟩

/-- A response that changes no output changes nothing that is read. -/
theorem reads_refresh_still (proper : n.Proper) (h : refresh t n = .ok true k) :
    n.SameLayout k ∧ k.reads s = n.reads s := by
  have same : n.SameLayout k := by
    have kept := (kept_sameLayout proper).refresh t n (SameLayout.refl n)
    rwa [h] at kept
  refine ⟨same, funext fun pin => ?_⟩
  rw [reads, reads, ← same.driver?, level?_refresh_still h]

theorem reads_sweep_still (proper : n.Proper) (h : sweep order n = .ok true m) :
    m.reads s = n.reads s := by
  induction order generalizing n with
  | nil =>
    obtain ⟨-, rfl⟩ := EStateM.pure_ok_iff.mp h
    rfl
  | cons t rest ih =>
    obtain ⟨k, head, tail⟩ := sweep_still_cons_iff.mp h
    obtain ⟨same, reads⟩ := reads_refresh_still proper head
    exact (ih (same.proper proper) tail).trans reads

/-- In a pass that changes no output the device reads at its turn what it reads afterwards. -/
theorem reads_of_turn (proper : n.Proper) (h : sweep order n = .ok true m) :
    ∀ k ∈ turnsInSweep s order n, k.reads s = m.reads s := by
  induction order generalizing n with
  | nil => exact fun k hk => absurd hk List.not_mem_nil
  | cons t rest ih =>
    obtain ⟨k, head, tail⟩ := sweep_still_cons_iff.mp h
    have same := (reads_refresh_still (s := s) proper head).1
    intro u hu
    rw [turnsInSweep, head, List.mem_append] at hu
    rcases hu with here | later
    · split at here
      · rw [List.mem_singleton.mp here]
        exact (reads_sweep_still proper h).symm
      · cases here
    · exact ih (same.proper proper) tail u later

theorem turnsInSweep_ne_nil (member : s ∈ order) (n : Netlist) : turnsInSweep s order n ≠ [] := by
  induction order generalizing n with
  | nil => cases member
  | cons t rest ih =>
    rw [turnsInSweep]
    by_cases here : t = s
    · rw [if_pos here]
      exact List.cons_ne_nil _ _
    · rw [if_neg here, List.nil_append]
      exact ih ((List.mem_cons.mp member).resolve_left (Ne.symm here)) _

/-- What the device reads at its last turn is what it reads when the passes have ended. -/
theorem exists_last_turn (proper : n.Proper) (member : s ∈ order)
    (h : settle order passes n = .ok () m) :
    ∃ k, (turnsInSettle s order passes n).getLast? = some k ∧ k.reads s = m.reads s := by
  induction passes generalizing n with
  | zero => cases h
  | succ passes ih =>
    rw [turnsInSettle]
    rcases settle_succ_ok_iff.mp h with pass | ⟨k, pass, later⟩
    · have some := turnsInSweep_ne_nil member n
      rw [pass, List.append_nil, List.getLast?_eq_some_getLast some]
      exact ⟨_, rfl, reads_of_turn proper pass _ (List.getLast_mem some)⟩
    · have same : n.SameLayout k := by
        have kept := (kept_sameLayout proper).undisturbed.sweep (SameLayout.refl n) order
        rwa [pass] at kept
      obtain ⟨last, found, reads⟩ := ih (same.proper proper) later
      rw [pass, List.getLast?_append]
      dsimp only
      rw [found]
      exact ⟨last, rfl, reads⟩

theorem last_turn_of_cycle (proper : n.Proper) (found : n.device? s = some d)
    (run : n.cycle limit = .ok () m) :
    ∃ k, (n.turns limit s).getLast? = some k ∧ k.reads s = m.reads s := by
  obtain ⟨k, latched, settles⟩ := cycle_ok_iff.mp run
  have step := sameLayout_stepSources proper
  have same := step.trans (sameLayout_latchAll (step.proper proper) latched)
  obtain ⟨e, found', -⟩ := same.device? found
  have member : s ∈ k.symbols :=
    symbol_of_device? found' ▸ List.mem_map_of_mem (mem_of_device? found')
  rw [turns, latched]
  exact exists_last_turn (same.proper proper) member settles

/-! QBAR. -/

/-- Each flip-flop shows the opposite of what it remembers on QBAR. -/
def Mirrored (n : Netlist) : Prop :=
  ∀ d ∈ n.devices, ∀ memory, d.body = .flipFlop memory →
    d.outputs.get? (some n.vocabulary.flipFlop.qbar) = some memory.inverted

theorem mirrored_started (n : Netlist) : n.started.Mirrored := by
  intro d hd memory body
  obtain ⟨e, -, rfl⟩ := List.mem_map.mp hd
  rw [Device.started] at body ⊢
  cases before : e.body with
  | flipFlop memory' =>
    simp only [before] at body ⊢
    rw [← Body.flipFlop.inj body]
    exact PinMap.get?_insert_self _ _ _
  | gate _ | clock _ _ | switch _ | generator _ _ _ =>
    simp [before] at body

theorem mirrored_cycle (proper : n.Proper) (run : n.cycle limit = .ok () m) : m.Mirrored := by
  have settled := settled_of_cycle proper.nodup proper.vocabulary run
  intro d hd memory body
  obtain ⟨set, clear, -, -, -, shown, -⟩ := settled.flipFlop d hd memory body
  exact shown

theorem Mirrored.setSwitch {level : Level} (h : n.Mirrored)
    (set : n.setSwitch? s level = some m) : m.Mirrored := by
  obtain ⟨d, found, kind, rfl⟩ := setSwitch?_eq_some_iff.mp set
  intro d hd memory body
  obtain old | ⟨e, -, -, rfl⟩ := mem_updateFirst hd
  · exact h d old memory body
  · cases body

theorem Reached.mirrored (proper : start.Proper) (h : Reached start n) : n.Mirrored := by
  induction h with
  | started => exact mirrored_started start
  | cycle before run _ => exact mirrored_cycle ((before.sameLayout proper).proper proper) run
  | setSwitch _ set mirrored => exact mirrored.setSwitch set

theorem Remembers.q?_eq (remembers : n.Remembers s memory) (steady : n.Steady) :
    n.q? s = some memory := by
  obtain ⟨d, found, body⟩ := remembers
  rw [q?, level?, found, Option.bind_some]
  exact steady.shows d (mem_of_device? found) memory body

theorem Remembers.shown (remembers : n.Remembers s memory) (steady : n.Steady)
    (mirrored : n.Mirrored) : n.q? s = some memory ∧ n.qbar? s = some memory.inverted := by
  refine ⟨remembers.q?_eq steady, ?_⟩
  obtain ⟨d, found, body⟩ := remembers
  rw [qbar?, level?, found, Option.bind_some]
  exact mirrored d (mem_of_device? found) memory body

/-- A flip-flop without an edge of its clock shows after a cycle what it has shown before, if it is
neither set nor cleared at any of its turns; otherwise what it was asked for last. At its last turn
it reads what it reads after the cycle. Nothing is asked of what drives set and clear. -/
theorem holds_of_reached (built : start.Built) (reached : Reached start n)
    (run : n.cycle limit = .ok () m) (found : n.device? s = some d) (kind : d.kind = .flipFlop)
    (rests : n.stepSources.reads s n.vocabulary.flipFlop.clock ≠ some .rising) :
    (∃ k, (n.turns limit s).getLast? = some k ∧ k.reads s = m.reads s) ∧
      ((∀ k ∈ n.turns limit s, k.Idle s) → m.q? s = n.q? s ∧ m.qbar? s = n.qbar? s) ∧
      ∀ before k after level, n.turns limit s = before ++ k :: after → k.demand? s = some level →
        (∀ k ∈ after, k.Idle s) → m.q? s = some level ∧ m.qbar? s = some level.inverted := by
  have proper := (reached.sameLayout built.proper).proper built.proper
  obtain ⟨memory, body⟩ := Device.exists_memory kind
  have remembers : n.Remembers s memory := ⟨d, found, body⟩
  have later := reached.cycle run
  have shown := remembers.shown (reached.steady built.proper) (reached.mirrored built.proper)
  have shown' := (remembers_cycle proper remembers rests run).shown
    (later.steady built.proper) (later.mirrored built.proper)
  refine ⟨last_turn_of_cycle proper found run, ?_, ?_⟩
  · intro idle
    rw [heldAfter_of_idle idle] at shown'
    exact ⟨shown'.1.trans shown.1.symm, shown'.2.trans shown.2.symm⟩
  · intro before k after level split demand idle
    rwa [split, heldAfter_of_demand demand idle] at shown'

/-- A gate that is high for one pass only, and sets a flip-flop in it: it combines a switch with
the opposite of that switch, which it reads one pass late. -/
def hazard : Netlist :=
  let t := SymbolTable.ofList Vocabulary.words
  let v := Vocabulary.ofTable t
  let input (i : Nat) : Symbol := v.gateInputs.getD i ⟨0⟩
  let declared := (Netlist.empty t).declareAll
    [(⟨40⟩, .switch, some 0, none), (⟨41⟩, .switch, some 0, none),
      (⟨42⟩, .gate .and, some 2, none), (⟨43⟩, .gate .nand, some 1, none),
      (⟨44⟩, .flipFlop, none, none)]
  let switched := declared.connectAll ⟨⟨41⟩, none⟩ [(⟨42⟩, input 0), (⟨43⟩, input 0)]
  let opposed := switched.connectAll ⟨⟨43⟩, none⟩ [(⟨42⟩, input 1)]
  let set := opposed.connectAll ⟨⟨42⟩, none⟩ [(⟨44⟩, v.flipFlop.set)]
  set.connectAll ⟨⟨40⟩, none⟩
    [(⟨44⟩, v.flipFlop.clear), (⟨44⟩, v.flipFlop.clock), (⟨44⟩, v.flipFlop.data)]

theorem hazard_built : hazard.Built := by
  have known : ∀ w ∈ Vocabulary.words, w ∈ (SymbolTable.ofList Vocabulary.words).texts := by
    decide +kernel
  exact ⟨_, (Assembled.empty _ known).declareAll.connectAll.connectAll.connectAll.connectAll,
    SameLayout.refl _⟩

/-- The netlist after a cycle, with the switch set high. -/
def hazardous : Netlist :=
  ((hazard.started.cycle 20).state.setSwitch? ⟨41⟩ (.ofBool true)).getD hazard

theorem reached_hazardous : Reached hazard hazardous := by
  have first : (hazard.started.cycle 20).isOk = true := by decide +kernel
  have switched : (hazard.started.cycle 20).state.setSwitch? ⟨41⟩ (.ofBool true) =
      some hazardous := by
    decide +kernel
  exact (Reached.started.cycle (EStateM.Result.eq_ok_of_isOk first)).setSwitch switched

/-- The flip-flop of the netlist has nothing but low levels on its clock. -/
theorem flipFlop_hazardous : ∃ d, hazardous.device? ⟨44⟩ = some d ∧ d.kind = .flipFlop ∧
    hazardous.stepSources.reads ⟨44⟩ hazardous.vocabulary.flipFlop.clock ≠ some .rising := by
  have known : (hazardous.device? ⟨44⟩).any (fun d => d.kind = .flipFlop) = true := by
    decide +kernel
  obtain ⟨d, found, kind⟩ := Option.any_eq_true _ _ |>.mp known
  exact ⟨d, found, of_decide_eq_true kind, by decide +kernel⟩

/-- It is set in the first pass, and holds that from then on. -/
theorem hazardous_sets : ∃ m, hazardous.cycle 20 = .ok () m ∧
    hazardous.q? ⟨44⟩ = some .low ∧ m.q? ⟨44⟩ = some .high ∧ m.qbar? ⟨44⟩ = some .low := by
  have completes : (hazardous.cycle 20).isOk = true := by decide +kernel
  have run := EStateM.Result.eq_ok_of_isOk completes
  have split : hazardous.turns 20 ⟨44⟩ = [] ++ ((hazardous.turns 20 ⟨44⟩).headD hazard) ::
      (hazardous.turns 20 ⟨44⟩).tail := by
    decide +kernel
  have demand : ((hazardous.turns 20 ⟨44⟩).headD hazard).demand? ⟨44⟩ = some .high := by
    decide +kernel
  have idle : ∀ k ∈ (hazardous.turns 20 ⟨44⟩).tail, k.Idle ⟨44⟩ := by
    unfold Idle
    decide +kernel
  obtain ⟨d, found, kind, rests⟩ := flipFlop_hazardous
  obtain ⟨-, -, last⟩ := holds_of_reached hazard_built reached_hazardous run found kind rests
  obtain ⟨q, qbar⟩ := last _ _ _ _ split demand idle
  exact ⟨_, run, by decide +kernel, q, qbar⟩

/-- That set and clear are low at the end of a cycle is not enough for a flip-flop to hold. -/
theorem not_holds_of_idle : ¬ ∀ (start n m : Netlist) (s : Symbol) (d : Device) (limit : Nat),
    start.Built → start.isWired = true → Reached start n → n.cycle limit = .ok () m →
      n.device? s = some d → d.kind = .flipFlop →
      n.stepSources.reads s n.vocabulary.flipFlop.clock ≠ some .rising → m.Idle s →
        m.q? s = n.q? s ∧ m.qbar? s = n.qbar? s := by
  intro claim
  have wired : hazard.isWired = true := by decide +kernel
  have completes : (hazardous.cycle 20).isOk = true := by decide +kernel
  have run := EStateM.Result.eq_ok_of_isOk completes
  have idle : (hazardous.cycle 20).state.Idle ⟨44⟩ := by
    unfold Idle
    decide +kernel
  have moved : (hazardous.cycle 20).state.q? ⟨44⟩ ≠ hazardous.q? ⟨44⟩ := by decide +kernel
  obtain ⟨d, found, kind, rests⟩ := flipFlop_hazardous
  exact moved (claim _ _ _ _ _ _ hazard_built wired reached_hazardous run found kind rests idle).1

end Netlist

end LogicCircuit
