import LogicCircuit.Proofs.Description.FanOut

/-!
The devices that the reading of a text declares, with their places, whatever problems the text has:
they are the declarations at its begin, and no later section has any.
-/

namespace LogicCircuit.Description

/-- A declaration in a text. -/
structure WrittenDeclaration where
  name : Located String
  kind : Kind
  numbers : List Nat
  /-- The tokens behind the name. -/
  body : List (Located Token)
  shape : body.map Located.value =
    .equals :: .name kind.text :: (Reader.numberTokens numbers ++ [.semicolon])

namespace WrittenDeclaration

def tokens (w : WrittenDeclaration) : List (Located Token) :=
  ⟨w.name.position, .name w.name.value⟩ :: w.body

theorem ne_ending_of_mem (w : WrittenDeclaration) : ∀ t ∈ w.body, t.value ≠ .ending := by
  intro t member ends
  have among : Token.ending ∈ w.body.map Located.value := List.mem_map.mpr ⟨t, member, ends⟩
  rw [w.shape] at among
  simp at among

theorem ne_ending_of_mem_tokens (w : WrittenDeclaration) : ∀ t ∈ w.tokens, t.value ≠ .ending :=
  List.forall_mem_cons.mpr ⟨by simp, w.ne_ending_of_mem⟩

end WrittenDeclaration

namespace Reader

variable {r s : Reader} {t : Located Token} {a : Option (Located Token)}
  {ws : List WrittenDeclaration}

/-- The devices are those of the declarations so far, and each place is known. -/
structure Declared (ws : List WrittenDeclaration) (r : Reader) : Prop where
  known : ∀ w ∈ ws, w.name.value ∈ r.circuit.symbols.texts
  devices : r.circuit.netlist.devices.map (fun d => (d.symbol, d.kind)) =
    ws.map fun w => (r.circuit.symbols.symbol w.name.value, w.kind)
  places : r.declared.reverse =
    ws.map fun w => (r.circuit.symbols.symbol w.name.value, w.name.position)

theorem Declared.append (h : Declared ws r) (more : List WrittenDeclaration)
    (grows : r.circuit.symbols.texts <+: s.circuit.symbols.texts)
    (known : ∀ w ∈ more, w.name.value ∈ r.circuit.symbols.texts)
    (devices : s.circuit.netlist.devices.map (fun d => (d.symbol, d.kind)) =
      r.circuit.netlist.devices.map (fun d => (d.symbol, d.kind)) ++
        more.map fun w => (r.circuit.symbols.symbol w.name.value, w.kind))
    (places : s.declared.reverse = r.declared.reverse ++
      more.map fun w => (r.circuit.symbols.symbol w.name.value, w.name.position)) :
    Declared (ws ++ more) s := by
  have all : ∀ w ∈ ws ++ more, w.name.value ∈ r.circuit.symbols.texts :=
    List.forall_mem_append.mpr ⟨h.known, known⟩
  have same : ∀ w ∈ ws ++ more, r.circuit.symbols.symbol w.name.value =
      s.circuit.symbols.symbol w.name.value :=
    fun w hw => (SymbolTable.symbol_of_prefix grows (all w hw)).symm
  refine ⟨fun w hw => grows.subset (all w hw), ?_, ?_⟩
  · rw [devices, h.devices, ← List.map_append]
    exact List.map_congr_left fun w hw => by rw [same w hw]
  · rw [places, h.places, ← List.map_append]
    exact List.map_congr_left fun w hw => by rw [same w hw]

theorem Declared.grow (h : Declared ws r)
    (grows : r.circuit.symbols.texts <+: s.circuit.symbols.texts)
    (devices : s.circuit.netlist.devices.map (fun d => (d.symbol, d.kind)) =
      r.circuit.netlist.devices.map fun d => (d.symbol, d.kind))
    (declared : s.declared = r.declared) : Declared ws s := by
  have none := h.append [] grows nofun (devices.trans (List.append_nil _).symm)
    ((congrArg List.reverse declared).trans (List.append_nil _).symm)
  rwa [List.append_nil] at none

/-- The reading with one more place of a declaration. -/
def placing (r : Reader) (place : Symbol × Position) : Reader :=
  { r with declared := place :: r.declared }

@[simp] theorem circuit_placing (r : Reader) (place : Symbol × Position) :
    (r.placing place).circuit = r.circuit := rfl

theorem passed_placing (r : Reader) (place : Symbol × Position) (ts : List (Located Token))
    (n : Netlist) (ps : List (Located Problem)) :
    (r.placing place).passed ts n ps = (r.passed ts n ps).placing place := rfl

theorem declare_ok {p : Position} {name : Mention} {kind : Kind} {first second : Option Nat}
    {u : Unit} (run : declare p name kind first second r = .ok u s) :
    ∃ n, r.circuit.netlist.declare name.symbol kind first second = .ok n ∧
      s = (r.passed [] n []).placing (name.symbol, p) := by
  rw [declare] at run
  cases step : r.circuit.netlist.declare name.symbol kind first second with
  | error _ => simp [step] at run
  | ok n =>
    simp only [step, EStateM.Result.ok.injEq, true_and] at run
    exact ⟨n, rfl, run.symm.trans (by simp [passed, placing, SymbolTable.addAll])⟩

/-- What follows the name of a device that is declared, and that nothing but the device and its
place is new. -/
theorem declaration_ok {p : Position} {name : Mention} {next : Located Token}
    (run : declaration p name r = .ok next s) : ∃ k ts rest kind l n,
      (∃ text, k.value = .name text ∧ r.circuit.netlist.vocabulary.kind?
        ((r.circuit.symbols.addAll (names [k])).symbol text) = some kind) ∧
      ts.map Located.value = numberTokens l ++ [.semicolon] ∧
      r.circuit.netlist.declare name.symbol kind l[0]? l[1]? = .ok n ∧
      r.coming = (k :: ts) ++ next :: rest ∧
      s = (r.passed (k :: ts ++ [next]) n []).placing (name.symbol, p) := by
  obtain ⟨k, _, took, run⟩ := bind_ok run
  obtain ⟨others, ahead, rfl⟩ := read_ok_iff.mp took
  obtain ⟨kind, _, named, run⟩ := bind_ok run
  obtain ⟨rfl, text, value, known⟩ := expectKind_ok named
  obtain ⟨_, _, counted, run⟩ := bind_ok run
  obtain ⟨l, ts, rest, rfl, -, split, values, rfl⟩ := numbers_ok counted
  obtain ⟨_, _, declares, run⟩ := bind_ok run
  obtain ⟨n, step, rfl⟩ := declare_ok declares
  obtain ⟨rest', ahead', rfl⟩ := read_ok_iff.mp run
  rw [coming_passed_one ahead (by simp [value])] at split
  subst split
  have proper : ∀ t ∈ k :: ts, t.value ≠ .ending :=
    List.forall_mem_cons.mpr ⟨by simp [value], ne_ending_of_numbers values⟩
  simp only [netlist_passed, passed_passed] at step ahead' ⊢
  have behind := coming_passed (k :: ts) ahead proper n []
  have same : next :: rest' = rest := by
    rw [← ahead', ← behind]
    simp [placing, coming, passed]
  refine ⟨k, ts, rest', kind, l, n, ⟨text, value, known⟩, values, step, ?_, ?_⟩
  · rw [same]
    exact ahead
  · rw [passed_placing, passed_passed]
    simp

theorem stray_ok {α : Type} {next : Keyword} {p : Position} {cause : Cause} {a : Option α}
    (run : stray next p cause r = .ok a s) : a = none ∧ s = r := by
  rw [stray, EStateM.bind_of_ok (get_run r)] at run
  split at run
  · obtain ⟨rfl, rfl⟩ := EStateM.pure_ok_iff.mp run
    exact ⟨rfl, rfl⟩
  · cases run

/-- Tokens that are taken leave the declarations as they are. -/
theorem Declared.passed (h : Declared ws r) (ts : List (Located Token)) :
    Declared ws (r.passed ts r.circuit.netlist []) :=
  h.grow (SymbolTable.prefix_addAll _ _) rfl rfl

/-- An entry of the section of devices goes astray, or a declaration follows the name. -/
theorem deviceEntry_ok (run : deviceEntry t r = .ok a s) :
    (a = none ∧ ∃ ts, s = r.passed ts r.circuit.netlist []) ∨
      ∃ text equals others next, t.value = .name text ∧ equals.value = .equals ∧ a = some next ∧
        r.coming = equals :: others ∧
        declaration t.position ⟨text, r.circuit.symbols.symbol text⟩
          (r.passed [equals] r.circuit.netlist []) = .ok next s := by
  obtain ⟨name, _, named, run⟩ := bind_ok run
  obtain ⟨rfl, text, value, rfl⟩ := expectName_ok_iff.mp named
  rw [EStateM.bind_of_ok (circuitNow_ok r)] at run
  dsimp only at run
  by_cases reserved : r.circuit.netlist.vocabulary.isReserved (r.circuit.symbols.symbol text)
  · rw [if_pos reserved] at run
    obtain ⟨none, rfl⟩ := stray_ok run
    exact .inl ⟨none, [], (passed_nil _).symm⟩
  rw [if_neg reserved] at run
  by_cases taken : (r.circuit.netlist.device? (r.circuit.symbols.symbol text)).isSome
  · rw [if_pos taken] at run
    obtain ⟨none, rfl⟩ := stray_ok run
    exact .inl ⟨none, [], (passed_nil _).symm⟩
  rw [if_neg taken] at run
  obtain ⟨equals, _, took, run⟩ := bind_ok run
  obtain ⟨others, ahead, rfl⟩ := read_ok_iff.mp took
  by_cases sign : equals.value = .equals
  · rw [if_pos sign] at run
    obtain ⟨next, body, eq⟩ := map_ok run
    exact .inr ⟨text, equals, others, next, value, sign, eq, ahead, body⟩
  · rw [if_neg sign] at run
    obtain ⟨none, rfl⟩ := stray_ok run
    exact .inl ⟨none, [equals], rfl⟩

/-- An entry that does not go astray declares one device. -/
theorem declared_of_deviceEntry (h : Declared ws r) (worded : r.Worded) (held : Held t r)
    (run : deviceEntry t r = .ok a s) : a = none ∧ Declared ws s ∨
      ∃ w next rest, a = some next ∧ Declared (ws ++ [w]) s ∧ Held next s ∧
        t :: r.coming = w.tokens ++ next :: rest ∧ (next.value ≠ .ending → s.coming = rest) := by
  obtain ⟨none, ts, rfl⟩ | ⟨text, equals, others, next, value, sign, rfl, ahead, body⟩ :=
    deviceEntry_ok run
  · exact .inl ⟨none, h.passed ts⟩
  obtain ⟨k, ts, rest, kind, l, n, ⟨kindText, kindValue, known⟩, values, step, split, rfl⟩ :=
    declaration_ok body
  rw [coming_passed_one ahead (by simp [sign])] at split
  simp only [netlist_passed, symbols_passed, passed_passed, List.append_nil,
    ← SymbolTable.addAll_append, ← names_append] at step known ⊢
  obtain ⟨-, d, made, rfl⟩ := Netlist.declare_ok_iff.mp step
  have words := worded.passed [equals, k] []
  have kindName : kindText = kind.text := by
    refine (Vocabulary.kind?_symbol_iff words.words).mp ?_
    rw [← words.vocabulary]
    exact known
  let w : WrittenDeclaration := ⟨⟨t.position, text⟩, kind, l, equals :: k :: ts, by
    rw [List.map_cons, List.map_cons, sign, kindValue, kindName, values]⟩
  have here : t = ⟨t.position, .name text⟩ := by rw [← value]
  have whole : r.coming = (equals :: k :: ts) ++ next :: rest := by
    rw [ahead, split]
    rfl
  have next_held : Held next (r.passed (equals :: k :: ts ++ [next])
      (r.circuit.netlist.add d) []) := held_passed (by simp) _ _
  refine .inr ⟨w, next, rest, rfl, ?_, next_held, ?_, fun more => ?_⟩
  · refine h.append [w] (SymbolTable.prefix_addAll _ _) ?_ ?_ ?_
    · exact fun w' hw => List.mem_singleton.mp hw ▸ held text value
    · simp [Netlist.add, made.symbol, made.kind, w]
    · simp [placing, passed, w]
  · rw [whole]
    exact congrArg (· :: _) here
  · refine coming_passed (equals :: k :: ts ++ [next]) ?_ ?_ (r.circuit.netlist.add d) []
    · rw [whole, List.append_assoc]
      rfl
    · exact List.forall_mem_append.mpr
        ⟨w.ne_ending_of_mem, List.forall_mem_singleton.mpr more⟩

/-- The entries of the section of devices are declarations, up to one that goes astray. -/
theorem declared_of_entries (h : Declared ws r) (worded : r.Worded) (held : Held t r)
    (run : entries deviceEntry yieldsSome_deviceEntry t r = .ok a s) : ∃ more rest,
      Declared (ws ++ more) s ∧ t :: r.coming = more.flatMap WrittenDeclaration.tokens ++ rest := by
  fun_induction entries deviceEntry yieldsSome_deviceEntry t r generalizing ws with
  | case1 t r ends =>
    obtain ⟨-, rfl⟩ := EStateM.Result.ok.inj run
    exact ⟨[], t :: r.coming, by rwa [List.append_nil], rfl⟩
  | case2 t r begins fault r' eq => cases run
  | case3 t r begins r' eq =>
    obtain ⟨-, rfl⟩ := EStateM.Result.ok.inj run
    obtain ⟨-, h'⟩ | ⟨w, next, rest, eq', -⟩ := declared_of_deviceEntry h worded held eq
    · exact ⟨[], t :: r.coming, by rwa [List.append_nil], rfl⟩
    · cases eq'
  | case4 t r begins next r' eq ih =>
    obtain ⟨eq', -⟩ | ⟨w, _, rest, eq', h', held', split, later⟩ :=
      declared_of_deviceEntry h worded held eq
    · cases eq'
    · obtain rfl := Option.some.inj eq'
      have worded' := worded_of_steps worded ((moves_deviceEntry t).steps eq)
      obtain ⟨more, rest', declared, split'⟩ := ih h' worded' held' run
      rw [List.append_assoc] at declared
      cases more with
      | nil => exact ⟨[w], next :: rest, declared, by simpa using split⟩
      | cons w' more =>
        -- a name is in hand, so that more tokens come behind it
        obtain ⟨rfl, -⟩ := List.cons.inj split'
        rw [later (by simp)] at split'
        refine ⟨w :: w' :: more, rest', declared, ?_⟩
        change _ = (w.tokens ++ (w' :: more).flatMap WrittenDeclaration.tokens) ++ rest'
        rw [split, split', List.append_assoc]

/-! What the other sections leave as it is. -/

/-- No unwired input is written down on the way. -/
def Calm (r s : Reader) : Prop :=
  s.diagnostics.filter (fun d => d.problem.isFloating) =
    r.diagnostics.filter fun d => d.problem.isFloating

/-- Moreover no device comes, and no declaration. -/
structure Leaves (r s : Reader) : Prop where
  calm : Calm r s
  symbols : r.circuit.symbols.texts <+: s.circuit.symbols.texts
  devices : s.circuit.netlist.devices.map (fun d => (d.symbol, d.kind)) =
    r.circuit.netlist.devices.map fun d => (d.symbol, d.kind)
  declared : s.declared = r.declared

theorem Leaves.refl (r : Reader) : Leaves r r :=
  ⟨rfl, List.prefix_rfl, rfl, rfl⟩

theorem Leaves.trans {r' : Reader} (h : Leaves r s) (h' : Leaves s r') : Leaves r r' :=
  ⟨h'.calm.trans h.calm, h.symbols.trans h'.symbols, h'.devices.trans h.devices,
    h'.declared.trans h.declared⟩

theorem Declared.leaves (h : Declared ws r) (leaves : Leaves r s) : Declared ws s :=
  h.grow leaves.symbols leaves.devices leaves.declared

theorem leaves_read (r : Reader) : Leaves r (read r).state := by
  have grows := (continues_read (r := r)).symbols
  rw [read] at grows ⊢
  split at grows
  · next t rest _ =>
    cases t with
    | mk p token => cases token <;> exact ⟨rfl, grows, rfl, rfl⟩
  · split at grows <;> exact ⟨rfl, grows, rfl, rfl⟩

theorem leaves_record (r : Reader) (p : Option Position) {problem : Problem}
    (other : problem.isFloating = false) : Leaves r (record p problem r).state := by
  refine ⟨?_, List.prefix_rfl, rfl, rfl⟩
  rw [Calm, record, modify_run]
  simp [EStateM.Result.state, Diagnostic.ofProblem, other]

instance : EntryStep Leaves where
  read := leaves_read
  record r p _ other := leaves_record r p other

theorem isFloating_connectProblem (v : Vocabulary) (device : Mention) (pin : Option Mention)
    (mismatch : Mismatch) : (connectProblem v device pin mismatch).isFloating = false := by
  cases mismatch with
  | pinAbsent =>
    rw [connectProblem]
    cases pin with
    | none => rfl
    | some pin =>
      rw [absentPin]
      split
      · rfl
      · split
        · split <;> rfl
        · rfl
  | _ => rfl

instance : ConnectionStep Leaves where
  attach r output p device pin := by
    unfold attach
    split
    · exact .refl r
    · split
      · next n connected =>
        refine ⟨rfl, List.prefix_rfl, ?_, rfl⟩
        obtain ⟨_, _, _, found, -, -, -, -, rfl⟩ | ⟨_, _, _, found, -, -, -, -, rfl⟩ :=
          Netlist.wires_of_connect connected
        · exact Netlist.map_update found rfl
        · exact Netlist.map_update found rfl
      · exact leaves_record r _ (isFloating_connectProblem _ _ _ _)

instance : MonitorStep Leaves where
  watch r output p device := by
    unfold watch
    split
    · exact .refl r
    · split
      · exact ⟨rfl, List.prefix_rfl, rfl, rfl⟩
      · next reason _ => exact leaves_record r _ (by cases reason <;> rfl)

instance : DeviceStep Calm where
  read r := (leaves_read r).calm
  record r p _ other := (leaves_record r p other).calm
  declare r p name kind first second := by
    rw [declare]
    split <;> rfl

section

variable {α : Type} {m : Reading α} {a : α}

theorem Moves.leaves (moves : Moves Leaves m) (run : m r = .ok a s) : Leaves r s := by
  have steps := moves r
  rw [run] at steps
  change Relation.ReflTransGen Leaves r s at steps
  clear run
  induction steps with
  | refl => exact .refl r
  | tail _ step before => exact before.trans step

theorem Moves.calm (moves : Moves Calm m) (run : m r = .ok a s) : Calm r s := by
  have steps := moves r
  rw [run] at steps
  change Relation.ReflTransGen Calm r s at steps
  clear run
  induction steps with
  | refl => rfl
  | tail _ step before => exact step.trans before

end

/-- The section of devices begins with declarations, and what comes of it is what they declare. -/
theorem declared_of_devices (h : Declared [] r) (worded : r.Worded) {next : Located Token}
    (run : devices r = .ok next s) : ∃ ws rest, Declared ws s ∧
      r.coming = ws.flatMap WrittenDeclaration.tokens ++ rest := by
  obtain ⟨t, r₁, took, run⟩ := bind_ok run
  obtain ⟨last, r₂, body, run⟩ := bind_ok run
  obtain ⟨others, ahead, rfl⟩ := read_ok_iff.mp took
  obtain ⟨ws, rest, declared, split⟩ := declared_of_entries (h.passed [t])
    (worded.passed [t] []) (held_passed (List.mem_singleton.mpr rfl) _ _) body
  have leaves : Leaves r₂ s := by
    cases last with
    | some u =>
      obtain ⟨-, rfl⟩ := EStateM.pure_ok_iff.mp run
      exact .refl _
    | none => exact (moves_resume .connect).leaves run
  rw [List.nil_append] at declared
  cases ws with
  | nil => exact ⟨[], r.coming, declared.leaves leaves, rfl⟩
  | cons w more =>
    obtain ⟨rfl, -⟩ := List.cons.inj split
    rw [coming_passed_one ahead (by simp), ← ahead] at split
    exact ⟨w :: more, rest, declared.leaves leaves, split⟩

end Reader

end LogicCircuit.Description
