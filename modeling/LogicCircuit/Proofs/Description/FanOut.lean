import LogicCircuit.Proofs.Description.Assembly
import LogicCircuit.Proofs.Description.NeedlessPin

/-!
What an entry of the section of connections comes to, whatever it says: which problems its source
and its destinations give, and what becomes of the wiring. A destination that cannot be driven does
not keep the others from being driven.
-/

namespace LogicCircuit

namespace Netlist

/-- The netlist after an output, if there is one, was to drive several ends one after the other. An
end that it cannot drive is passed over. -/
def fanOut (output : Option Terminal) (n : Netlist) (ends : List Terminal) : Netlist :=
  ends.foldl (fun n e => (output.bind fun o => (n.connect o e).toOption).getD n) n

theorem fanOut_none (n : Netlist) (ends : List Terminal) : fanOut none n ends = n := by
  induction ends with
  | nil => rfl
  | cons e rest ih => exact ih

end Netlist

namespace Description

/-- A signal in a text: the device, and perhaps a dot and a pin. -/
structure WrittenSignal where
  device : Located String
  pin : Option (Position × Located String)

/-- A connection in a text, with the places of its arrow, its commas and its semicolon. -/
structure WrittenConnection where
  source : WrittenSignal
  arrow : Position
  first : WrittenSignal
  others : List (Position × WrittenSignal)
  close : Position

/-- A name in a text with its symbol. -/
def mention (t : SymbolTable) (name : Located String) : Mention :=
  ⟨name.value, t.symbol name.value⟩

/-- No entry ends with the token. -/
def Token.IsInner (a : Token) : Prop :=
  a ≠ .ending ∧ (a = .semicolon || a.isKeyword) = false

namespace WrittenSignal

def nameToken (w : WrittenSignal) : Located Token :=
  ⟨w.device.position, .name w.device.value⟩

theorem nameToken_ne (w : WrittenSignal) : w.nameToken.value ≠ .ending := by
  simp [nameToken]

def pinTokens (w : WrittenSignal) : List (Located Token) :=
  match w.pin with
  | none => []
  | some (dot, pin) => [⟨dot, .dot⟩, ⟨pin.position, .name pin.value⟩]

def tokens (w : WrittenSignal) : List (Located Token) :=
  w.nameToken :: w.pinTokens

theorem isInner_of_mem {w : WrittenSignal} {u : Located Token} (hu : u ∈ w.tokens) :
    u.value.IsInner := by
  obtain ⟨device, _ | ⟨dot, pin⟩⟩ := w
  · obtain rfl := List.mem_singleton.mp hu
    exact ⟨by simp [nameToken], rfl⟩
  · simp only [tokens, pinTokens, List.mem_cons, List.not_mem_nil, or_false] at hu
    rcases hu with rfl | rfl | rfl
    all_goals exact ⟨by simp [nameToken], rfl⟩

/-- The end of a wire that the signal names. -/
def terminal (t : SymbolTable) (w : WrittenSignal) : Terminal :=
  ⟨t.symbol w.device.value, w.pin.map fun p => t.symbol p.2.value⟩

/-- The problem with the signal, if an output is to drive it and cannot. -/
def complaint (t : SymbolTable) (output : Option Terminal) (n : Netlist) (w : WrittenSignal) :
    List (Located Problem) :=
  match output with
  | none => []
  | some output =>
    match n.connect output (w.terminal t) with
    | .ok _ => []
    | .error mismatch =>
      [⟨w.device.position, connectProblem n.vocabulary (mention t w.device)
        (w.pin.map fun p => mention t p.2) mismatch⟩]

/-- The problems with several signals that one output is to drive, each in the wiring that the
signals before it leave. -/
def complaints (t : SymbolTable) (output : Option Terminal) :
    Netlist → List WrittenSignal → List (Located Problem)
  | _, [] => []
  | n, w :: rest =>
    w.complaint t output n ++ complaints t output (n.fanOut output [w.terminal t]) rest

theorem complaints_none (t : SymbolTable) (n : Netlist) (ws : List WrittenSignal) :
    complaints t none n ws = [] := by
  induction ws with
  | nil => rfl
  | cons w rest ih => exact ih

end WrittenSignal

namespace WrittenConnection

def destinations (c : WrittenConnection) : List WrittenSignal :=
  c.first :: c.others.map Prod.snd

/-- The tokens of the destinations behind the first one. -/
def furtherTokens (others : List (Position × WrittenSignal)) : List (Located Token) :=
  others.flatMap fun w => ⟨w.1, .comma⟩ :: w.2.tokens

/-- The tokens between the name of the source and the semicolon. -/
def body (c : WrittenConnection) : List (Located Token) :=
  c.source.pinTokens ++ ⟨c.arrow, .arrow⟩ :: (c.first.tokens ++ furtherTokens c.others)

def tokens (c : WrittenConnection) : List (Located Token) :=
  c.source.nameToken :: (c.body ++ [⟨c.close, .semicolon⟩])

theorem isInner_of_mem_body {c : WrittenConnection} {u : Located Token} (hu : u ∈ c.body) :
    u.value.IsInner := by
  simp only [body, furtherTokens, List.mem_append, List.mem_cons, List.mem_flatMap] at hu
  rcases hu with source | rfl | first | ⟨w, -, rfl | other⟩
  · exact WrittenSignal.isInner_of_mem (List.mem_cons_of_mem _ source)
  · exact ⟨by simp, rfl⟩
  · exact WrittenSignal.isInner_of_mem first
  · exact ⟨by simp, rfl⟩
  · exact WrittenSignal.isInner_of_mem other

theorem ne_ending_of_mem (c : WrittenConnection) : ∀ u ∈ c.tokens, u.value ≠ .ending := by
  intro u hu
  rcases List.mem_cons.mp hu with rfl | later
  · exact c.source.nameToken_ne
  · exact forall_mem_concat (P := fun u => u.value ≠ .ending)
      (fun w hw => (isInner_of_mem_body hw).1) (by simp) u later

/-- What becomes of the wiring, and which problems there are, by what the source is. -/
inductive Handled (t : SymbolTable) (n : Netlist) (c : WrittenConnection) :
    Netlist → List (Located Problem) → Prop
  | undeclared (absent : n.kindOf? (t.symbol c.source.device.value) = none) :
    Handled t n c n [⟨c.source.device.position, .undefinedDevice c.source.device.value⟩]
  | missingPin (known : n.kindOf? (t.symbol c.source.device.value) = some .flipFlop)
    (bare : c.source.pin = none) :
    Handled t n c n [⟨c.arrow, .missingOutputPin c.source.device.value⟩]
  | wrongPin {dot : Position} {pin : Located String}
    (known : n.kindOf? (t.symbol c.source.device.value) = some .flipFlop)
    (pinned : c.source.pin = some (dot, pin)) (wrong : ¬ (pin.value = "Q" ∨ pin.value = "QBAR")) :
    Handled t n c n [⟨pin.position, .notAnOutputOf pin.value c.source.device.value⟩]
  | needlessPin {kind : Kind} {dot : Position} {pin : Located String} {output : Option Terminal}
    (known : n.kindOf? (t.symbol c.source.device.value) = some kind) (other : kind ≠ .flipFlop)
    (pinned : c.source.pin = some (dot, pin))
    (whole : output = some ⟨t.symbol c.source.device.value, none⟩) :
    Handled t n c (n.fanOut output (c.destinations.map (WrittenSignal.terminal t)))
      (⟨pin.position, if pin.value = "Q" ∨ pin.value = "QBAR" then
        .notAnOutputOf pin.value c.source.device.value else .expectedOutput⟩ ::
        WrittenSignal.complaints t output n c.destinations)
  | proper {kind : Kind} {output : Option Terminal}
    (known : n.kindOf? (t.symbol c.source.device.value) = some kind)
    (fits : match c.source.pin with
      | none => kind ≠ .flipFlop
      | some (_, pin) => kind = .flipFlop ∧ (pin.value = "Q" ∨ pin.value = "QBAR"))
    (named : output = some (c.source.terminal t)) :
    Handled t n c (n.fanOut output (c.destinations.map (WrittenSignal.terminal t)))
      (WrittenSignal.complaints t output n c.destinations)

end WrittenConnection

namespace Reader

open WrittenConnection (furtherTokens)

variable {r s : Reader} {t : SymbolTable} {output : Option Terminal} {u : Located Token}
  {w first : WrittenSignal} {others : List (Position × WrittenSignal)} {c : WrittenConnection}
  {skipped rest : List (Located Token)} {close : Position} {text : String}

/-- The wiring knows the fixed words by the symbols of the table. -/
structure Worded (r : Reader) : Prop where
  words : ∀ w ∈ Vocabulary.words, w ∈ r.circuit.symbols.texts
  vocabulary : r.circuit.netlist.vocabulary = Vocabulary.ofTable r.circuit.symbols

theorem Worded.grow (h : r.Worded) (grows : r.circuit.symbols.texts <+: s.circuit.symbols.texts)
    (same : s.circuit.netlist.vocabulary = r.circuit.netlist.vocabulary) : s.Worded := by
  refine ⟨fun w hw => grows.subset (h.words w hw), ?_⟩
  rw [same, h.vocabulary]
  exact (Vocabulary.ofTable_congr fun w hw =>
    SymbolTable.symbol_of_prefix grows (h.words w hw)).symm

theorem worded_of_steps (h : r.Worded) (steps : Relation.ReflTransGen Step r s) : s.Worded := by
  induction steps with
  | refl => exact h
  | tail _ step ih =>
    exact ih.grow (continues_of_step step).symbols
      (netlist_of_step (Netlist.additive_vocabulary _) step rfl)

theorem worded_opened (source : List Char) (limit : Nat) :
    (opened source (Circuit.empty limit)).Worded := by
  refine ⟨words_opened source limit, ?_⟩
  have start : (Circuit.empty limit).netlist.vocabulary =
      Vocabulary.ofTable (Circuit.empty limit).symbols := by
    simp only [Circuit.empty, Circuit.withSymbols, Netlist.empty]
  refine start.trans (Vocabulary.ofTable_congr fun w hw => ?_).symm
  rw [symbols_opened, SymbolTable.symbol_addAll]
  rw [symbols_empty]
  exact SymbolTable.mem_addAll.mpr (.inl hw)

theorem Worded.passed (h : r.Worded) (ts : List (Located Token)) (ps : List (Located Problem)) :
    (r.passed ts r.circuit.netlist ps).Worded :=
  h.grow (SymbolTable.prefix_addAll _ _) rfl

theorem Worded.isFlipFlopOutput_symbol (h : r.Worded)
    (known : text ∈ r.circuit.symbols.texts) (within : r.circuit.symbols.texts <+: t.texts) :
    r.circuit.netlist.vocabulary.isFlipFlopOutput (t.symbol text) =
      decide (text = "Q" ∨ text = "QBAR") := by
  rw [h.vocabulary, SymbolTable.symbol_of_prefix within known, Bool.eq_iff_iff,
    Vocabulary.isFlipFlopOutput_symbol_iff h.words, decide_eq_true_iff]

theorem Worded.isOutputPin_ok (h : r.Worded) {name : Located String}
    (known : name.value ∈ r.circuit.symbols.texts) (within : r.circuit.symbols.texts <+: t.texts) :
    isOutputPin (mention t name) r =
      .ok (decide (name.value = "Q" ∨ name.value = "QBAR")) r := by
  rw [isOutputPin, EStateM.bind_of_ok (circuitNow_ok r), mention,
    h.isFlipFlopOutput_symbol known within]
  rfl

theorem expectName_written (name : Located String)
    (held : Held ⟨name.position, .name name.value⟩ r)
    (within : r.circuit.symbols.texts <+: t.texts) :
    expectName ⟨name.position, .name name.value⟩ r = .ok (mention t name) r := by
  refine expectName_ok_iff.mpr ⟨rfl, name.value, rfl, ?_⟩
  rw [mention, SymbolTable.symbol_of_prefix within (held name.value rfl)]

theorem attach_eq (r : Reader) (t : SymbolTable) (output : Option Terminal) (w : WrittenSignal) :
    attach output w.device.position (mention t w.device)
        (w.pin.map fun p => mention t p.2) r =
      .ok () (r.passed [] (r.circuit.netlist.fanOut output [w.terminal t])
        (w.complaint t output r.circuit.netlist)) := by
  cases output with
  | none => rw [WrittenSignal.complaint, Netlist.fanOut_none, passed_nil, attach]
  | some output =>
    have ends : (⟨(mention t w.device).symbol,
        (w.pin.map fun p => mention t p.2).map Mention.symbol⟩ : Terminal) =
          w.terminal t := by
      rw [Option.map_map]
      rfl
    rw [attach, WrittenSignal.complaint]
    simp only [ends, Netlist.fanOut, List.foldl_cons, List.foldl_nil, Option.bind_some]
    cases step : r.circuit.netlist.connect output (w.terminal t) with
    | error mismatch => exact record_eq _ _ _
    | ok n => simp [Except.toOption, passed, SymbolTable.addAll]

/-- A dot and the name of a pin are read. -/
theorem pin_written {dot : Position} {pin : Located String}
    (ahead : r.coming = ⟨dot, .dot⟩ :: ⟨pin.position, .name pin.value⟩ :: rest)
    (within : (r.circuit.symbols.addAll (names [⟨dot, .dot⟩,
      ⟨pin.position, .name pin.value⟩])).texts <+: t.texts) :
    ∃ dotted pinned, dotted = r.passed [⟨dot, .dot⟩] r.circuit.netlist [] ∧
      pinned = r.passed [⟨dot, .dot⟩, ⟨pin.position, .name pin.value⟩] r.circuit.netlist [] ∧
      read r = .ok ⟨dot, .dot⟩ dotted ∧ read dotted = .ok ⟨pin.position, .name pin.value⟩ pinned ∧
      expectName ⟨pin.position, .name pin.value⟩ pinned = .ok (mention t pin) pinned ∧
      pinned.coming = rest := by
  have took := read_of_coming (coming_passed_one ahead (by simp) r.circuit.netlist [])
  rw [netlist_passed, passed_passed] at took
  exact ⟨_, _, rfl, rfl, read_of_coming ahead, took,
    expectName_written pin (held_passed (by simp) _ _) within,
    coming_passed [⟨dot, .dot⟩, ⟨pin.position, .name pin.value⟩] ahead (by simp) _ _⟩

theorem destination_written (output : Option Terminal) (held : Held w.nameToken r)
    (other : w.pin = none → u.value ≠ .dot) (ahead : r.coming = w.pinTokens ++ u :: rest)
    (within : (r.circuit.symbols.addAll (names (w.pinTokens ++ [u]))).texts <+: t.texts) :
    destination output w.nameToken r = .ok u (r.passed (w.pinTokens ++ [u])
      (r.circuit.netlist.fanOut output [w.terminal t])
      (w.complaint t output r.circuit.netlist)) := by
  have named := expectName_written w.device held ((SymbolTable.prefix_addAll _ _).trans within)
  have attached := attach_eq (r.passed (w.pinTokens ++ [u]) r.circuit.netlist []) t output w
  rw [netlist_passed, passed_passed, List.append_nil] at attached
  obtain ⟨device, _ | ⟨dot, pin⟩⟩ := w
  · rw [destination, WrittenSignal.nameToken, EStateM.bind_of_ok named,
      EStateM.bind_of_ok (read_of_coming ahead), if_neg (other rfl)]
    exact (EStateM.bind_of_ok attached).trans rfl
  · obtain ⟨dotted, pinned, rfl, rfl, took, took', named', ahead'⟩ :=
      pin_written ahead ((prefix_passed r _ [u] r.circuit.netlist []).trans within)
    have last := read_of_coming ahead'
    rw [netlist_passed, passed_passed] at last
    rw [destination, WrittenSignal.nameToken, EStateM.bind_of_ok named, EStateM.bind_of_ok took,
      if_pos rfl, EStateM.bind_of_ok took']
    refine (EStateM.bind_of_ok named').trans ?_
    refine (EStateM.bind_of_ok last).trans ?_
    exact (EStateM.bind_of_ok attached).trans rfl

/-- A list of destinations, whichever of them can be driven, is read up to its semicolon. -/
theorem destinations_written (output : Option Terminal) (held : Held first.nameToken r)
    (ahead : r.coming = first.pinTokens ++ (furtherTokens others ++ ⟨close, .semicolon⟩ :: rest))
    (within : (r.circuit.symbols.addAll
      (names (first.pinTokens ++ (furtherTokens others ++ [⟨close, .semicolon⟩])))).texts <+:
        t.texts) :
    destinations output first.nameToken r =
      read (r.passed (first.pinTokens ++ (furtherTokens others ++ [⟨close, .semicolon⟩]))
        (r.circuit.netlist.fanOut output
          ((first :: others.map Prod.snd).map (WrittenSignal.terminal t)))
        (WrittenSignal.complaints t output r.circuit.netlist (first :: others.map Prod.snd))) := by
  induction others generalizing first r with
  | nil =>
    have run := destination_written output (u := ⟨close, .semicolon⟩) held (by simp) ahead within
    rw [destinations_of_semicolon run rfl]
    simp only [furtherTokens, List.flatMap_nil, List.nil_append, List.map_nil, List.map_cons,
      WrittenSignal.complaints, List.append_nil]
  | cons second others ih =>
    obtain ⟨comma, second⟩ := second
    have flat (more : List (Located Token)) :
        first.pinTokens ++ (furtherTokens ((comma, second) :: others) ++ more) =
          (first.pinTokens ++ [⟨comma, .comma⟩] ++ [second.nameToken]) ++
            (second.pinTokens ++ (furtherTokens others ++ more)) := by
      simp [furtherTokens, WrittenSignal.tokens]
    rw [flat] at ahead within ⊢
    have within₁ := (prefix_passed r (first.pinTokens ++ [⟨comma, .comma⟩]) (second.nameToken ::
      (second.pinTokens ++ (furtherTokens others ++ [⟨close, .semicolon⟩]))) r.circuit.netlist
        []).trans (by simpa using within)
    have run := destination_written output (t := t) (u := ⟨comma, .comma⟩) held (by simp)
      (by simpa using ahead) within₁
    -- the destinations behind the first one are judged by the wiring that this one leaves
    change _ = read (r.passed _ ((r.circuit.netlist.fanOut output [first.terminal t]).fanOut output
      ((second :: others.map Prod.snd).map (WrittenSignal.terminal t)))
      (first.complaint t output r.circuit.netlist ++ WrittenSignal.complaints t output
        (r.circuit.netlist.fanOut output [first.terminal t]) (second :: others.map Prod.snd)))
    generalize r.circuit.netlist.fanOut output [first.terminal t] = m at run ⊢
    generalize first.complaint t output r.circuit.netlist = ps at run ⊢
    have ahead₁ : (r.passed (first.pinTokens ++ [⟨comma, .comma⟩]) m ps).coming =
        second.nameToken :: (second.pinTokens ++
          (furtherTokens others ++ ⟨close, .semicolon⟩ :: rest)) := by
      refine coming_passed _ (by simpa using ahead) (forall_mem_concat (fun u hu => ?_) ?_) _ _
      · exact (WrittenSignal.isInner_of_mem (List.mem_cons_of_mem _ hu)).1
      · simp
    have took := read_of_coming ahead₁
    rw [netlist_passed, passed_passed, List.append_nil] at took
    have ahead₂ := coming_passed_one ahead₁ second.nameToken_ne m []
    rw [passed_passed, List.append_nil] at ahead₂
    have later := ih (held_passed (List.mem_append_right _ List.mem_cons_self) m ps) ahead₂ (by
      rw [symbols_passed, ← SymbolTable.addAll_append, ← names_append]
      exact within)
    rw [destinations_of_comma run rfl took, later, netlist_passed, passed_passed]

theorem skipEntry_written (ahead : r.coming = skipped ++ ⟨close, .semicolon⟩ :: rest)
    (inner : ∀ u ∈ skipped, u.value.IsInner) :
    skipEntry r =
      read (r.passed (skipped ++ [⟨close, .semicolon⟩]) r.circuit.netlist []) := by
  have run := skipUntil_of_coming (fun t => t = .semicolon || t.isKeyword) ahead inner (.inr rfl)
  exact (EStateM.bind_of_ok run).trans rfl

section Entry

variable {kind : Kind} {v : Located Token} {ps : List (Located Problem)}
  (ahead : r.coming = c.tokens ++ rest) (all : r.circuit.symbols.addAll (names c.tokens) = t)
include ahead all

theorem source_written : read r = .ok c.source.nameToken
      (r.passed [c.source.nameToken] r.circuit.netlist []) ∧
    expectName c.source.nameToken (r.passed [c.source.nameToken] r.circuit.netlist []) =
      .ok (mention t c.source.device) (r.passed [c.source.nameToken] r.circuit.netlist []) ∧
    (r.passed [c.source.nameToken] r.circuit.netlist []).coming =
      c.body ++ ⟨c.close, .semicolon⟩ :: rest := by
  have split : r.coming = c.source.nameToken :: (c.body ++ ⟨c.close, .semicolon⟩ :: rest) := by
    simpa [WrittenConnection.tokens] using ahead
  refine ⟨read_of_coming split, ?_, coming_passed_one split c.source.nameToken_ne _ _⟩
  refine expectName_written c.source.device (held_passed (List.mem_singleton.mpr rfl) _ _) ?_
  rw [← all]
  exact prefix_passed r [c.source.nameToken] _ _ _

theorem undeclared_written (absent : r.circuit.netlist.kindOf? (t.symbol c.source.device.value) =
    none) : (read >>= connectionEntry) r = (some <$> read) (r.passed c.tokens r.circuit.netlist
      [⟨c.source.device.position, .undefinedDevice c.source.device.value⟩]) := by
  obtain ⟨took, named, ahead₁⟩ := source_written ahead all
  rw [EStateM.bind_of_ok took, connectionEntry, EStateM.bind_of_ok named,
    EStateM.bind_of_ok (circuitNow_ok _)]
  simp only [netlist_passed, mention, absent]
  have recorded := record_eq (r.passed [c.source.nameToken] r.circuit.netlist [])
    c.source.device.position (.undefinedDevice c.source.device.value)
  rw [netlist_passed, passed_passed, List.append_nil, List.nil_append] at recorded
  refine (EStateM.bind_of_ok recorded).trans (EStateM.map_congr ?_)
  have skipped := skipEntry_written (r := r.passed [c.source.nameToken] r.circuit.netlist
    [⟨c.source.device.position, .undefinedDevice c.source.device.value⟩]) ahead₁
    fun u hu => c.isInner_of_mem_body hu
  rw [skipped, netlist_passed, passed_passed]
  rfl

/-- The rest of an entry whose source is read up to the arrow. -/
theorem connectionEntry_of_source
    (known : r.circuit.netlist.kindOf? (t.symbol c.source.device.value) = some kind)
    (first : connectionOutput kind (mention t c.source.device)
      (r.passed [c.source.nameToken] r.circuit.netlist []) = .ok (output, v) s)
    (signed : arrow kind (mention t c.source.device) v s =
      .ok (some ()) (r.passed (c.source.tokens ++ [⟨c.arrow, .arrow⟩]) r.circuit.netlist ps)) :
    (read >>= connectionEntry) r = (some <$> read) (r.passed c.tokens
      (r.circuit.netlist.fanOut output (c.destinations.map (WrittenSignal.terminal t)))
      (ps ++ WrittenSignal.complaints t output r.circuit.netlist c.destinations)) := by
  obtain ⟨took, named, -⟩ := source_written ahead all
  let n := r.circuit.netlist
  let start := c.source.tokens ++ [⟨c.arrow, .arrow⟩]
  have split : c.tokens = (start ++ [c.first.nameToken]) ++
      (c.first.pinTokens ++ (furtherTokens c.others ++ [⟨c.close, .semicolon⟩])) := by
    simp [start, WrittenConnection.tokens, WrittenConnection.body, WrittenSignal.tokens]
  have inner : ∀ u ∈ start, u.value ≠ .ending :=
    forall_mem_concat (fun u hu => (WrittenSignal.isInner_of_mem hu).1) (by simp)
  have ahead₂ : (r.passed start n ps).coming = c.first.nameToken ::
      (c.first.pinTokens ++ (furtherTokens c.others ++ ⟨c.close, .semicolon⟩ :: rest)) := by
    refine coming_passed start ?_ inner _ _
    rw [ahead, split]
    simp
  have begins := read_of_coming ahead₂
  have ahead₃ := coming_passed_one ahead₂ c.first.nameToken_ne n []
  rw [netlist_passed] at begins
  rw [passed_passed] at begins ahead₃
  have whole : (r.passed (start ++ [c.first.nameToken]) n (ps ++ [])).circuit.symbols.addAll
      (names (c.first.pinTokens ++ (furtherTokens c.others ++ [⟨c.close, .semicolon⟩]))) = t := by
    rw [symbols_passed, ← SymbolTable.addAll_append, ← names_append, ← split, all]
  have run := destinations_written output (t := t) (held_passed (by simp) _ _) ahead₃
    (congrArg SymbolTable.texts whole ▸ List.prefix_rfl)
  rw [netlist_passed, passed_passed, ← split] at run
  have found : r.circuit.netlist.kindOf? (mention t c.source.device).symbol = some kind := known
  rw [EStateM.bind_of_ok took, connectionEntry, EStateM.bind_of_ok named,
    EStateM.bind_of_ok (circuitNow_ok _)]
  simp only [netlist_passed, found]
  refine (EStateM.bind_of_ok first).trans ?_
  refine (EStateM.bind_of_ok signed).trans ?_
  refine (EStateM.bind_of_ok begins).trans (EStateM.map_congr ?_)
  rw [run, List.append_nil]
  rfl

end Entry

theorem arrow_of_sign (kind : Kind) (device : Mention) (p : Position) (r : Reader) :
    arrow kind device ⟨p, .arrow⟩ r = .ok (some ()) r := by
  rw [arrow, if_pos rfl]
  rfl

section Source

variable {kind : Kind} {dot p : Position} {pin : Located String}

/-- The source without a pin: a flip-flop needs one. -/
theorem bareSource_written (kind : Kind) (device : Mention)
    (ahead : r.coming = ⟨p, .arrow⟩ :: rest) :
    connectionOutput kind device r =
      .ok (if kind = .flipFlop then none else some ⟨device.symbol, none⟩, ⟨p, .arrow⟩)
        (r.passed [⟨p, .arrow⟩] r.circuit.netlist
          (if kind = .flipFlop then [⟨p, .missingOutputPin device.text⟩] else [])) := by
  rw [connectionOutput, EStateM.bind_of_ok (read_of_coming ahead)]
  by_cases flipFlop : kind = .flipFlop
  · have recorded := record_eq (r.passed [⟨p, .arrow⟩] r.circuit.netlist []) p
      (.missingOutputPin device.text)
    rw [netlist_passed, passed_passed] at recorded
    rw [if_pos flipFlop, if_pos flipFlop, if_pos flipFlop, outputPin, if_neg (by simp)]
    exact (EStateM.bind_of_ok recorded).trans rfl
  · rw [if_neg flipFlop, if_neg flipFlop, if_neg flipFlop]
    rfl

variable (worded : r.Worded)
  (ahead : r.coming = ⟨dot, .dot⟩ :: ⟨pin.position, .name pin.value⟩ :: ⟨p, .arrow⟩ :: rest)
include worded ahead

/-- A flip-flop with a pin, which must be one of its outputs. -/
theorem pinnedFlipFlop_written (device : Mention) (within : (r.circuit.symbols.addAll
    (names [⟨dot, .dot⟩, ⟨pin.position, .name pin.value⟩])).texts <+: t.texts) :
    connectionOutput .flipFlop device r =
    .ok (if pin.value = "Q" ∨ pin.value = "QBAR"
      then some ⟨device.symbol, some (t.symbol pin.value)⟩ else none, ⟨p, .arrow⟩)
      (r.passed [⟨dot, .dot⟩, ⟨pin.position, .name pin.value⟩, ⟨p, .arrow⟩] r.circuit.netlist
        (if pin.value = "Q" ∨ pin.value = "QBAR" then []
        else [⟨pin.position, .notAnOutputOf pin.value device.text⟩])) := by
  obtain ⟨dotted, pinned, rfl, rfl, took, took', named, ahead'⟩ := pin_written ahead within
  have asks := (worded.passed [⟨dot, .dot⟩, ⟨pin.position, .name pin.value⟩] []).isOutputPin_ok
    (held_passed (t := ⟨pin.position, .name pin.value⟩) (by simp) _ _ pin.value rfl) within
  rw [connectionOutput, EStateM.bind_of_ok took, if_pos rfl, outputPin, if_pos rfl,
    EStateM.bind_of_ok took', EStateM.bind_of_ok named, EStateM.bind_of_ok asks]
  by_cases proper : pin.value = "Q" ∨ pin.value = "QBAR"
  · have last := read_of_coming ahead'
    rw [netlist_passed, passed_passed] at last
    rw [if_pos proper, if_pos proper, if_pos (decide_eq_true proper)]
    exact (EStateM.bind_of_ok last).trans rfl
  · have recorded := record_eq (r.passed [⟨dot, .dot⟩, ⟨pin.position, .name pin.value⟩]
      r.circuit.netlist []) pin.position (.notAnOutputOf pin.value device.text)
    rw [netlist_passed, passed_passed] at recorded
    have last := read_of_coming (r := r.passed [⟨dot, .dot⟩, ⟨pin.position, .name pin.value⟩]
      r.circuit.netlist [⟨pin.position, .notAnOutputOf pin.value device.text⟩]) ahead'
    rw [netlist_passed, passed_passed] at last
    rw [if_neg proper, if_neg proper, if_neg (by simpa using proper)]
    refine (EStateM.bind_of_ok recorded).trans ?_
    exact (EStateM.bind_of_ok last).trans rfl

/-- Another device with a pin, which it must not have. -/
theorem needlessPin_written (device : Mention) (other : kind ≠ .flipFlop) :
    connectionOutput kind device r = .ok (some ⟨device.symbol, none⟩, ⟨dot, .dot⟩)
        (r.passed [⟨dot, .dot⟩] r.circuit.netlist []) ∧
      arrow kind device ⟨dot, .dot⟩ (r.passed [⟨dot, .dot⟩] r.circuit.netlist []) =
        .ok (some ()) (r.passed [⟨dot, .dot⟩, ⟨pin.position, .name pin.value⟩, ⟨p, .arrow⟩]
          r.circuit.netlist [⟨pin.position, if pin.value = "Q" ∨ pin.value = "QBAR" then
            .notAnOutputOf pin.value device.text else .expectedOutput⟩]) := by
  have ahead₁ := coming_passed_one ahead (by simp) r.circuit.netlist []
  have signed := arrow_of_dot device dot other ahead₁
  have judged := (worded.passed [⟨dot, .dot⟩, ⟨pin.position, .name pin.value⟩]
    []).isFlipFlopOutput_symbol
      (held_passed (t := ⟨pin.position, .name pin.value⟩) (by simp) _ _ pin.value rfl)
      List.prefix_rfl
  rw [netlist_passed, symbols_passed] at judged
  have same : pinProblem r.circuit.netlist.vocabulary
      (r.circuit.symbols.addAll (names [⟨dot, .dot⟩, ⟨pin.position, .name pin.value⟩])) device
        (.name pin.value) = if pin.value = "Q" ∨ pin.value = "QBAR" then
          .notAnOutputOf pin.value device.text else .expectedOutput := by
    rw [pinProblem, judged]
    simp only [decide_eq_true_eq]
  rw [netlist_passed, symbols_passed, ← SymbolTable.addAll_append, ← names_append, passed_passed]
    at signed
  simp only [List.singleton_append, List.nil_append, same] at signed
  generalize (if pin.value = "Q" ∨ pin.value = "QBAR" then
    Problem.notAnOutputOf pin.value device.text else .expectedOutput) = problem at signed ⊢
  have ahead₂ := coming_passed [⟨dot, .dot⟩, ⟨pin.position, .name pin.value⟩] ahead (by simp)
    r.circuit.netlist [⟨pin.position, problem⟩]
  have first : FirstOf endsSearch _ [] _ _ := ⟨ahead₂, by simp, rfl⟩
  have skips := skipToArrow_of_coming first
  rw [if_pos rfl, netlist_passed, passed_passed] at skips
  constructor
  · rw [connectionOutput, EStateM.bind_of_ok (read_of_coming ahead), if_neg other]
    rfl
  · exact signed.trans (EStateM.bind_of_ok skips)

end Source

section Sources

variable {kind : Kind} (ahead : r.coming = c.tokens ++ rest)
  (all : r.circuit.symbols.addAll (names c.tokens) = t)
  (known : r.circuit.netlist.kindOf? (t.symbol c.source.device.value) = some kind)
include ahead all known

theorem bareSource_handled (bare : c.source.pin = none) :
    ∃ m ps, c.Handled t r.circuit.netlist m ps ∧
      (read >>= connectionEntry) r = (some <$> read) (r.passed c.tokens m ps) := by
  obtain ⟨-, -, ahead₁⟩ := source_written ahead all
  rw [WrittenConnection.body, WrittenSignal.pinTokens, bare] at ahead₁
  have start : [c.source.nameToken] ++ [⟨c.arrow, .arrow⟩] =
      c.source.tokens ++ [⟨c.arrow, .arrow⟩] := by
    rw [WrittenSignal.tokens, WrittenSignal.pinTokens, bare]
  have first := bareSource_written kind (mention t c.source.device) ahead₁
  rw [netlist_passed, passed_passed, List.nil_append, start] at first
  have run := connectionEntry_of_source ahead all known first (arrow_of_sign _ _ _ _)
  by_cases flipFlop : kind = .flipFlop
  · subst flipFlop
    rw [if_pos rfl, if_pos rfl, Netlist.fanOut_none, WrittenSignal.complaints_none] at run
    exact ⟨_, _, .missingPin known bare, run⟩
  · rw [if_neg flipFlop, if_neg flipFlop] at run
    refine ⟨_, _, .proper known (by rw [bare]; exact flipFlop) ?_, run⟩
    rw [WrittenSignal.terminal, bare]
    rfl

theorem pinnedSource_handled (worded : r.Worded) {dot : Position} {pin : Located String}
    (pinned : c.source.pin = some (dot, pin)) : ∃ m ps, c.Handled t r.circuit.netlist m ps ∧
      (read >>= connectionEntry) r = (some <$> read) (r.passed c.tokens m ps) := by
  obtain ⟨-, -, ahead₁⟩ := source_written ahead all
  rw [WrittenConnection.body, WrittenSignal.pinTokens, pinned] at ahead₁
  have start : [c.source.nameToken] ++
      [⟨dot, .dot⟩, ⟨pin.position, .name pin.value⟩, ⟨c.arrow, .arrow⟩] =
        c.source.tokens ++ [⟨c.arrow, .arrow⟩] := by
    rw [WrittenSignal.tokens, WrittenSignal.pinTokens, pinned]
    rfl
  have worded₁ := worded.passed [c.source.nameToken] []
  by_cases flipFlop : kind = .flipFlop
  · subst flipFlop
    obtain ⟨more, split⟩ : [c.source.nameToken] ++
        [⟨dot, .dot⟩, ⟨pin.position, .name pin.value⟩] <+: c.tokens := by
      simp [WrittenConnection.tokens, WrittenConnection.body, WrittenSignal.pinTokens, pinned]
    have within := prefix_passed r ([c.source.nameToken] ++
      [⟨dot, .dot⟩, ⟨pin.position, .name pin.value⟩]) more r.circuit.netlist []
    rw [split, all, symbols_passed, names_append, SymbolTable.addAll_append] at within
    have first := pinnedFlipFlop_written worded₁ ahead₁ (mention t c.source.device) within
    rw [netlist_passed, passed_passed, List.nil_append, start] at first
    have run := connectionEntry_of_source ahead all known first (arrow_of_sign _ _ _ _)
    by_cases proper : pin.value = "Q" ∨ pin.value = "QBAR"
    · rw [if_pos proper, if_pos proper] at run
      refine ⟨_, _, .proper known (by rw [pinned]; exact ⟨rfl, proper⟩) ?_, run⟩
      rw [WrittenSignal.terminal, pinned]
      rfl
    · rw [if_neg proper, if_neg proper, Netlist.fanOut_none, WrittenSignal.complaints_none] at run
      exact ⟨_, _, .wrongPin known pinned proper, run⟩
  · obtain ⟨first, signed⟩ :=
      needlessPin_written worded₁ ahead₁ (mention t c.source.device) flipFlop
    rw [netlist_passed, passed_passed] at first
    rw [netlist_passed, passed_passed, passed_passed, List.nil_append, start] at signed
    exact ⟨_, _, .needlessPin known flipFlop pinned rfl,
      connectionEntry_of_source ahead all known first signed⟩

end Sources

/-- An entry of the section of connections is handled by what its source is, each destination is
connected or gives its problem, and the reading goes on behind the semicolon. -/
theorem connectionEntry_written (worded : r.Worded) (ahead : r.coming = c.tokens ++ rest) :
    ∃ m ps, c.Handled (r.circuit.symbols.addAll (names c.tokens)) r.circuit.netlist m ps ∧
      (read >>= connectionEntry) r = (some <$> read) (r.passed c.tokens m ps) ∧
      (r.passed c.tokens m ps).coming = rest := by
  suffices ∃ m ps, c.Handled (r.circuit.symbols.addAll (names c.tokens)) r.circuit.netlist m ps ∧
      (read >>= connectionEntry) r = (some <$> read) (r.passed c.tokens m ps) by
    obtain ⟨m, ps, handled, run⟩ := this
    exact ⟨m, ps, handled, run, coming_passed _ ahead c.ne_ending_of_mem m ps⟩
  generalize all : r.circuit.symbols.addAll (names c.tokens) = t
  cases known : r.circuit.netlist.kindOf? (t.symbol c.source.device.value) with
  | none => exact ⟨_, _, .undeclared known, undeclared_written ahead all known⟩
  | some kind =>
    cases pinned : c.source.pin with
    | none => exact bareSource_handled ahead all known pinned
    | some dotted => exact pinnedSource_handled ahead all known worded pinned

/-- A text with one connection, from a switch with a needless pin: to an input, to an output, to a
device that there is not, to the first input once more, and to another input. -/
def fanText : String :=
  "DEVICES S = SWITCH, 1; F = DTYPE; G = AND, 2; CONNECT S.Q -> G.I1, F.Q, H, G.I1, G.I2; END"

/-- The reading of that text behind its second keyword. -/
def fanReader : Reader :=
  ((read >>= sectionOf .devices devices)
    (opened fanText.toList (Circuit.empty Circuit.defaultLimit))).state

def fanEntry : WrittenConnection :=
  let pinned (column : Nat) (device pin : String) : WrittenSignal :=
    ⟨⟨⟨0, column⟩, device⟩, some (⟨0, column + 1⟩, ⟨⟨0, column + 2⟩, pin⟩)⟩
  { source := pinned 54 "S" "Q"
    arrow := ⟨0, 58⟩
    first := pinned 61 "G" "I1"
    others := [(⟨0, 65⟩, pinned 67 "F" "Q"), (⟨0, 70⟩, ⟨⟨⟨0, 72⟩, "H"⟩, none⟩),
      (⟨0, 73⟩, pinned 75 "G" "I1"), (⟨0, 79⟩, pinned 81 "G" "I2")]
    close := ⟨0, 85⟩ }

theorem fanReader_handled : fanReader.Worded ∧
    fanReader.coming = fanEntry.tokens ++ [⟨⟨0, 87⟩, .keyword .finish⟩, ⟨⟨0, 90⟩, .ending⟩] ∧
    ∃ m ps, fanEntry.Handled (fanReader.circuit.symbols.addAll (names fanEntry.tokens))
        fanReader.circuit.netlist m ps ∧
      (read >>= connectionEntry) fanReader =
        (some <$> read) (fanReader.passed fanEntry.tokens m ps) ∧
      (fanReader.passed fanEntry.tokens m ps).coming =
        [⟨⟨0, 87⟩, .keyword .finish⟩, ⟨⟨0, 90⟩, .ending⟩] := by
  have worded : fanReader.Worded :=
    worded_of_steps (worded_opened _ _)
      (moves_read.bind (fun t => moves_sectionOf moves_devices .devices t) _)
  have ahead : fanReader.coming =
      fanEntry.tokens ++ [⟨⟨0, 87⟩, .keyword .finish⟩, ⟨⟨0, 90⟩, .ending⟩] := by decide +kernel
  exact ⟨worded, ahead, connectionEntry_written worded ahead⟩

end Reader

end Description

end LogicCircuit
