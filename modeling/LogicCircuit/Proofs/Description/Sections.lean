import LogicCircuit.Proofs.Description.ConnectionEntry
import LogicCircuit.Proofs.Description.DeviceEntry
import LogicCircuit.Proofs.Description.MonitorEntry

/-!
Whole sections: what one entry keeps and tells is carried on from entry to entry, up to the keyword
of the next section.
-/

namespace LogicCircuit.Description.Reader

variable {ι : Type} {r s : Reader} {t next : Located Token} {table : SymbolTable}
  {es : List Declaration} {ws : List (Signal × Signal)} {ss : List Signal} {rest : List Token}
  {c : Token} {keyword : Keyword} {f : ι → List Token} {P : List ι → Reader → Prop}
  {entry : Located Token → Reading (Option (Located Token))}
  {progress : ∀ t, YieldsSome (entry t)}

/-- An entry that goes through stands for an item, and keeps what `P` says of the items so far. -/
def Tells (f : ι → List Token) (P : List ι → Reader → Prop)
    (entry : Located Token → Reading (Option (Located Token))) : Prop :=
  ∀ ⦃t r a s done⦄, P done r → Held t r → s.Clear → entry t r = .ok a s →
    ∃ next x, a = some next ∧ P (done ++ [x]) s ∧ Held next s ∧ ahead t r = f x ++ ahead next s

/-- Every item of the list, in its place, has an entry that goes through. -/
def Takes (f : ι → List Token) (P : List ι → Reader → Prop)
    (entry : Located Token → Reading (Option (Located Token))) (all : List ι) : Prop :=
  ∀ ⦃t r x done later c rest⦄, all = done ++ x :: later → P done r → Held t r → c ≠ .ending →
    ahead t r = f x ++ c :: rest →
    ∃ next s, entry t r = .ok (some next) s ∧ P (done ++ [x]) s ∧ Held next s ∧
      ahead next s = c :: rest

theorem after_entries (tells : Tells f P entry) (steps : ∀ t, Moves Step (entry t)) {done : List ι}
    (h : P done r) (held : Held t r) (clear : s.Clear) {a : Option (Located Token)}
    (run : entries entry progress t r = .ok a s) :
    ∃ next more, a = some next ∧ P (done ++ more) s ∧ Held next s ∧
      ahead t r = more.flatMap f ++ ahead next s := by
  fun_induction entries entry progress t r generalizing done with
  | case1 t r ends =>
    obtain ⟨rfl, rfl⟩ := by simpa using run
    exact ⟨t, [], rfl, by simpa using h, held, rfl⟩
  | case2 => cases run
  | case3 t r ends s' eq =>
    -- an entry that goes astray does not go through
    obtain ⟨rfl, rfl⟩ := by simpa using run
    obtain ⟨next, -, some, -⟩ := tells h held clear eq
    cases some
  | case4 t r ends u s₁ eq ih =>
    -- no later entry takes a problem of this one back
    have clear₁ := (moves_entries progress steps u).clear run clear
    obtain ⟨_, x, some, h₁, held₁, eq₁⟩ := tells h held clear₁ eq
    obtain rfl := Option.some.inj some
    obtain ⟨next, more, last, h₂, held₂, eq₂⟩ := ih h₁ held₁ run
    refine ⟨next, x :: more, last, ?_, held₂, ?_⟩
    · rwa [List.append_cons]
    · rw [eq₁, eq₂, List.flatMap_cons, List.append_assoc]

theorem entries_of_entry {u : Located Token} {s' : Reader} {text : String}
    (value : t.value = .name text) (run : entry t r = .ok (some u) s') :
    entries entry progress t r = entries entry progress u s' := by
  have goes : ¬ t.value.endsSection = true := by
    rw [value]
    simp [Token.endsSection, Token.isKeyword, Token.keyword?]
  rw [entries_eq, if_neg goes, EStateM.bind_of_ok run]

theorem exists_entries (progress : ∀ t, YieldsSome (entry t)) {all : List ι}
    (takes : Takes f P entry all)
    (names : ∀ x, ∃ text l, f x = .name text :: l) {done more : List ι}
    (split : all = done ++ more) (h : P done r) (held : Held t r)
    (eq : ahead t r = more.flatMap f ++ .keyword keyword :: rest) :
    ∃ next s, entries entry progress t r = .ok (some next) s ∧ P all s ∧ Held next s ∧
      ahead next s = .keyword keyword :: rest := by
  induction more generalizing done t r with
  | nil =>
    obtain ⟨value, -⟩ := ahead_eq_cons eq (by simp)
    have ends : t.value.endsSection = true := by
      rw [value]
      rfl
    refine ⟨t, r, ?_, by simpa [split] using h, held, eq⟩
    rw [entries]
    rw [dif_pos ends]
  | cons x more ih =>
    rw [List.flatMap_cons, List.append_assoc] at eq
    obtain ⟨text, l, name⟩ := names x
    obtain ⟨value, -⟩ := ahead_eq_cons (eq.trans (by rw [name]; rfl)) (by simp)
    obtain ⟨d, l, start, proper⟩ := exists_flatMap_eq_cons more rest names
      (by simp : Token.keyword keyword ≠ .ending)
    obtain ⟨u, s₁, run₁, h₁, held₁, eq₁⟩ := takes split h held proper (start ▸ eq)
    obtain ⟨next, s₂, run₂, found⟩ := ih (split.trans (List.append_cons _ _ _)) h₁ held₁
      (eq₁.trans start.symm)
    exact ⟨next, s₂, (entries_of_entry value run₁).trans run₂, found⟩

/-- A section that goes through has a token after it. -/
theorem after_part (tells : Tells f P entry) (steps : ∀ t, Moves Step (entry t))
    (start : ∀ t s, read r = .ok t s → P [] s ∧ Held t s ∧ ahead t s = r.stream)
    (clear : s.Clear) (run : part entry progress keyword r = .ok next s) :
    ∃ all, P all s ∧ Held next s ∧ r.stream = all.flatMap f ++ ahead next s := by
  obtain ⟨t, s₁, took, run⟩ := bind_ok run
  obtain ⟨a, s₂, body, run⟩ := bind_ok run
  obtain ⟨h₁, held₁, eq₁⟩ := start t s₁ took
  have clear₂ : s₂.Clear := by
    cases a with
    | some t => exact (moves_pure t).clear run clear
    | none => exact (moves_resume keyword).clear run clear
  obtain ⟨u, all, rfl, h₂, held₂, eq₂⟩ := after_entries tells steps h₁ held₁ clear₂ body
  obtain ⟨rfl, rfl⟩ := EStateM.pure_ok_iff.mp run
  exact ⟨all, h₂, held₂, eq₁.symm.trans eq₂⟩

theorem exists_part {all : List ι} (takes : Takes f P entry all)
    (names : ∀ x, ∃ text l, f x = .name text :: l) {next' : Keyword}
    (start : ∃ t s, read r = .ok t s ∧ P [] s ∧ Held t s ∧ ahead t s = r.stream)
    (eq : r.stream = all.flatMap f ++ .keyword keyword :: rest) :
    ∃ next s, part entry progress next' r = .ok next s ∧ P all s ∧ Held next s ∧
      ahead next s = .keyword keyword :: rest := by
  obtain ⟨t, s₁, took, h₁, held₁, eq₁⟩ := start
  obtain ⟨next, s₂, run, found⟩ := exists_entries progress takes names rfl h₁ held₁
    (eq₁.trans eq)
  refine ⟨next, s₂, ?_, found⟩
  rw [part, EStateM.bind_of_ok took, EStateM.bind_of_ok run]
  rfl

theorem Stands.exists_start (h : Stands table es ws ss r) {l : List ι}
    (names : ∀ x, ∃ text l, f x = .name text :: l)
    (eq : r.stream = l.flatMap f ++ .keyword keyword :: rest) :
    ∃ t s, read r = .ok t s ∧ Stands table es ws ss s ∧ Held t s ∧ ahead t s = r.stream := by
  obtain ⟨a, more, start, proper⟩ := exists_flatMap_eq_cons l rest names
    (by simp : Token.keyword keyword ≠ .ending)
  obtain ⟨t, s, took, value, same, stands, held⟩ := h.exists_take (eq.trans start) proper
  exact ⟨t, s, took, stands, held, by rw [ahead_of_value value proper, same, eq, start]⟩

/-- The section of devices that goes through is a list of proper declarations. -/
theorem Stands.after_devices (h : Stands table [] [] [] r) (clear : s.Clear)
    (run : devices r = .ok next s) :
    ∃ es, (∀ e ∈ es, e.IsProper) ∧ Stands table es [] [] s ∧ Held next s ∧
      r.stream = es.flatMap Declaration.tokens ++ ahead next s := by
  have tells : Tells Declaration.tokens
      (fun es r => Stands table es [] [] r ∧ ∀ e ∈ es, e.IsProper) deviceEntry := by
    intro t r a s done h held _ run
    obtain ⟨stands, proper⟩ := h
    obtain ⟨next, e, rfl, this, goes, held', eq⟩ := stands.after_deviceEntry held run
    exact ⟨next, e, rfl, ⟨goes, forall_mem_concat proper this⟩, held', eq⟩
  obtain ⟨es, ⟨stands, proper⟩, held, eq⟩ := after_part tells moves_deviceEntry
    (fun t s took => ⟨⟨(h.after_read took).1, by simp⟩, (h.after_read took).2⟩) clear run
  exact ⟨es, proper, stands, held, eq⟩

theorem Stands.exists_devices (h : Stands table [] [] [] r) (proper : ∀ e ∈ es, e.IsProper)
    (nodup : (es.map Declaration.name).Nodup)
    (eq : r.stream = es.flatMap Declaration.tokens ++ .keyword keyword :: rest) :
    ∃ next s, devices r = .ok next s ∧ Stands table es [] [] s ∧ Held next s ∧
      ahead next s = .keyword keyword :: rest := by
  have takes : Takes Declaration.tokens (fun es r => Stands table es [] [] r) deviceEntry es := by
    intro t r e done later c rest split stands held more eq
    have new : e.name ∉ done.map Declaration.name := by
      rw [split, List.map_append, List.map_cons] at nodup
      intro old
      exact (List.nodup_append.mp nodup).2.2 _ old _ List.mem_cons_self rfl
    exact stands.exists_deviceEntry held eq more (proper e (by simp [split])) new
  have names (e : Declaration) : ∃ text l, e.tokens = .name text :: l := ⟨e.name, _, rfl⟩
  exact exists_part takes names (h.exists_start names eq) eq

/-- The section of connections that goes through is a list of connections. -/
theorem Stands.after_connections (h : Stands table es [] [] r) (clear : s.Clear)
    (run : connections r = .ok next s) :
    ∃ ds : List Connection, Stands table es (ds.flatMap Connection.wires) [] s ∧ Held next s ∧
      r.stream = ds.flatMap Connection.tokens ++ ahead next s := by
  have tells : Tells Connection.tokens
      (fun ds r => Stands table es (ds.flatMap Connection.wires) [] r) connectionEntry := by
    intro t r a s done h held clear run
    obtain ⟨next, d, rfl, goes, held', eq⟩ := h.after_connectionEntry held clear run
    refine ⟨next, d, rfl, ?_, held', eq⟩
    simpa using goes
  exact after_part tells moves_connectionEntry (fun t s took => h.after_read took) clear run

theorem wires_map_snd (d : Connection) : d.wires.map Prod.snd = d.destinations := by
  rw [Connection.wires, List.map_map]
  exact List.map_id _

theorem Stands.exists_connections (h : Stands table es [] [] r) {ds : List Connection}
    (sources : ∀ w ∈ ds.flatMap Connection.wires, Document.IsOutput es w.1)
    (targets : ∀ w ∈ ds.flatMap Connection.wires, Document.IsInput es w.2)
    (once : ((ds.flatMap Connection.wires).map Prod.snd).Nodup)
    (eq : r.stream = ds.flatMap Connection.tokens ++ .keyword keyword :: rest) :
    ∃ next s, connections r = .ok next s ∧ Stands table es (ds.flatMap Connection.wires) [] s ∧
      Held next s ∧ ahead next s = .keyword keyword :: rest := by
  have takes : Takes Connection.tokens
      (fun ds r => Stands table es (ds.flatMap Connection.wires) [] r) connectionEntry ds := by
    intro t r d done later c rest split stands held more eq
    have wire : ∀ b ∈ d.destinations, (d.source, b) ∈ ds.flatMap Connection.wires := by
      intro b hb
      rw [List.mem_flatMap]
      exact ⟨d, by simp [split], List.mem_map_of_mem hb⟩
    rw [split, List.flatMap_append, List.map_append, List.flatMap_cons, List.map_append,
      wires_map_snd, List.nodup_append] at once
    obtain ⟨-, now, apart⟩ := once
    have fresh : ∀ b ∈ d.destinations, b ∉ (done.flatMap Connection.wires).map Prod.snd :=
      fun b hb old => apart b old b (List.mem_append_left _ hb) rfl
    obtain ⟨next, s, run, goes, found⟩ := stands.exists_connectionEntry held
      (sources _ (wire d.first List.mem_cons_self)) (fun b hb => targets _ (wire b hb)) fresh
      (List.nodup_append.mp now).1 more eq
    exact ⟨next, s, run, by simpa using goes, found⟩
  have names (d : Connection) : ∃ text l, d.tokens = .name text :: l := ⟨d.source.device, _, rfl⟩
  exact exists_part takes names (h.exists_start names eq) eq

end LogicCircuit.Description.Reader
