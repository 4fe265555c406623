import LogicCircuit.Proofs.Description.Carets

/-!
The numbers of a declaration are looked at twice, when they are read and when the device is made.
Both looks come to the same, so that no device is refused that a description declares.
-/

namespace LogicCircuit

open Description.Declaration (Suits)

namespace Netlist

variable {n : Netlist} {s : Symbol} {kind : Kind} {l : List Nat}

theorem exists_declare_of_suits (suits : Suits kind l) (free : n.device? s = none) :
    ∃ m, n.declare s kind l[0]? l[1]? = .ok m := by
  obtain ⟨d, made⟩ := Device.exists_made suits
  exact ⟨n.add d, declare_ok_iff.mpr ⟨free, d, made, rfl⟩⟩

/-- Two numbers at most are all that a device is made from, so that they are known from it. -/
theorem suits_of_declare (few : l.length ≤ 2) {m : Netlist}
    (run : n.declare s kind l[0]? l[1]? = .ok m) : Suits kind l := by
  obtain ⟨-, d, made, -⟩ := declare_ok_iff.mp run
  obtain ⟨l', suits, first, second⟩ := made.exists_suits
  have short := suits.length_le
  have same : l = l' := by
    refine List.ext_getElem? fun i => ?_
    match i with
    | 0 => exact first
    | 1 => exact second
    | i + 2 => rw [List.getElem?_eq_none (by omega), List.getElem?_eq_none (by omega)]
  exact same ▸ suits

end Netlist

namespace Description

namespace Reader

variable {r : Reader} {p : Position} {kind : Kind} {l : List Nat} {rest : List Token}

theorem number_tokens_inj {l l' : List Nat} {rest rest' : List Token}
    (eq : numberTokens l ++ .semicolon :: rest = numberTokens l' ++ .semicolon :: rest') :
    l = l' := by
  induction l generalizing l' with
  | nil =>
    cases l' with
    | nil => rfl
    | cons => cases eq
  | cons a l ih =>
    cases l' with
    | nil => cases eq
    | cons b l' =>
      simp only [numberTokens, List.flatMap_cons, List.cons_append, List.nil_append,
        List.cons.injEq, Token.number.injEq, true_and] at eq
      rw [eq.1, ih eq.2]

/-- Of numbers with a semicolon behind them those are let through that suit the kind, whole. -/
theorem numbers_ok_iff_suits
    (ahead : r.coming.map Located.value = numberTokens l ++ .semicolon :: rest)
    {a : Option Nat × Option Nat} :
    (∃ s, numbers p kind r = .ok a s) ↔ Suits kind l ∧ a = (l[0]?, l[1]?) := by
  constructor
  · rintro ⟨s, run⟩
    obtain ⟨l', ts, others, rfl, suits, split, values, -⟩ := numbers_ok run
    rw [split, List.map_append, values, List.append_assoc] at ahead
    obtain rfl := number_tokens_inj ahead
    exact ⟨suits, rfl⟩
  · rintro ⟨suits, rfl⟩
    rw [List.append_cons] at ahead
    obtain ⟨ts, others, split, values, -⟩ := List.map_eq_append_iff.mp ahead
    exact ⟨_, numbers_of_suits suits split values⟩

end Reader

/-- The numbers in a declaration and those that a device is made from are the same. -/
structure ValidatedAlike (source : String) (c : Circuit) (kind : Kind) : Prop where
  /-- A device that is declared is never refused. -/
  served : ∀ name reason, compileInto source c ≠ .error (.deviceRefused name reason)
  /-- Numbers that are let through make a device under any free name. -/
  accepted : ∀ p r a s, Reader.numbers p kind r = .ok a s →
    ∀ (n : Netlist) name, n.device? name = none → ∃ m, n.declare name kind a.1 a.2 = .ok m
  /-- Up to two numbers are let through as they are, or they would have been refused. -/
  alike : ∀ p (r : Reader) (l : List Nat) rest, l.length ≤ 2 →
    r.coming.map Located.value = Reader.numberTokens l ++ .semicolon :: rest →
      match Reader.numbers p kind r with
      | .ok a _ => a = (l[0]?, l[1]?) ∧ ∀ (n : Netlist) name, n.device? name = none →
          ∃ m, n.declare name kind l[0]? l[1]? = .ok m
      | .error _ _ => ∀ (n : Netlist) name, ∃ reason,
          n.declare name kind l[0]? l[1]? = .error reason
  /-- A device comes behind all others, or nothing changes. -/
  effect : ∀ p name first second (r : Reader),
    match Reader.declare p name kind first second r with
    | .ok _ s => r.circuit.netlist.device? name.symbol = none ∧
        ∃ d, d.symbol = name.symbol ∧ d.kind = kind ∧
          s.circuit = { r.circuit with
            netlist := { r.circuit.netlist with devices := r.circuit.netlist.devices ++ [d] } }
    | .error _ s => s = r

theorem validated_alike (source : String) (c : Circuit) (kind : Kind) :
    ValidatedAlike source c kind where
  served name reason refused := by
    rw [compileInto] at refused
    cases run : Reader.description (Reader.ofSource source.toList c) with
    | ok answer r =>
      rw [run] at refused
      cases refused
    | error fault r =>
      rw [run] at refused
      obtain rfl := Except.error.inj refused
      exact (Reader.answers_description source.toList c).2 _ _ run
  accepted p r a s run n name free := by
    obtain ⟨l, _, _, rfl, suits, -⟩ := Reader.numbers_ok run
    exact Netlist.exists_declare_of_suits suits free
  alike p r l rest few ahead := by
    have known (a : Option Nat × Option Nat) : (∃ s, Reader.numbers p kind r = .ok a s) ↔
        Suits kind l ∧ a = (l[0]?, l[1]?) := Reader.numbers_ok_iff_suits ahead
    cases run : Reader.numbers p kind r with
    | ok a s =>
      obtain ⟨suits, rfl⟩ := (known a).mp ⟨s, run⟩
      exact ⟨rfl, fun n name free => Netlist.exists_declare_of_suits suits free⟩
    | error fault s =>
      intro n name
      cases step : n.declare name kind l[0]? l[1]? with
      | error reason => exact ⟨reason, rfl⟩
      | ok m =>
        obtain ⟨_, through⟩ := (known _).mpr ⟨Netlist.suits_of_declare few step, rfl⟩
        rw [run] at through
        cases through
  effect p name first second r := by
    rw [Reader.declare]
    cases step : r.circuit.netlist.declare name.symbol kind first second with
    | error reason => rfl
    | ok n =>
      obtain ⟨free, d, made, rfl⟩ := Netlist.declare_ok_iff.mp step
      exact ⟨free, d, made.symbol, made.kind, rfl⟩

end Description

end LogicCircuit
