import LogicCircuit.Command.Execute
import LogicCircuit.Proofs.Description.Compile

/-!
No description is turned down in silence: a reading that comes to its end gives the symbol of the
closing keyword, or has written a problem down.
-/

namespace LogicCircuit.Description

namespace Reader

variable {r s : Reader} {t next : Located Token} {answer : Option Symbol} {keyword : Keyword}
  {body : Reading (Located Token)}

/-- A problem that is not written down again was written down before. -/
theorem recordOnce_ne_nil (p : Position) (problem : Problem) (r : Reader) :
    (recordOnce p problem r).state.diagnostics ≠ [] := by
  rw [recordOnce, EStateM.bind_of_ok (get_run r)]
  split
  case isTrue same =>
    intro none
    rw [show r.diagnostics = [] from none] at same
    cases same
  case isFalse => exact List.append_ne_nil_of_right_ne_nil _ (List.cons_ne_nil _ _)

/-- Without the keyword that is due a section leaves a problem. -/
theorem sectionOf_ne_nil (other : t.value ≠ .keyword keyword)
    (run : sectionOf keyword body t r = .ok next s) : s.diagnostics ≠ [] := by
  rw [sectionOf, if_neg other] at run
  obtain ⟨_, s', recorded, run⟩ := bind_ok run
  obtain ⟨-, rfl⟩ := EStateM.pure_ok_iff.mp run
  have written := recordOnce_ne_nil t.position (.incorrectKeyword keyword) r
  rwa [recorded] at written

/-- The closing keyword is in hand at the end, or there is a problem. -/
theorem finish_of_sectionOf (run : sectionOf .finish (pure t) t r = .ok next s)
    (none : s.diagnostics = []) : next.value = .keyword .finish := by
  by_cases here : t.value = .keyword .finish
  · rw [sectionOf_of_keyword here] at run
    obtain ⟨rfl, -⟩ := EStateM.pure_ok_iff.mp run
    exact here
  · exact absurd none (sectionOf_ne_nil here run)

/-- Problems and their count agree; the answer is the symbol of the closing keyword, if there are no
problems, and otherwise there is none. -/
def Accounted : EStateM.Result Fault Reader (Option Symbol) → Prop
  | .error _ r => r.errorCount = r.diagnostics.length
  | .ok answer r => r.errorCount = r.diagnostics.length ∧
      (answer.isSome = true ↔ r.diagnostics = []) ∧
        ∀ sym ∈ answer, r.circuit.symbols.text? sym = some "END"

/-- A reading that comes to its end answers with the closing keyword, and has counted nothing, or
it has counted or written something down. -/
theorem answer_of_sections (run : sections r = .ok answer s) :
    (answer = some (s.circuit.symbols.symbol Keyword.finish.text) ∧ s.errorCount = 0) ∨
      (answer = none ∧ (s.diagnostics = [] → s.errorCount ≠ 0)) := by
  rcases sections_cases run with ⟨rfl, p, s₁, a, recorded⟩ |
    ⟨t₁, t₂, t₃, t₄, t₅, s₁, s₂, s₃, s₄, -, -, -, -, last, rfl⟩
  · have written := recordOnce_ne_nil p (.incorrectKeyword .devices) s₁
    rw [recorded] at written
    exact .inr ⟨rfl, fun none => absurd none written⟩
  · split
    case isTrue accepts => exact .inl ⟨rfl, accepts.2⟩
    case isFalse refuses =>
      exact .inr ⟨rfl, fun none zero => refuses ⟨finish_of_sectionOf last none, zero⟩⟩

theorem accounted_description (source : List Char) (c : Circuit) :
    Accounted (description (ofSource source c)) := by
  have counted := counted_opened source c
  have known : Keyword.finish.text ∈ (opened source c).circuit.symbols.texts :=
    SymbolTable.mem_addAll.mpr (.inl (by decide))
  rw [description_ofSource]
  cases run : sections (opened source c) with
  | error fault r =>
    have state := moves_sections.counted_state counted
    rwa [run] at state
  | ok answer r =>
    have total := moves_sections.counted run counted
    have interned := (moves_sections.continues run).symbols.subset known
    rcases answer_of_sections run with ⟨rfl, zero⟩ | ⟨rfl, some⟩
    · refine ⟨total, iff_of_true rfl (total.errorCount_eq_zero_iff.mp zero), ?_⟩
      intro sym member
      obtain rfl := Option.some.inj member
      exact SymbolTable.text?_symbol interned
    · refine ⟨total, iff_of_false Bool.false_ne_true fun none => ?_, by simp⟩
      exact some none (total.errorCount_eq_zero_iff.mpr none)

end Reader

open LogicCircuit.Command (Options executeSource)

variable {source : String} {c : Circuit} {compiled : Compiled}

theorem isOk_iff_errorCount_eq_zero (run : compileInto source c = .ok compiled) :
    compiled.isOk = true ↔ compiled.errorCount = 0 := by
  have accounted := Reader.accounted_description source.toList c
  rw [compileInto] at run
  cases read : Reader.description (Reader.ofSource source.toList c) with
  | error fault r =>
    rw [read] at run
    cases run
  | ok answer r =>
    rw [read] at run accounted
    obtain rfl := Except.ok.inj run
    exact accounted.2.1.trans List.length_eq_zero_iff.symm

/-- All problems are counted, and a text is turned down exactly if there are some; the command tells
how many. -/
theorem compile_accounted (source : String) (c : Circuit) (options : Options) :
    Reader.Accounted (Reader.description (Reader.ofSource source.toList c)) ∧
      (∀ compiled, compileInto source c = .ok compiled →
        (compiled.isOk = true ↔ compiled.errorCount = 0)) ∧
      ∀ compiled, compile source = .ok compiled → compiled.isOk = false →
        1 ≤ compiled.errorCount ∧ executeSource options source =
          .failure (String.join (compiled.diagnostics.map fun d => d.text ++ "\n\n"))
            ("Compilation failed with " ++ toString compiled.errorCount ++ " error(s)") := by
  refine ⟨Reader.accounted_description source.toList c, fun compiled run =>
    isOk_iff_errorCount_eq_zero run, fun compiled run rejected => ⟨?_, ?_⟩⟩
  · refine Nat.pos_of_ne_zero fun zero => ?_
    rw [(isOk_iff_errorCount_eq_zero run).mpr zero] at rejected
    cases rejected
  · rw [executeSource, run]
    simp only [rejected, Bool.false_eq_true, if_false]

/-- All keywords are there, two of them out of order. -/
theorem rejected_accounted : ∃ compiled, compile "DEVICES MONITOR CONNECT END" = .ok compiled ∧
    compiled.isOk = false ∧ 1 ≤ compiled.errorCount ∧
      (executeSource ⟨"", false, 1, []⟩ "DEVICES MONITOR CONNECT END").exitCode = 1 := by
  have turnedDown : (compileInto "DEVICES MONITOR CONNECT END"
      (Circuit.empty Circuit.defaultLimit)).toOption.any (fun d => !d.isOk) = true := by
    decide +kernel
  obtain ⟨compiled, run, rejected⟩ := exists_of_any turnedDown
  have rejected : compiled.isOk = false := by simpa using rejected
  obtain ⟨some, outcome⟩ := (compile_accounted "DEVICES MONITOR CONNECT END"
    (Circuit.empty Circuit.defaultLimit) ⟨"", false, 1, []⟩).2.2 compiled run rejected
  exact ⟨compiled, run, rejected, some, by rw [outcome]; rfl⟩

end LogicCircuit.Description
