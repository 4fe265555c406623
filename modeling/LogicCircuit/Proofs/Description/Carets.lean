import LogicCircuit.Proofs.Description.Compile
import LogicCircuit.Proofs.Description.Tracing

/-!
Places are exact: tokens, faults and problems are located where they stand in the lines of the text,
and the caret of an excerpt is under the character in question.
-/

namespace LogicCircuit.Description

open LogicCircuit.Text (CaretUnder CaretAfter excerptOf)

namespace Reader

open Cursor (TokenAt FaultAt)

variable {source : List Char} {r s : Reader}

theorem ahead_opened (source : List Char) (c : Circuit) : Ahead source (opened source c) := by
  obtain ⟨tokens, k, ending⟩ := (Cursor.ofSource source).call_of_tokens
  have last := Cursor.outcome_of_call source k
  rw [ending] at last
  refine ⟨rfl, fun t member => ?_, fun p ended => ?_, fun fault broken => ?_,
    by simp [opened, ofSource], fun d member => ?_⟩
  · obtain ⟨j, here⟩ := tokens t member
    have token := Cursor.outcome_of_call source j
    rw [here] at token
    exact token.tokenAt
  · rw [show (Cursor.ofSource source).tokens.ending = .ok p from ended] at last
    exact last.tokenAt
  · rw [show (Cursor.ofSource source).tokens.ending = .error fault from broken] at last
    exact last
  · obtain ⟨k, -, rfl⟩ := List.mem_map.mp member
    exact ⟨none, by simp, rfl⟩

theorem answers_description (source : List Char) (c : Circuit) :
    Answers source (description (ofSource source c)) := by
  rw [description_ofSource]
  exact (ahead_opened source c).sections

end Reader

open Cursor (BeginsAt WrittenAt)

theorem caret_of_blamed {source : List Char} {p : Position} {cause : Cause}
    (blamed : Reader.Blamed source (.located p cause)) :
    if cause = .lexical .bareDash then
      ∃ q, BeginsAt source q '-' ∧ p = q.step '-' ∧ CaretAfter source p '-'
    else p = .behind source ∨ ∃ x, BeginsAt source p x ∧ CaretUnder source p x := by
  have under (here : Cursor.TokenAt source p) :
      p = .behind source ∨ ∃ x, BeginsAt source p x ∧ CaretUnder source p x := by
    rcases here with ended | ⟨x, begins⟩
    · exact .inl ended
    · exact .inr ⟨x, begins, begins.caretUnder⟩
  cases cause with
  | lexical fault =>
    cases fault with
    | bareDash =>
      obtain ⟨q, begins, rfl⟩ := blamed
      exact ⟨q, begins, rfl, begins.caretAfter⟩
    | strayCharacter y => exact under (.inr blamed)
    | numberTooLarge digits => exact under (.inr blamed)
  | _ => exact under blamed

/-- What the lexer and the compiler say of a text, they say of the place where it stands. -/
structure Exact (source : String) (c : Circuit) : Prop where
  token : ∀ k t, ((Lexer.ofSource source.toList c.symbols).after k).next.1 = .ok t →
    WrittenAt source.toList t
  order : ∀ j k t u, j < k →
    ((Lexer.ofSource source.toList c.symbols).after j).next.1 = .ok t → t.value ≠ .ending →
      ((Lexer.ofSource source.toList c.symbols).after k).next.1 = .ok u →
        t.position < u.position
  /-- The caret of a fault is right after a dash without its arrow head, and otherwise under the
  character that begins there, unless that is the end. -/
  fault : ∀ p cause, compileInto source c = .error (.located p cause) →
    if cause = .lexical .bareDash then
      ∃ q, BeginsAt source.toList q '-' ∧ p = q.step '-' ∧ CaretAfter source.toList p '-'
    else p = .behind source.toList ∨
      ∃ x, BeginsAt source.toList p x ∧ CaretUnder source.toList p x
  /-- The same of problems, also of those before a fault. -/
  diagnostic : ∀ d ∈ (Reader.description (Reader.ofSource source.toList c)).state.diagnostics,
    ∀ p, d.position? = some p → p = .behind source.toList ∨
      ∃ x, BeginsAt source.toList p x ∧ CaretUnder source.toList p x ∧
        d.text = excerptOf source.toList p ++ d.problem.text

theorem exact_places (source : String) (c : Circuit) : Exact source c where
  token k t read := by
    rw [Lexer.outcome_next, Lexer.after_cursor] at read
    have written := Cursor.outcome_of_call source.toList k
    rwa [show (((Cursor.ofSource source.toList).after k).next.1 = .ok t) from read] at written
  order j k t u order first proper second := by
    rw [Lexer.outcome_next, Lexer.after_cursor] at first second
    exact Cursor.position_lt source.toList order first proper second
  fault p cause refused := by
    have blamed := (Reader.answers_description source.toList c).2
    rw [compileInto] at refused
    cases run : Reader.description (Reader.ofSource source.toList c) with
    | ok answer r =>
      rw [run] at refused
      cases refused
    | error fault r =>
      rw [run] at refused
      obtain rfl := Except.error.inj refused
      exact caret_of_blamed (blamed _ _ run)
  diagnostic d member p place := by
    obtain ⟨p?, here, eq⟩ := (Reader.answers_description source.toList c).1.diagnostics d member
    obtain rfl : p? = some p := by
      rw [eq] at place
      exact place
    rcases here p rfl with ended | ⟨x, begins⟩
    · exact .inl ended
    · obtain ⟨line, found, -, -⟩ := begins.caretUnder
      refine .inr ⟨x, begins, begins.caretUnder, ?_⟩
      rw [eq, Diagnostic.ofProblem, Diagnostic.text, excerptOf]
      simp [Text.line?, found]

/-- Neither the carriage return nor the letters beyond ASCII move the caret. -/
example : (match compile "DEVICES // é //\r\n\tÄ - 1\r\n" with
    | .error (.located p _) => excerptOf "DEVICES // é //\r\n\tÄ - 1\r\n".toList p
    | _ => "") = "Line 1:\n\tÄ - 1\n    ^\n" := by decide +kernel

end LogicCircuit.Description
