import LogicCircuit.Description.Reader

/-!
The entries of a section, read one after the other up to a keyword or the end of the text.
-/

namespace LogicCircuit.Description.Reader

/-- Reads entries, beginning with the token in hand, and gives the token that begins none. There
is no such token, if an entry went astray. -/
def entries (entry : Located Token → Reading (Option (Located Token)))
    (progress : ∀ t, YieldsSome (entry t)) (t : Located Token) (r : Reader) :
    EStateM.Result Fault Reader (Option (Located Token)) :=
  if _ : t.value.endsSection then .ok (some t) r
  else
    match _ : entry t r with
    | .error fault r' => .error fault r'
    | .ok none r' => .ok none r'
    | .ok (some next) r' => entries entry progress next r'
termination_by weight t r
decreasing_by
  have step := progress t ‹_›
  have proper : t.value ≠ .ending := by
    intro ends
    simp [ends, Token.endsSection] at *
  simp only [weight, proper, if_false] at step ⊢
  omega

/-- Takes an entry that went astray for a part of the next section, whose keyword is missing, and
reads on to a keyword or the end. -/
def resume (next : Keyword) : Reading (Located Token) := do
  recordOnce (← get).last (.incorrectKeyword next)
  skipUntil Token.isKeyword

/-- Reads a section that another one follows. -/
def part (entry : Located Token → Reading (Option (Located Token)))
    (progress : ∀ t, YieldsSome (entry t)) (next : Keyword) : Reading (Located Token) := do
  match ← entries entry progress (← read) with
  | some t => return t
  | none => resume next

end LogicCircuit.Description.Reader
