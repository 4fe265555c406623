import LogicCircuit.Description.Reader

/-!
The pin that follows the name of a flip-flop where an output is meant.
-/

namespace LogicCircuit.Description.Reader

def isOutputPin (pin : Mention) : Reading Bool :=
  return (← circuitNow).netlist.vocabulary.isFlipFlopOutput pin.symbol

/-- Reads the pin of a flip-flop, `t` being the token after its name, and gives the output with
the token after that. Another pin than an output, or none at all, is a problem, which leaves no
output. -/
def outputPin (device : Mention) (wrong : Mention → Problem) (missing : Problem)
    (t : Located Token) : Reading (Option Terminal × Located Token) := do
  if t.value = .dot then
    let u ← read
    let pin ← expectName u
    if ← isOutputPin pin then
      return (some ⟨device.symbol, some pin.symbol⟩, ← read)
    else
      record (some u.position) (wrong pin)
      return (none, ← read)
  else
    record (some t.position) missing
    return (none, t)

theorem keeps_isOutputPin (pin : Mention) : Keeps (isOutputPin pin) :=
  keeps_circuitNow.bind fun _ => keeps_pure _

theorem keeps_outputPin (device : Mention) (wrong : Mention → Problem) (missing : Problem)
    (t : Located Token) : Keeps (outputPin device wrong missing t) := by
  unfold outputPin
  split
  · refine keeps_read.bind fun u => (keeps_expectName u).bind fun pin =>
      (keeps_isOutputPin pin).bind fun isOutput => ?_
    split
    · exact keeps_read.bind fun _ => keeps_pure _
    · exact (keeps_record _ _).bind fun _ => keeps_read.bind fun _ => keeps_pure _
  · exact (keeps_record _ _).bind fun _ => keeps_pure _

end LogicCircuit.Description.Reader
