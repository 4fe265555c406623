import LogicCircuit.Proofs.Description.Compile
import LogicCircuit.Proofs.Description.Lockstep

/-!
What a description is compiled to does not depend on the names that were interned before it. Such
names shift the symbols of all others, and with them the order in which the inputs of a device are
kept; what is seen of a circuit is the same.
-/

namespace LogicCircuit.Description

open EStateM (Result.Rel)

variable {c c' : Circuit}

namespace Reader

theorem matches_opened (h : c.Matches c') (source : List Char) :
    (opened source c).Matches (opened source c') where
  source := rfl
  tokens := rfl
  ending := rfl
  last := rfl
  absent := rfl
  circuit := h.extended (SymbolTable.prefix_addAll _ _) (SymbolTable.prefix_addAll _ _)
  declared := .nil
  diagnostics := .refl _
  errorCount := rfl
  isSpent := rfl

end Reader

/-- Both texts have problems or neither, the problems are the same but for the order of the unwired
inputs of one device, and the circuits are the same by name. -/
structure Compiled.Matches (d d' : Compiled) : Prop where
  isOk : d.isOk = d'.isOk
  diagnostics : Shuffled d.diagnostics d'.diagnostics
  circuit : d.circuit.Matches d'.circuit

/-- A text is compiled alike into circuits that are the same by name. -/
theorem matches_compileInto (h : c.Matches c') (source : String) :
    Except.Rel Compiled.Matches (compileInto source c) (compileInto source c') := by
  have side := Reader.parallel_sections (Reader.matches_opened h source.toList)
  rw [compileInto, compileInto, Reader.description_ofSource, Reader.description_ofSource]
  unfold Reader.Parallel at side
  generalize Reader.sections (Reader.opened source.toList c) = x at side
  generalize Reader.sections (Reader.opened source.toList c') = x' at side
  cases side with
  | ok on same => exact .ok ⟨same, on.same.diagnostics, on.same.circuit⟩
  | error fault => exact .error fault

/-- Compiled into a circuit without devices, a text comes to the same whatever names the table of
the circuit held before: to the same fault, or to the same problems and the same circuit by name,
which every run brings to the same end, in the same state by name and with the same drawing. -/
theorem compileInto_interned (source : String) (names : List String) (limit : Nat) :
    Except.Rel
      (fun d d' => d.Matches d' ∧ d.circuit.draw = d'.circuit.draw ∧
        ∀ cycles, Result.Rel (fun c c' => c.Matches c' ∧ c.draw = c'.draw)
          (Circuit.run cycles d.circuit) (Circuit.run cycles d'.circuit))
      (compileInto source (Circuit.empty limit))
      (compileInto source (Circuit.withSymbols (.ofList names) limit)) := by
  have start := Circuit.matches_withSymbols .empty (.ofList names) limit
  refine (matches_compileInto start source).mono fun d d' same => ?_
  refine ⟨same, same.circuit.draw, fun cycles => ?_⟩
  exact (same.circuit.run cycles).mono fun c c' states => ⟨states, states.draw⟩

/-- With the second pin interned first, the inputs of a gate come the other way round. -/
example : (compileInto "DEVICES g = AND, 2; CONNECT MONITOR END"
    (Circuit.withSymbols (.ofList ["I2"]) Circuit.defaultLimit)).toOption.map
      (fun d => d.diagnostics.map Diagnostic.problem) =
    some [.floatingInput "g" "I2", .floatingInput "g" "I1"] := by decide +kernel

end LogicCircuit.Description
