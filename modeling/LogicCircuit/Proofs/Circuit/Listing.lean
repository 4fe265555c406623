import LogicCircuit.Proofs.Circuit.Operations

/-!
The names of the outputs under watch and those of the others. Where each output has a name of its
own, the two lists hold each name once, whatever has come under watch and gone off it.
-/

namespace LogicCircuit

namespace Monitors

variable {ms : Monitors} {n : Netlist} {t : SymbolTable} {out : Terminal} {name : String}

/-- Each output has a name, and no two outputs have the same. -/
structure Labelled (t : SymbolTable) (n : Netlist) : Prop where
  named : ∀ out, n.HasOutput out → ∃ name, n.outputText? t out = some name
  apart : ∀ out out', n.HasOutput out → n.HasOutput out' →
    n.outputText? t out = n.outputText? t out' → out = out'

/-- The two lists of names divide the outputs between them. -/
structure Divides (t : SymbolTable) (n : Netlist) (ms : Monitors) : Prop where
  labelled : Labelled t n
  once : ∀ out name, n.HasOutput out → n.outputText? t out = some name →
    (ms.watchedTexts t n ++ ms.unwatchedTexts t n).count name = 1
  only : ∀ name ∈ ms.watchedTexts t n ++ ms.unwatchedTexts t n,
    ∃ out, n.HasOutput out ∧ n.outputText? t out = some name
  /-- The watched outputs are listed in the order of the monitors. -/
  order : (ms.watchedTexts t n).map some = ms.map fun m => n.outputText? t m.output
  watched : ∀ out name, n.HasOutput out → n.outputText? t out = some name →
    (name ∈ ms.watchedTexts t n ↔ out ∈ ms.map Monitor.output)

/-! The outputs themselves. -/

section
variable (devices : n.symbols.Nodup)
include devices

theorem mem_outputsOf : out ∈ outputsOf n ↔ n.HasOutput out := by
  simp only [outputsOf, List.mem_flatMap, List.mem_map]
  constructor
  · intro listed
    obtain ⟨d, hd, pin, shown, rfl⟩ := listed
    exact ⟨d, Netlist.device?_of_mem devices hd, shown⟩
  · intro known
    obtain ⟨d, found, shown⟩ := known
    refine ⟨d, Netlist.mem_of_device? found, out.pin, shown, ?_⟩
    rw [Netlist.symbol_of_device? found]

theorem nodup_outputsOf : (outputsOf n).Nodup := by
  refine List.nodup_flatMap.mpr ⟨fun d _ => ?_, ?_⟩
  · exact d.outputs.keys_nodup.map fun _ _ eq => congrArg Terminal.pin eq
  · -- outputs of two devices differ in the device
    refine (List.pairwise_map.mp devices).imp fun other => ?_
    refine List.disjoint_left.mpr ?_
    intro out here there
    obtain ⟨_, -, rfl⟩ := List.mem_map.mp here
    obtain ⟨_, -, eq⟩ := List.mem_map.mp there
    exact other (congrArg Terminal.device eq).symm

/-- Each output is either under watch or not. -/
theorem perm_outputsOf (apart : (ms.map Monitor.output).Nodup)
    (known : ∀ out ∈ ms.map Monitor.output, n.HasOutput out) :
    (ms.map Monitor.output ++ (outputsOf n).filter fun out => !ms.watches out).Perm
      (outputsOf n) := by
  refine (List.perm_ext_iff_of_nodup (apart.append ((nodup_outputsOf devices).filter _) ?_)
    (nodup_outputsOf devices)).mpr fun out => ?_
  · intro out watched free
    rw [List.mem_filter, watches_iff.mpr watched] at free
    cases free.2
  · rw [List.mem_append, List.mem_filter, mem_outputsOf devices, Bool.not_eq_true',
      Bool.eq_false_iff, Ne, watches_iff]
    constructor
    · intro listed
      obtain watched | free := listed
      · exact known out watched
      · exact free.1
    · intro shown
      by_cases watched : out ∈ ms.map Monitor.output
      · exact .inl watched
      · exact .inr ⟨shown, watched⟩

end

/-! Their names. -/

theorem watchedTexts_eq (ms : Monitors) (t : SymbolTable) (n : Netlist) :
    ms.watchedTexts t n = (ms.map Monitor.output).filterMap (n.outputText? t) := by
  rw [watchedTexts, List.filterMap_map]
  rfl

namespace Labelled

variable (labelled : Labelled t n)
include labelled

theorem map_some_filterMap {outs : List Terminal} (known : ∀ out ∈ outs, n.HasOutput out) :
    (outs.filterMap (n.outputText? t)).map some = outs.map (n.outputText? t) := by
  induction outs with
  | nil => rfl
  | cons out rest ih =>
    obtain ⟨name, named⟩ := labelled.named out (known out List.mem_cons_self)
    rw [List.filterMap_cons, List.map_cons, named, List.map_cons,
      ih fun out member => known out (List.mem_cons_of_mem _ member)]

theorem nodup_texts {outs : List Terminal} (apart : outs.Nodup)
    (known : ∀ out ∈ outs, n.HasOutput out) : (outs.filterMap (n.outputText? t)).Nodup := by
  refine List.Nodup.of_map some ?_
  rw [labelled.map_some_filterMap known]
  exact apart.map_on fun out here out' here' =>
    labelled.apart out out' (known out here) (known out' here')

theorem mem_texts_iff {outs : List Terminal} (known : ∀ out ∈ outs, n.HasOutput out)
    (shown : n.HasOutput out) (named : n.outputText? t out = some name) :
    name ∈ outs.filterMap (n.outputText? t) ↔ out ∈ outs := by
  rw [List.mem_filterMap]
  constructor
  · intro listed
    obtain ⟨out', member, same⟩ := listed
    rwa [labelled.apart out out' shown (known out' member) (named.trans same.symm)]
  · intro member
    exact ⟨out, member, named⟩

/-- Outputs with names of their own are divided by the two lists. -/
theorem divides (devices : n.symbols.Nodup) (apart : (ms.map Monitor.output).Nodup)
    (known : ∀ out ∈ ms.map Monitor.output, n.HasOutput out) : ms.Divides t n := by
  have all : (ms.watchedTexts t n ++ ms.unwatchedTexts t n).Perm
      ((outputsOf n).filterMap (n.outputText? t)) := by
    rw [watchedTexts_eq, unwatchedTexts, ← List.filterMap_append]
    exact (perm_outputsOf devices apart known).filterMap _
  have members (out : Terminal) (member : out ∈ outputsOf n) := (mem_outputsOf devices).mp member
  refine ⟨labelled, fun out name shown named => ?_, fun name member => ?_, ?_,
    fun out name shown named => ?_⟩
  · rw [all.count_eq]
    exact List.count_eq_one_of_mem (labelled.nodup_texts (nodup_outputsOf devices) members)
      ((labelled.mem_texts_iff members shown named).mpr ((mem_outputsOf devices).mpr shown))
  · obtain ⟨out, member, named⟩ := List.mem_filterMap.mp (all.mem_iff.mp member)
    exact ⟨out, members out member, named⟩
  · rw [watchedTexts_eq, labelled.map_some_filterMap known, List.map_map]
    rfl
  · rw [watchedTexts_eq]
    exact labelled.mem_texts_iff known shown named

end Labelled

end Monitors

namespace Circuit

variable {c : Circuit}

/-- No output comes under watch twice. -/
theorem Operation.nodup_outputs (op : Operation) (apart : (c.monitors.map Monitor.output).Nodup) :
    ((op.apply c).monitors.map Monitor.output).Nodup := by
  cases op with
  | call request =>
    rw [apply, (request.apply_frame c).2]
    exact apart
  | watch out cycles =>
    obtain ⟨-, new, eq⟩ | ⟨-, eq⟩ := apply_watch c out cycles
    · rw [eq, List.map_append, List.map_singleton, ← List.concat_eq_append]
      exact apart.concat new
    · rw [eq]
      exact apart
  | unwatch out =>
    rw [apply_unwatch, Monitors.outputs_eraseP]
    exact apart.erase out

theorem nodup_afterAll (ops : List Operation) (apart : (c.monitors.map Monitor.output).Nodup) :
    ((c.afterAll ops).monitors.map Monitor.output).Nodup := by
  induction ops generalizing c with
  | nil => exact apart
  | cons op rest ih => exact ih (op.nodup_outputs apart)

end Circuit

end LogicCircuit
