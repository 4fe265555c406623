import LogicCircuit.Proofs.Netlist.Invariant
import LogicCircuit.Proofs.Netlist.Latching
import Mathlib.Data.List.Basic

/-!
Parts of netlists that nothing outside drives. Whatever the rest of the netlist does, a cycle takes
such a part to the state to which it takes the part alone.
-/

namespace LogicCircuit

namespace Device

variable {d : Device}

theorem driver?_congr_inputs {e : Device} (h : d.inputs = e.inputs) : d.driver? = e.driver? := by
  funext pin
  rw [driver?, driver?, h]

theorem inputs_stepped (d : Device) : d.stepped.inputs = d.inputs := by
  rw [stepped]
  cases d.body <;> simp only [apply_ite Device.inputs, ite_self]

end Device

namespace Netlist

variable {a a' b b' n : Netlist} {s : Symbol} {d : Device} {f : Device → Device} {still : Bool}
  {order names : List Symbol} {limit passes : Nat}

theorem sublist_updateFirst {ds es : List Device} (sub : ds.Sublist es)
    (nodup : (es.map Device.symbol).Nodup) :
    (updateFirst s f ds).Sublist (updateFirst s f es) := by
  induction sub with
  | slnil => exact List.Sublist.refl _
  | @cons ds es d sub ih =>
    obtain ⟨absent, nodup⟩ := List.nodup_cons.mp nodup
    by_cases hit : d.symbol = s
    · have absent' : s ∉ ds.map Device.symbol := fun member =>
        absent (hit ▸ (sub.map Device.symbol).subset member)
      rw [updateFirst_of_not_mem absent', updateFirst, if_pos hit]
      exact sub.cons _
    · rw [updateFirst, if_neg hit]
      exact (ih nodup).cons _
  | cons_cons d sub ih =>
    obtain ⟨-, nodup⟩ := List.nodup_cons.mp nodup
    by_cases hit : d.symbol = s
    · rw [updateFirst, updateFirst, if_pos hit, if_pos hit]
      exact sub.cons_cons _
    · rw [updateFirst, updateFirst, if_neg hit, if_neg hit]
      exact (ih nodup).cons_cons _

/-- The first netlist has some of the devices of the second one, in the same order and in the same
state, and only they drive each other's inputs. -/
structure Part (a b : Netlist) : Prop where
  vocabulary : a.vocabulary = b.vocabulary
  nodup : b.symbols.Nodup
  devices : a.devices.Sublist b.devices
  closed : ∀ d ∈ a.devices, ∀ pin output, d.driver? pin = some output → output.device ∈ a.symbols

namespace Part

theorem nodup_part (h : Part a b) : a.symbols.Nodup :=
  h.nodup.sublist (h.devices.map Device.symbol)

theorem device? (h : Part a b) (member : s ∈ a.symbols) : b.device? s = a.device? s := by
  obtain ⟨d, found⟩ := exists_device? member
  have other := device?_of_mem h.nodup (h.devices.subset (mem_of_device? found))
  rw [found, ← symbol_of_device? found, other]

theorem level? (h : Part a b) {out : Terminal} (member : out.device ∈ a.symbols) :
    b.level? out = a.level? out :=
  level?_congr (h.device? member)

/-- The devices of the part are all those of the netlist that have their names. -/
theorem devices_eq (h : Part a b) : a.devices = b.devices.filter fun d => d.symbol ∈ a.symbols := by
  have own : (a.devices.filter fun d => d.symbol ∈ a.symbols) = a.devices :=
    List.filter_eq_self.mpr fun d hd => decide_eq_true (List.mem_map_of_mem hd)
  have inside : a.devices.Sublist (b.devices.filter fun d => d.symbol ∈ a.symbols) :=
    own ▸ h.devices.filter fun d => d.symbol ∈ a.symbols
  have distinct : b.devices.Nodup := List.Nodup.of_map _ h.nodup
  refine inside.eq_of_length_le (List.subperm_of_subset (distinct.filter _) ?_).length_le
  intro d hd
  obtain ⟨hd, member⟩ := List.mem_filter.mp hd
  have found := device?_of_mem h.nodup hd
  rw [h.device? (of_decide_eq_true member)] at found
  exact mem_of_device? found

theorem symbols_eq (h : Part a b) : a.symbols = b.symbols.filter fun s => s ∈ a.symbols :=
  calc a.symbols = (b.devices.filter fun d => d.symbol ∈ a.symbols).map Device.symbol :=
        congrArg _ h.devices_eq
    _ = b.symbols.filter fun s => s ∈ a.symbols := by
      change _ = (b.devices.map Device.symbol).filter _
      rw [List.filter_map]
      rfl

theorem symbolsOf_eq (h : Part a b) (kind : Kind) :
    a.symbolsOf kind = (b.symbolsOf kind).filter fun s => s ∈ a.symbols := by
  rw [symbolsOf, symbolsOf, List.filter_map, List.filter_filter, h.devices_eq, List.filter_filter]
  refine congrArg _ (List.filter_congr fun d _ => ?_)
  exact Bool.and_comm _ _

theorem reads (h : Part a b) (found : a.device? s = some d) :
    d.reads b.level? = d.reads a.level? := by
  funext pin
  refine Device.reads_congr fun output drives => ?_
  exact h.level? (h.closed d (mem_of_device? found) pin output drives)

/-- A change of all devices that leaves their names and wires. -/
theorem map (h : Part a b) (symbol : ∀ d, (f d).symbol = d.symbol)
    (inputs : ∀ d, (f d).inputs = d.inputs) :
    Part { a with devices := a.devices.map f } { b with devices := b.devices.map f } := by
  refine ⟨h.vocabulary, ?_, h.devices.map f, ?_⟩
  · rw [symbols_map symbol]
    exact h.nodup
  · intro d hd pin output drives
    obtain ⟨e, he, rfl⟩ := List.mem_map.mp hd
    rw [Device.driver?_congr_inputs (inputs e)] at drives
    rw [symbols_map symbol]
    exact h.closed e he pin output drives

/-- A change of one device that leaves its name and its wires, inside of the part or outside. -/
theorem update (h : Part a b) (symbol : ∀ d, d.symbol = s → (f d).symbol = s)
    (inputs : ∀ d, a.device? s = some d → (f d).inputs = d.inputs) :
    Part (a.update s f) (b.update s f) := by
  refine ⟨h.vocabulary, ?_, sublist_updateFirst h.devices h.nodup, ?_⟩
  · rw [symbols_update b symbol]
    exact h.nodup
  · intro d hd pin output drives
    rw [symbols_update a symbol]
    obtain old | ⟨e, he, hit, rfl⟩ := mem_updateFirst hd
    · exact h.closed d old pin output drives
    · have found := hit ▸ device?_of_mem h.nodup_part he
      rw [Device.driver?_congr_inputs (inputs e found)] at drives
      exact h.closed e he pin output drives

/-- A change of one device outside of the part. -/
theorem update_outside (h : Part a b) (absent : s ∉ a.symbols)
    (symbol : ∀ d, d.symbol = s → (f d).symbol = s) : Part a (b.update s f) := by
  have same : a.update s f = a := by
    rw [Netlist.update, updateFirst_of_not_mem absent]
  have changed := h.update symbol fun d found => absurd (mem_symbols_of_device? found) absent
  rwa [same] at changed

/-! The parts of a cycle, on the part and on the whole. -/

theorem stepSources (h : Part a b) : Part a.stepSources b.stepSources :=
  h.map symbol_stepped Device.inputs_stepped

theorem started (h : Part a b) : Part a.started b.started := by
  have frame := Device.started_frame a.vocabulary.flipFlop
  have changed := h.map (fun d => (frame d).1) fun d => (frame d).2.2
  rw [← h.vocabulary] at changed
  rwa [Netlist.started, Netlist.started, ← h.vocabulary]

theorem latch (h : Part a b) (member : s ∈ a.symbols) (run : Netlist.latch s b = .ok () b') :
    ∃ a', Netlist.latch s a = .ok () a' ∧ Part a' b' := by
  obtain ⟨d, found⟩ := exists_device? member
  have same : b.reads s = a.reads s := by
    rw [reads_of_device? found, reads_of_device? ((h.device? member).trans found), h.reads found]
  rw [Netlist.latch, same, ← h.vocabulary] at run
  rw [Netlist.latch]
  split at run
  · cases run
  · split at run
    · cases run
    · next level read =>
      obtain rfl := EStateM.Result.ok.inj run |>.2
      refine ⟨_, rfl, h.update ?_ ?_⟩
      · exact fun d name => (symbol_remembering _ d).trans name
      · exact fun d _ => (Device.remembering_frame _ d).2.1
  · obtain rfl := EStateM.Result.ok.inj run |>.2
    exact ⟨a, rfl, h⟩

theorem latch_outside (h : Part a b) (absent : s ∉ a.symbols)
    (run : Netlist.latch s b = .ok () b') : Part a b' := by
  obtain rfl | ⟨level, -, rfl⟩ := latch_ok run
  · exact h
  · exact h.update_outside absent fun d name => (symbol_remembering _ d).trans name

theorem latchAll (h : Part a b) (run : Netlist.latchAll names b = .ok () b') :
    ∃ a', Netlist.latchAll (names.filter fun s => s ∈ a.symbols) a = .ok () a' ∧ Part a' b' := by
  induction names generalizing a b with
  | nil =>
    obtain ⟨-, rfl⟩ := EStateM.pure_ok_iff.mp run
    exact ⟨a, rfl, h⟩
  | cons s rest ih =>
    obtain ⟨k, first, later⟩ := latchAll_cons_ok_iff.mp run
    by_cases member : s ∈ a.symbols
    · obtain ⟨j, first', part⟩ := h.latch member first
      obtain ⟨a', later', part'⟩ := ih part later
      rw [(frame_latch first').2] at later'
      refine ⟨a', ?_, part'⟩
      rw [List.filter_cons_of_pos (by simpa using member)]
      exact latchAll_cons_ok_iff.mpr ⟨j, first', later'⟩
    · rw [List.filter_cons_of_neg (by simpa using member)]
      exact ih (h.latch_outside member first) later

theorem refresh (h : Part a b) (member : s ∈ a.symbols)
    (run : Netlist.refresh s b = .ok still b') :
    ∃ a', Netlist.refresh s a = .ok still a' ∧ Part a' b' := by
  obtain ⟨d, d', found, answer, eq, rfl⟩ := refresh_ok_iff.mp run
  rw [h.device? member] at found
  have same : d.respond a.vocabulary.flipFlop a.level? = some d' := by
    rw [← answer, h.vocabulary]
    exact Device.respond_congr fun pin _ => by rw [h.reads found]
  refine ⟨_, refresh_ok_iff.mpr ⟨d, d', found, same, eq, rfl⟩, h.update ?_ ?_⟩
  · exact fun _ _ => (Device.symbol_respond answer).trans (symbol_of_device? found)
  · intro e found'
    rw [found] at found'
    rw [← Option.some.inj found', Device.inputs_respond answer]

theorem refresh_outside (h : Part a b) (absent : s ∉ a.symbols)
    (run : Netlist.refresh s b = .ok still b') : Part a b' := by
  obtain ⟨d, d', found, answer, -, rfl⟩ := refresh_ok_iff.mp run
  exact h.update_outside absent fun _ _ =>
    (Device.symbol_respond answer).trans (symbol_of_device? found)

/-- A pass that changes no output of the whole changes none of the part. -/
theorem sweep (h : Part a b) (run : Netlist.sweep order b = .ok still b') :
    ∃ still' a', Netlist.sweep (order.filter fun s => s ∈ a.symbols) a = .ok still' a' ∧
      Part a' b' ∧ (still = true → still' = true) := by
  induction order generalizing a b still with
  | nil =>
    obtain ⟨-, rfl⟩ := EStateM.pure_ok_iff.mp run
    exact ⟨true, a, rfl, h, fun _ => rfl⟩
  | cons s rest ih =>
    obtain ⟨first, k, others, head, tail, rfl⟩ := sweep_cons_ok_iff.mp run
    by_cases member : s ∈ a.symbols
    · obtain ⟨j, head', part⟩ := h.refresh member head
      obtain ⟨others', a', tail', part', calm⟩ := ih part tail
      rw [(refreshed_of_refresh head').symbols] at tail'
      refine ⟨first && others', a', ?_, part', ?_⟩
      · rw [List.filter_cons_of_pos (by simpa using member)]
        exact sweep_cons_ok_iff.mpr ⟨first, j, others', head', tail', rfl⟩
      · intro still
        obtain ⟨rfl, still⟩ := (Bool.and_eq_true_iff).mp still
        rw [calm still, Bool.and_self]
    · obtain ⟨others', a', tail', part', calm⟩ := ih (h.refresh_outside member head) tail
      rw [List.filter_cons_of_neg (by simpa using member)]
      exact ⟨others', a', tail', part', fun still => calm (Bool.and_eq_true_iff.mp still).2⟩

/-- The part has come to rest when the whole has, and it stays as it is in the passes in between. -/
theorem settle (h : Part a b) (run : Netlist.settle b.symbols passes b = .ok () b') :
    ∃ a', Netlist.settle a.symbols passes a = .ok () a' ∧ Part a' b' := by
  induction passes generalizing a b with
  | zero => cases run
  | succ passes ih =>
    have pass {still : Bool} {k : Netlist} (run : Netlist.sweep b.symbols b = .ok still k) :
        ∃ still' j, Netlist.sweep a.symbols a = .ok still' j ∧ Part j k ∧
          (still = true → still' = true) := by
      have swept := h.sweep run
      rwa [← h.symbols_eq] at swept
    obtain calm | ⟨k, restless, later⟩ := settle_succ_ok_iff.mp run
    · obtain ⟨still, a', swept, part, still_eq⟩ := pass calm
      rw [still_eq rfl] at swept
      exact ⟨a', settle_succ_ok_iff.mpr (Or.inl swept), part⟩
    · obtain ⟨still, j, swept, part, -⟩ := pass restless
      rw [← (swept_of_sweep restless).symbols] at later
      obtain ⟨a', later', part'⟩ := ih part later
      rw [(swept_of_sweep swept).symbols] at later'
      cases still with
      | false => exact ⟨a', settle_succ_ok_iff.mpr (Or.inr ⟨j, swept, later'⟩), part'⟩
      | true =>
        -- the part rests already, so that the passes that the whole still needs leave it alone
        have rests := (rests_of_sweep swept h.nodup_part).2
        have stays : a' = j := eq_of_settle_of_rests rests later'
        exact ⟨a', settle_succ_ok_iff.mpr (Or.inl (stays ▸ swept)), part'⟩

/-- A cycle that completes on the whole completes on the part, within the same limit. -/
theorem cycle (h : Part a b) (run : b.cycle limit = .ok () b') :
    ∃ a', a.cycle limit = .ok () a' ∧ Part a' b' := by
  obtain ⟨k, latched, settled⟩ := cycle_ok_iff.mp run
  obtain ⟨j, latched', part⟩ := h.stepSources.latchAll latched
  rw [← h.stepSources.symbolsOf_eq] at latched'
  obtain ⟨a', settled', part'⟩ := part.settle settled
  exact ⟨a', cycle_ok_iff.mpr ⟨j, latched', settled'⟩, part'⟩

end Part

end Netlist

end LogicCircuit
