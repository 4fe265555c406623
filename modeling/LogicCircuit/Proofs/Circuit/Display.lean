import LogicCircuit.Monitor
import LogicCircuit.Proofs.Text.Columns
import Mathlib.Data.List.Fold
import Mathlib.Data.List.Forall2
import Mathlib.Data.List.MinMax
import Mathlib.Order.Nat

/-!
The drawing of the traces, read back. Its lines are those of the monitors in their order, and each
of them tells the name of the output and the whole trace.
-/

namespace LogicCircuit

namespace Level

/-- The level that is drawn with a mark. -/
def ofMark? : Char → Option Level
  | '-' => some high
  | '_' => some low
  | '/' => some rising
  | '\\' => some falling
  | ' ' => some blank
  | _ => none

theorem ofMark?_mark (level : Level) : ofMark? level.mark = some level := by
  cases level <;> rfl

theorem mark_ne_break (level : Level) : level.mark ≠ '\n' ∧ level.mark ≠ '\r' := by
  cases level <;> decide

end Level

namespace Monitors

open LogicCircuit.Text (cutAt? trimmed lines isBlank)

variable {t t' : SymbolTable} {n n' : Netlist} {ms ms' : Monitors} {m m' : Monitor}
  {name : String} {trace : List Level} {width width' : ℕ} {line column wave : List Char}

/-- What stands between the column of names and the waves. -/
def separator : List Char := [' ', ':', ' ']

/-- Neither a blank nor a colon stands in the name. -/
def IsPlain (name : String) : Prop :=
  ∀ c ∈ name.toList, isBlank c = false ∧ c ≠ ':'

instance (name : String) : Decidable (IsPlain name) :=
  List.decidableBAll (fun c => isBlank c = false ∧ c ≠ ':') name.toList

/-- The line of a name and a trace: what stands before its first separator is the name, padded to
the width of the column, and what stands behind it has a character for each recorded level, which
tells that level. -/
structure Row (width : ℕ) (name : String) (trace : List Level) (line column wave : List Char) :
    Prop where
  cut : cutAt? separator line = some (column, wave)
  even : column.length = width
  padded : column = (padTo width name).toList
  name : trimmed column = name.toList
  count : wave.length = trace.length
  levels : wave.map Level.ofMark? = trace.map some

/-- The line is that of the monitor, under the name of its output. -/
def DrawnAs (t : SymbolTable) (n : Netlist) (width : ℕ) (m : Monitor) (line : List Char) : Prop :=
  ∃ name column wave, n.outputText? t m.output = some name ∧
    Row width name m.trace line column wave

/-- Every watched output has a name, which is plain. -/
def Legible (t : SymbolTable) (n : Netlist) (ms : Monitors) : Prop :=
  ∀ m ∈ ms, ∃ name, n.outputText? t m.output = some name ∧ IsPlain name

/-! A line of the drawing. -/

theorem toList_padTo (width : ℕ) (name : String) : (padTo width name).toList =
    name.toList ++ List.replicate (width - name.length) ' ' := by
  rw [padTo, String.toList_append, String.toList_ofList]

/-- A line without its end. -/
def rowText (width : ℕ) (name : String) (trace : List Level) : List Char :=
  (padTo width name).toList ++ (separator ++ trace.map Level.mark)

theorem toList_drawLine (width : ℕ) (name : String) (trace : List Level) :
    (drawLine width name trace).toList = rowText width name trace ++ ['\n'] := by
  have ending : "\n".toList = ['\n'] := rfl
  have between : " : ".toList = separator := rfl
  simp only [drawLine, rowText, String.toList_append, String.toList_ofList, ending, between,
    List.append_assoc]

/-- Without a colon in the column, the colon of the separator is the first one. -/
theorem cutAt?_separator (free : ':' ∉ column) (wave : List Char) :
    cutAt? separator (column ++ (separator ++ wave)) = some (column, wave) := by
  refine Text.cutAt?_append (by decide) fun b a eq => ?_
  by_contra early
  have colon : (column ++ (separator ++ wave))[b.length + 1]? = some ':' := by
    rw [eq, List.getElem?_append_right (Nat.le_add_right _ 1), Nat.add_sub_cancel_left]
    rfl
  obtain inside | here : b.length + 1 < column.length ∨ b.length + 1 = column.length := by omega
  · rw [List.getElem?_append_left inside] at colon
    exact free (List.mem_of_getElem? colon)
  · rw [here, List.getElem?_append_right (Nat.le_refl _), Nat.sub_self] at colon
    exact absurd (Option.some.inj colon) (by decide)

theorem IsPlain.not_mem_padTo (plain : IsPlain name) {c : Char} (other : c ≠ ' ')
    (bars : isBlank c = true ∨ c = ':') (width : ℕ) : c ∉ (padTo width name).toList := by
  intro member
  rw [toList_padTo, List.mem_append] at member
  obtain letter | padding := member
  · obtain blank | colon := bars
    · rw [(plain c letter).1] at blank
      cases blank
    · exact (plain c letter).2 colon
  · exact other (List.eq_of_mem_replicate padding)

theorem row_rowText (plain : IsPlain name) (fits : name.length ≤ width) (trace : List Level) :
    Row width name trace (rowText width name trace) (padTo width name).toList
      (trace.map Level.mark) where
  cut := cutAt?_separator (plain.not_mem_padTo (by decide) (.inr rfl) width) _
  even := by
    rw [toList_padTo, List.length_append, List.length_replicate, String.length_toList]
    exact Nat.add_sub_cancel' fits
  padded := rfl
  name := by
    rw [toList_padTo]
    exact Text.trimmed_padded (fun c letter => (plain c letter).1) _
  count := List.length_map _
  levels := by
    rw [List.map_map]
    exact List.map_congr_left fun level _ => level.ofMark?_mark

theorem IsPlain.rowText_unbroken (plain : IsPlain name) (width : ℕ) (trace : List Level) :
    '\n' ∉ rowText width name trace ∧ '\r' ∉ rowText width name trace := by
  have wave (c : Char) (breaks : ∀ level : Level, level.mark ≠ c) : c ∉ trace.map Level.mark := by
    intro member
    obtain ⟨level, -, eq⟩ := List.mem_map.mp member
    exact breaks level eq
  simp only [rowText, List.mem_append, not_or]
  exact ⟨⟨plain.not_mem_padTo (by decide) (.inl rfl) width, by decide,
      wave _ fun level => level.mark_ne_break.1⟩,
    plain.not_mem_padTo (by decide) (.inl rfl) width, by decide,
      wave _ fun level => level.mark_ne_break.2⟩

/-- A line tells whose it is. -/
theorem DrawnAs.alike (h : DrawnAs t n width m line) (h' : DrawnAs t' n' width' m' line) :
    n.outputText? t m.output = n'.outputText? t' m'.output ∧ m.trace = m'.trace := by
  obtain ⟨name, column, wave, named, row⟩ := h
  obtain ⟨name', column', wave', named', row'⟩ := h'
  obtain ⟨rfl, rfl⟩ := Prod.mk.inj (Option.some.inj (row.cut.symm.trans row'.cut))
  have names : name = name' := String.toList_inj.mp (row.name.symm.trans row'.name)
  rw [named, named', names]
  exact ⟨rfl, List.map_injective_iff.mpr (Option.some_injective Level)
    (row.levels.symm.trans row'.levels)⟩

/-! All lines. -/

/-- The column is as wide as the longest name in bytes, which is enough for every name. -/
theorem length_le_margin {labels : List String} (member : name ∈ labels) :
    name.length ≤ margin labels := by
  refine (Text.length_le_utf8ByteSize name).trans ?_
  rw [margin, List.foldl_eq_foldr]
  exact List.le_max_of_le (List.mem_map_of_mem member) (Nat.le_refl _)

section
variable (legible : ms.Legible t n)
include legible

theorem Legible.label (hm : m ∈ ms) :
    n.outputText? t m.output = some (label t n m) ∧ IsPlain (label t n m) := by
  obtain ⟨name, named, plain⟩ := legible m hm
  rw [Monitors.label, named, Option.getD_some]
  exact ⟨rfl, plain⟩

theorem Legible.lines_draw : lines (ms.draw t n).toList = ms.map fun m =>
    rowText (margin (ms.map (Monitors.label t n))) (Monitors.label t n m) m.trace := by
  have text (width : ℕ) : (String.join (ms.map fun m =>
      drawLine width (Monitors.label t n m) m.trace)).toList =
        (ms.map fun m => rowText width (Monitors.label t n m) m.trace).flatMap fun row =>
          row ++ ['\n'] := by
    simp only [String.toList_join, List.flatMap_map, toList_drawLine]
  rw [draw, text]
  refine Text.lines_flatMap fun row member => ?_
  obtain ⟨m, hm, rfl⟩ := List.mem_map.mp member
  exact (legible.label hm).2.rowText_unbroken _ m.trace

/-- The drawing has a line for each monitor. -/
theorem Legible.drawnAs : List.Forall₂ (DrawnAs t n (margin (ms.map (Monitors.label t n)))) ms
    (lines (ms.draw t n).toList) := by
  rw [legible.lines_draw, List.forall₂_map_right_iff, List.forall₂_same]
  intro m hm
  obtain ⟨named, plain⟩ := legible.label hm
  exact ⟨_, _, _, named, row_rowText plain (length_le_margin (List.mem_map_of_mem hm)) m.trace⟩

theorem Legible.watchedTexts : ms.watchedTexts t n = ms.map (Monitors.label t n) := by
  rw [Monitors.watchedTexts, ← List.filterMap_eq_map]
  exact List.filterMap_congr fun m hm => (legible.label hm).1

/-- The drawing depends on the names and the traces only. -/
theorem Legible.draw_eq : ms.draw t n =
    String.join (List.zipWith (drawLine (margin (ms.watchedTexts t n))) (ms.watchedTexts t n)
      (ms.map Monitor.trace)) := by
  rw [legible.watchedTexts, List.zipWith_map, List.zipWith_self, draw]

end

/-- The lines of a drawing tell the names and the traces. -/
theorem eq_of_drawnAs {rows : List (List Char)} (h : List.Forall₂ (DrawnAs t n width) ms rows)
    (h' : List.Forall₂ (DrawnAs t' n' width') ms' rows) :
    ms.watchedTexts t n = ms'.watchedTexts t' n' ∧
      ms.map Monitor.trace = ms'.map Monitor.trace := by
  induction h generalizing ms' with
  | nil =>
    cases h'
    exact ⟨rfl, rfl⟩
  | cons first _ ih =>
    cases h' with
    | cons first' rest' =>
      obtain ⟨name, trace⟩ := first.alike first'
      obtain ⟨names, traces⟩ := ih rest'
      simp only [watchedTexts] at names ⊢
      rw [List.filterMap_cons, List.filterMap_cons, name, names, List.map_cons, List.map_cons,
        trace, traces]
      exact ⟨rfl, rfl⟩

/-- Nothing is lost in a drawing. -/
theorem draw_eq_draw_iff (legible : ms.Legible t n) (legible' : ms'.Legible t' n') :
    ms.draw t n = ms'.draw t' n' ↔ ms.watchedTexts t n = ms'.watchedTexts t' n' ∧
      ms.map Monitor.trace = ms'.map Monitor.trace := by
  constructor
  · intro eq
    have rows := legible.drawnAs
    rw [eq] at rows
    exact eq_of_drawnAs rows legible'.drawnAs
  · intro same
    rw [legible.draw_eq, legible'.draw_eq, same.1, same.2]

end Monitors

end LogicCircuit
