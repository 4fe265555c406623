/-!
Texts for a terminal. Control sequences make a part of a text stand out there; a stream that is no
terminal gets the text without them, and without control characters other than blanks.
-/

namespace LogicCircuit.Text

/-- How a part of a text stands out. -/
inductive Mark
  | heading
  | literal
  | valid
  | invalid
  deriving DecidableEq, Repr

/-- The control sequence that a marked part begins with. -/
def Mark.start : Mark → String
  | heading => "\x1b[1m\x1b[31m"
  | literal => "\x1b[1m"
  | valid => "\x1b[32m"
  | invalid => "\x1b[33m"

/-- A text with its mark, which ends where the text does. -/
def Mark.on (m : Mark) (text : String) : String :=
  m.start ++ text ++ "\x1b[0m"

/-- The blanks among the control characters. -/
def isControlBlank (c : Char) : Bool :=
  c = '\t' || c = '\n' || c = '\x0c' || c = '\r'

/-- The characters that a text shows, where no control sequence is under way. -/
def isVisible (c : Char) : Bool :=
  (' ' ≤ c && c ≠ '\x7f') || isControlBlank c

/-- A control sequence, as far as it has come. -/
inductive Sequence
  | escape
  | intermediate
  | control
  | deviceStart
  | deviceParameters
  | deviceIntermediate
  | string
  | command
  deriving DecidableEq, Repr

namespace Sequence

def isIntermediate (c : Char) : Bool := ' ' ≤ c && c ≤ '/'

def isParameter (c : Char) : Bool := '0' ≤ c && c ≤ '?'

def isPrivate (c : Char) : Bool := '<' ≤ c && c ≤ '?'

def isFinal (c : Char) : Bool := '@' ≤ c && c ≤ '~'

/-- The byte that ends a string; it may also be met inside a longer character. -/
def stringTerminator : UInt8 := 0x9c

/-- The sequence after one more character; there is none, if the character ends it. A character
without a meaning for the sequence is skipped. -/
def next : Sequence → Char → Option Sequence
  | escape, c =>
    if c = '[' then some control
    else if c = ']' then some command
    else if c = 'P' then some deviceStart
    else if c = 'X' ∨ c = '^' ∨ c = '_' then some string
    else if isIntermediate c then some intermediate
    else if isParameter c ∨ isFinal c then none
    else some escape
  | intermediate, c => if isParameter c ∨ isFinal c then none else some intermediate
  | control, c => if isFinal c then none else some control
  | deviceStart, c =>
    if isIntermediate c then some deviceIntermediate
    else if isParameter c then some deviceParameters
    else if isFinal c then some string
    else some deviceStart
  | deviceParameters, c =>
    if isIntermediate c then some deviceIntermediate
    else if isPrivate c ∨ isFinal c then some string
    else some deviceParameters
  | deviceIntermediate, c =>
    if isParameter c ∨ isFinal c then some string else some deviceIntermediate
  | string, c => if stringTerminator ∈ String.utf8EncodeChar c then none else some string
  | command, c => if c = '\x07' then none else some command

/-- Whether a blank inside the sequence is shown. The strings that some sequences carry take their
blanks with them. -/
def showsBlanks : Sequence → Bool
  | escape | intermediate | control => true
  | _ => false

end Sequence

/-- The state of a text that is read for what it shows. A blank inside a sequence interrupts it:
text is shown from there on, and the sequence goes on at the next control character, unless a
character beyond ASCII comes before. -/
inductive Scan
  | shown (interrupted : Option Sequence)
  | hidden (sequence : Sequence)
  deriving DecidableEq, Repr

namespace Scan

/-- Inside a sequence, if there is one. -/
def within : Option Sequence → Scan
  | none => shown none
  | some s => hidden s

/-- The state after a character, and whether the character is shown. An escape character begins a
sequence everywhere; the characters for cancelling and for substitution end any. -/
def step (q : Scan) (c : Char) : Scan × Bool :=
  if c = '\x1b' then (hidden .escape, false)
  else if c = '\x18' ∨ c = '\x1a' then (shown none, false)
  else
    match q with
    | shown s =>
      if isVisible c then (shown (if c ≤ '~' then s else none), true) else (within s, false)
    | hidden s =>
      if s.showsBlanks && isControlBlank c then (shown (some s), true)
      else (within (s.next c), false)

/-- The characters that are shown. -/
def visible (q : Scan) : List Char → List Char
  | [] => []
  | c :: rest =>
    let (q, isShown) := q.step c
    if isShown then c :: q.visible rest else q.visible rest

theorem step_shown_none {c : Char} (h : isVisible c = true) :
    (shown none).step c = (shown none, true) := by
  have escape : c ≠ '\x1b' := by rintro rfl; revert h; decide
  have cancel : c ≠ '\x18' := by rintro rfl; revert h; decide
  have substitute : c ≠ '\x1a' := by rintro rfl; revert h; decide
  simp [step, escape, cancel, substitute, h]

theorem visible_eq_self {cs : List Char} (h : ∀ c ∈ cs, isVisible c = true) :
    (shown none).visible cs = cs := by
  induction cs with
  | nil => rfl
  | cons c rest ih =>
    simp only [visible, step_shown_none (h c List.mem_cons_self), if_true]
    rw [ih fun d hd => h d (List.mem_cons_of_mem c hd)]

end Scan

/-- The text without control sequences and without control characters other than blanks. -/
def plain (text : String) : String :=
  String.ofList ((Scan.shown none).visible text.toList)

/-- A text without control characters other than blanks is left as it is. -/
theorem plain_eq_self {text : String} (h : ∀ c ∈ text.toList, isVisible c = true) :
    plain text = text := by
  rw [plain, Scan.visible_eq_self h, String.ofList_toList]

end LogicCircuit.Text
