import GossipNode.Text.Utf8

/-!
# Text as a terminal would show it

Text from outside may hold characters that a terminal acts upon instead of showing them: controls,
and sequences that begin with the escape character and may colour what follows, move about or name
the window.  Where such text is repeated in a message, they are left out.

Of the controls, tab, line feed, form feed and carriage return are shown, as the spaces they are,
even in the midst of a sequence.  A sequence that is not complete is left out as far as it goes.

## Main definitions

* `Terminal.Sequence` — the parts of a sequence.
* `Terminal.State`, `Terminal.State.step` — a reader of terminal text.
* `Terminal.shown` — what is left of a text.

## Main results

* `Terminal.shown_eq_self` — printable text is shown as it is.
-/

namespace GossipNode

namespace Terminal

/-- Where in a sequence a reader stands. -/
inductive Sequence
  /-- Outside all sequences. -/
  | outside
  /-- After the escape character. -/
  | escape
  /-- After the escape character and a character that calls for another one. -/
  | escapeMore
  /-- In a control sequence, which ends with a letter. -/
  | control
  /-- In a command to the system, which ends with a bell. -/
  | command
  /-- At the beginning of a string for a device. -/
  | deviceStart
  /-- Among the numbers at the beginning of a string for a device. -/
  | deviceNumbers
  /-- After the numbers at the beginning of a string for a device. -/
  | deviceMore
  /-- In a string that goes on to a string terminator. -/
  | body
  deriving DecidableEq, Repr, Inhabited

/-- Whether a control is a space. -/
def isSpace (c : Char) : Bool := c = '\t' || c = '\n' || c = '\x0c' || c = '\r'

/-- Whether a character is one of the plain printable ones, a space included. -/
def isPlain (c : Char) : Bool := ' ' ≤ c && c ≤ '~'

/-- Whether the spelling of a character holds the byte that terminates a string. -/
def terminates (c : Char) : Bool := (0x9C : UInt8) ∈ Utf8.encodeChar c

/-- What a plain character does to a sequence. -/
def Sequence.plain (s : Sequence) (c : Char) : Sequence :=
  match s with
  | .outside => .outside
  | .escape =>
    if c ≤ '/' then .escapeMore
    else if c = '[' then .control
    else if c = ']' then .command
    else if c = 'P' then .deviceStart
    else if c = 'X' ∨ c = '^' ∨ c = '_' then .body
    else .outside
  | .escapeMore => if c ≤ '/' then .escapeMore else .outside
  | .control => if c ≤ '?' then .control else .outside
  | .command => .command
  | .deviceStart =>
    if c ≤ '/' then .deviceMore else if c ≤ '?' then .deviceNumbers else .body
  | .deviceNumbers =>
    if c ≤ '/' then .deviceMore else if c ≤ ';' then .deviceNumbers else .body
  | .deviceMore => if c ≤ '/' then .deviceMore else .body
  | .body => .body

/-- What a character beyond the first 128 does to a sequence. -/
def Sequence.foreign (s : Sequence) (c : Char) : Sequence :=
  if s = .body ∧ terminates c then .outside else s

/-- What a control does to a sequence.  Two of them break it off. -/
def Sequence.controlled (s : Sequence) (c : Char) : Sequence :=
  if c = '\x1b' then .escape
  else if c = '\x18' ∨ c = '\x1a' then .outside
  else if s = .command ∧ c = '\x07' then .outside
  else s

/-- Whether controls within a sequence count as if they stood outside. -/
def Sequence.isOpen : Sequence → Bool
  | .outside | .escape | .escapeMore | .control => true
  | .command | .deviceStart | .deviceNumbers | .deviceMore | .body => false

/-- The sequence after a character, and whether the character is shown. -/
def Sequence.read (s : Sequence) (c : Char) : Sequence × Bool :=
  if isPlain c then (s.plain c, s = .outside)
  else if c < ' ' then (s.controlled c, isSpace c && s.isOpen)
  else if c = '\x7f' then (s, false)
  else (s.foreign c, s = .outside)

/-- A reader of terminal text: the sequence it is in or has been in, and whether it is showing what
it reads.  While it is, the sequence matters only to the character that breaks the showing off. -/
structure State where
  sequence : Sequence
  showing : Bool
  deriving DecidableEq, Repr, Inhabited

/-- Before the first character. -/
def State.start : State := ⟨.outside, true⟩

/-- Reads a character while it is not showing. -/
def State.skip (s : State) (c : Char) : State × Bool :=
  let (sequence, isShown) := s.sequence.read c
  ({ sequence, showing := isShown }, isShown)

/-- Reads a character, and whether it is shown. -/
def State.step (s : State) (c : Char) : State × Bool :=
  if s.showing ∧ (Sequence.outside.read c).2 then
    (⟨if '\x7f' < c then .outside else s.sequence, true⟩, true)
  else s.skip c

/-- What is shown of a text from a state on. -/
def shownFrom : State → List Char → List Char
  | _, [] => []
  | s, c :: cs =>
    match s.step c with
    | (s, true) => c :: shownFrom s cs
    | (s, false) => shownFrom s cs

/-- What is left of a text. -/
def shown (s : String) : String := String.ofList (shownFrom .start s.toList)

theorem step_of_isPlain {s : State} {c : Char} (h : s.showing = true) (hc : isPlain c = true) :
    ∃ t : State, t.showing = true ∧ s.step c = (t, true) := by
  simp [State.step, h, Sequence.read, hc]

theorem shownFrom_eq_self {s : State} {cs : List Char} (h : s.showing = true)
    (hcs : ∀ c ∈ cs, isPlain c = true) : shownFrom s cs = cs := by
  induction cs generalizing s with
  | nil => rfl
  | cons c cs ih =>
    obtain ⟨t, ht, step⟩ := step_of_isPlain h (hcs c List.mem_cons_self)
    simp [shownFrom, step, ih ht fun d hd => hcs d (List.mem_cons_of_mem _ hd)]

/-- Printable text is shown as it is. -/
theorem shown_eq_self {s : String} (h : ∀ c ∈ s.toList, isPlain c = true) : shown s = s := by
  simp [shown, shownFrom_eq_self (s := State.start) rfl h]

end Terminal

end GossipNode
