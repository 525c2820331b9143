/-!
# The numbers of connections

A node numbers its connections from one on, in the order in which it takes them over.  Such a number
is kept in a word of 64 bits; here numbers are counted without end.  The two agree as long as the
numbers fit: `Reactor.fits_run` shows that all numbers of a run do, unless more happens in it than
there are words.

## Main definitions

* `PeerId` — the number of a connection.
* `PeerId.Fits` — a number that a word can hold.
* `PeerId.display`, `PeerId.debug` — its two texts.
-/

namespace GossipNode

/-- The number by which a node calls one of its connections. -/
structure PeerId where
  value : Nat
  deriving DecidableEq, Repr, Inhabited

namespace PeerId

instance : LT PeerId := ⟨fun a b => a.value < b.value⟩

instance (a b : PeerId) : Decidable (a < b) := inferInstanceAs (Decidable (a.value < b.value))

theorem eq_of_not_lt {a b : PeerId} (h : ¬ a < b) (h' : ¬ b < a) : a = b := by
  cases a; cases b
  exact congrArg PeerId.mk (Nat.le_antisymm (Nat.not_lt.1 h') (Nat.not_lt.1 h))

/-- Where the numbers end that a word can hold. -/
def limit : Nat := UInt64.size

/-- A number that a word can hold. -/
def Fits (id : PeerId) : Prop := id.value < limit

/-- The number after a number. -/
def next (id : PeerId) : PeerId := ⟨id.value + 1⟩

/-- A number as it is shown to people. -/
def display (id : PeerId) : String := "#" ++ toString id.value

/-- A number as it is shown inside other values. -/
def debug (id : PeerId) : String := "PeerId(" ++ toString id.value ++ ")"

end PeerId

end GossipNode
