/-!
# Random indices

A random index below `n` is made from uniform words of 64 bits.  The product of a word and `n` is
split into a high and a low half of 64 bits: the high half is the index, and a word whose low half
lies above a limit is passed over, so that every index is made from equally many words.

## Main definitions

* `RandomWords` — a source of words that has been drawn from.
* `RandomIndex.zone`, `RandomIndex.accepts`, `RandomIndex.ofWord` — the rule for one word.
* `RandomWords.index` — draws words until one is accepted.
-/

namespace GossipNode

/-- A source of random words: those still to come, after which all are zero, and how many have been
drawn. -/
structure RandomWords where
  words : List UInt64
  drawn : Nat
  deriving DecidableEq, Repr, Inhabited

namespace RandomIndex

/-- How many zeros a number has in front when it is written with 64 binary digits. -/
def leadingZeros (n : Nat) : Nat := if n = 0 then 64 else 63 - n.log2

/-- The greatest low half that is accepted for indices below `n`. -/
def zone (n : Nat) : Nat := (n * Nat.pow 2 (leadingZeros n) + Nat.pow 2 64 - 1) % Nat.pow 2 64

/-- Whether a word makes an index below `n`. -/
def accepts (n : Nat) (w : UInt64) : Bool := w.toNat * n % Nat.pow 2 64 ≤ zone n

/-- The index a word makes. -/
def ofWord (n : Nat) (w : UInt64) : Nat := w.toNat * n / Nat.pow 2 64

/-- Draws words until one is accepted; zero always is. -/
def draw (n : Nat) : List UInt64 → Nat → Nat × RandomWords
  | [], drawn => (0, ⟨[], drawn + 1⟩)
  | w :: words, drawn =>
    if accepts n w then (ofWord n w, ⟨words, drawn + 1⟩) else draw n words (drawn + 1)

end RandomIndex

/-- An index below `n`, and the source after it has been drawn. -/
def RandomWords.index (source : RandomWords) (n : Nat) : Nat × RandomWords :=
  RandomIndex.draw n source.words source.drawn

end GossipNode
