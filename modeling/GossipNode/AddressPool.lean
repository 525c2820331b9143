import GossipNode.RandomIndex

/-!
# The pool of addresses

Addresses heard from peers wait in a pool until they are dialed.  The pool keeps every copy of an
address it is given.  Removal is at random: the last entry takes the place of the removed one.

## Main definitions

* `AddressPool` — the entries in order.
* `AddressPool.extend` — adds addresses at the end.
* `AddressPool.takeRandom` — removes a random entry.
* `AddressPool.selectForDial` — removes what one round of dialing needs.
-/

namespace GossipNode

/-- Addresses heard of and not yet dialed, copies included. -/
structure AddressPool where
  entries : List String
  deriving DecidableEq, Repr, Inhabited

namespace AddressPool

/-- A pool without entries. -/
def empty : AddressPool := ⟨[]⟩

/-- The number of entries. -/
def size (pool : AddressPool) : Nat := pool.entries.length

/-- Adds addresses at the end. -/
def extend (pool : AddressPool) (addresses : List String) : AddressPool :=
  ⟨pool.entries ++ addresses⟩

/-- Removes the entry at an index: the last entry takes its place. -/
def swapRemove (entries : List String) (i : Nat) : List String :=
  match entries.getLast? with
  | none => []
  | some last => (entries.set i last).dropLast

/-- Removes a random entry.  No word is drawn for an empty pool. -/
def takeRandom (pool : AddressPool) (source : RandomWords) :
    Option String × AddressPool × RandomWords :=
  match pool.entries with
  | [] => (none, pool, source)
  | first :: _ =>
    let (i, source) := source.index pool.size
    (some (pool.entries.getD i first), ⟨swapRemove pool.entries i⟩, source)

/-- Removes random entries until `wanted` are picked or none is left, which takes at most as many
rounds as there are entries.  Entries that are connected or already picked are dropped. -/
def pickLoop (connected : List String) (wanted : Nat) :
    (rounds : Nat) → AddressPool → RandomWords → (picked : List String) →
      List String × AddressPool × RandomWords
  | 0, pool, source, picked => (picked.reverse, pool, source)
  | rounds + 1, pool, source, picked =>
    if wanted ≤ picked.length then (picked.reverse, pool, source)
    else
      match pool.takeRandom source with
      | (none, pool, source) => (picked.reverse, pool, source)
      | (some address, pool, source) =>
        if connected.contains address || picked.contains address then
          pickLoop connected wanted rounds pool source picked
        else pickLoop connected wanted rounds pool source (address :: picked)

/-- The addresses to dial in one round: at most as many as `live` peers lack to `target`, each of
them once and none of them connected. -/
def selectForDial (pool : AddressPool) (live target : Nat) (connected : List String)
    (source : RandomWords) : List String × AddressPool × RandomWords :=
  pickLoop connected (target - live) pool.size pool source []

end AddressPool

end GossipNode
