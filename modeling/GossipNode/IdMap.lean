import GossipNode.Peer.Id

/-!
# Tables keyed by connection

A table holds one entry for each of a finite number of connections, in ascending order of their
numbers.

## Main definitions

* `IdMap` — tables.
* `IdMap.get?`, `IdMap.insert`, `IdMap.erase` — one entry.
* `IdMap.ids`, `IdMap.values` — all entries in order.

## Main results

* `IdMap.get?_insert`, `IdMap.get?_erase` — what a table holds after a change.
-/

namespace GossipNode

/-- Puts an entry in its place among entries in ascending order. -/
def insertEntry {α : Type} (id : PeerId) (a : α) : List (PeerId × α) → List (PeerId × α)
  | [] => [(id, a)]
  | (k, v) :: rest =>
    if id < k then (id, a) :: (k, v) :: rest
    else if k < id then (k, v) :: insertEntry id a rest
    else (id, a) :: rest

/-- The value entered for a connection. -/
def findEntry {α : Type} (id : PeerId) : List (PeerId × α) → Option α
  | [] => none
  | (k, v) :: rest => if k = id then some v else findEntry id rest

/-- Whether entries stand in ascending order of their numbers, each number once. -/
abbrev Ascending {α : Type} (entries : List (PeerId × α)) : Prop :=
  entries.Pairwise fun a b => a.1 < b.1

theorem mem_insertEntry {α : Type} {id : PeerId} {a : α} {entries : List (PeerId × α)}
    {e : PeerId × α} (h : e ∈ insertEntry id a entries) : e = (id, a) ∨ e ∈ entries := by
  induction entries with
  | nil => exact Or.inl (List.mem_singleton.1 h)
  | cons entry rest ih =>
    obtain ⟨k, v⟩ := entry
    unfold insertEntry at h
    split at h
    · exact List.mem_cons.1 h
    · split at h
      · rcases List.mem_cons.1 h with h | h
        · exact Or.inr (h ▸ List.mem_cons_self)
        · exact (ih h).imp_right (List.mem_cons_of_mem _)
      · rcases List.mem_cons.1 h with h | h
        · exact Or.inl h
        · exact Or.inr (List.mem_cons_of_mem _ h)

theorem ascending_insertEntry {α : Type} {entries : List (PeerId × α)} (id : PeerId) (a : α)
    (h : Ascending entries) : Ascending (insertEntry id a entries) := by
  induction entries with
  | nil => exact List.pairwise_singleton _ _
  | cons entry rest ih =>
    obtain ⟨k, v⟩ := entry
    obtain ⟨first, rest_asc⟩ := List.pairwise_cons.1 h
    unfold insertEntry
    split
    · next below =>
      refine List.pairwise_cons.2 ⟨fun e he => ?_, h⟩
      rcases List.mem_cons.1 he with he | he
      · exact he ▸ below
      · exact Nat.lt_trans below (first e he)
    · next notBelow =>
      split
      · next above =>
        refine List.pairwise_cons.2 ⟨fun e he => ?_, ih rest_asc⟩
        rcases mem_insertEntry he with he | he
        · exact he ▸ above
        · exact first e he
      · next notAbove =>
        have same : k = id := PeerId.eq_of_not_lt notAbove notBelow
        exact List.pairwise_cons.2 ⟨fun e he => same ▸ first e he, rest_asc⟩

/-- One entry for each of a finite number of connections. -/
structure IdMap (α : Type) where
  entries : List (PeerId × α)
  ascending : Ascending entries

namespace IdMap

variable {α : Type}

/-- The table without entries. -/
def empty : IdMap α := ⟨[], List.Pairwise.nil⟩

instance : Inhabited (IdMap α) := ⟨empty⟩

/-- The number of entries. -/
def size (m : IdMap α) : Nat := m.entries.length

/-- The entry of a connection. -/
def get? (m : IdMap α) (id : PeerId) : Option α := findEntry id m.entries

/-- Whether a connection has an entry. -/
def contains (m : IdMap α) (id : PeerId) : Bool := (m.get? id).isSome

/-- Enters a value for a connection, in the place of the one it may have. -/
def insert (m : IdMap α) (id : PeerId) (a : α) : IdMap α :=
  ⟨insertEntry id a m.entries, ascending_insertEntry id a m.ascending⟩

/-- Removes the entry of a connection, if it has one. -/
def erase (m : IdMap α) (id : PeerId) : IdMap α :=
  ⟨m.entries.filter fun e => e.1 ≠ id, m.ascending.filter _⟩

/-- The connections that have entries, in order. -/
def ids (m : IdMap α) : List PeerId := m.entries.map (·.1)

/-- The values of all entries, in the order of the connections. -/
def values (m : IdMap α) : List α := m.entries.map (·.2)

theorem findEntry_insertEntry (entries : List (PeerId × α)) (id : PeerId) (a : α) (k : PeerId) :
    findEntry k (insertEntry id a entries) = if id = k then some a else findEntry k entries := by
  induction entries with
  | nil => rfl
  | cons entry rest ih =>
    obtain ⟨key, v⟩ := entry
    unfold insertEntry
    split
    · rfl
    · split
      · next above =>
        have ne : id ≠ key := fun e => Nat.lt_irrefl _ (e ▸ above)
        simp only [findEntry, ih]
        split
        · next h => rw [if_neg (h ▸ ne)]
        · rfl
      · next notBelow notAbove =>
        have same : id = key := PeerId.eq_of_not_lt notBelow notAbove
        subst same
        simp only [findEntry]
        split <;> rfl

/-- After an insertion the connection has the new value and every other one what it had. -/
@[simp] theorem get?_insert (m : IdMap α) (id : PeerId) (a : α) (k : PeerId) :
    (m.insert id a).get? k = if id = k then some a else m.get? k :=
  findEntry_insertEntry m.entries id a k

theorem findEntry_filter_ne (entries : List (PeerId × α)) (id k : PeerId) :
    findEntry k (entries.filter fun e => e.1 ≠ id) =
      if id = k then none else findEntry k entries := by
  induction entries with
  | nil => simp [findEntry]
  | cons entry rest ih =>
    obtain ⟨key, v⟩ := entry
    by_cases h : key = id
    · subst h
      by_cases hk : key = k <;> simp_all [findEntry]
    · by_cases hk : key = k
      · subst hk
        simp_all [findEntry, Ne.symm h]
      · simp_all [findEntry]

/-- After a removal the connection has no entry and every other one what it had. -/
@[simp] theorem get?_erase (m : IdMap α) (id k : PeerId) :
    (m.erase id).get? k = if id = k then none else m.get? k :=
  findEntry_filter_ne m.entries id k

end IdMap

end GossipNode
