import GossipNode.IdMap

/-!
# What a table holds

## Main definitions

* `IdMap.view` — what shows of a table.

## Main results

* `IdMap.mem_entries_iff` — an entry is one of those that stand in the table exactly if it is found.
* `IdMap.entries_eq_singleton` — the entries of a table in which a single connection is found.
* `IdMap.map_values_insert` — what a change of a value leaves the same.
* `IdMap.view_insert`, `IdMap.view_erase`, `IdMap.findEntry_view` — what shows of a table changes as
  the table does.
-/

namespace GossipNode

variable {α : Type}

theorem mem_of_findEntry {id : PeerId} {a : α} {entries : List (PeerId × α)}
    (h : findEntry id entries = some a) : (id, a) ∈ entries := by
  induction entries with
  | nil => cases h
  | cons entry rest ih =>
    obtain ⟨k, v⟩ := entry
    simp only [findEntry] at h
    split at h
    · next same =>
      cases h
      exact same ▸ List.mem_cons_self
    · exact List.mem_cons_of_mem _ (ih h)

theorem findEntry_of_mem {id : PeerId} {a : α} {entries : List (PeerId × α)}
    (ascending : Ascending entries) (h : (id, a) ∈ entries) : findEntry id entries = some a := by
  induction entries with
  | nil => cases h
  | cons entry rest ih =>
    obtain ⟨k, v⟩ := entry
    obtain ⟨first, rest_ascending⟩ := List.pairwise_cons.1 ascending
    rcases List.mem_cons.1 h with h | h
    · cases h
      exact if_pos rfl
    · have above : k < id := first _ h
      have other : k ≠ id := fun same => Nat.lt_irrefl _ (same ▸ above)
      exact (if_neg other).trans (ih rest_ascending h)

namespace IdMap

/-- An entry stands in the table exactly if it is found. -/
theorem mem_entries_iff {m : IdMap α} {id : PeerId} {a : α} :
    (id, a) ∈ m.entries ↔ m.get? id = some a :=
  ⟨findEntry_of_mem m.ascending, mem_of_findEntry⟩

/-- The values of a table are those that are found. -/
theorem mem_values_iff {m : IdMap α} {a : α} : a ∈ m.values ↔ ∃ id, m.get? id = some a := by
  constructor
  · intro h
    obtain ⟨⟨id, a⟩, entered, rfl⟩ := List.mem_map.1 h
    exact ⟨id, mem_entries_iff.1 entered⟩
  · rintro ⟨id, h⟩
    exact List.mem_map.2 ⟨(id, a), mem_entries_iff.2 h, rfl⟩

theorem mem_ids_iff {m : IdMap α} {id : PeerId} : id ∈ m.ids ↔ ∃ a, m.get? id = some a := by
  rw [ids, List.mem_map]
  constructor
  · rintro ⟨⟨k, a⟩, entered, rfl⟩
    exact ⟨a, mem_entries_iff.1 entered⟩
  · rintro ⟨a, found⟩
    exact ⟨(id, a), mem_entries_iff.2 found, rfl⟩

/-- No connection has two entries. -/
theorem nodup_ids (m : IdMap α) : m.ids.Nodup := by
  refine List.pairwise_map.2 (m.ascending.imp fun {a b} below same => ?_)
  rw [same] at below
  exact Nat.lt_irrefl _ below

@[simp] theorem length_ids (m : IdMap α) : m.ids.length = m.size := List.length_map _

/-- A table in which nothing is found has no entries. -/
theorem entries_eq_nil {m : IdMap α} (nothing : ∀ id, m.get? id = none) : m.entries = [] := by
  refine List.eq_nil_iff_forall_not_mem.2 fun ⟨id, a⟩ entered => ?_
  rw [mem_entries_iff, nothing] at entered
  cases entered

/-- A table in which one connection is found, and no other one, has that entry only. -/
theorem entries_eq_singleton {m : IdMap α} {id : PeerId} {a : α} (found : m.get? id = some a)
    (only : ∀ k b, m.get? k = some b → k = id) : m.entries = [(id, a)] := by
  have same : ∀ e ∈ m.entries, e = (id, a) := by
    intro ⟨k, b⟩ entered
    rw [mem_entries_iff] at entered
    obtain rfl := only k b entered
    cases found.symm.trans entered
    rfl
  have all := List.eq_replicate_of_mem same
  -- Of two equal entries neither stands before the other.
  have few : m.entries.length ≤ 1 := by
    have ascending := m.ascending
    rw [all] at ascending
    exact (List.pairwise_replicate.1 ascending).resolve_right (Nat.lt_irrefl _)
  have some_entry := List.length_pos_of_mem (mem_entries_iff.2 found)
  rw [all, show m.entries.length = 1 by omega]
  rfl

theorem map_insertEntry {β : Type} (f : PeerId × α → β) {id : PeerId} {a b : α}
    {entries : List (PeerId × α)} (ascending : Ascending entries)
    (found : findEntry id entries = some a) (same : f (id, b) = f (id, a)) :
    (insertEntry id b entries).map f = entries.map f := by
  induction entries with
  | nil => cases found
  | cons entry rest ih =>
    obtain ⟨k, v⟩ := entry
    obtain ⟨first, rest_ascending⟩ := List.pairwise_cons.1 ascending
    simp only [findEntry] at found
    unfold insertEntry
    split
    · next below =>
      -- The entry that is replaced does not stand behind a greater number.
      split at found
      · next equal => exact absurd (equal ▸ below) (Nat.lt_irrefl _)
      · have above : k < id := first _ (mem_of_findEntry found)
        exact absurd (Nat.lt_trans below above) (Nat.lt_irrefl _)
    · split
      · next above =>
        have other : k ≠ id := fun equal => Nat.lt_irrefl _ (equal ▸ above)
        rw [if_neg other] at found
        rw [List.map_cons, List.map_cons, ih rest_ascending found]
      · next notBelow notAbove =>
        obtain rfl := PeerId.eq_of_not_lt notAbove notBelow
        rw [if_pos rfl] at found
        rw [List.map_cons, List.map_cons, Option.some.inj found, same]

/-- What is the same of a value and the one in whose place it is entered is the same of all values
afterwards, in the same order. -/
theorem map_values_insert {β : Type} (f : α → β) {m : IdMap α} {id : PeerId} {a b : α}
    (found : m.get? id = some a) (same : f b = f a) :
    (m.insert id b).values.map f = m.values.map f := by
  have entries := map_insertEntry (fun e => f e.2) m.ascending found same
  simpa only [values, insert, List.map_map, Function.comp_def] using entries

@[simp] theorem get?_empty (id : PeerId) : (empty : IdMap α).get? id = none := rfl

/-! ### What shows of a table -/

section View

variable {β : Type} (f : α → β)

/-- The entries of a table, each with what shows of its value. -/
def view (m : IdMap α) : List (PeerId × β) := m.entries.map fun e => (e.1, f e.2)

theorem view_insert (m : IdMap α) (id : PeerId) (a : α) :
    (m.insert id a).view f = insertEntry id (f a) (m.view f) := by
  unfold view insert
  simp only
  induction m.entries with
  | nil => rfl
  | cons entry rest ih =>
    obtain ⟨k, v⟩ := entry
    simp only [List.map_cons, insertEntry]
    split
    · rfl
    · split
      · rw [List.map_cons, ih]
      · rfl

theorem view_erase (m : IdMap α) (id : PeerId) :
    (m.erase id).view f = (m.view f).filter fun e => e.1 ≠ id := by
  unfold view erase
  rw [List.filter_map]
  rfl

/-- Of what is found in a table the same shows as stands in its view. -/
theorem findEntry_view (m : IdMap α) (id : PeerId) :
    findEntry id (m.view f) = (m.get? id).map f := by
  unfold view get?
  induction m.entries with
  | nil => rfl
  | cons entry rest ih =>
    obtain ⟨k, v⟩ := entry
    simp only [List.map_cons, findEntry]
    split
    · rfl
    · exact ih

variable {f}

/-- Nothing else shows where a value is entered of which the same shows. -/
theorem view_insert_same {m : IdMap α} {id : PeerId} {a b : α} (found : m.get? id = some a)
    (same : f b = f a) : (m.insert id b).view f = m.view f :=
  map_insertEntry (fun e => (e.1, f e.2)) m.ascending found (congrArg (Prod.mk id) same)

end View

end IdMap

end GossipNode
