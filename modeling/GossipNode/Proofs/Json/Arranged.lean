import GossipNode.Proofs.Json.Layout
import GossipNode.Proofs.Json.Values
import GossipNode.Proofs.Text.Order

/-!
# Members in their places

An object is a set of named values: in which order its members are given does not matter, as long
as no name is given twice.  In the text of a value the members stand in ascending order of the
bytes of their names, so a value has to be arranged before it is written.

## Main definitions

* `Json.isBuilt` — values of scalars with one spelling in which no object names a member twice.
* `Json.arranged` — the value with the members of all objects in their places.
* `Json.inByteOrder` — values whose objects all have their members in order.
* `Layout.namesOnce` — layouts in which no object names a member twice.

## Main results

* `Json.arranged_object` — an object has the same members after it has been arranged.
* `Json.isPlain_arranged`, `Json.depth_arranged` — **an arranged value has one spelling**, and is as
  deep as before.
* `Json.inByteOrder_of_isPlain` — what has one spelling is in byte order.
* `Json.arranged_of_inByteOrder` — what is in byte order is arranged already.
* `Layout.depth_of_value?` — a layout that names no member twice is as deep as its value.
-/

namespace GossipNode.Json

mutual

/-- A value with the members of all its objects put in their places. -/
def arranged : Json → Json
  | .scalar s => .scalar s
  | .array items => .array (arrangedItems items)
  | .object members => .object (arrangedMembers [] members).reverse

/-- Arranged values, one after the other. -/
def arrangedItems : List Json → List Json
  | [] => []
  | v :: vs => v.arranged :: arrangedItems vs

/-- Arranged members, put in their places among others that stand in descending order. -/
def arrangedMembers (seen : List (String × Json)) : List (String × Json) → List (String × Json)
  | [] => seen
  | (name, v) :: ms => arrangedMembers (insertMember name v.arranged seen) ms

end

mutual

/-- Whether all scalars of a value have one spelling and no object names a member twice. -/
def isBuilt : Json → Bool
  | .scalar s => s.isPlain
  | .array items => builtItems items
  | .object members => decide (members.map (·.1)).Nodup && builtMembers members

/-- Whether all items are built so. -/
def builtItems : List Json → Bool
  | [] => true
  | v :: vs => v.isBuilt && builtItems vs

/-- Whether the values of all members are built so. -/
def builtMembers : List (String × Json) → Bool
  | [] => true
  | (_, v) :: ms => v.isBuilt && builtMembers ms

end

mutual

/-- Whether the members of all objects stand in ascending order of the bytes of their names. -/
def inByteOrder : Json → Bool
  | .scalar _ => true
  | .array items => itemsInByteOrder items
  | .object members =>
    decide ((members.map fun m => utf8 m.1).Pairwise (· < ·)) && membersInByteOrder members

/-- Whether all items are in byte order. -/
def itemsInByteOrder : List Json → Bool
  | [] => true
  | v :: vs => v.inByteOrder && itemsInByteOrder vs

/-- Whether the values of all members are in byte order. -/
def membersInByteOrder : List (String × Json) → Bool
  | [] => true
  | (_, v) :: ms => v.inByteOrder && membersInByteOrder ms

end

/-! ### One member -/

variable {name : String} {v : Json} {seen ms : List (String × Json)}

/-- Members in descending order of their names. -/
def Descending (ms : List (String × Json)) : Prop := (ms.map (·.1)).Pairwise (· > ·)

/-- A member with a new name is added to the others. -/
theorem insertMember_perm (new : name ∉ seen.map (·.1)) :
    (insertMember name v seen).Perm ((name, v) :: seen) := by
  induction seen with
  | nil => exact .refl _
  | cons m seen ih =>
    obtain ⟨n, w⟩ := m
    simp only [List.map_cons, List.mem_cons, not_or] at new
    unfold insertMember
    split
    · exact .refl _
    split
    · next same => exact absurd same.symm new.1
    · exact ((ih new.2).cons (n, w)).trans (.swap _ _ _)

/-- No names come in but the one that is put in. -/
theorem mem_names_insertMember {a : String} (h : a ∈ (insertMember name v seen).map (·.1)) :
    a = name ∨ a ∈ seen.map (·.1) := by
  induction seen with
  | nil => exact Or.inl (by simpa [insertMember] using h)
  | cons m seen ih =>
    obtain ⟨n, w⟩ := m
    unfold insertMember at h
    split at h
    · simpa using h
    split at h
    · simp only [List.map_cons, List.mem_cons] at h ⊢
      exact h.imp id Or.inr
    · simp only [List.map_cons, List.mem_cons] at h ⊢
      rcases h with rfl | h
      · exact Or.inr (Or.inl rfl)
      · exact (ih h).imp id Or.inr

/-- A member is put in its place. -/
theorem Descending.insertMember (h : Descending seen) :
    Descending (insertMember name v seen) := by
  induction seen with
  | nil => exact List.pairwise_singleton _ _
  | cons m seen ih =>
    obtain ⟨n, w⟩ := m
    unfold Descending at h ih ⊢
    rw [List.map_cons, List.pairwise_cons] at h
    unfold Json.insertMember
    split
    · next before =>
      rw [List.map_cons, List.map_cons, List.pairwise_cons, List.pairwise_cons]
      refine ⟨fun a ha => ?_, h⟩
      rcases List.mem_cons.1 ha with rfl | ha
      · exact before
      · exact String.lt_trans (h.1 a ha) before
    split
    · next same =>
      subst same
      rw [List.map_cons, List.pairwise_cons]
      exact h
    · next notBefore other =>
      rw [List.map_cons, List.pairwise_cons]
      refine ⟨fun a ha => ?_, ih h.2⟩
      rcases mem_names_insertMember ha with rfl | ha
      · -- the names differ, and this one does not come before the other
        by_cases after : n ≤ a
        · exact absurd (String.le_antisymm after (String.not_lt.1 notBefore)) other
        · exact String.not_le.1 after
      · exact h.1 a ha

/-! ### All members -/

theorem Descending.arrangedMembers (h : Descending seen) :
    Descending (arrangedMembers seen ms) := by
  induction ms generalizing seen with
  | nil =>
    rw [Json.arrangedMembers]
    exact h
  | cons m ms ih =>
    obtain ⟨name, v⟩ := m
    rw [Json.arrangedMembers]
    exact ih h.insertMember

/-- If no name is given twice, all members are there in the end. -/
theorem arrangedMembers_perm (distinct : (ms.map (·.1)).Nodup)
    (new : ∀ m ∈ ms, m.1 ∉ seen.map (·.1)) :
    (arrangedMembers seen ms).Perm ((ms.map fun m => (m.1, m.2.arranged)) ++ seen) := by
  induction ms generalizing seen with
  | nil =>
    rw [arrangedMembers]
    exact .refl _
  | cons m ms ih =>
    obtain ⟨name, v⟩ := m
    simp only [List.map_cons, List.nodup_cons] at distinct
    -- the name that is put in now is new to the members to come as well
    have first := insertMember_perm (v := v.arranged) (new (name, v) List.mem_cons_self)
    rw [arrangedMembers]
    refine (ih distinct.2 fun m hm there => ?_).trans ?_
    · rcases mem_names_insertMember there with same | there
      · exact distinct.1 (same ▸ List.mem_map_of_mem hm)
      · exact new m (List.mem_cons_of_mem _ hm) there
    · exact ((List.Perm.append_left _ first).trans List.perm_middle)

/-- The members in their places are those that were given. -/
theorem reverse_arrangedMembers_perm (distinct : (ms.map (·.1)).Nodup) :
    (arrangedMembers [] ms).reverse.Perm (ms.map fun m => (m.1, m.2.arranged)) := by
  have all : (arrangedMembers [] ms).Perm ((ms.map fun m => (m.1, m.2.arranged)) ++ []) :=
    arrangedMembers_perm distinct (by simp)
  rw [List.append_nil] at all
  exact (List.reverse_perm _).trans all

/-- **An object has the same members after it has been arranged**, themselves arranged. -/
theorem arranged_object (distinct : (ms.map (·.1)).Nodup) :
    ∃ placed, (Json.object ms).arranged = .object placed ∧
      placed.Perm (ms.map fun m => (m.1, m.2.arranged)) :=
  ⟨_, by rw [arranged], reverse_arrangedMembers_perm distinct⟩

theorem plainMembers_iff : plainMembers ms = true ↔ ∀ m ∈ ms, m.2.isPlain = true := by
  induction ms with
  | nil => simp [plainMembers]
  | cons m ms ih =>
    obtain ⟨name, v⟩ := m
    simp [plainMembers, ih]

theorem depthOfMembers_perm {ms ns : List (String × Json)} (h : ms.Perm ns) :
    depthOfMembers ms = depthOfMembers ns := by
  induction h with
  | nil => rfl
  | cons m _ ih => simp only [depthOfMembers, ih]
  | swap m n ms => simp only [depthOfMembers]; omega
  | trans _ _ ih ih' => exact ih.trans ih'

/-! ### Values -/

mutual

/-- **An arranged value has one spelling.** -/
theorem isPlain_arranged : ∀ v : Json, v.isBuilt = true → v.arranged.isPlain = true
  | .scalar s, built => by
    rw [arranged, isPlain]
    rwa [isBuilt] at built
  | .array items, built => by
    rw [isBuilt] at built
    rw [arranged, isPlain]
    exact plainItems_arranged items built
  | .object members, built => by
    simp only [isBuilt, Bool.and_eq_true, decide_eq_true_eq] at built
    -- the members are collected in descending order and turned round in the end
    have ordered : Descending (arrangedMembers [] members) :=
      Descending.arrangedMembers List.Pairwise.nil
    rw [arranged, isPlain, Bool.and_eq_true, ascendingNames, decide_eq_true_eq, List.map_reverse,
      List.pairwise_reverse, plainMembers_iff]
    refine ⟨ordered, fun m hm => ?_⟩
    exact plainMembers_arranged members built.2 m
      ((reverse_arrangedMembers_perm built.1).mem_iff.1 hm)

theorem plainItems_arranged : ∀ vs : List Json, builtItems vs = true →
    plainItems (arrangedItems vs) = true
  | [], _ => by rw [arrangedItems, plainItems]
  | v :: vs, built => by
    simp only [builtItems, Bool.and_eq_true] at built
    rw [arrangedItems, plainItems, Bool.and_eq_true]
    exact ⟨isPlain_arranged v built.1, plainItems_arranged vs built.2⟩

theorem plainMembers_arranged : ∀ ms : List (String × Json), builtMembers ms = true →
    ∀ m ∈ ms.map fun m => (m.1, m.2.arranged), m.2.isPlain = true
  | [], _ => by simp
  | (name, v) :: ms, built => by
    simp only [builtMembers, Bool.and_eq_true] at built
    intro m hm
    rcases List.mem_cons.1 hm with rfl | hm
    · exact isPlain_arranged v built.1
    · exact plainMembers_arranged ms built.2 m hm

end

mutual

/-- An arranged value is as deep as before. -/
theorem depth_arranged : ∀ v : Json, v.isBuilt = true → v.arranged.depth = v.depth
  | .scalar s, _ => by rw [arranged]
  | .array items, built => by
    rw [isBuilt] at built
    rw [arranged, depth, depth, depthOfItems_arranged items built]
  | .object members, built => by
    simp only [isBuilt, Bool.and_eq_true, decide_eq_true_eq] at built
    rw [arranged, depth, depth, depthOfMembers_perm (reverse_arrangedMembers_perm built.1),
      depthOfMembers_arranged members built.2]

theorem depthOfItems_arranged : ∀ vs : List Json, builtItems vs = true →
    depthOfItems (arrangedItems vs) = depthOfItems vs
  | [], _ => by rw [arrangedItems]
  | v :: vs, built => by
    simp only [builtItems, Bool.and_eq_true] at built
    rw [arrangedItems, depthOfItems, depthOfItems, depth_arranged v built.1,
      depthOfItems_arranged vs built.2]

theorem depthOfMembers_arranged : ∀ ms : List (String × Json), builtMembers ms = true →
    depthOfMembers (ms.map fun m => (m.1, m.2.arranged)) = depthOfMembers ms
  | [], _ => rfl
  | (name, v) :: ms, built => by
    simp only [builtMembers, Bool.and_eq_true] at built
    rw [List.map_cons, depthOfMembers, depthOfMembers, depth_arranged v built.1,
      depthOfMembers_arranged ms built.2]

end

/-- Members that are in their places already are only turned round. -/
theorem arrangedMembers_of_ascending (ascending : (ms.map (·.1)).Pairwise (· < ·))
    (after : ∀ s ∈ seen, ∀ n ∈ ms.map (·.1), s.1 < n) :
    arrangedMembers seen ms = (ms.map fun m => (m.1, m.2.arranged)).reverse ++ seen := by
  induction ms generalizing seen with
  | nil => rw [arrangedMembers]; rfl
  | cons m ms ih =>
    obtain ⟨name, v⟩ := m
    simp only [List.map_cons, List.pairwise_cons] at ascending
    simp only [List.map_cons, List.mem_cons, forall_eq_or_imp] at after
    rw [arrangedMembers, insertMember_of_lt fun s hs => (after s hs).1, ih ascending.2 ?_]
    · simp
    · intro s hs
      rcases List.mem_cons.1 hs with rfl | hs
      · exact ascending.1
      · exact (after s hs).2

mutual

/-- What has one spelling is arranged already. -/
theorem arranged_of_isPlain : ∀ v : Json, v.isPlain = true → v.arranged = v
  | .scalar s, _ => by rw [arranged]
  | .array items, plain => by
    rw [isPlain] at plain
    rw [arranged, arrangedItems_of_plain items plain]
  | .object members, plain => by
    simp only [isPlain, ascendingNames, Bool.and_eq_true, decide_eq_true_eq] at plain
    rw [arranged, arrangedMembers_of_ascending plain.1 (by simp), List.append_nil,
      List.reverse_reverse, map_arranged_of_plain members plain.2]

theorem arrangedItems_of_plain : ∀ vs : List Json, plainItems vs = true → arrangedItems vs = vs
  | [], _ => by rw [arrangedItems]
  | v :: vs, plain => by
    simp only [plainItems, Bool.and_eq_true] at plain
    rw [arrangedItems, arranged_of_isPlain v plain.1, arrangedItems_of_plain vs plain.2]

theorem map_arranged_of_plain : ∀ ms : List (String × Json), plainMembers ms = true →
    (ms.map fun m => (m.1, m.2.arranged)) = ms
  | [], _ => rfl
  | (name, v) :: ms, plain => by
    simp only [plainMembers, Bool.and_eq_true] at plain
    rw [List.map_cons, arranged_of_isPlain v plain.1, map_arranged_of_plain ms plain.2]

end

mutual

/-- What has one spelling is in byte order. -/
theorem inByteOrder_of_isPlain : ∀ v : Json, v.isPlain = true → v.inByteOrder = true
  | .scalar s, _ => by rw [inByteOrder]
  | .array items, plain => by
    rw [isPlain] at plain
    rw [inByteOrder]
    exact itemsInByteOrder_of_plain items plain
  | .object members, plain => by
    simp only [isPlain, ascendingNames, Bool.and_eq_true, decide_eq_true_eq] at plain
    rw [inByteOrder, Bool.and_eq_true, decide_eq_true_eq]
    refine ⟨?_, membersInByteOrder_of_plain members plain.2⟩
    rw [List.pairwise_map] at plain ⊢
    exact plain.1.imp fun before => utf8_lt_utf8.2 before

theorem itemsInByteOrder_of_plain : ∀ vs : List Json, plainItems vs = true →
    itemsInByteOrder vs = true
  | [], _ => by rw [itemsInByteOrder]
  | v :: vs, plain => by
    simp only [plainItems, Bool.and_eq_true] at plain
    rw [itemsInByteOrder, Bool.and_eq_true]
    exact ⟨inByteOrder_of_isPlain v plain.1, itemsInByteOrder_of_plain vs plain.2⟩

theorem membersInByteOrder_of_plain : ∀ ms : List (String × Json), plainMembers ms = true →
    membersInByteOrder ms = true
  | [], _ => by rw [membersInByteOrder]
  | (name, v) :: ms, plain => by
    simp only [plainMembers, Bool.and_eq_true] at plain
    rw [membersInByteOrder, Bool.and_eq_true]
    exact ⟨inByteOrder_of_isPlain v plain.1, membersInByteOrder_of_plain ms plain.2⟩

end

mutual

/-- What is built so and in byte order has one spelling. -/
theorem isPlain_of_inByteOrder : ∀ v : Json, v.isBuilt = true → v.inByteOrder = true →
    v.isPlain = true
  | .scalar s, built, _ => by
    rw [isBuilt] at built
    rwa [isPlain]
  | .array items, built, ordered => by
    rw [isBuilt] at built
    rw [inByteOrder] at ordered
    rw [isPlain]
    exact plainItems_of_inByteOrder items built ordered
  | .object members, built, ordered => by
    simp only [isBuilt, Bool.and_eq_true] at built
    simp only [inByteOrder, Bool.and_eq_true, decide_eq_true_eq] at ordered
    rw [isPlain, Bool.and_eq_true, ascendingNames, decide_eq_true_eq]
    refine ⟨?_, plainMembers_of_inByteOrder members built.2 ordered.2⟩
    rw [List.pairwise_map] at ordered ⊢
    exact ordered.1.imp fun before => utf8_lt_utf8.1 before

theorem plainItems_of_inByteOrder : ∀ vs : List Json, builtItems vs = true →
    itemsInByteOrder vs = true → plainItems vs = true
  | [], _, _ => by rw [plainItems]
  | v :: vs, built, ordered => by
    simp only [builtItems, Bool.and_eq_true] at built
    simp only [itemsInByteOrder, Bool.and_eq_true] at ordered
    rw [plainItems, Bool.and_eq_true]
    exact ⟨isPlain_of_inByteOrder v built.1 ordered.1,
      plainItems_of_inByteOrder vs built.2 ordered.2⟩

theorem plainMembers_of_inByteOrder : ∀ ms : List (String × Json), builtMembers ms = true →
    membersInByteOrder ms = true → plainMembers ms = true
  | [], _, _ => by rw [plainMembers]
  | (name, v) :: ms, built, ordered => by
    simp only [builtMembers, Bool.and_eq_true] at built
    simp only [membersInByteOrder, Bool.and_eq_true] at ordered
    rw [plainMembers, Bool.and_eq_true]
    exact ⟨isPlain_of_inByteOrder v built.1 ordered.1,
      plainMembers_of_inByteOrder ms built.2 ordered.2⟩

end

/-- What is in byte order is arranged already. -/
theorem arranged_of_inByteOrder {v : Json} (built : v.isBuilt = true)
    (ordered : v.inByteOrder = true) : v.arranged = v :=
  arranged_of_isPlain v (isPlain_of_inByteOrder v built ordered)

end GossipNode.Json

/-! ### Layouts

Of several members of one name all but the last are lost, and with them what they enclose.  If no
name is given twice, nothing is. -/

namespace GossipNode.Layout

mutual

/-- Whether no object of a layout names a member twice, however the names are spelled. -/
def namesOnce : Layout → Bool
  | .scalar _ => true
  | .array _ items => itemsNameOnce items
  | .object _ members =>
    decide (members.map (·.name.value?)).Nodup && membersNameOnce members

/-- Whether this holds of all items. -/
def itemsNameOnce : List (Item Layout) → Bool
  | [] => true
  | ⟨_, w, _⟩ :: items => w.namesOnce && itemsNameOnce items

/-- Whether this holds of the values of all members. -/
def membersNameOnce : List (Member Layout) → Bool
  | [] => true
  | ⟨_, _, _, ⟨_, w, _⟩⟩ :: members => w.namesOnce && membersNameOnce members

end

mutual

/-- **A layout that names no member twice is as deep as its value.** -/
theorem depth_of_value? : ∀ {w : Layout} {v : Json}, w.namesOnce = true → w.value? = some v →
    w.depth = v.depth
  | .scalar t, v, _, value => by
    simp only [value?, Option.map_eq_some_iff] at value
    obtain ⟨s, -, rfl⟩ := value
    rw [depth, Json.depth]
  | .array _ items, v, once, value => by
    simp only [value?, Option.map_eq_some_iff] at value
    obtain ⟨vs, values, rfl⟩ := value
    rw [namesOnce] at once
    rw [depth, Json.depth, depthOfItems_of_values? once values]
  | .object _ members, v, once, value => by
    simp only [value?, Option.map_eq_some_iff] at value
    obtain ⟨ms, values, rfl⟩ := value
    simp only [namesOnce, Bool.and_eq_true, decide_eq_true_eq] at once
    have all := depthOfMembers_of_values? once.2 once.1 (by simp) values
    rw [depth, Json.depth, Json.depthOfMembers_perm (List.reverse_perm ms), all,
      Json.depthOfMembers, Nat.max_zero]

theorem depthOfItems_of_values? : ∀ {items : List (Item Layout)} {vs : List Json},
    itemsNameOnce items = true → itemValues? items = some vs →
    depthOfItems items = Json.depthOfItems vs
  | [], vs, _, values => by
    cases values
    rfl
  | ⟨_, w, _⟩ :: items, vs, once, values => by
    simp only [itemsNameOnce, Bool.and_eq_true] at once
    simp only [itemValues?, Option.bind_eq_bind, Option.bind_eq_some_iff] at values
    obtain ⟨v, value, vs, values, same⟩ := values
    cases same
    rw [depthOfItems, Json.depthOfItems, depth_of_value? once.1 value,
      depthOfItems_of_values? once.2 values]

/-- Members with new names add their depth to that of the others. -/
theorem depthOfMembers_of_values? : ∀ {members : List (Member Layout)}
    {seen ms : List (String × Json)}, membersNameOnce members = true →
    (members.map (·.name.value?)).Nodup → (∀ s ∈ seen, some s.1 ∉ members.map (·.name.value?)) →
    memberValues? seen members = some ms →
    Json.depthOfMembers ms = max (depthOfMembers members) (Json.depthOfMembers seen)
  | [], seen, ms, _, _, _, values => by
    cases values
    simp [depthOfMembers]
  | ⟨_, name, _, ⟨_, w, _⟩⟩ :: members, seen, ms, once, distinct, new, values => by
    simp only [membersNameOnce, Bool.and_eq_true] at once
    simp only [memberValues?, Option.bind_eq_bind, Option.bind_eq_some_iff] at values
    obtain ⟨name', spelled, v, value, values⟩ := values
    simp only [List.map_cons, spelled, List.nodup_cons] at distinct
    simp only [List.map_cons, spelled, List.mem_cons, not_or, Option.some.injEq] at new
    have first : (Json.insertMember name' v seen).Perm ((name', v) :: seen) := by
      refine Json.insertMember_perm fun there => ?_
      obtain ⟨s, hs, same⟩ := List.mem_map.1 there
      exact (new s hs).1 same
    have others := depthOfMembers_of_values? once.2 distinct.2 (fun s hs => ?_) values
    · rw [others, Json.depthOfMembers_perm first, Json.depthOfMembers, depthOfMembers,
        depth_of_value? once.1 value, Nat.max_left_comm, Nat.max_assoc]
    · rcases List.mem_cons.1 (first.mem_iff.1 hs) with rfl | hs
      · exact distinct.1
      · exact (new s hs).2

end

end GossipNode.Layout
