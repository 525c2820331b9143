import GossipNode.Proofs.RandomIndex
import Mathlib.Data.Set.Finite.List
import Mathlib.SetTheory.Cardinal.Finite
import Mathlib.Tactic.Ring

/-!
# Random removals favour nobody

A removal takes the entry at a random index and puts the last entry in its place, so that the next
removal finds all the others.  Every index is made from equally many words: each entry is removed by
equally many of them.

So much for one removal.  Removals one after the other draw from one source, pass over some of its
words, and find a pool whose order depends on what has been removed.  Nevertheless the same is true
of them: of all sources with a given number of words, equally many take entries in one order and in
another.  They are counted here by their first word, which is passed over, or takes an entry and
leaves the rest of the source to the other removals.

## Main definitions

* `AddressPool.RemovedAt` — what a removal at an index does.
* `AddressPool.removals`, `AddressPool.Takes` — removals one after the other, and what they take.
* `AddressPool.choices` — in how many ways addresses can be taken out one after the other.
* `AddressPool.chances` — how many sources there are to each of these ways.

## Main results

* `AddressPool.takeRandom_eq` — which entry is removed, and what is left of the words.
* `AddressPool.takes_rejected`, `AddressPool.takes_accepted` — what the first word of a source does.
* `AddressPool.card_takes` — how many sources take some addresses, in a given order.
* `AddressPool.removal_uniform` — **every entry is removed as easily as every other one, and so is
  every entry that remains.**
-/

namespace GossipNode

namespace AddressPool

open RandomIndex

variable {pool : AddressPool} {entries addresses : List String} {address : String} {i : Nat}
  {w : UInt64} {words : List UInt64} {drawn : Nat} {source : RandomWords}

/-! ### One removal -/

/-- What a removal at an index does: the entry there is taken, the last one takes its place, and the
pool is shorter by one. -/
structure RemovedAt (pool : AddressPool) (i : Nat) (address : String) (left : AddressPool) :
    Prop where
  taken : pool.entries[i]? = some address
  shorter : left.size + 1 = pool.size
  filled : ∀ j < left.size, left.entries[j]? = pool.entries[if j = i then left.size else j]?
  /-- All others remain, copies included. -/
  conserved : (address :: left.entries).Perm pool.entries

theorem removedAt_swapRemove (taken : pool.entries[i]? = some address) :
    RemovedAt pool i address ⟨swapRemove pool.entries i⟩ := by
  obtain ⟨inside, -⟩ := List.getElem?_eq_some_iff.mp taken
  have some_left : pool.entries ≠ [] := List.ne_nil_of_length_pos (Nat.zero_lt_of_lt inside)
  have last := List.getLast?_eq_some_getLast some_left
  have length : (swapRemove pool.entries i).length = pool.size - 1 := by
    rw [swapRemove, last, List.length_dropLast, List.length_set, size]
  refine ⟨taken, ?_, fun j there => ?_, ?_⟩
  · rw [size, length]
    exact Nat.sub_add_cancel (Nat.zero_lt_of_lt inside)
  · -- The last entry has been written over the removed one before the end is cut off.
    rw [size, length] at there ⊢
    rw [size] at there ⊢
    simp only [swapRemove, last, List.getElem?_dropLast, List.length_set, there, if_true,
      List.getElem?_set]
    rcases eq_or_ne i j with rfl | other
    · simp [inside, List.getLast_eq_getElem]
    · simp [other, other.symm]
  · have kept := swapRemove_perm inside address
    rwa [List.getD_eq_getElem?_getD, taken, Option.getD_some] at kept

/-- A random removal takes the entry at a random index. -/
theorem takeRandom_of_pos (some_left : 0 < pool.size) (source : RandomWords) :
    pool.takeRandom source = (pool.entries[(source.index pool.size).1]?,
      ⟨swapRemove pool.entries (source.index pool.size).1⟩, (source.index pool.size).2) := by
  have inside := source.index_lt some_left
  obtain ⟨entries⟩ := pool
  cases entries with
  | nil => cases some_left
  | cons first rest =>
    replace inside : (source.index (first :: rest).length).1 < (first :: rest).length := inside
    have taken : (first :: rest)[(source.index (first :: rest).length).1]? =
        some ((first :: rest).getD (source.index (first :: rest).length).1 first) := by
      rw [List.getD_eq_getElem?_getD, List.getElem?_eq_getElem inside, Option.getD_some]
    exact Prod.ext taken.symm rfl

/-- A word that is not accepted is passed over. -/
theorem takeRandom_rejected (some_left : 0 < pool.size) (rejected : accepts pool.size w = false) :
    pool.takeRandom ⟨w :: words, drawn⟩ = pool.takeRandom ⟨words, drawn + 1⟩ := by
  have passed : RandomWords.index ⟨w :: words, drawn⟩ pool.size =
      RandomWords.index ⟨words, drawn + 1⟩ pool.size := by
    rw [RandomWords.index, draw, rejected]
    rfl
  rw [takeRandom_of_pos some_left, takeRandom_of_pos some_left, passed]

/-- A word that is accepted removes the entry at the index that it makes. -/
theorem takeRandom_accepted (some_left : 0 < pool.size) (accepted : accepts pool.size w = true) :
    pool.takeRandom ⟨w :: words, drawn⟩ = (pool.entries[ofWord pool.size w]?,
      ⟨swapRemove pool.entries (ofWord pool.size w)⟩, ⟨words, drawn + 1⟩) := by
  rw [takeRandom_of_pos some_left, RandomWords.index, draw, accepted, if_pos rfl]

/-- Which entry is removed, and what is left of the words, is up to the first word that is
accepted. -/
theorem takeRandom_eq (some_left : 0 < pool.size) (source : RandomWords) :
    let skipped := source.words.findIdx (accepts pool.size)
    let i := ofWord pool.size (source.words.getD skipped 0)
    ∃ address left, RemovedAt pool i address left ∧
      pool.takeRandom source = (some address, left,
        ⟨source.words.drop (skipped + 1), source.drawn + (skipped + 1)⟩) := by
  intro skipped i
  have inside : i < pool.size := ofWord_lt some_left _
  have taken : pool.entries[i]? = some pool.entries[i] := List.getElem?_eq_getElem inside
  refine ⟨pool.entries[i], _, removedAt_swapRemove taken, ?_⟩
  rw [takeRandom_of_pos some_left, RandomWords.index, draw_eq, ← taken]

/-! ### Removals one after the other -/

/-- Removals one after the other, from one source: what they take, in order, and the pool and the
source after them. -/
def removals : (rounds : Nat) → AddressPool → RandomWords → List String × AddressPool × RandomWords
  | 0, pool, source => ([], pool, source)
  | rounds + 1, pool, source =>
    let (address, pool, source) := pool.takeRandom source
    let (addresses, pool, source) := removals rounds pool source
    (address.toList ++ addresses, pool, source)

/-- Whether removals take these addresses in this order, and draw no more words than there are. -/
def Takes (pool : AddressPool) (addresses : List String) (source : RandomWords) : Prop :=
  (pool.removals addresses.length source).1 = addresses ∧
    (pool.removals addresses.length source).2.2.drawn ≤ source.drawn + source.words.length

theorem takes_nil (pool : AddressPool) (source : RandomWords) : pool.Takes [] source :=
  ⟨rfl, Nat.le_add_right _ _⟩

/-- Nothing is taken from a pool without entries. -/
theorem removals_of_size_eq_zero (nothing : pool.size = 0) (rounds : Nat) (source : RandomWords) :
    (pool.removals rounds source).1 = [] := by
  obtain ⟨entries⟩ := pool
  obtain rfl : entries = [] := List.length_eq_zero_iff.mp nothing
  induction rounds with
  | zero => rfl
  | succ rounds ih => exact ih

theorem not_takes_of_size_eq_zero (nothing : pool.size = 0) :
    ¬pool.Takes (address :: addresses) source := by
  intro takes
  have := (removals_of_size_eq_zero nothing _ source).symm.trans takes.1
  cases this

/-- What has been drawn stays drawn. -/
theorem drawn_le_takeRandom (pool : AddressPool) (source : RandomWords) :
    source.drawn ≤ (pool.takeRandom source).2.2.drawn := by
  rcases Nat.eq_zero_or_pos pool.size with nothing | some_left
  · obtain ⟨entries⟩ := pool
    obtain rfl : entries = [] := List.length_eq_zero_iff.mp nothing
    exact Nat.le_refl _
  · obtain ⟨_, _, -, drawn⟩ := takeRandom_eq some_left source
    rw [drawn]
    exact Nat.le_add_right _ _

theorem drawn_le_removals (rounds : Nat) (pool : AddressPool) (source : RandomWords) :
    source.drawn ≤ (pool.removals rounds source).2.2.drawn := by
  induction rounds generalizing pool source with
  | zero => exact Nat.le_refl _
  | succ rounds ih =>
    exact Nat.le_trans (drawn_le_takeRandom pool source) (ih _ _)

/-- Nothing is taken without a word. -/
theorem not_takes_of_no_words : ¬pool.Takes (address :: addresses) ⟨[], drawn⟩ := by
  intro takes
  rcases Nat.eq_zero_or_pos pool.size with nothing | some_left
  · exact not_takes_of_size_eq_zero nothing takes
  · obtain ⟨_, _, -, first⟩ := takeRandom_eq some_left ⟨[], drawn⟩
    have rest := drawn_le_removals addresses.length (pool.takeRandom ⟨[], drawn⟩).2.1
      (pool.takeRandom ⟨[], drawn⟩).2.2
    have one : (pool.takeRandom ⟨[], drawn⟩).2.2.drawn = drawn + 1 := by
      rw [first]
      rfl
    have : drawn + 1 ≤ drawn := one ▸ Nat.le_trans rest takes.2
    omega

/-- A word that is not accepted takes nothing. -/
theorem takes_rejected (some_left : 0 < pool.size) (rejected : accepts pool.size w = false) :
    pool.Takes (address :: addresses) ⟨w :: words, drawn⟩ ↔
      pool.Takes (address :: addresses) ⟨words, drawn + 1⟩ := by
  have passed : pool.takeRandom ⟨w :: words, drawn⟩ = pool.takeRandom ⟨words, drawn + 1⟩ :=
    takeRandom_rejected some_left rejected
  simp only [Takes, List.length_cons, removals, passed]
  rw [Nat.add_right_comm drawn 1, Nat.add_assoc drawn]

/-- A word that is accepted takes the entry at the index that it makes. -/
theorem takes_accepted (some_left : 0 < pool.size) (accepted : accepts pool.size w = true) :
    pool.Takes (address :: addresses) ⟨w :: words, drawn⟩ ↔
      pool.entries[ofWord pool.size w]? = some address ∧
        (AddressPool.mk (swapRemove pool.entries (ofWord pool.size w))).Takes addresses
          ⟨words, drawn + 1⟩ := by
  have inside : ofWord pool.size w < pool.size := ofWord_lt some_left _
  have there : pool.entries[ofWord pool.size w]? = some pool.entries[ofWord pool.size w] :=
    List.getElem?_eq_getElem inside
  have taken : pool.takeRandom ⟨w :: words, drawn⟩ = (some pool.entries[ofWord pool.size w],
      ⟨swapRemove pool.entries (ofWord pool.size w)⟩, ⟨words, drawn + 1⟩) :=
    there ▸ takeRandom_accepted some_left accepted
  simp only [Takes, List.length_cons, removals, taken, there, Option.toList_some,
    List.singleton_append, List.cons.injEq, Option.some_inj, and_assoc]
  rw [Nat.add_right_comm drawn 1, Nat.add_assoc drawn]

/-! ### How many sources take the same -/

/-- In how many ways addresses can be taken out one after the other, if copies are told apart. -/
def choices : (entries addresses : List String) → Nat
  | _, [] => 1
  | entries, address :: addresses =>
    entries.count address * choices (entries.erase address) addresses

theorem choices_perm {entries entries' : List String} (same : entries.Perm entries')
    (addresses : List String) : choices entries addresses = choices entries' addresses := by
  induction addresses generalizing entries entries' with
  | nil => rfl
  | cons address addresses ih =>
    rw [choices, choices, same.count_eq, ih (same.erase address)]

/-- If there are no copies, there is one way to take entries out in a given order. -/
theorem choices_of_nodup (distinct : entries.Nodup) (once : addresses.Nodup)
    (among : addresses ⊆ entries) : choices entries addresses = 1 := by
  induction addresses generalizing entries with
  | nil => rfl
  | cons address addresses ih =>
    obtain ⟨here, there⟩ := List.cons_subset.mp among
    obtain ⟨new, once⟩ := List.nodup_cons.mp once
    have others : addresses ⊆ entries.erase address := fun other later =>
      (List.mem_erase_of_ne fun (same : other = address) => new (same ▸ later)).mpr (there later)
    rw [choices, List.count_eq_one_of_mem distinct here, Nat.one_mul]
    exact ih (distinct.erase address) once others

/-- How many sources of some length there are to each way of taking some entries out of a pool of
some size: the first word is passed over, or it takes the first of these entries. -/
def chances : (length size rounds : Nat) → Nat
  | length, _, 0 => (2 ^ 64) ^ length
  | 0, _, _ + 1 => 0
  | length + 1, size, rounds + 1 =>
    (2 ^ 64 - size * share size) * chances length size (rounds + 1) +
      share size * chances length (size - 1) rounds

/-- Lists of words are counted by the word that they begin with. -/
theorem card_cons (length : Nat) (P : List UInt64 → Prop) :
    Nat.card {words : List UInt64 // words.length = length + 1 ∧ P words} =
      ∑ w : UInt64, Nat.card {words : List UInt64 // words.length = length ∧ P (w :: words)} := by
  have finite (w : UInt64) :
      Finite {words : List UInt64 // words.length = length ∧ P (w :: words)} :=
    ((List.finite_length_eq UInt64 length).subset fun _ there => there.1).to_subtype
  rw [← Nat.card_sigma]
  symm
  refine Nat.card_eq_of_bijective (fun x => ⟨x.1 :: x.2.1, by simp [x.2.2.1], x.2.2.2⟩) ⟨?_, ?_⟩
  · rintro ⟨w, words, there⟩ ⟨w', words', there'⟩ same
    cases same
    rfl
  · rintro ⟨_ | ⟨w, words⟩, there⟩
    · cases there.1
    · exact ⟨⟨w, words, by simpa using there.1, there.2⟩, rfl⟩

/-- A sum over the places at which an address is. -/
theorem sum_places (entries : List String) (address : String) (each : Nat) :
    (∑ i ∈ Finset.range entries.length, if entries[i]? = some address then each else 0) =
      entries.count address * each := by
  induction entries with
  | nil => simp
  | cons first entries ih =>
    rw [List.length_cons, Finset.sum_range_succ']
    simp only [List.getElem?_cons_succ, ih, List.getElem?_cons_zero, Option.some_inj,
      List.count_cons, Nat.add_mul, beq_iff_eq]
    split <;> simp

/-- No removals take no addresses, whatever the source is. -/
theorem card_takes_nil (pool : AddressPool) (length drawn : Nat) :
    Nat.card {words : List UInt64 // words.length = length ∧ pool.Takes [] ⟨words, drawn⟩} =
      (2 ^ 64) ^ length := by
  have every : ∀ words : List UInt64,
      words.length = length ∧ pool.Takes [] ⟨words, drawn⟩ ↔ words.length = length :=
    fun words => and_iff_left (takes_nil pool _)
  rw [Nat.card_congr (Equiv.subtypeEquivRight every), ← card_word, ← card_vector length,
    ← Nat.card_eq_fintype_card]
  rfl

/-- Nothing is taken by the source without words. -/
theorem card_takes_no_words (pool : AddressPool) (address : String) (addresses : List String)
    (drawn : Nat) : Nat.card {words : List UInt64 // words.length = 0 ∧
      pool.Takes (address :: addresses) ⟨words, drawn⟩} = 0 := by
  have none : IsEmpty {words : List UInt64 // words.length = 0 ∧
      pool.Takes (address :: addresses) ⟨words, drawn⟩} := by
    refine ⟨fun ⟨words, empty, takes⟩ => ?_⟩
    obtain rfl := List.length_eq_zero_iff.mp empty
    exact not_takes_of_no_words takes
  exact Nat.card_of_isEmpty

/-- How many sources there are that begin with an accepted word: none if it takes another address,
and otherwise as many as take the other addresses from what is left. -/
theorem card_takes_accepted {length each : Nat} (some_left : 0 < pool.size)
    (accepted : accepts pool.size w = true)
    (rest : ∀ left : AddressPool, left.size = pool.size - 1 →
      left.entries.Perm (pool.entries.erase address) →
      Nat.card {words : List UInt64 // words.length = length ∧
        left.Takes addresses ⟨words, drawn + 1⟩} = each) :
    Nat.card {words : List UInt64 // words.length = length ∧
        pool.Takes (address :: addresses) ⟨w :: words, drawn⟩} =
      if pool.entries[ofWord pool.size w]? = some address then each else 0 := by
  simp only [takes_accepted some_left accepted]
  split
  · next taken =>
    have removed := removedAt_swapRemove taken
    simp only [taken, true_and]
    have others := removed.conserved.erase address
    rw [List.erase_cons_head] at others
    exact rest _ (Nat.eq_sub_of_add_eq removed.shorter) others
  · next other =>
    simp [other]

/-- **How many sources take some addresses depends on the number of ways to choose these addresses,
and otherwise on sizes only**, by induction on the number of words. -/
theorem card_takes (pool : AddressPool) (small : pool.size < 2 ^ 64) (addresses : List String)
    (length drawn : Nat) :
    Nat.card {words : List UInt64 // words.length = length ∧ pool.Takes addresses ⟨words, drawn⟩} =
      chances length pool.size addresses.length * choices pool.entries addresses := by
  -- Not on the number of removals: a word that is passed over leaves all of them to be made.
  induction length generalizing pool addresses drawn with
  | zero =>
    cases addresses with
    | nil => rw [card_takes_nil, List.length_nil, chances, choices, Nat.mul_one]
    | cons address addresses =>
      rw [card_takes_no_words, List.length_cons, chances, Nat.zero_mul]
  | succ length ih =>
    cases addresses with
    | nil => rw [card_takes_nil, List.length_nil, chances, choices, Nat.mul_one]
    | cons address addresses =>
      rcases Nat.eq_zero_or_pos pool.size with nothing | some_left
      · have none_left : pool.entries = [] := List.length_eq_zero_iff.mp nothing
        simp only [not_takes_of_size_eq_zero nothing, none_left, choices, List.count_nil]
        simp
      -- What is left after one of the entries is taken differs in its order at most.
      have word (w : UInt64) : Nat.card {words : List UInt64 // words.length = length ∧
            pool.Takes (address :: addresses) ⟨w :: words, drawn⟩} =
          if accepts pool.size w = true then
            if pool.entries[ofWord pool.size w]? = some address then
              chances length (pool.size - 1) addresses.length *
                choices (pool.entries.erase address) addresses
            else 0
          else chances length pool.size (address :: addresses).length *
            choices pool.entries (address :: addresses) := by
        cases accepted : accepts pool.size w with
        | true =>
          refine card_takes_accepted some_left accepted fun left fewer same => ?_
          rw [ih left (by omega), fewer, choices_perm same]
        | false =>
          simp only [takes_rejected some_left accepted]
          exact ih pool small (address :: addresses) (drawn + 1)
      rw [card_cons, Finset.sum_congr rfl fun w _ => word w,
        sum_words some_left small fun i => if pool.entries[i]? = some address then _ else 0]
      have places := sum_places pool.entries address (chances length (pool.size - 1)
        addresses.length * choices (pool.entries.erase address) addresses)
      rw [← size] at places
      rw [places, List.length_cons, chances, choices]
      ring

/-- **Every entry is removed as easily as every other one, and so is every entry that remains.**

The pool has some entries, and fewer than `2 ^ 64`.  Every word that is accepted makes the index of
an entry, and each of these indices is made from equally many accepted words, of which there are at
least half of all words.  Whatever the source is, a removal passes over the words that are not
accepted, takes the entry at the index that the first accepted one makes, and puts the last entry in
its place; all others remain.

So it goes on.  Among all sources with a given number of words, those by which removals take some
addresses, in this order and without words beyond, are as many as the choice of these addresses has
ways, times a number that depends on how many words, entries and removals there are and on nothing
else.  If the pool has no copies, that is this number for all entries in every order. -/
theorem removal_uniform (pool : AddressPool) (some_left : 0 < pool.size)
    (small : pool.size < 2 ^ 64) :
    let n := pool.size
    (∀ w, accepts n w = true → ofWord n w < n) ∧
    (∀ i < n, (Finset.univ.filter fun w : UInt64 => accepts n w = true ∧ ofWord n w = i).card =
      2 ^ leadingZeros n) ∧
    (Finset.univ.filter fun w : UInt64 => accepts n w = true).card = n * 2 ^ leadingZeros n ∧
    2 ^ 64 ≤ 2 * (n * 2 ^ leadingZeros n) ∧
    (∀ source : RandomWords,
      let skipped := source.words.findIdx (accepts n)
      let w := source.words.getD skipped 0
      accepts n w = true ∧ ∃ address left, RemovedAt pool (ofWord n w) address left ∧
        pool.takeRandom source = (some address, left,
          ⟨source.words.drop (skipped + 1), source.drawn + (skipped + 1)⟩)) ∧
    (∀ addresses length drawn, Nat.card {words : List UInt64 // words.length = length ∧
        pool.Takes addresses ⟨words, drawn⟩} =
      chances length n addresses.length * choices pool.entries addresses) ∧
    (pool.entries.Nodup → ∀ addresses : List String, addresses.Nodup →
      addresses ⊆ pool.entries → choices pool.entries addresses = 1) := by
  intro n
  have least := (mul_share some_left small).1
  refine ⟨fun w _ => ofWord_lt some_left w, fun i inside => card_ofWord some_left small inside,
    card_accepted some_left small, ?_, fun source => ⟨accepts_getD_findIdx n source.words,
      takeRandom_eq some_left source⟩, card_takes pool small,
    fun distinct addresses => choices_of_nodup distinct⟩
  calc 2 ^ 64 = 2 * 2 ^ 63 := rfl
    _ ≤ 2 * (n * 2 ^ leadingZeros n) := Nat.mul_le_mul_left 2 least

/-- Of three entries the second one is removed: the first word lands behind the places that are
accepted, and the second one lands on one of them.  The third entry is as likely, and so are the
second and then the first. -/
theorem removal_uniform_three :
    let pool : AddressPool := ⟨["a", "b", "c"]⟩
    0 < pool.size ∧ pool.size < 2 ^ 64 ∧ accepts pool.size 0x4000000000000000 = false ∧
      pool.takeRandom ⟨[0x4000000000000000, 0x8000000000000000, 5], 0⟩ =
        (some "b", ⟨["a", "c"]⟩, ⟨[5], 2⟩) ∧
      (Finset.univ.filter fun w : UInt64 =>
        accepts pool.size w = true ∧ ofWord pool.size w = 2).card = 2 ^ 62 ∧
      Nat.card {words : List UInt64 // words.length = 2 ∧ pool.Takes ["b", "a"] ⟨words, 0⟩} =
        2 ^ 124 := by
  intro pool
  have some_left : 0 < pool.size := by decide
  have small : pool.size < 2 ^ 64 := by decide
  obtain ⟨-, each, -, -, -, runs, -⟩ := removal_uniform pool some_left small
  refine ⟨some_left, small, by decide +kernel, by decide +kernel, ?_, ?_⟩
  · exact (each 2 (by decide)).trans (by decide +kernel)
  · exact (runs ["b", "a"] 2 0).trans (by decide +kernel)

end AddressPool

end GossipNode
