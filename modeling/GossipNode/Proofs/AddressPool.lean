import GossipNode.AddressPool
import Mathlib.Data.Finset.Card
import Mathlib.Data.Finset.SDiff

/-!
# What a round of dialing does to the pool

A round of dialing removes random entries until it has as many as are wanted, or until none is left.
The loop is stated here with no bound on its removals, as the relation `Picking`, and what it does
is proved along that relation.  The random words decide which addresses are picked.  How many are
picked does not depend on them, and whatever leaves the pool is returned or dropped for a reason,
copy by copy.

## Main definitions

* `AddressPool.Picking` — the loop, removal by removal, with what it ends in.
* `AddressPool.Round` — what a loop that has begun with some picks does to the pool.
* `AddressPool.fresh` — the addresses of a pool that are not connected, each of them once.
* `AddressPool.Selection` — what a whole round of dialing does.
* `AddressPool.Call`, `AddressPool.Balanced` — the calls to a pool, and the account of a list of
  them.

## Main results

* `RandomWords.index_lt` — a random index is in range.
* `AddressPool.takeRandom_perm` — a removal takes one copy of the entry that it returns.
* `AddressPool.picking_iff` — **the loop ends, and in what `selectForDial` says.**
* `AddressPool.Picking.round` — what the loop does, by induction on its removals.
* `AddressPool.selectForDial_perm` — what was in the pool is picked, is still there, or has been
  dropped.
* `AddressPool.selection_exact` — **a round of dialing picks exactly as many addresses as it can,
  and no copy of an address is ever lost.**
-/

namespace GossipNode

/-! ### Random indices -/

theorem RandomIndex.ofWord_lt {n : Nat} (positive : 0 < n) (w : UInt64) : ofWord n w < n := by
  have small : w.toNat < Nat.pow 2 64 := w.toNat_lt
  rw [ofWord, Nat.div_lt_iff_lt_mul (by decide), Nat.mul_comm]
  exact Nat.mul_lt_mul_of_pos_left small positive

theorem RandomIndex.draw_lt {n : Nat} (positive : 0 < n) (words : List UInt64) :
    ∀ drawn, (draw n words drawn).1 < n := by
  induction words with
  | nil => intro _; exact positive
  | cons w words ih =>
    intro drawn
    rw [draw]
    split
    · exact ofWord_lt positive w
    · exact ih (drawn + 1)

/-- A random index is in range. -/
theorem RandomWords.index_lt (source : RandomWords) {n : Nat} (positive : 0 < n) :
    (source.index n).1 < n := RandomIndex.draw_lt positive source.words source.drawn

namespace AddressPool

/-! ### Removals -/

/-- One copy of an entry is removed, and all others are kept. -/
theorem swapRemove_perm {entries : List String} {i : Nat} (inside : i < entries.length)
    (first : String) : (entries.getD i first :: swapRemove entries i).Perm entries := by
  obtain ⟨init, last, rfl⟩ : ∃ init last, entries = init ++ [last] := by
    have some_left : entries ≠ [] := List.ne_nil_of_length_pos (Nat.zero_lt_of_lt inside)
    exact ⟨entries.dropLast, entries.getLast some_left,
      (List.dropLast_concat_getLast some_left).symm⟩
  unfold swapRemove
  rw [List.getLast?_concat]
  simp only
  rw [List.length_append, List.length_singleton] at inside
  by_cases early : i < init.length
  · -- The last entry moves to where the removed one was.
    obtain ⟨before, removed, after, rfl, rfl⟩ :
        ∃ before removed after, init = before ++ removed :: after ∧ before.length = i :=
      ⟨init.take i, init[i], init.drop (i + 1), by simp, by simp; omega⟩
    have moved : ((before ++ removed :: after ++ [last]).set before.length last).dropLast =
        before ++ last :: after := by
      rw [List.append_assoc, List.set_append_right _ _ (Nat.le_refl _), Nat.sub_self,
        List.cons_append, List.set_cons_zero, ← List.cons_append, ← List.append_assoc,
        List.dropLast_concat]
    have taken : (before ++ removed :: after ++ [last]).getD before.length first = removed := by
      simp
    rw [moved, taken]
    calc (removed :: (before ++ last :: after)).Perm (before ++ removed :: last :: after) :=
          List.perm_middle.symm
      (before ++ removed :: last :: after).Perm (before ++ removed :: (after ++ [last])) :=
          ((List.perm_append_singleton last after).symm.cons removed).append_left before
      (before ++ removed :: (after ++ [last])).Perm (before ++ removed :: after ++ [last]) := by
          simp
  · have same : i = init.length := by omega
    subst same
    simpa using (List.perm_append_singleton last init).symm

/-- A removal takes one copy of the entry that it returns, and fails only if there is none. -/
theorem takeRandom_perm (pool : AddressPool) (source : RandomWords) :
    ((pool.takeRandom source).1.toList ++ (pool.takeRandom source).2.1.entries).Perm
      pool.entries := by
  obtain ⟨entries⟩ := pool
  unfold takeRandom
  cases entries with
  | nil => exact .refl _
  | cons first rest =>
    have inside : (source.index (first :: rest).length).1 < (first :: rest).length :=
      source.index_lt (Nat.zero_lt_succ rest.length)
    exact swapRemove_perm inside first

/-- A removal that returns an entry takes one copy of it. -/
theorem takeRandom_some {pool pool' : AddressPool} {source source' : RandomWords} {address : String}
    (taken : pool.takeRandom source = (some address, pool', source')) :
    (address :: pool'.entries).Perm pool.entries := by
  have kept := pool.takeRandom_perm source
  rw [taken] at kept
  exact kept

/-- A removal returns nothing only from a pool without entries, and leaves everything as it was. -/
theorem takeRandom_none {pool pool' : AddressPool} {source source' : RandomWords}
    (taken : pool.takeRandom source = (none, pool', source')) :
    pool.entries = [] ∧ pool' = pool ∧ source' = source := by
  obtain ⟨entries⟩ := pool
  cases entries with
  | nil =>
    cases taken
    exact ⟨rfl, rfl, rfl⟩
  | cons first rest => simp [takeRandom] at taken

/-! ### The loop of a round -/

/-- The loop of a round, from a pool, a source and the addresses picked so far (the last of them
first) to the picks in order, the pool and the source it ends in.  It has no bound on its
removals. -/
inductive Picking (connected : List String) (wanted : Nat) :
    AddressPool → RandomWords → List String → List String × AddressPool × RandomWords → Prop
  /-- As many are picked as are wanted. -/
  | enough {pool source picked} (full : wanted ≤ picked.length) :
      Picking connected wanted pool source picked (picked.reverse, pool, source)
  /-- More are wanted, and none is left. -/
  | drained {pool pool' : AddressPool} {source source' picked} (short : picked.length < wanted)
      (taken : pool.takeRandom source = (none, pool', source')) :
      Picking connected wanted pool source picked (picked.reverse, pool', source')
  /-- What is removed is connected or picked already: it is dropped. -/
  | drop {pool pool' : AddressPool} {source source' picked address out}
      (short : picked.length < wanted)
      (taken : pool.takeRandom source = (some address, pool', source'))
      (known : address ∈ connected ∨ address ∈ picked)
      (rest : Picking connected wanted pool' source' picked out) :
      Picking connected wanted pool source picked out
  /-- What is removed is neither: it is picked. -/
  | pick {pool pool' : AddressPool} {source source' picked address out}
      (short : picked.length < wanted)
      (taken : pool.takeRandom source = (some address, pool', source'))
      (fresh : address ∉ connected ∧ address ∉ picked)
      (rest : Picking connected wanted pool' source' (address :: picked) out) :
      Picking connected wanted pool source picked out

variable {connected : List String} {wanted : Nat} {pool : AddressPool} {source : RandomWords}
  {picked : List String}

/-- As many removals as the pool has entries let the loop run to its end: each takes one out. -/
theorem picking_pickLoop (rounds : Nat) :
    ∀ (pool : AddressPool) (source : RandomWords) (picked : List String), pool.size ≤ rounds →
      Picking connected wanted pool source picked
        (pickLoop connected wanted rounds pool source picked) := by
  induction rounds with
  | zero =>
    intro pool source picked few
    have none_left : pool.entries = [] := List.length_eq_zero_iff.mp (Nat.le_zero.mp few)
    rcases Nat.lt_or_ge picked.length wanted with short | full
    · refine .drained short ?_
      rw [takeRandom, none_left]
    · exact .enough full
  | succ rounds ih =>
    intro pool source picked few
    rw [pickLoop]
    split
    · next full => exact .enough full
    · next short =>
      replace short : picked.length < wanted := Nat.lt_of_not_le short
      split
      · next taken => exact .drained short taken
      · next address pool' source' taken =>
        have fewer : pool'.size ≤ rounds := by
          have := (takeRandom_some taken).length_eq
          rw [List.length_cons] at this
          unfold size at few ⊢
          omega
        split
        · next known =>
          rw [Bool.or_eq_true, List.contains_iff_mem, List.contains_iff_mem] at known
          exact .drop short taken known (ih pool' source' picked fewer)
        · next fresh =>
          rw [Bool.or_eq_true, List.contains_iff_mem, List.contains_iff_mem, not_or] at fresh
          exact .pick short taken fresh (ih pool' source' (address :: picked) fewer)

/-- The loop ends in one way only. -/
theorem Picking.unique {out out' : List String × AddressPool × RandomWords}
    (picking : Picking connected wanted pool source picked out)
    (picking' : Picking connected wanted pool source picked out') : out = out' := by
  induction picking with
  | enough full =>
    cases picking' with
    | enough => rfl
    | drained short | drop short | pick short => exact absurd full (Nat.not_le.mpr short)
  | drained short taken =>
    cases picking' with
    | enough full => exact absurd full (Nat.not_le.mpr short)
    | drained _ taken' => rw [taken] at taken'; cases taken'; rfl
    | drop _ taken' | pick _ taken' => rw [taken] at taken'; cases taken'
  | drop short taken known _ ih =>
    cases picking' with
    | enough full => exact absurd full (Nat.not_le.mpr short)
    | drained _ taken' => rw [taken] at taken'; cases taken'
    | drop _ taken' _ rest' => rw [taken] at taken'; cases taken'; exact ih rest'
    | pick _ taken' fresh' =>
      rw [taken] at taken'
      cases taken'
      exact absurd known (not_or.mpr fresh')
  | pick short taken fresh _ ih =>
    cases picking' with
    | enough full => exact absurd full (Nat.not_le.mpr short)
    | drained _ taken' => rw [taken] at taken'; cases taken'
    | drop _ taken' known' =>
      rw [taken] at taken'
      cases taken'
      exact absurd known' (not_or.mpr fresh)
    | pick _ taken' _ rest' => rw [taken] at taken'; cases taken'; exact ih rest'

/-- **The loop ends, and in what `selectForDial` says**: the bound on its removals never cuts it
short. -/
theorem picking_iff (pool : AddressPool) (live target : Nat) (connected : List String)
    (source : RandomWords) (out : List String × AddressPool × RandomWords) :
    Picking connected (target - live) pool source [] out ↔
      out = pool.selectForDial live target connected source := by
  have ends : Picking connected (target - live) pool source []
      (pool.selectForDial live target connected source) :=
    picking_pickLoop pool.size pool source [] (Nat.le_refl _)
  constructor
  · intro picking
    exact picking.unique ends
  · rintro rfl
    exact ends

/-! ### What the loop does -/

/-- What a loop that has begun with some picks does to the pool: the picks it ends with, what is
left and what it has dropped. -/
structure Round (connected : List String) (wanted : Nat) (picked : List String) (pool : AddressPool)
    (picks : List String) (left : AddressPool) (dropped : List String) : Prop where
  /-- No address is picked twice. -/
  distinct : picks.Nodup
  /-- No connected address is picked. -/
  unconnected : ∀ address ∈ picks, address ∉ connected
  /-- No more are picked than are wanted. -/
  bounded : picks.length ≤ wanted
  /-- If fewer are picked, none is left. -/
  drained : picks.length < wanted → left = empty
  /-- Every copy of an address is picked, left or dropped. -/
  conserved : (picks ++ left.entries ++ dropped).Perm (picked ++ pool.entries)
  /-- What is dropped is connected or picked. -/
  justified : ∀ address ∈ dropped, address ∈ connected ∨ address ∈ picks

/-- **What the loop does**, from picks that are in order so far. -/
theorem Picking.round {out : List String × AddressPool × RandomWords}
    (picking : Picking connected wanted pool source picked out) (distinct : picked.Nodup)
    (unconnected : ∀ address ∈ picked, address ∉ connected) (bounded : picked.length ≤ wanted) :
    picked ⊆ out.1 ∧ ∃ dropped, Round connected wanted picked pool out.1 out.2.1 dropped := by
  induction picking with
  | @enough pool source picked full =>
    refine ⟨fun _ member => List.mem_reverse.mpr member, [], ?_⟩
    exact {
      distinct := List.nodup_reverse.mpr distinct
      unconnected := fun address member => unconnected address (List.mem_reverse.mp member)
      bounded := by rw [List.length_reverse]; exact bounded
      drained := fun short => by rw [List.length_reverse] at short; omega
      conserved := by rw [List.append_nil]; exact picked.reverse_perm.append_right pool.entries
      justified := fun _ member => by cases member }
  | @drained pool pool' source source' picked short taken =>
    obtain ⟨none_left, rfl, rfl⟩ := takeRandom_none taken
    refine ⟨fun _ member => List.mem_reverse.mpr member, [], ?_⟩
    exact {
      distinct := List.nodup_reverse.mpr distinct
      unconnected := fun address member => unconnected address (List.mem_reverse.mp member)
      bounded := by rw [List.length_reverse]; exact bounded
      drained := fun _ => by rw [empty, ← none_left]
      conserved := by rw [List.append_nil]; exact picked.reverse_perm.append_right _
      justified := fun _ member => by cases member }
  | @drop pool pool' source source' picked address out short taken known rest ih =>
    obtain ⟨kept, dropped, round⟩ := ih distinct unconnected bounded
    refine ⟨kept, dropped ++ [address], { round with conserved := ?_, justified := ?_ }⟩
    · rw [← List.append_assoc]
      refine (round.conserved.append_right [address]).trans ?_
      rw [List.append_assoc]
      have back : (pool'.entries ++ [address]).Perm pool.entries :=
        (List.perm_append_singleton address _).trans (takeRandom_some taken)
      exact back.append_left picked
    · intro other member
      rcases List.mem_append.mp member with earlier | last
      · exact round.justified other earlier
      · rw [List.mem_singleton.mp last]
        exact known.imp_right fun member => kept member
  | @pick pool pool' source source' picked address out short taken fresh rest ih =>
    have unconnected' : ∀ other ∈ address :: picked, other ∉ connected := by
      intro other member
      rcases List.mem_cons.mp member with rfl | member
      · exact fresh.1
      · exact unconnected other member
    obtain ⟨kept, dropped, round⟩ :=
      ih (List.nodup_cons.mpr ⟨fresh.2, distinct⟩) unconnected' short
    refine ⟨fun _ member => kept (List.mem_cons_of_mem _ member), dropped,
      { round with conserved := ?_ }⟩
    refine round.conserved.trans ?_
    exact List.perm_middle.symm.trans ((takeRandom_some taken).append_left picked)

/-! ### Whole rounds -/

/-- The addresses of a pool that are not connected, each of them once. -/
def fresh (pool : AddressPool) (connected : List String) : Finset String :=
  pool.entries.toFinset \ connected.toFinset

@[simp] theorem mem_fresh {pool : AddressPool} {connected : List String} {address : String} :
    address ∈ pool.fresh connected ↔ address ∈ pool.entries ∧ address ∉ connected := by
  rw [fresh, Finset.mem_sdiff, List.mem_toFinset, List.mem_toFinset]

/-- What a whole round of dialing does to the pool. -/
structure Selection (connected : List String) (wanted : Nat) (pool : AddressPool)
    (picks : List String) (left : AddressPool) (dropped : List String) : Prop
    extends Round connected wanted [] pool picks left dropped where
  /-- What is picked was in the pool. -/
  drawn : picks ⊆ pool.entries
  /-- As many are picked as are wanted, or as there are. -/
  exact_length : picks.length = min wanted (pool.fresh connected).card

/-- A round that begins with no pick picks as many as are wanted, or as there are. -/
theorem Round.selection {picks dropped : List String} {left : AddressPool}
    (round : Round connected wanted [] pool picks left dropped) :
    Selection connected wanted pool picks left dropped := by
  have drawn : picks ⊆ pool.entries := fun address member =>
    round.conserved.subset
      (List.mem_append_left dropped (List.mem_append_left left.entries member))
  have counted : picks.toFinset.card = picks.length := List.toFinset_card_of_nodup round.distinct
  have among : picks.toFinset ⊆ pool.fresh connected := by
    intro address member
    have picked := List.mem_toFinset.mp member
    exact mem_fresh.mpr ⟨drawn picked, round.unconnected address picked⟩
  have at_most : picks.length ≤ (pool.fresh connected).card :=
    counted ▸ Finset.card_le_card among
  refine { round with drawn := drawn, exact_length := ?_ }
  rcases Nat.lt_or_ge picks.length wanted with short | full
  · -- Nothing is left, so that every fresh address has been picked.
    have all_picked : pool.fresh connected ⊆ picks.toFinset := by
      intro address member
      obtain ⟨pooled, unconnected⟩ := mem_fresh.mp member
      have somewhere := round.conserved.symm.subset pooled
      rw [round.drained short, empty, List.append_nil] at somewhere
      rcases List.mem_append.mp somewhere with picked | dropped
      · exact List.mem_toFinset.mpr picked
      · rcases round.justified address dropped with known | picked
        · exact absurd known unconnected
        · exact List.mem_toFinset.mpr picked
    have at_least : (pool.fresh connected).card ≤ picks.length :=
      counted ▸ Finset.card_le_card all_picked
    omega
  · have := round.bounded
    omega

/-- What a round of dialing does, with what it drops. -/
theorem exists_selection (pool : AddressPool) (live target : Nat) (connected : List String)
    (source : RandomWords) :
    ∃ dropped, Selection connected (target - live) pool
      (pool.selectForDial live target connected source).1
      (pool.selectForDial live target connected source).2.1 dropped := by
  have picking := (picking_iff pool live target connected source _).mpr rfl
  obtain ⟨_, dropped, round⟩ :=
    picking.round List.nodup_nil (fun _ member => by cases member) (Nat.zero_le _)
  exact ⟨dropped, round.selection⟩

/-- What was in the pool is picked, is still there, or has been dropped, copy by copy. -/
theorem selectForDial_perm (pool : AddressPool) (live target : Nat) (connected : List String)
    (source : RandomWords) :
    ∃ dropped, ((pool.selectForDial live target connected source).1 ++
      (pool.selectForDial live target connected source).2.1.entries ++ dropped).Perm
        pool.entries := by
  obtain ⟨dropped, selection⟩ := pool.exists_selection live target connected source
  exact ⟨dropped, selection.conserved⟩

/-- If nothing is wanted, nothing is done. -/
theorem selectForDial_of_le {live target : Nat} (reached : target ≤ live) (pool : AddressPool)
    (connected : List String) (source : RandomWords) :
    pool.selectForDial live target connected source = ([], pool, source) := by
  have full : target - live ≤ ([] : List String).length :=
    Nat.le_of_eq (Nat.sub_eq_zero_of_le reached)
  exact ((picking_iff pool live target connected source ([], pool, source)).mp (.enough full)).symm

/-! ### The account of a list of calls -/

/-- A call to a pool.  Each has a source of its own to draw from. -/
inductive Call
  | extend (addresses : List String)
  | take (source : RandomWords)
  | select (live target : Nat) (connected : List String) (source : RandomWords)

namespace Call

/-- The addresses that a call adds. -/
def added : Call → List String
  | extend addresses => addresses
  | take _ => []
  | select _ _ _ _ => []

/-- The pool after a call. -/
def after (pool : AddressPool) : Call → AddressPool
  | extend addresses => pool.extend addresses
  | take source => (pool.takeRandom source).2.1
  | select live target connected source =>
    (pool.selectForDial live target connected source).2.1

/-- The addresses that a call returns. -/
def returned (pool : AddressPool) : Call → List String
  | extend _ => []
  | take source => (pool.takeRandom source).1.toList
  | select live target connected source => (pool.selectForDial live target connected source).1

/-- The copies that a call drops: those of the pool and the added ones that it neither returns nor
keeps. -/
def dropped (pool : AddressPool) (call : Call) : List String :=
  (pool.entries ++ call.added).diff (call.returned pool ++ (call.after pool).entries)

/-- Whatever is known to be dropped is what the account says. -/
theorem dropped_perm {pool : AddressPool} {call : Call} {gone : List String}
    (conserved : (call.returned pool ++ (call.after pool).entries ++ gone).Perm
      (pool.entries ++ call.added)) : (call.dropped pool).Perm gone := by
  refine (conserved.symm.diff_right _).trans ?_
  rw [List.perm_iff_count]
  intro address
  rw [List.count_diff, List.count_append, Nat.add_sub_cancel_left]

/-- A call conserves every copy of an address, and what it drops it drops in a round of dialing,
because it is connected or picked in that round. -/
theorem account (pool : AddressPool) (call : Call) :
    (call.returned pool ++ (call.after pool).entries ++ call.dropped pool).Perm
      (pool.entries ++ call.added) ∧
    ∀ address ∈ call.dropped pool, ∃ live target connected source,
      call = select live target connected source ∧
        (address ∈ connected ∨ address ∈ call.returned pool) := by
  -- It is enough to find a list of what is dropped.
  suffices found : ∃ gone,
      (call.returned pool ++ (call.after pool).entries ++ gone).Perm (pool.entries ++ call.added) ∧
      ∀ address ∈ gone, ∃ live target connected source,
        call = select live target connected source ∧
          (address ∈ connected ∨ address ∈ call.returned pool) by
    obtain ⟨gone, conserved, justified⟩ := found
    have same := dropped_perm conserved
    exact ⟨(same.append_left _).trans conserved,
      fun address member => justified address (same.subset member)⟩
  cases call with
  | extend addresses => exact ⟨[], by rw [List.append_nil]; rfl, fun _ member => by cases member⟩
  | take source =>
    refine ⟨[], ?_, fun _ member => by cases member⟩
    rw [List.append_nil, added, List.append_nil]
    exact pool.takeRandom_perm source
  | select live target connected source =>
    obtain ⟨gone, selection⟩ := pool.exists_selection live target connected source
    refine ⟨gone, ?_, fun address member => ?_⟩
    · rw [added, List.append_nil]
      exact selection.conserved
    · exact ⟨live, target, connected, source, rfl, selection.justified address member⟩

end Call

/-- The pool after a list of calls. -/
def after (pool : AddressPool) : List Call → AddressPool
  | [] => pool
  | call :: calls => (call.after pool).after calls

/-- What a list of calls returns, call by call. -/
def returned (pool : AddressPool) : List Call → List String
  | [] => []
  | call :: calls => call.returned pool ++ (call.after pool).returned calls

/-- What a list of calls drops, call by call. -/
def dropped (pool : AddressPool) : List Call → List String
  | [] => []
  | call :: calls => call.dropped pool ++ (call.after pool).dropped calls

/-- The account of a list of calls. -/
structure Balanced (pool : AddressPool) (calls : List Call) : Prop where
  /-- Every copy that was there or was added is still there, or was returned, or was dropped. -/
  conserved : ((pool.after calls).entries ++ pool.returned calls ++ pool.dropped calls).Perm
    (pool.entries ++ calls.flatMap Call.added)
  /-- What a call drops it drops in a round of dialing, because it is connected or picked in that
  round. -/
  justified : ∀ before call behind, calls = before ++ call :: behind →
    ∀ address ∈ call.dropped (pool.after before), ∃ live target connected source,
      call = .select live target connected source ∧
        (address ∈ connected ∨ address ∈ call.returned (pool.after before))

/-- The account of every list of calls is balanced, by induction on the calls. -/
theorem balanced (calls : List Call) : ∀ pool : AddressPool, Balanced pool calls := by
  induction calls with
  | nil =>
    intro pool
    exact ⟨by simp [after, returned, dropped], fun before call behind split => by simp at split⟩
  | cons call calls ih =>
    intro pool
    obtain ⟨conserved, justified⟩ := ih (call.after pool)
    refine ⟨?_, fun before other behind split => ?_⟩
    · have first := (call.account pool).1
      rw [List.perm_iff_count] at conserved first ⊢
      intro address
      specialize conserved address
      specialize first address
      simp only [after, returned, dropped, List.flatMap_cons, List.count_append]
        at conserved first ⊢
      omega
    · cases before with
      | nil =>
        cases split
        exact (call.account pool).2
      | cons head before =>
        cases split
        exact justified before other behind rfl

/-- **A round of dialing picks exactly as many addresses as it can, and no copy of an address is
ever lost.**  Whatever the pool, the numbers, the connected addresses and the random words are, the
loop of the round ends.  Its picks are distinct, unconnected and from the pool, and their number is
that of the addresses wanted or that of the unconnected ones, whichever is smaller.  The old pool is
made up of the picks, the new pool and what was dropped, copy by copy; only what is connected or
picked is dropped; and if fewer are picked than are wanted, the new pool is empty.  If none is
wanted, neither the pool nor the source is touched.  Over any list of calls, every copy that was
there or was added is still there, or was returned, or was dropped for one of the two reasons. -/
theorem selection_exact (pool : AddressPool) (live target : Nat) (connected : List String)
    (source : RandomWords) (calls : List Call) :
    (∀ out, Picking connected (target - live) pool source [] out ↔
      out = pool.selectForDial live target connected source) ∧
    Selection connected (target - live) pool
      (pool.selectForDial live target connected source).1
      (pool.selectForDial live target connected source).2.1
      ((Call.select live target connected source).dropped pool) ∧
    (target ≤ live → pool.selectForDial live target connected source = ([], pool, source)) ∧
    Balanced pool calls := by
  refine ⟨picking_iff pool live target connected source, ?_,
    fun reached => selectForDial_of_le reached pool connected source, balanced calls pool⟩
  obtain ⟨gone, selection⟩ := pool.exists_selection live target connected source
  have same : ((Call.select live target connected source).dropped pool).Perm gone := by
    refine Call.dropped_perm ?_
    rw [Call.added, List.append_nil]
    exact selection.conserved
  exact { selection with
    conserved := (same.append_left _).trans selection.conserved
    justified := fun address member => selection.justified address (same.subset member) }

/-- Four entries of which two are equal and one is connected, and three more are wanted: two are
picked, and the pool is empty. -/
example :
    (AddressPool.mk ["a", "b", "b", "c"]).selectForDial 1 4 ["c"] ⟨[], 0⟩ =
      (["a", "b"], empty, ⟨[], 4⟩) := by
  decide

end AddressPool

end GossipNode
