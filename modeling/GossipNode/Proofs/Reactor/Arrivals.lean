import GossipNode.Proofs.Reactor.Chronicle
import GossipNode.Proofs.Reactor.Sole

/-!
# What the number of a connection says

A run gives its connections the numbers from one on, in the order in which they come.  So the number
of a connection is its place among them.  Nothing a reactor does later changes who has come before,
and whoever is there or has gone under a number is who came at that place, with a session that has
gone on since.

## Main definitions

* `PeerId.upTo` — the numbers from one to some number.
* `Peer.arrival` — a peer as it was when its connection came.
* `joinedPeers` — those who have come, in order.
* `Reactor.Continues` — nobody comes, and whoever is known was known.
* `Reactor.Denoted` — numbers are places among those who have come.

## Main results

* `Reactor.kept_denoted` — every move keeps numbers what they are.
* `Reactor.Denoted.arrived` — **whoever is known under a number came at that place.**
* `Reactor.joinedPeers_run` — those who have come stay the first to have come.
* `Reactor.fits_run` — **a word has room for every number of a run**, unless more happens in it than
  there are words.
-/

namespace GossipNode

/-! ### Those who have come -/

/-- The numbers from one to some number, in order. -/
def PeerId.upTo (n : Nat) : List PeerId := (List.range n).map fun i => ⟨i + 1⟩

@[simp] theorem PeerId.length_upTo (n : Nat) : (upTo n).length = n := by simp [upTo]

theorem PeerId.upTo_succ (n : Nat) : upTo (n + 1) = upTo n ++ [⟨n + 1⟩] := by
  rw [upTo, List.range_succ, List.map_append]
  rfl

/-- The number at a place is one more than the place. -/
theorem PeerId.value_of_upTo {n i : Nat} {id : PeerId} (there : (upTo n)[i]? = some id) :
    id.value = i + 1 := by
  rw [upTo, List.getElem?_map] at there
  obtain ⟨j, found, same⟩ := Option.map_eq_some_iff.mp there
  obtain ⟨inside, at_place⟩ := List.getElem?_eq_some_iff.mp found
  rw [List.getElem_range] at at_place
  rw [← same, ← at_place]

/-- The numbers from one on rise. -/
theorem PeerId.pairwise_upTo (n : Nat) : (upTo n).Pairwise (· < ·) :=
  List.pairwise_map.mpr
    (List.pairwise_lt_range.imp fun {i j} (lower : i < j) => Nat.succ_lt_succ lower)

theorem PeerId.nodup_upTo (n : Nat) : (upTo n).Nodup :=
  (pairwise_upTo n).imp fun {i j} (lower : i < j) (same : i = j) =>
    Nat.lt_irrefl j.value (same ▸ lower)

/-- A peer as it was when its connection came. -/
def Peer.arrival (p : Peer) : Peer := { p with session := .start }

@[simp] theorem Peer.arrival_perform (p : Peer) (c : Session.Call) :
    (p.perform c).arrival = p.arrival := rfl

/-- The peer that came, if one did. -/
def Deed.joined? : Deed → Option Peer
  | .joined p => some p
  | _ => none

/-- Those who have come, in order. -/
def joinedPeers (deeds : List Deed) : List Peer := (deeds.filterMap Deed.joined?).reverse

theorem joinedPeers_append (new deeds : List Deed) :
    joinedPeers (new ++ deeds) = joinedPeers deeds ++ joinedPeers new := by
  rw [joinedPeers, List.filterMap_append, List.reverse_append]
  rfl

theorem joinedPeers_eq_nil {new : List Deed} (nobody : ∀ d ∈ new, d.joined? = none) :
    joinedPeers new = [] := by
  rw [joinedPeers, List.filterMap_eq_nil_iff.mpr nobody]
  rfl

@[simp] theorem joinedPeers_joined (p : Peer) (deeds : List Deed) :
    joinedPeers (.joined p :: deeds) = joinedPeers deeds ++ [p] :=
  joinedPeers_append [.joined p] deeds

/-- The numbers on record are those of who has come. -/
theorem joinedIds_eq (deeds : List Deed) :
    joinedIds deeds = ((joinedPeers deeds).map (·.id)).reverse := by
  rw [joinedPeers, List.map_reverse, List.reverse_reverse, List.map_filterMap, joinedIds]
  congr 1
  funext d
  cases d <;> rfl

namespace Reactor

variable {r s t : Reactor}

/-! ### Nobody comes -/

/-- Nobody comes, whoever is known was known and came as the same, and what is put on record is
about nobody else. -/
structure Continues (r s : Reactor) : Prop where
  origin : ∀ k q, s.Known k q → ∃ p, r.Known k p ∧ q.arrival = p.arrival
  deeds : ∃ new, s.deeds = new ++ r.deeds ∧
    ∀ d ∈ new, d.joined? = none ∧ ∀ k, d.about = some k → ∃ p, r.Known k p

theorem Continues.refl (r : Reactor) : Continues r r where
  origin _ q known := ⟨q, known, rfl⟩
  deeds := ⟨[], rfl, fun _ member => by cases member⟩

theorem Continues.trans (h : Continues r s) (h' : Continues s t) : Continues r t where
  origin k q known := by
    obtain ⟨p, known', same⟩ := h'.origin k q known
    obtain ⟨o, known'', same'⟩ := h.origin k p known'
    exact ⟨o, known'', same.trans same'⟩
  deeds := by
    obtain ⟨first, hfirst, quiet⟩ := h.deeds
    obtain ⟨later, hlater, quiet'⟩ := h'.deeds
    refine ⟨later ++ first, by rw [hlater, hfirst, List.append_assoc], fun d member => ?_⟩
    rcases List.mem_append.mp member with late | early
    · refine ⟨(quiet' d late).1, fun k about => ?_⟩
      obtain ⟨q, known⟩ := (quiet' d late).2 k about
      obtain ⟨p, known', -⟩ := h.origin k q known
      exact ⟨p, known'⟩
    · exact quiet d early

/-- The same peers are there and have gone. -/
theorem continues_same (table : ∀ k, s.table.get? k = r.table.get? k) (new : List Deed)
    (deeds : s.deeds = new ++ r.deeds) (quiet : ∀ d ∈ new, d.isTurnover = false)
    (about : ∀ d ∈ new, ∀ k, d.about = some k → ∃ p, r.Known k p) : Continues r s where
  origin k q known := by
    refine ⟨q, ?_, rfl⟩
    rwa [Known, table, deeds, retired_quiet quiet] at known
  deeds := by
    refine ⟨new, deeds, fun d member => ⟨?_, about d member⟩⟩
    have same := quiet d member
    cases d <;> first | rfl | cases same

/-- One peer changes, and comes from the same arrival. -/
theorem continues_change {p p' : Peer} (held : r.Holds p) (same : p'.arrival = p.arrival)
    (table : ∀ k, s.table.get? k = if p.id = k then some p' else r.table.get? k) (new : List Deed)
    (deeds : s.deeds = new ++ r.deeds) (quiet : ∀ d ∈ new, d.isTurnover = false)
    (about : ∀ d ∈ new, d.about = some p.id) : Continues r s where
  origin k q known := by
    rw [Known, deeds, retired_quiet quiet, table] at known
    rcases known with there | gone
    · split at there
      · next this_one =>
        cases there
        exact ⟨p, Or.inl (this_one ▸ held), same⟩
      · exact ⟨q, Or.inl there, rfl⟩
    · exact ⟨q, Or.inr gone, rfl⟩
  deeds := by
    refine ⟨new, deeds, fun d member => ⟨?_, fun k here => ?_⟩⟩
    · have silent := quiet d member
      cases d <;> first | rfl | cases silent
    · rw [about d member] at here
      cases here
      exact ⟨p, Or.inl held⟩

theorem continues_perform {p : Peer} (held : r.Holds p) (c : Session.Call) :
    Continues r (r.perform p c) :=
  continues_change held (p.arrival_perform c) (get?_perform r p c) (p.record c) rfl
    Peer.record_quiet Peer.record_about

theorem continues_note {p : Peer} (held : r.Holds p) (e : Envelope) :
    Continues r (r.note (.dispatched p.id e)) :=
  continues_change held rfl (fun k => by
    split
    · next same => exact same ▸ held
    · rfl) [_] rfl (fun _ member => List.mem_singleton.mp member ▸ rfl)
    fun _ member => List.mem_singleton.mp member ▸ rfl

/-- Whoever goes was there. -/
theorem continues_close {p : Peer} (held : r.Holds p) : Continues r (r.closePeer p.id) where
  origin k q known := by
    rcases known with there | ⟨gone, same⟩
    · rw [get?_closePeer] at there
      split at there
      · cases there
      · exact ⟨q, Or.inl there, rfl⟩
    · rcases (retired_closePeer held).mp gone with rfl | gone
      · exact ⟨p, Or.inl (same ▸ held), rfl⟩
      · exact ⟨q, Or.inr ⟨gone, same⟩, rfl⟩
  deeds := by
    refine ⟨[_, _], deeds_closePeer held, fun d member => ?_⟩
    simp only [List.mem_cons, List.not_mem_nil, or_false] at member
    rcases member with rfl | rfl
    · refine ⟨rfl, fun k about => ?_⟩
      cases about
      exact ⟨p, Or.inl held⟩
    · refine ⟨rfl, fun k about => ?_⟩
      cases about
      exact ⟨p, Or.inl held⟩

theorem continues_idle (h : Idle r s) : Continues r s := by
  obtain ⟨new, deeds, about⟩ := h.deeds
  refine continues_same (fun k => by rw [h.table]) new deeds (fun d member => ?_)
    fun d member k here => ?_
  · have nobody := about d member
    cases d <;> first | rfl | cases nobody
  · rw [about d member] at here
    cases here

/-- At the end of a run whoever is there goes. -/
theorem continues_teardown (h : r.Consistent) : Continues r r.teardown where
  origin k q known := by
    rcases known with there | ⟨gone, same⟩
    · cases there
    · rcases retired_teardown.mp gone with ⟨id, p, there, rfl⟩ | gone
      · have key : id = k := (h.keyed id p there).symm.trans same
        exact ⟨p, Or.inl (key ▸ there), rfl⟩
      · exact ⟨q, Or.inr ⟨gone, same⟩, rfl⟩
  deeds := by
    obtain ⟨new, deeds, kinds, -⟩ := deeds_teardown r
    refine ⟨new, deeds, fun d member => ?_⟩
    rcases kinds d member with ⟨audience, rfl⟩ | ⟨socket, rfl⟩ | ⟨id, p, there, rfl⟩
    · exact ⟨rfl, nofun⟩
    · exact ⟨rfl, nofun⟩
    · refine ⟨rfl, fun k about => ⟨p, Or.inl ?_⟩⟩
      cases about
      have key : p.id = id := h.keyed id p there
      exact (congrArg r.table.get? key).trans there

/-- A move takes over a connection, or nobody comes. -/
theorem Move.continues {id : PeerId} (move : Move r (some id) s) :
    (∃ socket remote direction dialed now,
      s = r.insertPeer socket remote direction dialed now) ∨ Continues r s := by
  cases move with
  | insert socket remote direction dialed now => exact Or.inl ⟨_, _, _, _, _, rfl⟩
  | stray unknown =>
    exact Or.inr (continues_same (fun _ => rfl) [] rfl (fun _ member => by cases member)
      fun _ member => by cases member)
  | requeue id =>
    exact Or.inr (continues_same (fun _ => rfl) [] rfl (fun _ member => by cases member)
      fun _ member => by cases member)
  | call held traffic => exact Or.inr (continues_perform held _)
  | pass held known => exact Or.inr (continues_note held _)
  | close held => exact Or.inr (continues_close held)
  | @welcome p e info held introduced admitted new =>
    exact Or.inr (continues_change held (p.arrival_perform (.markReady info))
      (get?_put _ (p.perform (.markReady info)))
      [.notified (.peerWelcome p.id) r.shared.listeners.audience, .dispatched p.id e] rfl
      (by simp [Deed.isTurnover]) (by simp [Deed.about]))
  | @refuse p e info held introduced strange writes =>
    have noted := continues_note held e
    rcases onPeerInfo_strange (r := r.note (.dispatched p.id e)) strange p writes with
      ⟨m, refused⟩ | refused
    · rw [refused]
      exact Or.inr (noted.trans ((continues_perform (r := r.note (.dispatched p.id e)) held
        (.send m writes)).trans (continues_close (p := p.perform _) (holds_perform _ _ _))))
    · rw [refused]
      exact Or.inr (noted.trans (continues_close (r := r.note (.dispatched p.id e)) held))

/-! ### Numbers are places -/

/-- Numbers are places among those who have come: the first has number one, the next number two, and
so on; whoever is known came, and what is on record is about those who came. -/
structure Denoted (r : Reactor) : Prop extends Numbered r where
  counted : (joinedPeers r.deeds).map (·.id) = PeerId.upTo (joinedPeers r.deeds).length
  known : ∀ id p, r.Known id p → p.id = id ∧ p.arrival ∈ joinedPeers r.deeds
  about : ∀ d ∈ r.deeds, ∀ id, d.about = some id → ∃ p ∈ joinedPeers r.deeds, p.id = id

theorem denoted_start (config : ReactorConfig) (shared : Shared) (now : Nat) :
    (start config shared now).Denoted where
  consistent := consistent_start config shared now
  number := rfl
  counted := rfl
  known id p known := by
    rcases known with there | ⟨gone, -⟩
    · cases there
    · cases gone
  about d member := by cases member

theorem Denoted.continues (h : r.Denoted) (numbered : s.Numbered) (on : Continues r s) :
    s.Denoted := by
  obtain ⟨new, deeds, quiet⟩ := on.deeds
  have same : joinedPeers s.deeds = joinedPeers r.deeds := by
    rw [deeds, joinedPeers_append, joinedPeers_eq_nil fun d member => (quiet d member).1,
      List.append_nil]
  refine { numbered with counted := ?_, known := ?_, about := ?_ }
  · rw [same]
    exact h.counted
  · intro id q known
    obtain ⟨p, known', origin⟩ := on.origin id q known
    obtain ⟨number, came⟩ := h.known id p known'
    rw [same, origin]
    exact ⟨(congrArg Peer.id origin).trans number, came⟩
  · intro d member id here
    rw [same]
    rw [deeds] at member
    rcases List.mem_append.mp member with late | early
    · obtain ⟨p, known⟩ := (quiet d late).2 id here
      obtain ⟨number, came⟩ := h.known id p known
      exact ⟨p.arrival, came, number⟩
    · exact h.about d early id here

/-- Whoever comes next takes the next place. -/
theorem Denoted.insert (h : r.Denoted) {socket : SocketId} {remote : SocketAddress}
    {direction : Direction} {dialed : Option String} {now : Nat}
    (numbered : (r.insertPeer socket remote direction dialed now).Numbered) :
    (r.insertPeer socket remote direction dialed now).Denoted := by
  have came : joinedPeers (r.insertPeer socket remote direction dialed now).deeds =
      joinedPeers r.deeds ++ [r.newPeer socket remote direction dialed now] := by
    rw [deeds_insertPeer, joinedPeers_joined]
  have next : r.nextId = ⟨(joinedPeers r.deeds).length + 1⟩ := by
    have number := h.number
    rw [joinedIds_eq, List.length_reverse, List.length_map] at number
    rw [← number]
  refine { numbered with counted := ?_, known := ?_, about := ?_ }
  · rw [came, List.map_append, h.counted, List.length_append, List.length_singleton,
      PeerId.upTo_succ, ← next]
    rfl
  · intro id q known
    rw [came]
    rcases known with there | ⟨gone, same⟩
    · rw [get?_insertPeer] at there
      split at there
      · next this_one =>
        cases there
        exact ⟨this_one, List.mem_append_right _ (List.mem_singleton.mpr rfl)⟩
      · obtain ⟨number, before⟩ := h.known id q (Or.inl there)
        exact ⟨number, List.mem_append_left _ before⟩
    · rw [deeds_insertPeer, List.mem_cons] at gone
      rcases gone with impossible | gone
      · cases impossible
      · obtain ⟨number, before⟩ := h.known id q (Or.inr ⟨gone, same⟩)
        exact ⟨number, List.mem_append_left _ before⟩
  · intro d member id here
    rw [came]
    rw [deeds_insertPeer, List.mem_cons] at member
    rcases member with rfl | early
    · cases here
      exact ⟨_, List.mem_append_right _ (List.mem_singleton.mpr rfl), rfl⟩
    · obtain ⟨p, before, same⟩ := h.about d early id here
      exact ⟨p, List.mem_append_left _ before, same⟩

/-- **Every move keeps numbers what they are.** -/
theorem kept_denoted : Kept Denoted where
  keyed h := h.consistent.keyed
  wait sight h := h.continues (kept_numbered.wait sight h.toNumbered)
    (continues_same (fun _ => rfl) [] rfl (fun _ member => by cases member)
      fun _ member => by cases member)
  move h running move := by
    have numbered := kept_numbered.move h.toNumbered running move
    rcases move.continues with ⟨socket, remote, direction, dialed, now, rfl⟩ | on
    · exact h.insert numbered
    · exact h.continues numbered on
  teardown h := h.continues (kept_numbered.teardown h.toNumbered) (continues_teardown h.consistent)
  idle h idle := h.continues (kept_numbered.idle h.toNumbered idle) (continues_idle idle)

/-- **Whoever is known under a number came at that place.** -/
theorem Denoted.arrived (h : r.Denoted) {id : PeerId} {p : Peer} (known : r.Known id p) :
    (joinedPeers r.deeds)[id.value - 1]? = some p.arrival := by
  obtain ⟨number, came⟩ := h.known id p known
  obtain ⟨i, there⟩ := List.mem_iff_getElem?.mp came
  have place : (PeerId.upTo (joinedPeers r.deeds).length)[i]? = some id := by
    rw [← h.counted, List.getElem?_map, there, ← number]
    rfl
  rw [PeerId.value_of_upTo place, Nat.add_sub_cancel]
  exact there

/-! ### Those who have come stay the first -/

theorem Move.joinedPeers_prefix {id? : Option PeerId} (move : Move r id? s) :
    joinedPeers r.deeds <+: joinedPeers s.deeds := by
  have on (h : Continues r s) : joinedPeers r.deeds <+: joinedPeers s.deeds := by
    obtain ⟨new, deeds, -⟩ := h.deeds
    rw [deeds, joinedPeers_append]
    exact List.prefix_append _ _
  cases id? with
  | none => exact on (continues_idle move.idle)
  | some id =>
    rcases move.continues with ⟨socket, remote, direction, dialed, now, rfl⟩ | h
    · rw [deeds_insertPeer, joinedPeers_joined]
      exact List.prefix_append _ _
    · exact on h

theorem kept_joinedPeers (r : Reactor) :
    Kept fun s => s.Consistent ∧ joinedPeers r.deeds <+: joinedPeers s.deeds where
  keyed h := h.1.keyed
  wait sight h := ⟨h.1.wait sight, h.2⟩
  move h running move := ⟨h.1.move running move, h.2.trans move.joinedPeers_prefix⟩
  teardown h := by
    refine ⟨h.1.teardown, h.2.trans ?_⟩
    obtain ⟨new, deeds, -⟩ := (continues_teardown h.1).deeds
    rw [deeds, joinedPeers_append]
    exact List.prefix_append _ _
  idle h idle := by
    refine ⟨h.1.idle idle, h.2.trans ?_⟩
    obtain ⟨new, deeds, -⟩ := idle.deeds
    rw [deeds, joinedPeers_append]
    exact List.prefix_append _ _

/-- Those who have come stay the first to have come. -/
theorem joinedPeers_run (h : r.Consistent) (stimuli : List Stimulus) :
    joinedPeers r.deeds <+: joinedPeers (r.run stimuli).deeds :=
  ((kept_joinedPeers r).run ⟨h, List.prefix_refl _⟩ stimuli).2

/-! ### Room for numbers -/

/-- Moves on behalf of one peer take over one connection at most, and then it is that peer's. -/
theorem Moves.nextId {id : PeerId} (moves : Moves (· = id) r s) :
    s.nextId = r.nextId ∨ id = r.nextId ∧ s.nextId = r.nextId.next := by
  induction moves with
  | refl => exact Or.inl rfl
  | @step s t id? _ last allowed ih =>
    cases id? with
    | none =>
      rw [last.idle.nextId]
      exact ih
    | some k =>
      have same : k = id := allowed k rfl
      rcases last.joined with ⟨nextId, -⟩ | ⟨own, nextId, -⟩
      · rw [nextId]
        exact ih
      · rcases ih with before | ⟨taken, after⟩
        · rw [before] at own nextId
          exact Or.inr ⟨same ▸ own, nextId⟩
        -- The number after one's own is not one's own.
        · have again : r.nextId.next = r.nextId := after ▸ own.symm.trans (same.trans taken)
          exact absurd (congrArg PeerId.value again) (Nat.succ_ne_self _)

/-- A turn takes over one connection at most. -/
theorem nextId_turn_le (h : r.Consistent) (sight : Sight) (means : Means) :
    (r.turn sight means).nextId.value ≤ r.nextId.value + 1 := by
  cases running : r.running with
  | false =>
    rw [turn_ended running]
    exact Nat.le_succ _
  | true =>
    have consistent := h.wait sight
    have one {id : PeerId} (moves : Moves (· = id) (r.wait sight).2 (r.turn sight means)) :
        (r.turn sight means).nextId.value ≤ r.nextId.value + 1 := by
      rcases moves.nextId with same | ⟨-, next⟩
      · rw [same]
        exact Nat.le_succ _
      · rw [next]
        exact Nat.le_refl _
    have others {who : PeerId → Prop} (other : ¬ who r.nextId)
        (moves : Moves who (r.wait sight).2 (r.turn sight means)) :
        (r.turn sight means).nextId.value ≤ r.nextId.value + 1 := by
      rw [(moves.joined other).1]
      exact Nat.le_succ _
    rcases turn_cases running sight means consistent.keyed with
      ⟨-, same⟩ | ⟨w, -, ⟨-, same⟩ | ⟨goes_on, moves⟩⟩
    · rw [same]
      exact Nat.le_succ _
    · rw [same]
      exact Nat.le_succ _
    · cases w with
      | peer id ready => exact one moves
      | accept socket remote => exact one moves
      | tick =>
        refine others (fun ⟨_, p, _, entered, _⟩ => ?_) moves
        have there := IdMap.mem_entries_iff.1 entered
        exact absurd (consistent.numbered there) (Nat.lt_irrefl _)
      | control command =>
        rcases command with _ | c
        · cases goes_on
        · cases c with
          | sendHandshake id => exact one moves
          | closePeer id => exact one moves
          | adopt socket remote dialed => exact one moves
          | _ => exact others id moves
      | _ => exact others id moves

/-- A run takes over no more connections than things happen in it. -/
theorem nextId_run_le (stimuli : List Stimulus) : ∀ {r : Reactor}, r.Consistent →
    (r.run stimuli).nextId.value ≤ r.nextId.value + stimuli.length := by
  induction stimuli with
  | nil => exact fun _ => Nat.le_refl _
  | cons stimulus stimuli ih =>
    intro r h
    have one : (r.react stimulus).nextId.value ≤ r.nextId.value + 1 := by
      cases stimulus with
      | turn sight means => exact nextId_turn_le h sight means
      | _ =>
        refine Nat.le_succ_of_le (Nat.le_of_eq (congrArg PeerId.value ?_))
        exact (react_idle r fun _ _ turn => by cases turn).nextId
    have more := ih (kept_consistent.react h stimulus)
    rw [run_cons, List.length_cons]
    omega

/-- **A word has room for every number of a run**, those that are there, those that have gone and
those on record as well as the next one, unless more happens in the run than there are words. -/
theorem fits_run (config : ReactorConfig) (shared : Shared) (now : Nat) {stimuli : List Stimulus}
    (few : stimuli.length + 1 < PeerId.limit) :
    let r := (start config shared now).run stimuli
    r.nextId.Fits ∧ (∀ id p, r.Known id p → id.Fits) ∧
      ∀ d ∈ r.deeds, ∀ id, d.about = some id → id.Fits := by
  intro r
  have denoted : r.Denoted := kept_denoted.run (denoted_start config shared now) stimuli
  have fits : r.nextId.value < PeerId.limit := by
    have bound := nextId_run_le stimuli (consistent_start config shared now)
    have first : (start config shared now).nextId.value = 1 := rfl
    have next : r.nextId.value = ((start config shared now).run stimuli).nextId.value := rfl
    omega
  have came {p : Peer} (member : p ∈ joinedPeers r.deeds) : p.id.Fits := by
    have counted : p.id ∈ PeerId.upTo (joinedPeers r.deeds).length :=
      denoted.counted ▸ List.mem_map_of_mem member
    obtain ⟨i, inside, same⟩ := List.mem_map.mp counted
    have number := denoted.number
    rw [joinedIds_eq, List.length_reverse, List.length_map] at number
    have below := List.mem_range.mp inside
    show p.id.value < PeerId.limit
    rw [← same]
    show i + 1 < PeerId.limit
    omega
  refine ⟨fits, fun id p known => ?_, fun d member id about => ?_⟩
  · obtain ⟨same, member⟩ := denoted.known id p known
    have fits : p.arrival.id.Fits := came member
    rw [← same]
    exact fits
  · obtain ⟨p, member, same⟩ := denoted.about d member id about
    exact same ▸ came member

end Reactor

end GossipNode
