import GossipNode.Proofs.IdMap
import GossipNode.Proofs.Reactor.Run

/-!
# The table, the multiplexer and the record agree

The table of peers, the sockets that are watched, the peers that were put back and the queue of
commands are changed by many handlers, one after the other.  Between turns they always agree, and
the record tells of every connection how it came and whether it went.

## Main definitions

* `Reactor.Accounted` — the table and the record agree.
* `Reactor.Consistent` — the table, the multiplexer, the queue and the record agree.

## Main results

* `Reactor.kept_consistent` — every move keeps a reactor consistent.
* `Reactor.consistent_run` — **a reactor is consistent throughout its runs**, and when a run ends
  nothing is left and every peer that was there has gone closed.
-/

namespace GossipNode

/-- Whether something on record says that a connection came or went. -/
def Deed.isTurnover : Deed → Bool
  | .joined _ | .retired _ => true
  | _ => false

/-- The number of the connection that came, if one did. -/
def Deed.joinedId? : Deed → Option PeerId
  | .joined p => some p.id
  | _ => none

/-- The numbers of the connections that came, the last one first. -/
def joinedIds (deeds : List Deed) : List PeerId := deeds.filterMap Deed.joinedId?

theorem joinedIds_append {new deeds : List Deed} (h : ∀ d ∈ new, d.joinedId? = none) :
    joinedIds (new ++ deeds) = joinedIds deeds := by
  rw [joinedIds, List.filterMap_append, List.filterMap_eq_nil_iff.2 h]
  rfl

theorem joinedIds_quiet {new deeds : List Deed} (h : ∀ d ∈ new, d.isTurnover = false) :
    joinedIds (new ++ deeds) = joinedIds deeds := by
  refine joinedIds_append fun d hd => ?_
  have quiet := h d hd
  cases d <;> first | rfl | cases quiet

theorem retired_quiet {new deeds : List Deed} (h : ∀ d ∈ new, d.isTurnover = false) {q : Peer} :
    .retired q ∈ new ++ deeds ↔ .retired q ∈ deeds := by
  rw [List.mem_append]
  exact or_iff_right fun hq => absurd (h _ hq) (by simp [Deed.isTurnover])

theorem Peer.record_quiet {p : Peer} {c : Session.Call} : ∀ d ∈ p.record c,
    d.isTurnover = false := by
  intro d hd
  cases c <;> simp only [record, List.mem_cons, List.not_mem_nil, or_false] at hd
  · rcases hd with rfl | rfl <;> rfl
  · rw [hd]; rfl
  · rw [hd]; rfl

namespace Reactor

/-- The table and the record agree. -/
structure Accounted (r : Reactor) : Prop where
  /-- Every connection that came has a number below the next one. -/
  joined_lt : ∀ id ∈ joinedIds r.deeds, id < r.nextId
  /-- No two connections that came have the same number. -/
  joined_nodup : (joinedIds r.deeds).Nodup
  /-- Every peer came. -/
  entered : ∀ id p, r.table.get? id = some p → id ∈ joinedIds r.deeds
  /-- Every connection that came and is not there any more went. -/
  left : ∀ id ∈ joinedIds r.deeds, r.table.get? id = none → ∃ q, .retired q ∈ r.deeds ∧ q.id = id
  /-- Every connection that went came, is closed, and is not there any more. -/
  gone : ∀ q, .retired q ∈ r.deeds →
    q.id ∈ joinedIds r.deeds ∧ q.session.state = .closed ∧ r.table.get? q.id = none

/-- The table, the multiplexer, the queue and the record agree. -/
structure Consistent (r : Reactor) : Prop where
  accounted : r.Accounted
  /-- Every peer stands under its own number. -/
  keyed : r.Keyed
  /-- The sockets that are watched are those of the peers, each under the peer's number. -/
  watched : ∀ id, r.mux.sockets.get? id = (r.table.get? id).map (·.socket)
  /-- No peer's conversation is over. -/
  talking : ∀ id p, r.table.get? id = some p → p.session.state ≠ .closed
  /-- Nobody has been put back twice. -/
  pending_nodup : r.mux.pending.Nodup
  /-- Whoever has been put back is watched. -/
  pending_watched : ∀ id ∈ r.mux.pending, r.mux.isRegistered id = true
  /-- Introductions are due on connections that came. -/
  queued : ∀ id, .sendHandshake id ∈ r.queue.commands → id < r.nextId
  /-- When the run has ended nobody is there. -/
  ended : r.running = false → ∀ id, r.table.get? id = none

theorem Consistent.isRegistered_iff {r : Reactor} (h : r.Consistent) (id : PeerId) :
    r.mux.isRegistered id = true ↔ ∃ p, r.table.get? id = some p := by
  rw [Multiplexer.isRegistered, IdMap.contains, h.watched, Option.isSome_map,
    Option.isSome_iff_exists]

/-- Whoever is found under a number stands under its own. -/
theorem Consistent.holds {r : Reactor} (h : r.Consistent) {id : PeerId} {p : Peer}
    (there : r.table.get? id = some p) : r.Holds p := by
  rw [Holds, h.keyed id p there]
  exact there

theorem Consistent.numbered {r : Reactor} (h : r.Consistent) {id : PeerId} {p : Peer}
    (hp : r.table.get? id = some p) : id < r.nextId :=
  h.accounted.joined_lt id (h.accounted.entered id p hp)

/-! ### Nobody comes or goes -/

variable {r s : Reactor}

theorem retired_note {d : Deed} (quiet : d.isTurnover = false) {q : Peer} :
    .retired q ∈ (r.note d).deeds ↔ .retired q ∈ r.deeds := by
  have alone : ∀ d' ∈ [d], d'.isTurnover = false := fun _ hd => List.mem_singleton.1 hd ▸ quiet
  exact retired_quiet alone

/-- Where nobody comes or goes the table and the record go on agreeing. -/
theorem Accounted.stay (h : r.Accounted) (nextId : s.nextId = r.nextId)
    (there : ∀ k, s.table.get? k = none ↔ r.table.get? k = none)
    (deeds : ∃ new, s.deeds = new ++ r.deeds ∧ ∀ d ∈ new, d.isTurnover = false) :
    s.Accounted := by
  obtain ⟨new, hnew, quiet⟩ := deeds
  have ids : joinedIds s.deeds = joinedIds r.deeds := hnew ▸ joinedIds_quiet quiet
  have retired (q : Peer) : .retired q ∈ s.deeds ↔ .retired q ∈ r.deeds :=
    hnew ▸ retired_quiet quiet
  constructor
  case joined_lt =>
    rw [ids, nextId]
    exact h.joined_lt
  case joined_nodup =>
    rw [ids]
    exact h.joined_nodup
  case entered =>
    intro id p hp
    rw [ids]
    cases before : r.table.get? id with
    | none =>
      rw [(there id).2 before] at hp
      cases hp
    | some q => exact h.entered id q before
  case left =>
    intro id hid gone
    rw [ids] at hid
    obtain ⟨q, hq, same⟩ := h.left id hid ((there id).1 gone)
    exact ⟨q, (retired q).2 hq, same⟩
  case gone =>
    intro q hq
    obtain ⟨came, closed, gone⟩ := h.gone q ((retired q).1 hq)
    exact ⟨ids ▸ came, closed, (there q.id).2 gone⟩

/-- A reactor stays consistent when a peer changes without being closed. -/
theorem Consistent.change (h : r.Consistent) {p q : Peer} (held : r.Holds p) (hid : q.id = p.id)
    (socket : q.socket = p.socket) (talks : q.session.state ≠ .closed)
    (table : ∀ k, s.table.get? k = if p.id = k then some q else r.table.get? k)
    (mux : s.mux = r.mux) (queue : s.queue = r.queue) (nextId : s.nextId = r.nextId)
    (running : s.running = r.running)
    (deeds : ∃ new, s.deeds = new ++ r.deeds ∧ ∀ d ∈ new, d.isTurnover = false) :
    s.Consistent := by
  have held' : r.table.get? p.id = some p := held
  constructor
  case accounted =>
    refine h.accounted.stay nextId (fun k => ?_) deeds
    rw [table]
    split
    · next same => simp [← same, held']
    · exact Iff.rfl
  case keyed =>
    intro k p' hp'
    rw [table] at hp'
    split at hp'
    · next same =>
      cases hp'
      exact hid.trans same
    · exact h.keyed k p' hp'
  case watched =>
    intro k
    rw [mux, table, h.watched]
    split
    · next same => rw [← same, held', Option.map_some, Option.map_some, socket]
    · rfl
  case talking =>
    intro k p' hp'
    rw [table] at hp'
    split at hp'
    · cases hp'
      exact talks
    · exact h.talking k p' hp'
  case pending_nodup =>
    rw [mux]
    exact h.pending_nodup
  case pending_watched =>
    rw [mux]
    exact h.pending_watched
  case queued =>
    rw [queue, nextId]
    exact h.queued
  case ended =>
    -- A peer is there, so the run has not ended.
    intro stopped
    rw [running] at stopped
    have nobody := h.ended stopped p.id
    rw [held'] at nobody
    cases nobody

/-- A reactor stays consistent when something about no coming or going is put on record. -/
theorem Consistent.note (h : r.Consistent) {p : Peer} (held : r.Holds p) {d : Deed}
    (quiet : d.isTurnover = false) : (r.note d).Consistent := by
  have table (k : PeerId) :
      (r.note d).table.get? k = if p.id = k then some p else r.table.get? k := by
    split
    · next same => exact same ▸ held
    · rfl
  exact h.change held rfl rfl (h.talking p.id p held) table rfl rfl rfl rfl
    ⟨[d], rfl, fun _ hd => List.mem_singleton.1 hd ▸ quiet⟩

/-- A reactor stays consistent when bytes are moved to or from a peer. -/
theorem Consistent.perform (h : r.Consistent) {p : Peer} {c : Session.Call} (held : r.Holds p)
    (traffic : c.isTraffic = true) : (r.perform p c).Consistent := by
  have talks : (p.perform c).session.state ≠ .closed := by
    rw [Peer.perform, Session.state_perform_traffic traffic]
    exact h.talking p.id p held
  exact h.change (q := p.perform c) held rfl rfl talks (get?_perform r p c) rfl rfl rfl rfl
    ⟨p.record c, rfl, Peer.record_quiet⟩

theorem Idle.quiet (h : Idle r s) :
    ∃ new, s.deeds = new ++ r.deeds ∧ ∀ d ∈ new, d.isTurnover = false := by
  obtain ⟨new, hnew, about⟩ := h.deeds
  refine ⟨new, hnew, fun d hd => ?_⟩
  have unrelated := about d hd
  cases d <;> first | rfl | cases unrelated

theorem Consistent.idle (h : r.Consistent) (idle : Idle r s) : s.Consistent := by
  obtain ⟨commands, hcommands, none_due⟩ := idle.commands
  constructor
  case accounted =>
    exact h.accounted.stay idle.nextId (fun k => by rw [idle.table]) idle.quiet
  case keyed =>
    intro k p hp
    exact h.keyed k p (idle.table ▸ hp)
  case watched =>
    intro k
    rw [idle.sockets, idle.table]
    exact h.watched k
  case talking =>
    intro k p hp
    exact h.talking k p (idle.table ▸ hp)
  case pending_nodup =>
    rw [idle.pending]
    exact h.pending_nodup
  case pending_watched =>
    intro k hk
    rw [Multiplexer.isRegistered, idle.sockets]
    exact h.pending_watched k (idle.pending ▸ hk)
  case queued =>
    intro k hk
    rw [hcommands] at hk
    rw [idle.nextId]
    exact h.queued k ((List.mem_append.1 hk).resolve_right (none_due k))
  case ended =>
    intro stopped k
    rw [idle.table]
    exact h.ended (idle.running ▸ stopped) k

theorem Consistent.wait (h : r.Consistent) (sight : Sight) : (r.wait sight).2.Consistent := by
  obtain ⟨sockets, pending, commands⟩ := r.mux.wait_spec r.queue r.owes sight
  refine ⟨h.accounted.stay rfl (fun _ => Iff.rfl) ⟨[], rfl, fun _ hd => absurd hd
    List.not_mem_nil⟩, h.keyed, ?_, h.talking, h.pending_nodup.sublist pending.sublist, ?_, ?_,
    h.ended⟩
  · intro k
    exact (congrArg (·.get? k) sockets).trans (h.watched k)
  · intro k hk
    exact (congrArg (fun m => (m.get? k).isSome) sockets).trans
      (h.pending_watched k (pending.subset hk))
  · exact fun k hk => h.queued k (commands.subset hk)

/-! ### Somebody comes or goes -/

theorem retired_closePeer {p q : Peer} (held : r.Holds p) :
    .retired q ∈ (r.closePeer p.id).deeds ↔ q = p.perform .markClosed ∨ .retired q ∈ r.deeds := by
  rw [deeds_closePeer held]
  simp

/-- A peer that is let go goes on record as closed. -/
theorem Accounted.close (h : r.Accounted) {p : Peer} (held : r.Holds p) :
    (r.closePeer p.id).Accounted := by
  have ids : joinedIds (r.closePeer p.id).deeds = joinedIds r.deeds := by
    rw [deeds_closePeer held]
    rfl
  constructor
  case joined_lt =>
    rw [ids, nextId_closePeer]
    exact h.joined_lt
  case joined_nodup =>
    rw [ids]
    exact h.joined_nodup
  case entered =>
    intro k q hq
    rw [get?_closePeer] at hq
    rw [ids]
    split at hq
    · cases hq
    · exact h.entered k q hq
  case left =>
    intro k hk gone
    rw [ids] at hk
    by_cases same : p.id = k
    · exact ⟨p.perform .markClosed, (retired_closePeer held).2 (Or.inl rfl), same⟩
    · rw [get?_closePeer, if_neg same] at gone
      obtain ⟨q, hq, hid⟩ := h.left k hk gone
      exact ⟨q, (retired_closePeer held).2 (Or.inr hq), hid⟩
  case gone =>
    intro q hq
    rw [ids, get?_closePeer]
    rcases (retired_closePeer held).1 hq with rfl | hq
    · exact ⟨h.entered p.id p held, rfl, if_pos rfl⟩
    · obtain ⟨came, closed, gone⟩ := h.gone q hq
      exact ⟨came, closed, by rw [gone, ite_self]⟩

/-- Of a peer that is let go nothing is left. -/
theorem Consistent.close (h : r.Consistent) {p : Peer} (held : r.Holds p) :
    (r.closePeer p.id).Consistent := by
  constructor
  case accounted => exact h.accounted.close held
  case keyed => exact h.keyed.closePeer p.id
  case watched =>
    intro k
    rw [mux_closePeer, Multiplexer.sockets_deregister, IdMap.get?_erase, get?_closePeer,
      h.watched]
    split <;> rfl
  case talking =>
    intro k q hq
    rw [get?_closePeer] at hq
    split at hq
    · cases hq
    · exact h.talking k q hq
  case pending_nodup =>
    rw [mux_closePeer]
    exact h.pending_nodup.sublist List.filter_sublist
  case pending_watched =>
    intro k hk
    rw [mux_closePeer] at hk ⊢
    obtain ⟨waiting, other⟩ := Multiplexer.mem_deregister.1 hk
    have watched := h.pending_watched k waiting
    rw [Multiplexer.isRegistered, IdMap.contains] at watched ⊢
    rw [Multiplexer.sockets_deregister, IdMap.get?_erase, if_neg (Ne.symm other)]
    exact watched
  case queued =>
    -- An introduction may still be due to the peer: its number stays below the next one.
    rw [queue_closePeer, nextId_closePeer]
    exact h.queued
  case ended =>
    intro stopped k
    rw [running_closePeer] at stopped
    rw [get?_closePeer, h.ended stopped k, ite_self]

/-- A reactor stays consistent when the multiplexer changes and watches the same sockets. -/
theorem Consistent.withMux (h : r.Consistent) {mux : Multiplexer}
    (sockets : ∀ k, mux.sockets.get? k = r.mux.sockets.get? k) (nodup : mux.pending.Nodup)
    (watched : ∀ k ∈ mux.pending, r.mux.isRegistered k = true) :
    ({ r with mux } : Reactor).Consistent where
  accounted := h.accounted.stay rfl (fun _ => Iff.rfl) ⟨[], rfl, fun _ hd => absurd hd
    List.not_mem_nil⟩
  keyed := h.keyed
  watched k := (sockets k).trans (h.watched k)
  talking := h.talking
  pending_nodup := nodup
  pending_watched k hk := (congrArg Option.isSome (sockets k)).trans (watched k hk)
  queued := h.queued
  ended := h.ended

/-- To watch no longer what is not there changes nothing that matters. -/
theorem Consistent.stray (h : r.Consistent) {id : PeerId} (unknown : r.table.get? id = none) :
    ({ r with mux := r.mux.deregister id } : Reactor).Consistent := by
  refine h.withMux (fun k => ?_) (h.pending_nodup.sublist List.filter_sublist) fun k hk => ?_
  · rw [Multiplexer.sockets_deregister, IdMap.get?_erase]
    split
    · next same => rw [← same, h.watched, unknown, Option.map_none]
    · rfl
  · exact h.pending_watched k (Multiplexer.mem_deregister.1 hk).1

theorem Consistent.requeue (h : r.Consistent) (id : PeerId) :
    ({ r with mux := r.mux.requeue id } : Reactor).Consistent := by
  refine h.withMux (fun k => ?_) (Multiplexer.nodup_requeue h.pending_nodup id) fun k hk => ?_
  · rw [Multiplexer.sockets_requeue]
  · rcases Multiplexer.mem_requeue.1 hk with waiting | ⟨rfl, watched⟩
    · exact h.pending_watched k waiting
    · exact watched

section Insert

variable (socket : SocketId) (remote : SocketAddress) (direction : Direction)
  (dialed : Option String) (now : Nat)

/-- A connection that is taken over has a number no other one had. -/
theorem Accounted.insert (h : r.Accounted) :
    (r.insertPeer socket remote direction dialed now).Accounted := by
  have fresh : r.nextId ∉ joinedIds r.deeds :=
    fun came => Nat.lt_irrefl _ (h.joined_lt _ came)
  have ids : joinedIds (r.insertPeer socket remote direction dialed now).deeds =
      r.nextId :: joinedIds r.deeds := by
    rw [deeds_insertPeer]
    rfl
  constructor
  case joined_lt =>
    intro id came
    rw [ids] at came
    rw [nextId_insertPeer]
    rcases List.mem_cons.1 came with same | came
    · exact same ▸ Nat.lt_succ_self _
    · exact Nat.lt_succ_of_lt (h.joined_lt id came)
  case joined_nodup =>
    rw [ids]
    exact List.nodup_cons.2 ⟨fresh, h.joined_nodup⟩
  case entered =>
    intro id q hq
    rw [get?_insertPeer] at hq
    rw [ids]
    split at hq
    · next same => exact List.mem_cons.2 (Or.inl same.symm)
    · exact List.mem_cons_of_mem _ (h.entered id q hq)
  case left =>
    intro id came gone
    rw [ids] at came
    rw [get?_insertPeer] at gone
    split at gone
    · cases gone
    · next other =>
      rcases List.mem_cons.1 came with rfl | came
      · exact absurd rfl other
      · obtain ⟨q, hq, same⟩ := h.left id came gone
        exact ⟨q, by rw [deeds_insertPeer]; exact List.mem_cons_of_mem _ hq, same⟩
  case gone =>
    intro q hq
    rw [deeds_insertPeer] at hq
    rw [ids, get?_insertPeer]
    rcases List.mem_cons.1 hq with impossible | hq
    · cases impossible
    · obtain ⟨came, closed, gone⟩ := h.gone q hq
      have other : r.nextId ≠ q.id := fun same => fresh (same ▸ came)
      rw [if_neg other]
      exact ⟨List.mem_cons_of_mem _ came, closed, gone⟩

theorem Consistent.insert (h : r.Consistent) (running : r.running = true) :
    (r.insertPeer socket remote direction dialed now).Consistent := by
  constructor
  case accounted => exact h.accounted.insert socket remote direction dialed now
  case keyed =>
    intro id q hq
    rw [get?_insertPeer] at hq
    split at hq
    · next same =>
      cases hq
      exact same
    · exact h.keyed id q hq
  case watched =>
    intro id
    rw [mux_insertPeer, get?_insertPeer, Multiplexer.register, IdMap.get?_insert]
    split
    · rfl
    · exact h.watched id
  case talking =>
    intro id q hq
    rw [get?_insertPeer] at hq
    split at hq
    · cases hq
      exact fun impossible => by cases impossible
    · exact h.talking id q hq
  case pending_nodup =>
    rw [mux_insertPeer]
    exact h.pending_nodup
  case pending_watched =>
    intro id waiting
    rw [mux_insertPeer] at waiting ⊢
    have watched := h.pending_watched id waiting
    rw [Multiplexer.isRegistered, IdMap.contains] at watched ⊢
    rw [Multiplexer.register, IdMap.get?_insert]
    split
    · rfl
    · exact watched
  case queued =>
    intro id due
    rw [nextId_insertPeer]
    rcases mem_queue_insertPeer r socket remote direction dialed now due with due | due
    · exact Nat.lt_succ_of_lt (h.queued id due)
    · cases due
      exact Nat.lt_succ_self _
  case ended =>
    intro stopped
    rw [running_insertPeer, running] at stopped
    cases stopped

end Insert

/-! ### The end of a run -/

/-- What the end of a run puts on record: the news that it ends, every peer that was there, closed,
and every connection that was not taken over. -/
theorem deeds_teardown (r : Reactor) : ∃ new, r.teardown.deeds = new ++ r.deeds ∧
    (∀ d ∈ new, (∃ audience, d = .notified .shutdown audience) ∨ (∃ socket, d = .dropped socket) ∨
      ∃ id p, r.table.get? id = some p ∧ d = .retired (p.perform .markClosed)) ∧
    ∀ id p, r.table.get? id = some p → .retired (p.perform .markClosed) ∈ new := by
  refine ⟨((r.table.values.map fun p => Deed.retired (p.perform .markClosed)) ++
    (unclaimedSockets r.queue.commands).map Deed.dropped).reverse ++
      [.notified .shutdown r.shared.listeners.audience], ?_, ?_, ?_⟩
  · rw [List.append_assoc]
    rfl
  · intro d hd
    rcases List.mem_append.1 hd with hd | hd
    · rcases List.mem_append.1 (List.mem_reverse.1 hd) with hd | hd
      · obtain ⟨p, hp, rfl⟩ := List.mem_map.1 hd
        obtain ⟨id, found⟩ := IdMap.mem_values_iff.1 hp
        exact Or.inr (Or.inr ⟨id, p, found, rfl⟩)
      · obtain ⟨socket, -, rfl⟩ := List.mem_map.1 hd
        exact Or.inr (Or.inl ⟨socket, rfl⟩)
    · exact Or.inl ⟨_, List.mem_singleton.1 hd⟩
  · intro id p found
    refine List.mem_append_left _ (List.mem_reverse.2 (List.mem_append_left _ ?_))
    exact List.mem_map.2 ⟨p, IdMap.mem_values_iff.2 ⟨id, found⟩, rfl⟩

theorem retired_teardown {r : Reactor} {q : Peer} : .retired q ∈ r.teardown.deeds ↔
    (∃ id p, r.table.get? id = some p ∧ q = p.perform .markClosed) ∨ .retired q ∈ r.deeds := by
  obtain ⟨new, deeds, kinds, all⟩ := deeds_teardown r
  rw [deeds, List.mem_append]
  refine or_congr_left ⟨fun hq => ?_, ?_⟩
  · rcases kinds _ hq with ⟨audience, impossible⟩ | ⟨socket, impossible⟩ | ⟨id, p, found, same⟩
    · cases impossible
    · cases impossible
    · cases same
      exact ⟨id, p, found, rfl⟩
  · rintro ⟨id, p, found, rfl⟩
    exact all id p found

theorem joinedIds_teardown (r : Reactor) : joinedIds r.teardown.deeds = joinedIds r.deeds := by
  obtain ⟨new, deeds, kinds, -⟩ := deeds_teardown r
  rw [deeds]
  refine joinedIds_append fun d hd => ?_
  rcases kinds d hd with ⟨audience, rfl⟩ | ⟨socket, rfl⟩ | ⟨id, p, -, rfl⟩ <;> rfl

theorem Consistent.accounted_teardown (h : r.Consistent) : r.teardown.Accounted := by
  constructor
  case joined_lt =>
    rw [joinedIds_teardown]
    exact h.accounted.joined_lt
  case joined_nodup =>
    rw [joinedIds_teardown]
    exact h.accounted.joined_nodup
  case entered =>
    intro id p hp
    cases hp
  case left =>
    -- Whoever is not there any more went with the end of the run or before.
    intro id came _
    rw [joinedIds_teardown] at came
    cases there : r.table.get? id with
    | some p => exact ⟨_, retired_teardown.2 (Or.inl ⟨id, p, there, rfl⟩), h.keyed id p there⟩
    | none =>
      obtain ⟨q, hq, same⟩ := h.accounted.left id came there
      exact ⟨q, retired_teardown.2 (Or.inr hq), same⟩
  case gone =>
    intro q hq
    rw [joinedIds_teardown]
    rcases retired_teardown.1 hq with ⟨id, p, there, rfl⟩ | hq
    · have same : p.id = id := h.keyed id p there
      exact ⟨same ▸ h.accounted.entered id p there, rfl, rfl⟩
    · obtain ⟨came, closed, -⟩ := h.accounted.gone q hq
      exact ⟨came, closed, rfl⟩

theorem Consistent.teardown (h : r.Consistent) : r.teardown.Consistent where
  accounted := h.accounted_teardown
  keyed id p hp := by cases hp
  watched _ := rfl
  talking id p hp := by cases hp
  pending_nodup := List.nodup_nil
  pending_watched id hid := by cases hid
  queued id hid := by cases hid
  ended _ _ := rfl

/-! ### Runs -/

theorem accounted_start (config : ReactorConfig) (shared : Shared) (now : Nat) :
    (start config shared now).Accounted where
  joined_lt id hid := by cases hid
  joined_nodup := List.nodup_nil
  entered id p hp := by cases hp
  left id hid := by cases hid
  gone q hq := by cases hq

theorem consistent_start (config : ReactorConfig) (shared : Shared) (now : Nat) :
    (start config shared now).Consistent where
  accounted := accounted_start config shared now
  keyed id p hp := by cases hp
  watched _ := rfl
  talking id p hp := by cases hp
  pending_nodup := List.nodup_nil
  pending_watched id hid := by cases hid
  queued id hid := by cases hid
  ended stopped := by cases stopped

/-- **Every move keeps a reactor consistent.** -/
theorem Consistent.move (h : r.Consistent) (running : r.running = true) {id : PeerId}
    (move : Move r (some id) s) : s.Consistent := by
  cases move with
  | stray unknown => exact h.stray unknown
  | call held traffic => exact h.perform held traffic
  | pass held known => exact h.note held rfl
  | @welcome p e info held introduced admitted new =>
    have talks : (p.perform (.markReady info)).session.state ≠ .closed := by
      rw [Peer.perform, Session.perform, Session.markReady_unverified new]
      exact fun impossible => by cases impossible
    exact h.change (q := p.perform (.markReady info)) held rfl rfl talks
      (get?_put _ (p.perform (.markReady info))) rfl rfl rfl rfl
      ⟨[.notified (.peerWelcome p.id) _, .dispatched p.id e], rfl, by simp [Deed.isTurnover]⟩
  | @refuse p e info held introduced strange writes =>
    have noted := h.note (d := .dispatched p.id e) held rfl
    rcases onPeerInfo_strange (r := r.note (.dispatched p.id e)) strange p writes with
      ⟨m, refused⟩ | refused
    · rw [refused]
      exact (noted.perform (c := .send m writes) held rfl).close (p := p.perform _)
        (holds_perform _ _ _)
    · rw [refused]
      exact noted.close held
  | close held => exact h.close held
  | requeue id => exact h.requeue id
  | insert socket remote direction dialed now =>
    exact h.insert socket remote direction dialed now running

theorem kept_consistent : Kept Consistent where
  keyed h := h.keyed
  wait sight h := h.wait sight
  move h running move := h.move running move
  teardown h := h.teardown
  idle h idle := h.idle idle

/-- **A reactor is consistent throughout its runs.**  When a turn ends the run, nobody is left in
the table, watched or put back, and every peer that was there goes on record as closed. -/
theorem consistent_run (config : ReactorConfig) (shared : Shared) (now : Nat)
    (stimuli : List Stimulus) :
    let r := (start config shared now).run stimuli
    r.Consistent ∧ ∀ sight means, r.running = true → (r.turn sight means).running = false →
      (r.turn sight means).table.entries = [] ∧ (r.turn sight means).mux.sockets.entries = [] ∧
        (r.turn sight means).mux.pending = [] ∧
        ∀ id p, r.table.get? id = some p →
          .retired (p.perform .markClosed) ∈ (r.turn sight means).deeds := by
  intro r
  have h : r.Consistent := kept_consistent.run (consistent_start config shared now) stimuli
  refine ⟨h, fun sight means running stopped => ?_⟩
  rcases turn_cases running sight means (h.wait sight).keyed with
    ⟨-, quiet⟩ | ⟨w, -, ⟨-, ended⟩ | ⟨-, served⟩⟩
  · rw [quiet] at stopped
    rw [show (r.wait sight).2.running = r.running from rfl, running] at stopped
    cases stopped
  · rw [ended]
    exact ⟨rfl, rfl, rfl, fun id p hp => retired_teardown.2 (Or.inl ⟨id, p, hp, rfl⟩)⟩
  · rw [served.keeps.1, show (r.wait sight).2.running = r.running from rfl, running] at stopped
    cases stopped

/-- A connection comes, the node is asked to end, and the connection goes with it. -/
theorem consistent_run_shutdown :
    let arrives : Sight := ⟨0, 0, .connection ⟨7⟩ .elsewhere, []⟩
    let means : Means := ⟨0, .waiting [], [], []⟩
    let r := (start default .empty 0).run [.turn arrives means, .request .shutdown]
    ∃ p, r.table.get? ⟨1⟩ = some p ∧ .retired (p.perform .markClosed) ∈
      (r.turn arrives means).deeds := by
  intro arrives means r
  exact ⟨_, rfl, ((consistent_run default .empty 0 _).2 arrives means rfl rfl).2.2.2 ⟨1⟩ _ rfl⟩

end Reactor

end GossipNode
