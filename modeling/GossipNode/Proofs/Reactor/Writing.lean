import GossipNode.Proofs.Peer.Output
import GossipNode.Proofs.Reactor.Chronicle
import GossipNode.Proofs.Reactor.Conversations

/-!
# What the sockets have taken

The bytes that the socket of a peer has taken and those that are due to the peer are the messages
that were handed over to it, whatever else the reactor has done in between.  So what the other side
can ever read is the beginning of what was said to it.

## Main definitions

* `wroteTo` — the bytes that the socket of a peer took.
* `Reactor.Balanced` — those and what is due are what was said.

## Main results

* `Reactor.deeds_react` — what is on record stays there.
* `Reactor.kept_balanced` — **every move keeps the balance.**
* `Reactor.Balanced.prefix` — what was taken is the beginning of what was said.
-/

namespace GossipNode

/-! ### The record of output -/

/-- The bytes that something on record says the socket of a peer took. -/
def Deed.wrote? (id : PeerId) : Deed → Option Bytes
  | .wrote k bytes => if k = id then some bytes else none
  | _ => none

/-- The bytes that the socket of a peer took, in order. -/
def wroteTo (id : PeerId) (deeds : List Deed) : Bytes :=
  (deeds.filterMap (Deed.wrote? id)).reverse.flatten

/-- Whether something on record says that a message was handed over or that a socket took bytes. -/
def Deed.isOutput : Deed → Bool
  | .sent .. | .wrote .. => true
  | _ => false

theorem wroteTo_append (id : PeerId) (new deeds : List Deed) :
    wroteTo id (new ++ deeds) = wroteTo id deeds ++ wroteTo id new := by
  simp [wroteTo]

theorem sentTo_append (id : PeerId) (new deeds : List Deed) :
    sentTo id (new ++ deeds) = sentTo id deeds ++ sentTo id new := by
  simp [sentTo]

theorem output_quiet {id : PeerId} {new : List Deed}
    (h : ∀ d ∈ new, d.isOutput = false ∨ d.about ≠ some id) :
    wroteTo id new = [] ∧ sentTo id new = [] := by
  have silent : ∀ d ∈ new, d.wrote? id = none ∧ d.sent? id = none := by
    intro d hd
    have quiet := h d hd
    cases d with
    | sent k m =>
      have other : k ≠ id := fun same => by simp [Deed.isOutput, Deed.about, same] at quiet
      exact ⟨rfl, if_neg other⟩
    | wrote k bytes =>
      have other : k ≠ id := fun same => by simp [Deed.isOutput, Deed.about, same] at quiet
      exact ⟨if_neg other, rfl⟩
    | _ => exact ⟨rfl, rfl⟩
  constructor
  · rw [wroteTo, List.filterMap_eq_nil_iff.2 fun d hd => (silent d hd).1]
    rfl
  · rw [sentTo, List.filterMap_eq_nil_iff.2 fun d hd => (silent d hd).2]
    rfl

/-- A call on a session puts on record what it makes the socket take. -/
theorem Peer.wroteTo_record (p : Peer) (c : Session.Call) :
    wroteTo p.id (p.record c) = p.session.taken c := by
  cases c <;> simp [record, wroteTo, Deed.wrote?, Session.taken]

/-- A call on a session that is not over puts on record what it hands over. -/
theorem Peer.sentTo_record {p : Peer} (talks : p.session.state ≠ .closed) (c : Session.Call) :
    sentTo p.id (p.record c) = p.session.handed c := by
  cases c with
  | send m outcomes => simp [record, sentTo, Deed.sent?, Session.handed, talks, List.filterMap_cons]
  | _ => rfl

namespace Reactor

variable {r s : Reactor}

/-- The record is about connections that have come, and on each of them the bytes that the socket
has taken and those that are due are the messages that were handed over. -/
structure Balanced (r : Reactor) : Prop where
  consistent : r.Consistent
  attested : ∀ d ∈ r.deeds, ∀ id, d.about = some id → id ∈ joinedIds r.deeds
  balance : ∀ id p, r.Known id p →
    wroteTo id r.deeds ++ p.session.outbound = encodeAll (sentTo id r.deeds)

/-- The balance is kept where nothing is put out and nobody's due bytes change. -/
theorem Balanced.quiet (h : r.Balanced) (consistent : s.Consistent)
    (deeds : ∃ new, s.deeds = new ++ r.deeds ∧ (∀ d ∈ new, d.isOutput = false) ∧
      ∀ d ∈ new, ∀ id, d.about = some id → id ∈ joinedIds r.deeds)
    (known : ∀ id q, s.Known id q →
      ∃ p, r.Known id p ∧ q.session.outbound = p.session.outbound) : s.Balanced := by
  obtain ⟨new, hnew, quiet, about⟩ := deeds
  refine ⟨consistent, fun d hd id same => ?_, fun id q hq => ?_⟩
  · rw [hnew] at hd ⊢
    rw [joinedIds, List.filterMap_append]
    refine List.mem_append_right _ ?_
    rcases List.mem_append.1 hd with now | before
    · exact about d now id same
    · exact h.attested d before id same
  · obtain ⟨p, hp, outbound⟩ := known id q hq
    obtain ⟨unwritten, unsaid⟩ := @output_quiet id new fun d hd => Or.inl (quiet d hd)
    rw [hnew, wroteTo_append, sentTo_append, unwritten, unsaid, outbound, List.append_nil,
      List.append_nil]
    exact h.balance id p hp

/-- Somebody who is there is the only one of that number. -/
theorem Consistent.known_unique (h : r.Consistent) {id : PeerId} {p q : Peer}
    (there : r.table.get? id = some p) (known : r.Known id q) : q = p := by
  rcases known with there' | ⟨gone, same⟩
  · exact Option.some.inj (there'.symm.trans there)
  · have nobody := (h.accounted.gone q gone).2.2
    rw [same, there] at nobody
    cases nobody

/-- The balance is kept when a session is called. -/
theorem Balanced.perform (h : r.Balanced) {p : Peer} {c : Session.Call} (held : r.Holds p)
    (traffic : c.isTraffic = true) : (r.perform p c).Balanced := by
  have consistent := h.consistent.perform held traffic
  refine ⟨consistent, fun d hd id same => ?_, fun id q hq => ?_⟩
  · show id ∈ joinedIds (p.record c ++ r.deeds)
    rw [joinedIds_quiet Peer.record_quiet]
    rcases List.mem_append.1 hd with now | before
    · rw [Peer.record_about d now] at same
      cases same
      exact h.consistent.accounted.entered p.id p held
    · exact h.attested d before id same
  · show wroteTo id (p.record c ++ r.deeds) ++ q.session.outbound =
      encodeAll (sentTo id (p.record c ++ r.deeds))
    rw [wroteTo_append, sentTo_append]
    by_cases same : p.id = id
    · subst same
      have this_one := consistent.known_unique (holds_perform r p c) hq
      subst this_one
      -- What the call makes the socket take comes off what was due and what is handed over.
      have account := p.session.taken_append_perform c
      have before := h.balance p.id p (Or.inl held)
      rw [Peer.wroteTo_record, Peer.sentTo_record (h.consistent.talking p.id p held),
        encodeAll_append, ← before, List.append_assoc, List.append_assoc, ← account]
      rfl
    · have known : r.Known id q := by
        rcases hq with there | ⟨gone, number⟩
        · rw [get?_perform, if_neg same] at there
          exact Or.inl there
        · exact Or.inr ⟨(retired_quiet Peer.record_quiet).1 gone, number⟩
      have other : ∀ d ∈ p.record c, d.isOutput = false ∨ d.about ≠ some id := by
        intro d hd
        rw [Peer.record_about d hd]
        exact Or.inr fun equal => same (Option.some.inj equal)
      obtain ⟨unwritten, unsaid⟩ := output_quiet other
      rw [unwritten, unsaid, List.append_nil, List.append_nil]
      exact h.balance id q known

/-- The balance is kept when a peer is let go: what is due to it stays due. -/
theorem Balanced.close (h : r.Balanced) {p : Peer} (held : r.Holds p) :
    (r.closePeer p.id).Balanced := by
  refine h.quiet (h.consistent.close held)
    ⟨[_, _], deeds_closePeer held, by simp [Deed.isOutput], ?_⟩ fun id q hq => ?_
  · have came := h.consistent.accounted.entered p.id p held
    simp [Deed.about, Peer.perform, came]
  · rcases hq with there | ⟨gone, number⟩
    · rw [get?_closePeer] at there
      split at there
      · cases there
      · exact ⟨q, Or.inl there, rfl⟩
    · rcases (retired_closePeer held).1 gone with rfl | gone
      · exact ⟨p, Or.inl (number ▸ held), rfl⟩
      · exact ⟨q, Or.inr ⟨gone, number⟩, rfl⟩

theorem Balanced.note (h : r.Balanced) {p : Peer} (held : r.Holds p) (e : Envelope) :
    (r.note (.dispatched p.id e)).Balanced := by
  refine h.quiet (h.consistent.note held rfl)
    ⟨[_], rfl, fun _ hd => List.mem_singleton.1 hd ▸ rfl, fun d hd id same => ?_⟩ fun id q hq =>
      ⟨q, hq.imp_right fun gone => ⟨(retired_note rfl).1 gone.1, gone.2⟩, rfl⟩
  rw [List.mem_singleton.1 hd] at same
  cases same
  exact h.consistent.accounted.entered p.id p held

/-- The balance is kept when a peer is welcomed. -/
theorem Balanced.welcome (h : r.Balanced) {p : Peer} {e : Envelope} {info : PeerInfo}
    (held : r.Holds p)
    (hs : s = ((r.note (.dispatched p.id e)).put (p.perform (.markReady info))).notify
      (.peerWelcome p.id)) (consistent : s.Consistent) : s.Balanced := by
  have came := h.consistent.accounted.entered p.id p held
  have deeds : s.deeds = [.notified (.peerWelcome p.id) r.shared.listeners.audience,
    .dispatched p.id e] ++ r.deeds := hs ▸ rfl
  have table (k : PeerId) : s.table.get? k =
      if p.id = k then some (p.perform (.markReady info)) else r.table.get? k :=
    hs ▸ get?_put _ (p.perform (.markReady info)) k
  refine h.quiet consistent ⟨_, deeds, by simp [Deed.isOutput], ?_⟩ fun id q hq => ?_
  · simp [Deed.about, came]
  · rcases hq with there | ⟨gone, number⟩
    · rw [table] at there
      split at there
      · next same =>
        cases there
        exact ⟨p, Or.inl (same ▸ held), Session.outbound_markReady _ info⟩
      · exact ⟨q, Or.inl there, rfl⟩
    · rw [deeds] at gone
      exact ⟨q, Or.inr ⟨by simpa using gone, number⟩, rfl⟩

/-- Nothing has been put out on a connection that is just taken over. -/
theorem Balanced.insert (h : r.Balanced) (socket : SocketId) (remote : SocketAddress)
    (direction : Direction) (dialed : Option String) (now : Nat)
    (consistent : (r.insertPeer socket remote direction dialed now).Consistent) :
    (r.insertPeer socket remote direction dialed now).Balanced := by
  have deeds := deeds_insertPeer r socket remote direction dialed now
  refine ⟨consistent, fun d hd id same => ?_, fun id q hq => ?_⟩
  · rw [deeds] at hd ⊢
    rcases List.mem_cons.1 hd with rfl | before
    · cases same
      exact List.mem_cons_self
    · exact List.mem_cons_of_mem _ (h.attested d before id same)
  · rw [deeds]
    show wroteTo id ([_] ++ r.deeds) ++ _ = encodeAll (sentTo id ([_] ++ r.deeds))
    obtain ⟨unwritten, unsaid⟩ :=
      @output_quiet id [.joined (r.newPeer socket remote direction dialed now)]
        fun d hd => Or.inl (List.mem_singleton.1 hd ▸ rfl)
    rw [wroteTo_append, sentTo_append, unwritten, unsaid, List.append_nil, List.append_nil]
    by_cases same : r.nextId = id
    · subst same
      have nothing : ∀ d ∈ r.deeds, d.isOutput = false ∨ d.about ≠ some r.nextId :=
        fun d hd => Or.inr fun about =>
          Nat.lt_irrefl _ (h.consistent.accounted.joined_lt _ (h.attested d hd _ about))
      obtain ⟨unwritten, unsaid⟩ := output_quiet nothing
      have this_one := consistent.known_unique ((get?_insertPeer r ..).trans (if_pos rfl)) hq
      rw [unwritten, unsaid, this_one]
      rfl
    · refine h.balance id q ?_
      rcases hq with there | ⟨gone, number⟩
      · rw [get?_insertPeer, if_neg same] at there
        exact Or.inl there
      · rw [deeds] at gone
        refine Or.inr ⟨(List.mem_cons.1 gone).resolve_left fun equal => ?_, number⟩
        cases equal

theorem Balanced.move (h : r.Balanced) (running : r.running = true) {id : PeerId}
    (move : Move r (some id) s) : s.Balanced := by
  have consistent := h.consistent.move running move
  have same_known : ∀ id q, r.Known id q →
      ∃ p, r.Known id p ∧ q.session.outbound = p.session.outbound := fun _ q hq => ⟨q, hq, rfl⟩
  have nothing_new : ∃ new : List Deed, r.deeds = new ++ r.deeds ∧
      (∀ d ∈ new, d.isOutput = false) ∧
        ∀ d ∈ new, ∀ id, d.about = some id → id ∈ joinedIds r.deeds :=
    ⟨[], rfl, (fun _ hd => by cases hd), fun _ hd => by cases hd⟩
  cases move with
  | stray unknown => exact h.quiet consistent nothing_new same_known
  | requeue id => exact h.quiet consistent nothing_new same_known
  | call held traffic => exact h.perform held traffic
  | pass held known => exact h.note held _
  | welcome held introduced admitted new => exact h.welcome held rfl consistent
  | close held => exact h.close held
  | insert socket remote direction dialed now =>
    exact h.insert socket remote direction dialed now consistent
  | @refuse p e info held introduced strange writes =>
    have noted := h.note held e
    rcases onPeerInfo_strange (r := r.note (.dispatched p.id e)) strange p writes with
      ⟨m, refused⟩ | refused
    · rw [refused]
      exact (noted.perform (c := .send m writes) held rfl).close (p := p.perform _)
        (holds_perform _ _ _)
    · rw [refused]
      exact noted.close held

/-- The balance is kept at the end of a run: what is due stays due. -/
theorem Balanced.teardown (h : r.Balanced) : r.teardown.Balanced := by
  obtain ⟨new, deeds, kinds, -⟩ := deeds_teardown r
  refine h.quiet h.consistent.teardown
    ⟨new, deeds, fun d hd => ?_, fun d hd id same => ?_⟩ fun id q hq => ?_
  · rcases kinds d hd with ⟨audience, rfl⟩ | ⟨socket, rfl⟩ | ⟨k, p, -, rfl⟩ <;> rfl
  · rcases kinds d hd with ⟨audience, rfl⟩ | ⟨socket, rfl⟩ | ⟨k, p, there, rfl⟩
    · cases same
    · cases same
    · cases same
      exact h.consistent.keyed k p there ▸ h.consistent.accounted.entered k p there
  · rcases hq with there | ⟨gone, number⟩
    · cases there
    · rcases retired_teardown.1 gone with ⟨k, p, there, rfl⟩ | gone
      · have key : k = id := (h.consistent.keyed k p there).symm.trans number
        exact ⟨p, Or.inl (key ▸ there), rfl⟩
      · exact ⟨q, Or.inr ⟨gone, number⟩, rfl⟩

/-- **Every move keeps the balance.** -/
theorem kept_balanced : Kept Balanced where
  keyed h := h.consistent.keyed
  wait sight h := h.quiet (h.consistent.wait sight)
    ⟨[], rfl, (fun _ hd => by cases hd), fun _ hd => by cases hd⟩ fun _ q hq => ⟨q, hq, rfl⟩
  move h running move := h.move running move
  teardown h := h.teardown
  idle {r s} h idle := by
    obtain ⟨new, hnew, about⟩ := idle.deeds
    refine h.quiet (h.consistent.idle idle) ⟨new, hnew, fun d hd => ?_, fun d hd id same => ?_⟩
      fun id q hq => ⟨q, ?_, rfl⟩
    · have unrelated := about d hd
      cases d <;> first | rfl | cases unrelated
    · rw [about d hd] at same
      cases same
    · rw [Known, idle.table, hnew] at hq
      obtain ⟨new', hnew', quiet⟩ := idle.quiet
      rw [← hnew, hnew'] at hq
      exact hq.imp_right fun gone => ⟨(retired_quiet quiet).1 gone.1, gone.2⟩

theorem balanced_start (config : ReactorConfig) (shared : Shared) (now : Nat) :
    (start config shared now).Balanced where
  consistent := consistent_start config shared now
  attested d hd := by cases hd
  balance id p hp := by
    rcases hp with there | ⟨gone, -⟩
    · cases there
    · cases gone

/-- What was taken is the beginning of what was said. -/
theorem Balanced.prefix (h : r.Balanced) (id : PeerId) :
    wroteTo id r.deeds <+: encodeAll (sentTo id r.deeds) := by
  by_cases came : id ∈ joinedIds r.deeds
  · have known : ∃ p, r.Known id p := by
      cases there : r.table.get? id with
      | some p => exact ⟨p, Or.inl there⟩
      | none =>
        obtain ⟨q, gone⟩ := h.consistent.accounted.left id came there
        exact ⟨q, Or.inr gone⟩
    obtain ⟨p, hp⟩ := known
    exact ⟨_, h.balance id p hp⟩
  · have nothing : ∀ d ∈ r.deeds, d.isOutput = false ∨ d.about ≠ some id :=
      fun d hd => Or.inr fun about => came (h.attested d hd id about)
    rw [(output_quiet nothing).1]
    exact List.nil_prefix

/-- What is on record stays there. -/
theorem deeds_react (h : r.Consistent) (stimulus : Stimulus) :
    ∃ new, (r.react stimulus).deeds = new ++ r.deeds := by
  have kept : Kept fun s => s.Consistent ∧ r.deeds <:+ s.deeds := {
    keyed := fun h => h.1.keyed
    wait := fun sight h => ⟨h.1.wait sight, h.2⟩
    move := fun h running move => ⟨h.1.move running move, by
      obtain ⟨new, hnew, -⟩ := move.about
      exact hnew ▸ h.2.trans (List.suffix_append _ _)⟩
    teardown := fun h => ⟨h.1.teardown, by
      obtain ⟨new, hnew, -⟩ := deeds_teardown _
      exact hnew ▸ h.2.trans (List.suffix_append _ _)⟩
    idle := fun h idle => ⟨h.1.idle idle, by
      obtain ⟨new, hnew, -⟩ := idle.deeds
      exact hnew ▸ h.2.trans (List.suffix_append _ _)⟩ }
  obtain ⟨new, hnew⟩ := (kept.react ⟨h, List.suffix_rfl⟩ stimulus).2
  exact ⟨new, hnew.symm⟩

end Reactor

end GossipNode
