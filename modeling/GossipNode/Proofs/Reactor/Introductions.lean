import GossipNode.Proofs.Reactor.Sessions

/-!
# Who is accepted

A peer is accepted by the first introduction that is acted upon on its connection, if that comes
from the node's own network and not from the node itself.  Otherwise it is let go.  No later
introduction changes anything, whatever the peers send and in whatever order.

## Main definitions

* `firstIntroduction` — the first introduction that was acted upon on a connection.
* `welcomes` — how often a connection has been welcomed.
* `Reactor.accepted` — the introduction by which a connection was accepted.
* `Reactor.Introduced` — identities, states and welcomes are those the record asks for.

## Main results

* `Reactor.kept_introduced` — every move keeps to the record.
* `Reactor.ready_safety` — **whoever is ready was accepted by its first introduction**, once and for
  good, and whoever introduces itself wrongly is let go.
-/

namespace GossipNode

/-! ### Introductions on record -/

/-- The introduction on a connection that something on record says was acted upon. -/
def Deed.introduces? (id : PeerId) : Deed → Option PeerInfo
  | .dispatched k e =>
    match e.message with
    | .ok (.peerInfo info) => if k = id then some info else none
    | _ => none
  | _ => none

/-- Whether something on record says that a connection was welcomed. -/
def Deed.welcomes (id : PeerId) : Deed → Bool
  | .notified (.peerWelcome k) _ => k = id
  | _ => false

/-- Whether something on record may be an introduction or a welcome. -/
def Deed.speaks : Deed → Bool
  | .dispatched .. | .notified (.peerWelcome _) _ => true
  | _ => false

/-- The first introduction that was acted upon on a connection.  The record has the last one
first. -/
def firstIntroduction (id : PeerId) (deeds : List Deed) : Option PeerInfo :=
  (deeds.filterMap (Deed.introduces? id)).getLast?

/-- How often a connection has been welcomed. -/
def welcomes (id : PeerId) (deeds : List Deed) : Nat := deeds.countP (Deed.welcomes id)

theorem firstIntroduction_append (id : PeerId) (new deeds : List Deed) :
    firstIntroduction id (new ++ deeds) =
      (firstIntroduction id deeds).or (firstIntroduction id new) := by
  rw [firstIntroduction, List.filterMap_append, List.getLast?_append]
  rfl

theorem firstIntroduction_silent {new : List Deed} (h : ∀ d ∈ new, d.speaks = false)
    (id : PeerId) (deeds : List Deed) :
    firstIntroduction id (new ++ deeds) = firstIntroduction id deeds := by
  have none_new : new.filterMap (Deed.introduces? id) = [] := by
    refine List.filterMap_eq_nil_iff.2 fun d hd => ?_
    have silent := h d hd
    cases d <;> first | rfl | cases silent
  rw [firstIntroduction_append, firstIntroduction, firstIntroduction, none_new, List.getLast?_nil,
    Option.or_none]

theorem welcomes_silent {new : List Deed} (h : ∀ d ∈ new, d.speaks = false) (id : PeerId)
    (deeds : List Deed) : welcomes id (new ++ deeds) = welcomes id deeds := by
  have none_new : new.countP (Deed.welcomes id) = 0 := by
    refine List.countP_eq_zero.2 fun d hd welcomed => ?_
    have silent := h d hd
    unfold Deed.welcomes at welcomed
    split at welcomed
    · cases silent
    · cases welcomed
  rw [welcomes, List.countP_append, none_new, Nat.zero_add, welcomes]

theorem Peer.record_silent {p : Peer} {c : Session.Call} : ∀ d ∈ p.record c, d.speaks = false := by
  intro d hd
  cases c <;> simp only [record, List.mem_cons, List.not_mem_nil, or_false] at hd
  · rcases hd with rfl | rfl <;> rfl
  · rw [hd]; rfl
  · rw [hd]; rfl

theorem Deed.silent_of_about {d : Deed} (h : d.about = none) : d.speaks = false := by
  unfold Deed.speaks
  split
  · cases h
  · cases h
  · rfl

/-- An introduction that is not the first one does not count. -/
theorem firstIntroduction_later {id : PeerId} {info : PeerInfo} {deeds : List Deed}
    (h : firstIntroduction id deeds = some info) (new : List Deed) :
    firstIntroduction id (new ++ deeds) = some info := by
  rw [firstIntroduction_append, h]
  rfl

/-- What an envelope that is acted upon says about the introduction of another connection. -/
theorem firstIntroduction_other {id k : PeerId} (other : k ≠ id) (e : Envelope)
    (deeds : List Deed) :
    firstIntroduction id (.dispatched k e :: deeds) = firstIntroduction id deeds := by
  have nothing : Deed.introduces? id (.dispatched k e) = none := by
    simp only [Deed.introduces?]
    split
    · exact if_neg other
    · rfl
  rw [firstIntroduction, List.filterMap_cons_none nothing, firstIntroduction]

/-- An envelope that introduces nobody says nothing about introductions. -/
theorem firstIntroduction_plain {e : Envelope} (h : ∀ info, e.message ≠ .ok (.peerInfo info))
    (id k : PeerId) (deeds : List Deed) :
    firstIntroduction id (.dispatched k e :: deeds) = firstIntroduction id deeds := by
  have nothing : Deed.introduces? id (.dispatched k e) = none := by simp only [Deed.introduces?]
  rw [firstIntroduction, List.filterMap_cons_none nothing, firstIntroduction]

/-- The first introduction is the one that is acted upon when there was none. -/
theorem firstIntroduction_first {id : PeerId} {e : Envelope} {info : PeerInfo}
    {deeds : List Deed} (introduced : e.message = .ok (.peerInfo info))
    (h : firstIntroduction id deeds = none) :
    firstIntroduction id (.dispatched id e :: deeds) = some info := by
  have this_one : Deed.introduces? id (.dispatched id e) = some info := by
    simp only [Deed.introduces?, introduced, if_pos]
  rw [firstIntroduction] at h
  rw [firstIntroduction, List.filterMap_cons_some this_one, List.getLast?_eq_none_iff.1 h]
  rfl

namespace Reactor

/-- The introduction by which a connection was accepted: the first one, if the node admits it. -/
def accepted (r : Reactor) (id : PeerId) : Option PeerInfo :=
  (firstIntroduction id r.deeds).filter fun info => r.config.admits info

/-- Identities, states and welcomes are those the record asks for. -/
structure Introduced (r : Reactor) : Prop where
  consistent : r.Consistent
  /-- The identity of a peer is the introduction by which it was accepted. -/
  identity : ∀ id p, r.Known id p → p.session.identity = r.accepted id
  /-- Those accepted are ready, all others have yet to introduce themselves. -/
  state : ∀ id p, r.table.get? id = some p →
    p.session.state = if (r.accepted id).isSome then .ready else .unverified
  /-- Those accepted have been welcomed once, all others never. -/
  welcomed : ∀ id, welcomes id r.deeds = if (r.accepted id).isSome then 1 else 0
  /-- Whoever introduces itself wrongly is not there any more. -/
  refused : ∀ id info, firstIntroduction id r.deeds = some info → ¬ r.config.admits info →
    r.table.get? id = none
  /-- Whoever introduces itself came. -/
  came : ∀ id info, firstIntroduction id r.deeds = some info → id ∈ joinedIds r.deeds

variable {r s : Reactor}

theorem accepted_eq_none {id : PeerId} (h : firstIntroduction id r.deeds = none) :
    r.accepted id = none := by
  rw [accepted, h]
  rfl

theorem accepted_eq_some {id : PeerId} {info : PeerInfo} :
    r.accepted id = some info ↔
      firstIntroduction id r.deeds = some info ∧ r.config.admits info := by
  rw [accepted, Option.filter_eq_some_iff, decide_eq_true_eq]

theorem accepted_strange {id : PeerId} {info : PeerInfo}
    (h : firstIntroduction id r.deeds = some info) (strange : ¬ r.config.admits info) :
    r.accepted id = none := by
  cases accepted : r.accepted id with
  | none => rfl
  | some other =>
    obtain ⟨first, admitted⟩ := accepted_eq_some.1 accepted
    cases h.symm.trans first
    exact absurd admitted strange

theorem Introduced.state_cases (h : r.Introduced) {p : Peer} (held : r.Holds p) :
    (p.session.state = .unverified ∧ firstIntroduction p.id r.deeds = none) ∨
      (p.session.state = .ready ∧ ∃ info, firstIntroduction p.id r.deeds = some info) := by
  have state := h.state p.id p held
  cases first : firstIntroduction p.id r.deeds with
  | none =>
    rw [accepted_eq_none first] at state
    exact Or.inl ⟨state, rfl⟩
  | some info =>
    by_cases admitted : r.config.admits info
    · rw [accepted_eq_some.2 ⟨first, admitted⟩] at state
      exact Or.inr ⟨state, info, rfl⟩
    · have gone := h.refused p.id info first admitted
      rw [show r.table.get? p.id = some p from held] at gone
      cases gone

/-- What may become of first introductions where nobody is accepted: nothing, or one that is not
admitted is the first, and the peer is gone. -/
def Turned (r s : Reactor) (k : PeerId) : Prop :=
  firstIntroduction k s.deeds = firstIntroduction k r.deeds ∨
    (firstIntroduction k r.deeds = none ∧ ∃ info, firstIntroduction k s.deeds = some info ∧
      ¬ r.config.admits info ∧ s.table.get? k = none)

theorem Turned.accepted {k : PeerId} (h : Turned r s k) (config : s.config = r.config) :
    s.accepted k = r.accepted k := by
  rcases h with same | ⟨none_before, info, first, strange, -⟩
  · rw [Reactor.accepted, Reactor.accepted, same, config]
  · rw [accepted_eq_none none_before, accepted_strange first (config ▸ strange)]

/-- Where nobody is accepted, a reactor keeps to the record if every peer that is there was there
before in the same state or begins afresh, and every peer that has gone was known. -/
theorem Introduced.carry (h : r.Introduced) (consistent : s.Consistent)
    (config : s.config = r.config) (turned : ∀ k, Turned r s k)
    (welcomed : ∀ k, welcomes k s.deeds = welcomes k r.deeds)
    (there : ∀ k q, s.table.get? k = some q →
      (∃ p, r.table.get? k = some p ∧ q.session.identity = p.session.identity ∧
        q.session.state = p.session.state) ∨
      (q.session = .start ∧ firstIntroduction k r.deeds = none))
    (gone : ∀ q, .retired q ∈ s.deeds →
      ∃ p, r.Known q.id p ∧ q.session.identity = p.session.identity)
    (came : ∀ id ∈ joinedIds r.deeds, id ∈ joinedIds s.deeds)
    (new_came : ∀ k info, firstIntroduction k r.deeds = none →
      firstIntroduction k s.deeds = some info → k ∈ joinedIds s.deeds) : s.Introduced := by
  have accepted (k : PeerId) : s.accepted k = r.accepted k := (turned k).accepted config
  constructor
  case consistent => exact consistent
  case identity =>
    intro k q hq
    rw [accepted]
    rcases hq with hq | ⟨hq, same⟩
    · rcases there k q hq with ⟨p, hp, identity, -⟩ | ⟨fresh, none_yet⟩
      · exact identity.trans (h.identity k p (Or.inl hp))
      · rw [accepted_eq_none none_yet, fresh]
        rfl
    · obtain ⟨p, hp, identity⟩ := gone q hq
      exact identity.trans (h.identity k p (same ▸ hp))
  case state =>
    intro k q hq
    rw [accepted]
    rcases there k q hq with ⟨p, hp, -, state⟩ | ⟨fresh, none_yet⟩
    · exact state.trans (h.state k p hp)
    · rw [accepted_eq_none none_yet, fresh]
      rfl
  case welcomed =>
    intro k
    rw [accepted, welcomed]
    exact h.welcomed k
  case refused =>
    -- Whoever has turned is gone; whoever has not is there only if it was there before.
    intro k info first strange
    rw [config] at strange
    rcases turned k with same | ⟨-, info', -, -, nobody⟩
    · rw [same] at first
      cases hq : s.table.get? k with
      | none => rfl
      | some q =>
        rcases there k q hq with ⟨p, hp, -⟩ | ⟨-, none_yet⟩
        · rw [h.refused k info first strange] at hp
          cases hp
        · rw [none_yet] at first
          cases first
    · exact nobody
  case came =>
    intro k info first
    cases before : firstIntroduction k r.deeds with
    | some other => exact came k (h.came k other before)
    | none => exact new_came k info before first

/-- A reactor keeps to the record where what is put on record is silent. -/
theorem Introduced.silent (h : r.Introduced) (consistent : s.Consistent)
    (config : s.config = r.config)
    (deeds : ∃ new, s.deeds = new ++ r.deeds ∧ ∀ d ∈ new, d.speaks = false)
    (there : ∀ k q, s.table.get? k = some q →
      (∃ p, r.table.get? k = some p ∧ q.session.identity = p.session.identity ∧
        q.session.state = p.session.state) ∨
      (q.session = .start ∧ firstIntroduction k r.deeds = none))
    (gone : ∀ q, .retired q ∈ s.deeds →
      ∃ p, r.Known q.id p ∧ q.session.identity = p.session.identity) : s.Introduced := by
  obtain ⟨new, hnew, silent⟩ := deeds
  have first (k : PeerId) : firstIntroduction k s.deeds = firstIntroduction k r.deeds :=
    hnew ▸ firstIntroduction_silent silent k r.deeds
  refine h.carry consistent config (fun k => Or.inl (first k))
    (fun k => hnew ▸ welcomes_silent silent k r.deeds) there gone (fun id hid => ?_) ?_
  · rw [hnew, joinedIds, List.filterMap_append]
    exact List.mem_append_right _ hid
  · intro k info before after
    rw [first, before] at after
    cases after

/-- A reactor keeps to the record where neither the table nor the record changes. -/
theorem Introduced.untouched (h : r.Introduced) (consistent : s.Consistent)
    (config : s.config = r.config) (table : s.table = r.table) (deeds : s.deeds = r.deeds) :
    s.Introduced := by
  refine h.silent consistent config ⟨[], deeds, fun _ hd => absurd hd List.not_mem_nil⟩
    (fun k q hq => Or.inl ⟨q, table ▸ hq, rfl, rfl⟩) fun q hq => ⟨q, Or.inr ⟨deeds ▸ hq, rfl⟩, rfl⟩

/-! ### The moves -/

theorem Introduced.perform (h : r.Introduced) {p : Peer} {c : Session.Call} (held : r.Holds p)
    (traffic : c.isTraffic = true) : (r.perform p c).Introduced := by
  refine h.silent (h.consistent.perform held traffic) rfl ⟨p.record c, rfl, Peer.record_silent⟩
    (fun k q hq => Or.inl ?_) fun q hq => ⟨q, Or.inr ⟨?_, rfl⟩, rfl⟩
  · rw [get?_perform] at hq
    split at hq
    · next same =>
      cases hq
      exact ⟨p, same ▸ held, Session.identity_perform_traffic traffic _,
        Session.state_perform_traffic traffic _⟩
    · exact ⟨q, hq, rfl, rfl⟩
  · exact (retired_quiet Peer.record_quiet).1 hq

theorem Introduced.close (h : r.Introduced) {p : Peer} (held : r.Holds p) :
    (r.closePeer p.id).Introduced := by
  have deeds := deeds_closePeer held
  refine h.silent (h.consistent.close held) (config_closePeer r p.id)
    ⟨[.notified (.peerClose p.id) _, .retired (p.perform .markClosed)], deeds,
      by simp [Deed.speaks]⟩ (fun k q hq => Or.inl ?_) fun q hq => ?_
  · rw [get?_closePeer] at hq
    split at hq
    · cases hq
    · exact ⟨q, hq, rfl, rfl⟩
  · rcases (retired_closePeer held).1 hq with rfl | hq
    · exact ⟨p, Or.inl held, rfl⟩
    · exact ⟨q, Or.inr ⟨hq, rfl⟩, rfl⟩

/-- An introduction that is not the first one, or an envelope that introduces nobody, changes
nothing. -/
theorem Introduced.pass (h : r.Introduced) {p : Peer} {e : Envelope} (held : r.Holds p)
    (known : ∀ info, e.message = .ok (.peerInfo info) →
      r.config.admits info ∧ p.session.state ≠ .unverified) :
    (r.note (.dispatched p.id e)).Introduced := by
  have first (k : PeerId) : firstIntroduction k (.dispatched p.id e :: r.deeds) =
      firstIntroduction k r.deeds := by
    by_cases introduces : ∃ info, e.message = .ok (.peerInfo info)
    · obtain ⟨info, introduced⟩ := introduces
      by_cases same : p.id = k
      · rcases h.state_cases held with ⟨new, -⟩ | ⟨-, other, hother⟩
        · exact absurd new (known info introduced).2
        · rw [same] at hother ⊢
          rw [hother]
          exact firstIntroduction_later hother [_]
      · exact firstIntroduction_other same e r.deeds
    · exact firstIntroduction_plain (fun info hinfo => introduces ⟨info, hinfo⟩) k p.id r.deeds
  refine h.carry (h.consistent.note held rfl) rfl (fun k => Or.inl (first k)) (fun k => rfl)
    (fun k q hq => Or.inl ⟨q, hq, rfl, rfl⟩) (fun q hq => ⟨q, Or.inr ⟨?_, rfl⟩, rfl⟩)
    (fun id hid => hid) fun k info before after => ?_
  · exact (List.mem_cons.1 hq).resolve_left fun impossible => by cases impossible
  · cases after.symm.trans ((first k).trans before)

/-- The first introduction of a peer that is admitted accepts it. -/
theorem Introduced.welcome (h : r.Introduced) {p : Peer} {e : Envelope} {info : PeerInfo}
    (held : r.Holds p) (introduced : e.message = .ok (.peerInfo info))
    (admitted : r.config.admits info) (new : p.session.state = .unverified)
    (hs : s = ((r.note (.dispatched p.id e)).put (p.perform (.markReady info))).notify
      (.peerWelcome p.id)) (consistent : s.Consistent) : s.Introduced := by
  have none_yet : firstIntroduction p.id r.deeds = none := by
    rcases h.state_cases held with ⟨-, none_yet⟩ | ⟨ready, -⟩
    · exact none_yet
    · cases new.symm.trans ready
  have first (k : PeerId) : firstIntroduction k s.deeds =
      firstIntroduction k (.dispatched p.id e :: r.deeds) := hs ▸ rfl
  have accepted_it : s.accepted p.id = some info := by
    refine accepted_eq_some.2 ⟨(first p.id).trans (firstIntroduction_first introduced none_yet), ?_⟩
    exact hs ▸ admitted
  have accepted_other {k : PeerId} (other : p.id ≠ k) : s.accepted k = r.accepted k := by
    rw [accepted, accepted, first, firstIntroduction_other other, hs]
    rfl
  have table (k : PeerId) : s.table.get? k =
      if p.id = k then some (p.perform (.markReady info)) else r.table.get? k :=
    hs ▸ get?_put _ (p.perform (.markReady info)) k
  have marked : p.session.perform (.markReady info) =
      { p.session with state := .ready, identity := some info } := by
    rw [Session.perform, Session.markReady_unverified new]
  constructor
  case consistent => exact consistent
  case identity =>
    intro k q hq
    by_cases same : p.id = k
    · subst same
      rcases hq with hq | ⟨gone, same⟩
      · rw [table, if_pos rfl] at hq
        cases hq
        rw [accepted_it, Peer.perform, marked]
      · -- Whoever is there has not gone.
        have nobody := (consistent.accounted.gone q gone).2.2
        rw [same, table, if_pos rfl] at nobody
        cases nobody
    · rw [accepted_other same]
      refine h.identity k q ?_
      rcases hq with hq | ⟨gone, same'⟩
      · rw [table, if_neg same] at hq
        exact Or.inl hq
      · rw [hs] at gone
        exact Or.inr ⟨by simpa [notify, note, put, withTable] using gone, same'⟩
  case state =>
    intro k q hq
    rw [table] at hq
    split at hq
    · next same =>
      cases hq
      rw [← same, accepted_it, Peer.perform, marked]
      rfl
    · next other =>
      rw [accepted_other other]
      exact h.state k q hq
  case welcomed =>
    intro k
    have counted : welcomes k s.deeds =
        welcomes k r.deeds + if p.id = k then 1 else 0 := by
      rw [hs]
      simp [welcomes, notify, note, put, withTable, List.countP_cons, Deed.welcomes]
    rw [counted, h.welcomed]
    by_cases same : p.id = k
    · rw [if_pos same, ← same, accepted_it, accepted_eq_none none_yet]
      rfl
    · rw [if_neg same, accepted_other same, Nat.add_zero]
  case refused =>
    intro k other_info hfirst strange
    rw [table]
    split
    · next same =>
      rw [← same] at hfirst
      cases hfirst.symm.trans (accepted_eq_some.1 accepted_it).1
      exact absurd (accepted_eq_some.1 accepted_it).2 strange
    · next other =>
      rw [first, firstIntroduction_other other] at hfirst
      refine h.refused k other_info hfirst ?_
      rw [hs] at strange
      exact strange
  case came =>
    intro k other_info hfirst
    have ids : joinedIds s.deeds = joinedIds r.deeds := hs ▸ rfl
    rw [ids]
    by_cases same : p.id = k
    · exact same ▸ h.consistent.accounted.entered p.id p held
    · rw [first, firstIntroduction_other same] at hfirst
      exact h.came k other_info hfirst

/-- A first introduction that is not admitted lets the peer go, and so does a later one. -/
theorem Introduced.refuse (h : r.Introduced) {p : Peer} {e : Envelope} {info : PeerInfo}
    (held : r.Holds p) (introduced : e.message = .ok (.peerInfo info))
    (strange : ¬ r.config.admits info) (config : s.config = r.config)
    (consistent : s.Consistent)
    (deeds : ∃ new, s.deeds = new ++ .dispatched p.id e :: r.deeds ∧ ∀ d ∈ new, d.speaks = false)
    (table : ∀ k, s.table.get? k = if p.id = k then none else r.table.get? k)
    (retired : ∀ q, .retired q ∈ s.deeds →
      (q.id = p.id ∧ q.session.identity = p.session.identity) ∨ .retired q ∈ r.deeds) :
    s.Introduced := by
  obtain ⟨new, hnew, silent⟩ := deeds
  have first (k : PeerId) : firstIntroduction k s.deeds =
      firstIntroduction k (.dispatched p.id e :: r.deeds) := by
    rw [hnew]
    exact firstIntroduction_silent silent k _
  have came : ∀ id ∈ joinedIds r.deeds, id ∈ joinedIds s.deeds := by
    intro id hid
    rw [hnew, joinedIds, List.filterMap_append]
    exact List.mem_append_right _ hid
  refine h.carry consistent config (fun k => ?_) (fun k => ?_) (fun k q hq => Or.inl ?_)
    (fun q hq => ?_) came fun k other before after => ?_
  · by_cases same : p.id = k
    · -- What the peer said first decides: this introduction, if there was none before.
      subst same
      cases before : firstIntroduction p.id r.deeds with
      | none =>
        exact Or.inr ⟨before, info, (first p.id).trans (firstIntroduction_first introduced before),
          strange, (table p.id).trans (if_pos rfl)⟩
      | some other =>
        exact Or.inl ((first p.id).trans ((firstIntroduction_later before [_]).trans before.symm))
    · exact Or.inl ((first k).trans (firstIntroduction_other same e r.deeds))
  · rw [hnew]
    exact welcomes_silent silent k _
  · rw [table] at hq
    split at hq
    · cases hq
    · exact ⟨q, hq, rfl, rfl⟩
  · rcases retired q hq with ⟨same, identity⟩ | gone
    · exact ⟨p, Or.inl (same ▸ held), identity⟩
    · exact ⟨q, Or.inr ⟨gone, rfl⟩, rfl⟩
  · by_cases same : p.id = k
    · exact came k (same ▸ h.consistent.accounted.entered p.id p held)
    · rw [first, firstIntroduction_other same, before] at after
      cases after

theorem Introduced.move (h : r.Introduced) (running : r.running = true) {id : PeerId}
    (move : Move r (some id) s) : s.Introduced := by
  have consistent := h.consistent.move running move
  have config := move.keeps.2
  cases move with
  | stray unknown => exact h.untouched consistent rfl rfl rfl
  | requeue id => exact h.untouched consistent rfl rfl rfl
  | call held traffic => exact h.perform held traffic
  | pass held known => exact h.pass held known
  | welcome held introduced admitted new =>
    exact h.welcome held introduced admitted new rfl consistent
  | close held => exact h.close held
  | insert socket remote direction dialed now =>
    have deeds := deeds_insertPeer r socket remote direction dialed now
    refine h.silent consistent config ⟨[_], deeds, by simp [Deed.speaks]⟩ (fun k q hq => ?_)
      fun q hq => ⟨q, Or.inr ⟨?_, rfl⟩, rfl⟩
    · rw [get?_insertPeer] at hq
      split at hq
      · next same =>
        cases hq
        refine Or.inr ⟨rfl, ?_⟩
        -- Nobody with the number of the next connection has introduced itself.
        cases first : firstIntroduction k r.deeds with
        | none => rfl
        | some info =>
          have below := h.consistent.accounted.joined_lt k (h.came k info first)
          exact absurd (same ▸ below) (Nat.lt_irrefl _)
      · exact Or.inl ⟨q, hq, rfl, rfl⟩
    · rw [deeds] at hq
      exact (List.mem_cons.1 hq).resolve_left fun impossible => by cases impossible
  | @refuse p e info held introduced strange writes =>
    have noted : (r.note (.dispatched p.id e)).Holds p := held
    rcases onPeerInfo_strange (r := r.note (.dispatched p.id e)) strange p writes with
      ⟨m, refused⟩ | refused
    · rw [refused] at consistent config ⊢
      have told := holds_perform (r.note (.dispatched p.id e)) p (.send m writes)
      have deeds := deeds_closePeer told
      refine h.refuse held introduced strange config consistent
        ⟨[_, _, _, _], deeds, by simp [Deed.speaks]⟩ (fun k => ?_) fun q hq => ?_
      · rw [get?_closePeer, get?_perform]
        split <;> rfl
      · rcases (retired_closePeer told).1 hq with rfl | hq
        · exact Or.inl ⟨rfl, p.session.identity_send m writes⟩
        · exact Or.inr ((retired_note rfl).1 ((retired_quiet Peer.record_quiet).1 hq))
    · rw [refused] at consistent config ⊢
      have deeds := deeds_closePeer noted
      refine h.refuse held introduced strange config consistent
        ⟨[_, _], deeds, by simp [Deed.speaks]⟩ (get?_closePeer _ p.id) fun q hq => ?_
      rcases (retired_closePeer noted).1 hq with rfl | hq
      · exact Or.inl ⟨rfl, rfl⟩
      · exact Or.inr ((retired_note rfl).1 hq)

theorem kept_introduced : Kept Introduced where
  keyed h := h.consistent.keyed
  wait sight h := h.untouched (h.consistent.wait sight) rfl rfl rfl
  move h running move := h.move running move
  teardown {r} h := by
    obtain ⟨new, deeds, kinds, -⟩ := deeds_teardown r
    refine h.silent h.consistent.teardown rfl ⟨new, deeds, fun d hd => ?_⟩ (fun k q hq => ?_)
      fun q hq => ?_
    · rcases kinds d hd with ⟨audience, rfl⟩ | ⟨socket, rfl⟩ | ⟨id, p, -, rfl⟩ <;> rfl
    · cases hq
    · rcases retired_teardown.1 hq with ⟨id, p, there, rfl⟩ | gone
      · have same : p.id = id := h.consistent.keyed id p there
        exact ⟨p, Or.inl (same.symm ▸ there), rfl⟩
      · exact ⟨q, Or.inr ⟨gone, rfl⟩, rfl⟩
  idle h idle := by
    obtain ⟨new, hnew, about⟩ := idle.deeds
    refine h.silent (h.consistent.idle idle) idle.config
      ⟨new, hnew, fun d hd => Deed.silent_of_about (about d hd)⟩ (fun k q hq => Or.inl ?_)
      fun q hq => ⟨q, Or.inr ⟨?_, rfl⟩, rfl⟩
    · exact ⟨q, idle.table ▸ hq, rfl, rfl⟩
    · obtain ⟨new, hnew, quiet⟩ := idle.quiet
      rw [hnew] at hq
      exact (retired_quiet quiet).1 hq

/-! ### Runs -/

theorem introduced_start (config : ReactorConfig) (shared : Shared) (now : Nat) :
    (start config shared now).Introduced := by
  constructor
  case consistent => exact consistent_start config shared now
  case identity =>
    rintro id p (hp | ⟨gone, -⟩)
    · cases hp
    · cases gone
  case state =>
    intro id p hp
    cases hp
  case welcomed => exact fun _ => rfl
  case refused =>
    intro id info first
    cases first
  case came =>
    intro id info first
    cases first

theorem introduced_run (config : ReactorConfig) (shared : Shared) (now : Nat)
    (stimuli : List Stimulus) : ((start config shared now).run stimuli).Introduced :=
  kept_introduced.run (introduced_start config shared now) stimuli

theorem kept_config (config : ReactorConfig) : Kept fun r => r.Consistent ∧ r.config = config where
  keyed h := h.1.keyed
  wait sight h := ⟨h.1.wait sight, h.2⟩
  move h running move := ⟨h.1.move running move, move.keeps.2.trans h.2⟩
  teardown h := ⟨h.1.teardown, h.2⟩
  idle h idle := ⟨h.1.idle idle, idle.config.trans h.2⟩

/-- No run changes the configuration. -/
theorem config_run (config : ReactorConfig) (shared : Shared) (now : Nat)
    (stimuli : List Stimulus) : ((start config shared now).run stimuli).config = config :=
  ((kept_config config).run ⟨consistent_start config shared now, rfl⟩ stimuli).2

/-- What is true of everyone a reactor has known, and of those it did not accept. -/
structure ReadySafe (config : ReactorConfig) (r : Reactor) : Prop where
  /-- A session is what calls have made of it. -/
  called : ∀ id p, r.Known id p → ∃ calls, p.session = Session.start.after calls
  /-- Whoever is ready has an identity. -/
  ready : ∀ id p, r.Known id p → p.session.state = .ready → ∃ info, p.session.identity = some info
  /-- An identity is the first introduction that was acted upon on the connection, and that one came
  from the node's own network and not from the node. -/
  identity : ∀ id p info, r.Known id p → p.session.identity = some info →
    firstIntroduction id r.deeds = some info ∧ info.networkId = config.ownInfo.networkId ∧
      info.uid ≠ config.ownInfo.uid
  /-- Nobody is welcomed twice. -/
  welcomed_once : ∀ id, welcomes id r.deeds ≤ 1
  /-- Whoever has an identity was welcomed, and nobody else. -/
  welcomed_iff : ∀ id p, r.Known id p → (p.session.identity.isSome ↔ welcomes id r.deeds = 1)
  /-- A first introduction that comes from another network or from the node itself ends in the
  removal of the peer, without a welcome. -/
  refused : ∀ id info, firstIntroduction id r.deeds = some info →
    info.networkId ≠ config.ownInfo.networkId ∨ info.uid = config.ownInfo.uid →
    r.table.get? id = none ∧ welcomes id r.deeds = 0 ∧
      ∃ q, .retired q ∈ r.deeds ∧ q.id = id ∧ q.session.state = .closed

theorem Introduced.readySafe (h : r.Introduced)
    (called : ∀ id p, r.Known id p → ∃ calls, p.session = Session.start.after calls) :
    ReadySafe r.config r := by
  constructor
  case called => exact called
  case ready =>
    intro id p hp ready
    obtain ⟨calls, hcalls⟩ := called id p hp
    rw [hcalls] at ready ⊢
    rcases Session.sound_start.after calls with ⟨state, -⟩ | ⟨-, some⟩ | state
    · cases state.symm.trans ready
    · exact Option.isSome_iff_exists.1 some
    · cases state.symm.trans ready
  case identity =>
    intro id p info hp identity
    rw [h.identity id p hp] at identity
    exact accepted_eq_some.1 identity
  case welcomed_once =>
    intro id
    rw [h.welcomed]
    split <;> omega
  case welcomed_iff =>
    intro id p hp
    rw [h.identity id p hp, h.welcomed]
    split <;> simp_all
  case refused =>
    intro id info first wrong
    have strange : ¬ r.config.admits info := by
      rintro ⟨network, uid⟩
      rcases wrong with other | self
      · exact other network
      · exact uid self
    have gone := h.refused id info first strange
    obtain ⟨q, hq, same⟩ := h.consistent.accounted.left id (h.came id info first) gone
    refine ⟨gone, ?_, q, hq, same, (h.consistent.accounted.gone q hq).2.1⟩
    rw [h.welcomed, accepted_strange first strange]
    rfl

/-- What is true of a peer later on, if it is known now. -/
theorem Introduced.later (h' : s.Introduced) (evolves : Evolves r s)
    {id : PeerId} {p : Peer} (hp : r.Known id p) (sound : p.session.Sound) :
    (∃ q calls, s.Known id q ∧ q.session = p.session.after calls) ∧
      ∀ q, s.Known id q →
        (∀ info, p.session.identity = some info → q.session.identity = some info) ∧
          (p.session.state = .closed → q.session.state = .closed) := by
  obtain ⟨q', calls, hq', hcalls⟩ := evolves.onward id p hp
  refine ⟨⟨q', calls, hq', hcalls⟩, fun q hq => ⟨fun info identity => ?_, fun closed => ?_⟩⟩
  · rw [h'.identity id q hq, ← h'.identity id q' hq', hcalls]
    exact Session.identity_after sound identity calls
  · have closed' : q'.session.state = .closed := hcalls ▸ Session.closed_after calls closed
    -- Whoever is closed has gone, and so nobody of that number is there.
    have nobody : s.table.get? id = none := by
      rcases hq' with there | ⟨gone, same⟩
      · exact absurd closed' (h'.consistent.talking id q' there)
      · exact same ▸ (h'.consistent.accounted.gone q' gone).2.2
    rcases hq with there | ⟨gone, -⟩
    · rw [nobody] at there
      cases there
    · exact (h'.consistent.accounted.gone q gone).2.1

/-- Every session a reactor has known is what calls have made of it. -/
theorem called_run (config : ReactorConfig) (shared : Shared) (now : Nat)
    (stimuli : List Stimulus) {id : PeerId} {p : Peer}
    (hp : ((start config shared now).run stimuli).Known id p) :
    ∃ calls, p.session = Session.start.after calls := by
  have evolves := evolves_run (consistent_start config shared now) stimuli
  rcases evolves.origin id p hp with ⟨q, calls, hq, -⟩ | fresh
  · rcases hq with there | ⟨gone, -⟩
    · cases there
    · cases gone
  · exact fresh

/-- **Whoever is ready was accepted by its first introduction**, once and for good.  Of all calls on
a session at most one accepts an introduction, an identity is there exactly if the session has once
been ready, and identity and end are for good.  Throughout a run, whatever the peers send, nobody
gets an identity but by the first introduction on its connection, and whoever introduces itself
wrongly at first is let go without a welcome. -/
theorem ready_safety :
    (∀ calls, Session.start.acceptances calls ≤ 1 ∧
      ((Session.start.after calls).identity.isSome ↔
        ∃ early, early <+: calls ∧ (Session.start.after early).state = .ready) ∧
      ∀ early, early <+: calls →
        (∀ info, (Session.start.after early).identity = some info →
          (Session.start.after calls).identity = some info) ∧
        ((Session.start.after early).state = .closed →
          (Session.start.after calls).state = .closed)) ∧
    ∀ config shared now stimuli, ReadySafe config ((start config shared now).run stimuli) ∧
      ∀ more id p, ((start config shared now).run stimuli).Known id p →
        (∃ q calls, ((start config shared now).run (stimuli ++ more)).Known id q ∧
          q.session = p.session.after calls) ∧
        ∀ q, ((start config shared now).run (stimuli ++ more)).Known id q →
          (∀ info, p.session.identity = some info → q.session.identity = some info) ∧
            (p.session.state = .closed → q.session.state = .closed) := by
  refine ⟨fun calls => ⟨Session.acceptances_le_one calls _, Session.isSome_identity_iff calls, ?_⟩,
    fun config shared now stimuli => ⟨?_, fun more id p hp => ?_⟩⟩
  · rintro early ⟨rest, rfl⟩
    rw [Session.after_append]
    exact ⟨fun info identity =>
      Session.identity_after (Session.sound_start.after early) identity rest,
      Session.closed_after rest⟩
  · have safe := (introduced_run config shared now stimuli).readySafe
      fun id p hp => called_run config shared now stimuli hp
    rwa [config_run] at safe
  · obtain ⟨calls, hcalls⟩ := called_run config shared now stimuli hp
    have before := introduced_run config shared now stimuli
    have after := introduced_run config shared now (stimuli ++ more)
    rw [run_append] at after ⊢
    exact after.later (evolves_run before.consistent more) hp
      (hcalls ▸ Session.sound_start.after calls)

/-- A connection comes and introduces itself from the node's network: it is ready, and known by what
it said. -/
theorem ready_safety_introduced :
    let stranger : PeerInfo := { (default : PeerInfo) with uid := 7 }
    let idle : Means := ⟨0, .waiting [], [], []⟩
    let r := (start default .empty 0).run
      [.turn ⟨0, 0, .connection ⟨3⟩ .elsewhere, []⟩ idle,
        .turn ⟨0, 0, .none, [(⟨1⟩, .ok .read)]⟩
          { idle with incoming := .waiting (Message.peerInfo stranger).encode }]
    ∃ p, r.Known ⟨1⟩ p ∧ p.session.identity = some stranger ∧
      firstIntroduction ⟨1⟩ r.deeds = some stranger := by
  intro stranger idle r
  have ready : (r.table.get? ⟨1⟩).map (·.session.identity) = some (some stranger) := by
    decide +kernel
  obtain ⟨p, hp, identity⟩ := Option.map_eq_some_iff.1 ready
  exact ⟨p, Or.inl hp, identity,
    ((ready_safety.2 default .empty 0 _).1.identity ⟨1⟩ p stranger (Or.inl hp) identity).1⟩

end Reactor

end GossipNode
