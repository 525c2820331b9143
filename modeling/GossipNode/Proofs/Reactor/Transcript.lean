import GossipNode.Proofs.Reactor.Handling

/-!
# What may be said, and when

On a connection that the other side began a node says who it is and whom it knows, once the other
side has introduced itself; on one that it began itself it says who it is before it listens.  In
either case it may take its leave, and says nothing afterwards.  Here this is put as a property of
the record: what is on record must not have come too early.

## Main definitions

* `sentTo` — the messages that were handed over to a peer.
* `Direction.Script` — the messages that may be handed over on a connection.
* `Seemly`, `Orderly` — what may be put on record of a connection, and when.
* `Proper` — the record of a conversation that goes on.

## Main results

* `Orderly.split` — whatever is on record was seemly when it was put there.
* `Proper.sent`, `Proper.read`, `Proper.dispatched`, `Proper.mild` — what a conversation may go on
  with.
-/

namespace GossipNode

/-- Whether a message takes leave. -/
def Message.isFarewell : Message → Bool
  | .disconnect .. => true
  | .peerInfo _ | .discovery _ => false

/-! ### Messages on record -/

/-- The message that something on record says was handed over to a peer. -/
def Deed.sent? (id : PeerId) : Deed → Option Message
  | .sent k m => if k = id then some m else none
  | _ => none

/-- The messages that were handed over to a peer, in order. -/
def sentTo (id : PeerId) (deeds : List Deed) : List Message :=
  (deeds.filterMap (Deed.sent? id)).reverse

/-- Something on record that is neither a message to a peer nor a read from it. -/
def Deed.Silent (id : PeerId) : Deed → Prop
  | .sent k _ | .read k _ => k ≠ id
  | _ => True

variable {id : PeerId} {new deeds : List Deed}

theorem mem_sentTo {m : Message} : m ∈ sentTo id deeds ↔ .sent id m ∈ deeds := by
  rw [sentTo, List.mem_reverse, List.mem_filterMap]
  constructor
  · rintro ⟨d, hd, said⟩
    unfold Deed.sent? at said
    split at said
    · split at said
      · next same =>
        cases said
        exact same ▸ hd
      · cases said
    · cases said
  · exact fun said => ⟨.sent id m, said, if_pos rfl⟩

theorem sentTo_sent (id : PeerId) (m : Message) (deeds : List Deed) :
    sentTo id (.sent id m :: deeds) = sentTo id deeds ++ [m] := by
  simp [sentTo, Deed.sent?]

theorem Deed.Silent.sent?_eq_none {d : Deed} (h : d.Silent id) : d.sent? id = none := by
  unfold sent?
  split
  · exact if_neg h
  · rfl

theorem sentTo_silent (h : ∀ d ∈ new, d.Silent id) :
    sentTo id (new ++ deeds) = sentTo id deeds := by
  rw [sentTo, List.filterMap_append,
    List.filterMap_eq_nil_iff.2 fun d hd => (h d hd).sent?_eq_none]
  rfl

/-! ### What may be said -/

/-- The messages that may be handed over on a connection: on one that the other side began an
introduction, the peers that are known and a farewell; on one that the node began an introduction
and a farewell; on either, as many of them from the first one on as there has been time for, or
nothing but a farewell. -/
def Direction.Script (own : PeerInfo) : Direction → List Message → Prop
  | .inbound, ms => (∃ addresses why text,
      ms <+: [.peerInfo own, .discovery addresses, .disconnect why text]) ∨
        ∃ why text, ms = [.disconnect why text]
  | .outbound, ms => (∃ why text, ms <+: [.peerInfo own, .disconnect why text]) ∨
      ∃ why text, ms = [.disconnect why text]
  | .unknown, _ => False

/-- What may be put on record of a connection after what is there: nothing is said after an
introduction of the node itself; nothing but a farewell is said on a connection that the other side
began before it has introduced itself and is welcome; nothing is read from a connection that the
node began before it has introduced itself. -/
def Seemly (config : ReactorConfig) (direction : Direction) (id : PeerId) (earlier : List Deed) :
    Deed → Prop
  | .sent k m => k = id → (∀ e, .dispatched id e ∈ earlier → ¬ config.isOwn e) ∧
      (direction = .inbound → m.isFarewell = false → ∃ e info, .dispatched id e ∈ earlier ∧
        e.message = .ok (.peerInfo info) ∧ config.admits info)
  | .read k _ => k = id → direction = .outbound →
      .sent id (.peerInfo config.ownInfo) ∈ earlier
  | _ => True

/-- Whatever is on record of a connection was seemly when it was put there. -/
def Orderly (config : ReactorConfig) (direction : Direction) (id : PeerId) : List Deed → Prop
  | [] => True
  | d :: earlier => Seemly config direction id earlier d ∧ Orderly config direction id earlier

variable {config : ReactorConfig} {direction : Direction}

theorem Orderly.split {later earlier : List Deed} {d : Deed}
    (h : Orderly config direction id (later ++ d :: earlier)) :
    Seemly config direction id earlier d := by
  induction later with
  | nil => exact h.1
  | cons first later ih => exact ih h.2

theorem Deed.Silent.seemly {d : Deed} (h : d.Silent id) (earlier : List Deed) :
    Seemly config direction id earlier d := by
  unfold Seemly
  split
  · exact fun same => absurd same h
  · exact fun same => absurd same h
  · exact True.intro

theorem Orderly.silent (h : Orderly config direction id deeds) (silent : ∀ d ∈ new, d.Silent id) :
    Orderly config direction id (new ++ deeds) := by
  induction new with
  | nil => exact h
  | cons d new ih =>
    exact ⟨(silent d List.mem_cons_self).seemly _,
      ih fun d' hd => silent d' (List.mem_cons_of_mem d hd)⟩

/-! ### A conversation goes on -/

/-- The record of a conversation that goes on: it is orderly, the other side has not turned out to
be the node itself, and the connection has not been let go. -/
structure Proper (config : ReactorConfig) (direction : Direction) (id : PeerId)
    (deeds : List Deed) : Prop where
  orderly : Orderly config direction id deeds
  foreign : ∀ e, .dispatched id e ∈ deeds → ¬ config.isOwn e
  unretired : ∀ q, .retired q ∈ deeds → q.id ≠ id

/-- Something on record that does not matter to a conversation: no message to a peer, no read from
it, no envelope of its, and not the news that it has gone. -/
def Deed.Mild (id : PeerId) : Deed → Prop
  | .sent k _ | .read k _ | .dispatched k _ => k ≠ id
  | .retired q => q.id ≠ id
  | _ => True

theorem Deed.Mild.silent {d : Deed} (h : d.Mild id) : d.Silent id := by
  unfold Silent
  split
  · exact h
  · exact h
  · exact True.intro

theorem mild_of_about {d : Deed} (other : d.about ≠ some id) : d.Mild id := by
  unfold Deed.Mild
  split
  · exact fun same => other (congrArg some same)
  · exact fun same => other (congrArg some same)
  · exact fun same => other (congrArg some same)
  · exact fun same => other (congrArg some same)
  · exact True.intro

theorem Proper.mild (h : Proper config direction id deeds) (mild : ∀ d ∈ new, d.Mild id) :
    Proper config direction id (new ++ deeds) where
  orderly := h.orderly.silent fun d hd => (mild d hd).silent
  foreign e he := by
    rcases List.mem_append.1 he with he | he
    · exact absurd rfl (mild _ he)
    · exact h.foreign e he
  unretired q hq := by
    rcases List.mem_append.1 hq with hq | hq
    · exact mild _ hq
    · exact h.unretired q hq

/-- A message may be handed over at any time on a connection that the node began, and a farewell on
any other one; anything else once the other side is welcome. -/
theorem Proper.sent (h : Proper config direction id deeds) {m : Message}
    (welcome : direction = .inbound → m.isFarewell = false → ∃ e info, .dispatched id e ∈ deeds ∧
      e.message = .ok (.peerInfo info) ∧ config.admits info) :
    Proper config direction id (.sent id m :: deeds) where
  orderly := ⟨fun _ => ⟨h.foreign, welcome⟩, h.orderly⟩
  foreign e he := h.foreign e ((List.mem_cons.1 he).resolve_left fun impossible => by
    cases impossible)
  unretired q hq := h.unretired q ((List.mem_cons.1 hq).resolve_left fun impossible => by
    cases impossible)

/-- A connection may be read once the node has introduced itself, if that is due. -/
theorem Proper.read (h : Proper config direction id deeds)
    (greeted : direction = .outbound → .sent id (.peerInfo config.ownInfo) ∈ deeds)
    (outcome : Except PeerError ReadOutcome) :
    Proper config direction id (.read id outcome :: deeds) where
  orderly := ⟨fun _ => greeted, h.orderly⟩
  foreign e he := h.foreign e ((List.mem_cons.1 he).resolve_left fun impossible => by
    cases impossible)
  unretired q hq := h.unretired q ((List.mem_cons.1 hq).resolve_left fun impossible => by
    cases impossible)

/-- An envelope may be acted upon if it does not introduce the node to itself. -/
theorem Proper.dispatched (h : Proper config direction id deeds) {e : Envelope}
    (foreign : ¬ config.isOwn e) : Proper config direction id (.dispatched id e :: deeds) where
  orderly := ⟨True.intro, h.orderly⟩
  foreign e' he := by
    rcases List.mem_cons.1 he with same | he
    · cases same
      exact foreign
    · exact h.foreign e' he
  unretired q hq := h.unretired q ((List.mem_cons.1 hq).resolve_left fun impossible => by
    cases impossible)

end GossipNode
