import GossipNode.Proofs.AddressPool
import GossipNode.Proofs.Reactor.Chronicle
import GossipNode.Proofs.Reactor.Replies
import GossipNode.Proofs.Reactor.Search

/-!
# Where addresses come from

A node dials what it has been asked to dial and what it has heard of from its peers.  What it hears
waits in the pool until a round of dialing takes it out.  Nothing else a peer does reaches the pool:
neither that it comes or goes nor what it says of itself.  But a node listens to whoever speaks.  It
does not ask whether a peer has introduced itself before it passes addresses on, so that a stranger
may make a node dial, even one that is let go as soon as it does introduce itself.

## Main definitions

* `acts`, `heard`, `dialedIn` — what is on record about envelopes, addresses and dials.
* `Reactor.Gathers` — some envelopes have been acted upon, and the pool has grown by what they say.
* `Tiding`, `Reactor.tidings` — what a run tells the pool.
* `Prospects`, `Prospects.replay` — the pool and the dials that come of tidings.

## Main results

* `Reactor.serve_gathers` — serving a peer adds to the pool what one envelope says, or nothing.
* `Reactor.prospects_run` — the pool and the dials of a run come of its tidings.
* `Reactor.gossip_sources` — **every address is one of the first ones, one that was asked for, or
  one heard from a peer that is ready or has not introduced itself.**
* `Reactor.gossip_of_strangers` — **a stranger makes a node dial.**
-/

namespace GossipNode

/-! ### Envelopes, addresses and dials on record -/

/-- The addresses that an envelope passes on. -/
def Envelope.addresses (e : Envelope) : List String :=
  match e.message with
  | .ok (.discovery addresses) => addresses
  | _ => []

/-- The envelope that something on record says was acted upon, with the peer it came from. -/
def Deed.acted? : Deed → Option (PeerId × Envelope)
  | .dispatched id e => some (id, e)
  | _ => none

/-- The address that something on record says began to be dialed. -/
def Deed.dialed? : Deed → Option String
  | .dialed address => some address
  | _ => none

/-- The envelopes that were acted upon, with the peers they came from, in order. -/
def acts (deeds : List Deed) : List (PeerId × Envelope) := (deeds.filterMap Deed.acted?).reverse

/-- The addresses that were heard of, in order. -/
def heard (deeds : List Deed) : List String := (acts deeds).flatMap fun act => act.2.addresses

/-- The addresses that began to be dialed, in order. -/
def dialedIn (deeds : List Deed) : List String := (deeds.filterMap Deed.dialed?).reverse

theorem acts_append (new deeds : List Deed) : acts (new ++ deeds) = acts deeds ++ acts new := by
  simp [acts]

theorem dialedIn_append (new deeds : List Deed) :
    dialedIn (new ++ deeds) = dialedIn deeds ++ dialedIn new := by
  simp [dialedIn]

/-- What was acted upon of a peer is what was acted upon, of that peer. -/
theorem dispatchedTo_eq (id : PeerId) (deeds : List Deed) :
    dispatchedTo id deeds = (acts deeds).filterMap fun act =>
      if act.1 = id then some act.2 else none := by
  rw [dispatchedTo, acts, List.filterMap_reverse, List.filterMap_filterMap]
  congr 2
  funext d
  cases d <;> rfl

theorem dispatchedTo_of_acts {id : PeerId} {e : Envelope} {deeds later : List Deed}
    (acted : acts later = acts deeds ++ [(id, e)]) :
    dispatchedTo id later = dispatchedTo id deeds ++ [e] := by
  rw [dispatchedTo_eq, acted, List.filterMap_append, ← dispatchedTo_eq]
  simp

@[simp] theorem AddressPool.extend_nil (pool : AddressPool) : pool.extend [] = pool := by
  rw [extend, List.append_nil]

theorem AddressPool.extend_extend (pool : AddressPool) (addresses more : List String) :
    (pool.extend addresses).extend more = pool.extend (addresses ++ more) := by
  rw [extend, extend, extend, List.append_assoc]

namespace Reactor

variable {r s t : Reactor} {p : Peer}

/-! ### Acting upon an envelope -/

/-- Some envelopes have been acted upon, the pool has grown by the addresses that they pass on, and
nothing has been dialed. -/
structure Gathers (r s : Reactor) (es : List (PeerId × Envelope)) : Prop where
  deeds : ∃ new, s.deeds = new ++ r.deeds ∧ acts new = es ∧ dialedIn new = []
  pool : s.shared.pool = r.shared.pool.extend (es.flatMap fun act => act.2.addresses)

theorem Gathers.trans {es fs : List (PeerId × Envelope)} (h : Gathers r s es)
    (h' : Gathers s t fs) : Gathers r t (es ++ fs) := by
  obtain ⟨new, hnew, acted, undialed⟩ := h.deeds
  obtain ⟨new', hnew', acted', undialed'⟩ := h'.deeds
  refine ⟨⟨new' ++ new, ?_, ?_, ?_⟩, ?_⟩
  · rw [hnew', hnew, List.append_assoc]
  · rw [acts_append, acted, acted']
  · rw [dialedIn_append, undialed, undialed']
    rfl
  · rw [h'.pool, h.pool, AddressPool.extend_extend, List.flatMap_append]

theorem Gathers.acts {es : List (PeerId × Envelope)} (h : Gathers r s es) :
    acts s.deeds = acts r.deeds ++ es := by
  obtain ⟨new, hnew, acted, -⟩ := h.deeds
  rw [hnew, acts_append, acted]

theorem Gathers.dialedIn {es : List (PeerId × Envelope)} (h : Gathers r s es) :
    dialedIn s.deeds = dialedIn r.deeds := by
  obtain ⟨new, hnew, -, undialed⟩ := h.deeds
  rw [hnew, dialedIn_append, undialed, List.append_nil]

/-- Nothing is heard. -/
theorem gathers_quiet (new : List Deed) (deeds : s.deeds = new ++ r.deeds)
    (quiet : ∀ d ∈ new, d.acted? = none ∧ d.dialed? = none)
    (pool : s.shared.pool = r.shared.pool) : Gathers r s [] := by
  refine ⟨⟨new, deeds, ?_, ?_⟩, ?_⟩
  · rw [GossipNode.acts, List.filterMap_eq_nil_iff.2 fun d hd => (quiet d hd).1]
    rfl
  · rw [GossipNode.dialedIn, List.filterMap_eq_nil_iff.2 fun d hd => (quiet d hd).2]
    rfl
  · rw [pool]
    exact (AddressPool.extend_nil _).symm

theorem gathers_nothing (deeds : s.deeds = r.deeds) (pool : s.shared.pool = r.shared.pool) :
    Gathers r s [] :=
  gathers_quiet [] deeds (List.forall_mem_nil _) pool

theorem gathers_perform (r : Reactor) (p : Peer) (c : Session.Call) :
    Gathers r (r.perform p c) [] := by
  refine gathers_quiet (p.record c) rfl (fun d hd => ?_) rfl
  cases c <;> simp only [Peer.record, List.mem_cons, List.not_mem_nil, or_false] at hd
  · rcases hd with rfl | rfl <;> exact ⟨rfl, rfl⟩
  · rw [hd]; exact ⟨rfl, rfl⟩
  · rw [hd]; exact ⟨rfl, rfl⟩

theorem gathers_notify (r : Reactor) (event : Event) : Gathers r (r.notify event) [] :=
  gathers_quiet [_] rfl (fun _ hd => List.mem_singleton.1 hd ▸ ⟨rfl, rfl⟩) rfl

theorem gathers_closePeer (r : Reactor) (id : PeerId) : Gathers r (r.closePeer id) [] := by
  unfold closePeer
  simp only
  split
  · exact gathers_nothing rfl rfl
  · refine gathers_quiet [.notified _ _, .retired _] rfl (fun d hd => ?_) rfl
    simp only [List.mem_cons, List.not_mem_nil, or_false] at hd
    rcases hd with rfl | rfl <;> exact ⟨rfl, rfl⟩

/-- An envelope that passes no addresses on leaves the pool alone. -/
theorem gathers_note {e : Envelope} (nothing : e.addresses = []) (r : Reactor) (id : PeerId) :
    Gathers r (r.note (.dispatched id e)) [(id, e)] := by
  refine ⟨⟨[.dispatched id e], rfl, rfl, rfl⟩, ?_⟩
  rw [List.flatMap_singleton, nothing]
  exact (AddressPool.extend_nil _).symm

/-- Nothing is heard where nothing is taken in. -/
theorem civil_gathers : Civil fun r s => Gathers r s [] where
  refl _ := gathers_nothing rfl rfl
  trans := Gathers.trans
  send _ m outcomes := gathers_perform _ _ (.send m outcomes)
  notify := gathers_notify
  close := gathers_closePeer

/-- **An envelope that is acted upon adds to the pool the addresses that it passes on**, and nothing
else. -/
theorem dispatch_gathers (r : Reactor) (p : Peer) (e : Envelope) (writes : List WriteOutcome) :
    Gathers r (r.dispatch p e writes) [(p.id, e)] := by
  have noted (plain : ∀ addresses, e.message ≠ .ok (.discovery addresses)) :
      Gathers r (r.note (.dispatched p.id e)) [(p.id, e)] := by
    refine gathers_note ?_ r p.id
    unfold Envelope.addresses
    split
    · next addresses discovered => exact absurd discovered (plain addresses)
    · rfl
  unfold dispatch
  simp only
  split
  · next error failed =>
    have broken := noted fun addresses discovered => by rw [failed] at discovered; cases discovered
    split
    · exact broken.trans (gathers_closePeer _ p.id)
    · exact broken
  · next info introduced =>
    have known := noted fun addresses discovered => by
      rw [introduced] at discovered
      cases discovered
    by_cases admitted : r.config.admits info
    · by_cases new : p.session.state = .unverified
      · rw [onPeerInfo_new (r := r.note _) admitted new]
        have marked : Gathers r ((r.note (.dispatched p.id e)).put (p.perform (.markReady info)))
            [(p.id, e)] := ⟨known.deeds, known.pool⟩
        have held' := holds_put (r.note (.dispatched p.id e)) (p.perform (.markReady info))
        exact marked.trans (civil_gathers.welcome held' writes)
      · rw [onPeerInfo_known (r := r.note _) admitted new]
        exact known
    · rcases onPeerInfo_strange (r := r.note (.dispatched p.id e)) admitted p writes with
        ⟨m, refused⟩ | refused
      · rw [refused]
        exact (known.trans (gathers_perform _ p (.send m writes))).trans
          (gathers_closePeer _ p.id)
      · rw [refused]
        exact known.trans (gathers_closePeer _ p.id)
  · next addresses discovered =>
    have passed : e.addresses = addresses := by
      unfold Envelope.addresses
      rw [discovered]
    refine ⟨⟨[.dispatched p.id e], rfl, rfl, rfl⟩, ?_⟩
    rw [List.flatMap_singleton, passed]
    rfl
  · next why text left =>
    exact (noted fun addresses discovered => by rw [left] at discovered; cases discovered).trans
      (gathers_closePeer _ p.id)

/-- **Serving a peer adds to the pool what one envelope of its says**, or nothing. -/
theorem serve_gathers (held : r.Holds p) (ready : Readiness) (means : Means) :
    Gathers r (r.serve p.id ready means) [] ∨
      ∃ e, Gathers r (r.serve p.id ready means) [(p.id, e)] := by
  refine @serve_rule r p (fun t q => q.id = p.id ∧ Gathers r t []) (fun s => Gathers r s [] ∨
    ∃ e, Gathers r s [(p.id, e)]) means ?mute ?left ?closed ?acted held
    ⟨rfl, gathers_nothing rfl rfl⟩ ready
  case mute =>
    rintro t q c ⟨number, before⟩ -
    exact ⟨number, before.trans (gathers_perform t q c)⟩
  case left =>
    rintro t q ⟨-, before⟩
    exact Or.inl before
  case closed =>
    rintro t q ⟨-, before⟩
    exact Or.inl (before.trans (gathers_closePeer t q.id))
  case acted =>
    rintro t q e writes ⟨number, before⟩ -
    have acted := before.trans (dispatch_gathers t q e writes)
    rw [number] at acted ⊢
    refine Or.inr ⟨e, ?_⟩
    rcases requeueBuffered_cases (t.dispatch q e writes) p.id with same | same
    · rw [same]
      exact acted
    · rw [same]
      exact ⟨acted.deeds, acted.pool⟩

/-! ### Turns -/

theorem pool_insertPeer (r : Reactor) (socket : SocketId) (remote : SocketAddress)
    (direction : Direction) (dialed : Option String) (now : Nat) :
    (r.insertPeer socket remote direction dialed now).shared.pool = r.shared.pool := by
  unfold insertPeer
  simp only
  split <;> rfl

theorem gathers_teardown (r : Reactor) : Gathers r r.teardown [] := by
  obtain ⟨new, deeds, kinds, -⟩ := deeds_teardown r
  refine gathers_quiet new deeds (fun d hd => ?_) rfl
  rcases kinds d hd with ⟨audience, rfl⟩ | ⟨socket, rfl⟩ | ⟨id, p, -, rfl⟩ <;> exact ⟨rfl, rfl⟩

theorem gathers_insertPeer (r : Reactor) (socket : SocketId) (remote : SocketAddress)
    (direction : Direction) (dialed : Option String) (now : Nat) :
    Gathers r (r.insertPeer socket remote direction dialed now) [] := by
  refine gathers_quiet [_] (deeds_insertPeer ..) (fun d hd => ?_) (pool_insertPeer ..)
  exact List.mem_singleton.1 hd ▸ ⟨rfl, rfl⟩

/-- What is served unless it is a round of dialing: the pool grows by what one envelope says that is
acted upon, and nothing is dialed. -/
theorem handle_gathers (keyed : r.Keyed) {w : Wakeup}
    (no_round : w ≠ .control (some .tryConnect)) (means : Means) :
    Gathers r (r.handle w means) [] ∨
      ∃ p e, r.Holds p ∧ Gathers r (r.handle w means) [(p.id, e)] := by
  cases w with
  | peer id ready =>
    cases there : r.table.get? id with
    | none =>
      rw [handle, serve_unknown there]
      exact Or.inl (gathers_nothing rfl rfl)
    | some p =>
      have same := keyed id p there
      subst same
      rcases serve_gathers there ready means with quiet | ⟨e, acted⟩
      · exact Or.inl quiet
      · exact Or.inr ⟨p, e, there, acted⟩
  | accept socket remote =>
    exact Or.inl (gathers_insertPeer r socket remote .inbound none means.now)
  | acceptFailed why => exact Or.inl (gathers_nothing rfl rfl)
  | acceptResumed => exact Or.inl (gathers_nothing rfl rfl)
  | failed why => exact Or.inl (gathers_teardown r)
  | tick => exact Or.inl (civil_gathers.expireHandshakes r means.now)
  | control command =>
    cases command with
    | none => exact Or.inl (gathers_teardown r)
    | some c =>
      cases c with
      | shutdown => exact Or.inl (gathers_teardown r)
      | sendHandshake id => exact Or.inl (civil_gathers.greet keyed id means.writes)
      | closePeer id => exact Or.inl (civil_gathers.dismiss keyed id means.writes)
      | tryConnect => exact absurd rfl no_round
      | adopt socket remote dialed =>
        exact Or.inl (gathers_insertPeer r socket remote .outbound (some dialed) means.now)

/-- **What a turn does to the pool** that does not begin a round of dialing: it grows by what one
envelope says of a peer that is there, or stays as it is.  Nothing is dialed. -/
theorem turn_gathers (h : r.Consistent) {sight : Sight}
    (no_round : ¬ (r.running = true ∧ (r.wait sight).1 = some (.control (some .tryConnect))))
    (means : Means) : Gathers r (r.turn sight means) [] ∨
      ∃ p e, r.Holds p ∧ Gathers r (r.turn sight means) [(p.id, e)] := by
  unfold turn
  split
  · next running =>
    have waited : Gathers r (r.wait sight).2 [] := gathers_nothing rfl rfl
    have keyed := (h.wait sight).keyed
    have same {p : Peer} (held : (r.wait sight).2.Holds p) : r.Holds p := held
    generalize r.wait sight = out at no_round waited keyed same
    obtain ⟨_ | w, q⟩ := out
    · exact Or.inl waited
    · have other : w ≠ .control (some .tryConnect) :=
        fun round => no_round ⟨running, congrArg some round⟩
      rcases handle_gathers keyed other means with quiet | ⟨p, e, held, acted⟩
      · exact Or.inl (waited.trans quiet)
      · exact Or.inr ⟨p, e, same held, waited.trans acted⟩
  · exact Or.inl (gathers_nothing rfl rfl)

end Reactor

/-! ### Tidings -/

/-- What a run may tell the pool. -/
inductive Tiding
  /-- Addresses are heard of. -/
  | heard (addresses : List String)
  /-- An address is asked for. -/
  | asked (address : String)
  /-- A round of dialing is made by a node that has so many peers and is connected to those
  addresses.  It draws random words. -/
  | round (live : Nat) (connected : List String) (words : List UInt64)

namespace Tiding

/-- The addresses that are heard of. -/
def news : Tiding → List String
  | heard addresses => addresses
  | asked _ | round .. => []

/-- The addresses that are asked for. -/
def wishes : Tiding → List String
  | asked address => [address]
  | heard _ | round .. => []

end Tiding

/-- The pool, and the addresses that have begun to be dialed, in order. -/
structure Prospects where
  pool : AddressPool
  dialed : List String

namespace Prospects

/-- What comes of a tiding for a node that aims at so many peers. -/
def learn (target : Nat) (x : Prospects) : Tiding → Prospects
  | .heard addresses => { x with pool := x.pool.extend addresses }
  | .asked address => { x with dialed := x.dialed ++ [address] }
  | .round live connected words =>
    let chosen := x.pool.selectForDial live target connected ⟨words, 0⟩
    ⟨chosen.2.1, x.dialed ++ chosen.1⟩

/-- What comes of tidings, one after the other. -/
def replay (target : Nat) (x : Prospects) (tidings : List Tiding) : Prospects :=
  tidings.foldl (learn target) x

/-- A tiding adds what is heard and what is asked for.  A round dials what it takes out of the pool
or drops it. -/
theorem learn_perm (target : Nat) (x : Prospects) (tiding : Tiding) :
    ∃ dropped, ((x.learn target tiding).pool.entries ++ (x.learn target tiding).dialed ++
      dropped).Perm (x.pool.entries ++ x.dialed ++ (tiding.news ++ tiding.wishes)) := by
  cases tiding with
  | heard addresses =>
    refine ⟨[], List.perm_iff_count.2 fun a => ?_⟩
    simp only [learn, AddressPool.extend, Tiding.news, Tiding.wishes, List.count_append,
      List.count_nil]
    omega
  | asked address =>
    refine ⟨[], List.perm_iff_count.2 fun a => ?_⟩
    simp only [learn, Tiding.news, Tiding.wishes, List.count_append, List.count_nil]
    omega
  | round live connected words =>
    obtain ⟨dropped, kept⟩ := x.pool.selectForDial_perm live target connected ⟨words, 0⟩
    refine ⟨dropped, List.perm_iff_count.2 fun a => ?_⟩
    have copies := List.perm_iff_count.1 kept a
    simp only [learn, Tiding.news, Tiding.wishes, List.count_append, List.count_nil] at copies ⊢
    omega

/-- **Every address in the pool and every one that was dialed was there, was heard of or was asked
for**, copy by copy. -/
theorem replay_perm (target : Nat) (tidings : List Tiding) : ∀ x : Prospects,
    ∃ dropped, ((x.replay target tidings).pool.entries ++ (x.replay target tidings).dialed ++
      dropped).Perm (x.pool.entries ++ x.dialed ++
        (tidings.flatMap Tiding.news ++ tidings.flatMap Tiding.wishes)) := by
  induction tidings with
  | nil =>
    intro x
    exact ⟨[], .refl _⟩
  | cons tiding tidings ih =>
    intro x
    obtain ⟨first, learned⟩ := x.learn_perm target tiding
    obtain ⟨later, replayed⟩ := ih (x.learn target tiding)
    refine ⟨later ++ first, List.perm_iff_count.2 fun a => ?_⟩
    have before := List.perm_iff_count.1 learned a
    have after := List.perm_iff_count.1 replayed a
    simp only [replay, List.foldl_cons, List.flatMap_cons, List.count_append] at before after ⊢
    omega

end Prospects

/-- The address that is asked for, if one is. -/
def Stimulus.asked? : Stimulus → Option String
  | .dial address => some address
  | _ => none

namespace Reactor

variable {r s : Reactor} {p : Peer}

/-- The pool and the dials of a reactor. -/
def prospects (r : Reactor) : Prospects := ⟨r.shared.pool, dialedIn r.deeds⟩

/-- What the pool is told when something happens to a reactor. -/
def tidingsOf (r : Reactor) : Stimulus → List Tiding
  | .turn sight means =>
    if r.running ∧ (r.wait sight).1 = some (.control (some .tryConnect)) then
      [.round r.table.size r.table.connectedAddresses means.words]
    else [.heard ((heard (r.turn sight means).deeds).drop (heard r.deeds).length)]
  | .dial address => [.asked address]
  | _ => []

/-- What the pool is told in a run. -/
def tidings (r : Reactor) : List Stimulus → List Tiding
  | [] => []
  | s :: stimuli => r.tidingsOf s ++ (r.react s).tidings stimuli

/-- A round of dialing tells the pool that it is made, and acts upon nothing. -/
theorem tryConnect_prospects (r : Reactor) (words : List UInt64) :
    (r.tryConnect words).prospects = r.prospects.learn r.config.target
        (.round r.table.size r.table.connectedAddresses words) ∧
      acts (r.tryConnect words).deeds = acts r.deeds := by
  have deeds : (r.tryConnect words).deeds = ((r.picks words).map Deed.dialed).reverse ++
      [.notified .tryConnect r.shared.listeners.audience] ++ r.deeds := by
    rw [List.append_assoc]
    exact congrArg Reactor.deeds (foldl_dial _ _)
  have pool : (r.tryConnect words).shared.pool = (r.shared.pool.selectForDial r.table.size
      r.config.target r.table.connectedAddresses ⟨words, 0⟩).2.1 :=
    congrArg (fun s : Reactor => s.shared.pool) (foldl_dial _ _)
  have dialed : dialedIn (((r.picks words).map Deed.dialed).reverse ++
      [.notified .tryConnect r.shared.listeners.audience]) = r.picks words := by
    simp [dialedIn, List.filterMap_map, Function.comp_def, Deed.dialed?]
  have quiet : acts (((r.picks words).map Deed.dialed).reverse ++
      [.notified .tryConnect r.shared.listeners.audience]) = [] := by
    simp [acts, List.filterMap_map, Function.comp_def, Deed.acted?]
  constructor
  · rw [prospects, pool, deeds, dialedIn_append, dialed]
    rfl
  · rw [deeds, acts_append, quiet, List.append_nil]

/-- What is not on record is not heard. -/
theorem Gathers.heard {es : List (PeerId × Envelope)} (h : Gathers r s es) :
    heard s.deeds = heard r.deeds ++ es.flatMap fun act => act.2.addresses := by
  rw [GossipNode.heard, h.acts, List.flatMap_append]
  rfl

/-- **The pool and the dials change by tidings**, and so does what has been heard. -/
theorem prospects_react (h : r.Consistent) (stimulus : Stimulus) :
    (r.react stimulus).prospects = r.prospects.replay r.config.target (r.tidingsOf stimulus) ∧
      heard (r.react stimulus).deeds =
        heard r.deeds ++ (r.tidingsOf stimulus).flatMap Tiding.news := by
  cases stimulus with
  | turn sight means =>
    simp only [react, tidingsOf]
    split
    · next round =>
      have made := (r.wait sight).2.tryConnect_prospects means.words
      rw [turn_eq round.1 round.2 means]
      refine ⟨made.1, ?_⟩
      rw [heard, handle, obey, made.2]
      exact (List.append_nil _).symm
    · next other =>
      -- Whatever is gathered in the turn is what has been heard since.
      have gathered {es : List (PeerId × Envelope)} (law : Gathers r (r.turn sight means) es) :
          (r.turn sight means).prospects = r.prospects.replay r.config.target
              [.heard ((heard (r.turn sight means).deeds).drop (heard r.deeds).length)] ∧
            heard (r.turn sight means).deeds = heard r.deeds ++
              (heard (r.turn sight means).deeds).drop (heard r.deeds).length := by
        rw [law.heard, List.drop_left]
        refine ⟨?_, rfl⟩
        rw [prospects, law.pool, law.dialedIn]
        rfl
      rw [List.flatMap_singleton]
      rcases turn_gathers h other means with quiet | ⟨p, e, -, acted⟩
      · exact gathered quiet
      · exact gathered acted
  | request q =>
    simp only [react]
    split <;> exact ⟨rfl, (List.append_nil _).symm⟩
  | desertion => exact ⟨rfl, (List.append_nil _).symm⟩
  | dial address =>
    have dialed : dialedIn (r.dial address).deeds = dialedIn r.deeds ++ [address] :=
      dialedIn_append [.dialed address] r.deeds
    refine ⟨?_, (List.append_nil _).symm⟩
    rw [react, prospects, dialed]
    rfl
  | dialEnded address outcome =>
    rw [react]
    rcases r.dialEnded_cases address outcome with
      ⟨-, ended⟩ | ⟨socket, remote, -, ⟨-, ended⟩ | ⟨-, ended⟩⟩ <;>
    · rw [ended]
      exact ⟨rfl, (List.append_nil _).symm⟩
  | dialsAbandoned => exact ⟨rfl, (List.append_nil _).symm⟩
  | listen label answer => exact ⟨rfl, (List.append_nil _).symm⟩

/-- **The pool and the dials of a run come of its tidings.** -/
theorem prospects_run {config : ReactorConfig} (stimuli : List Stimulus) : ∀ {r : Reactor},
    r.Consistent → r.config = config →
      (r.run stimuli).prospects = r.prospects.replay config.target (r.tidings stimuli) ∧
        heard (r.run stimuli).deeds =
          heard r.deeds ++ (r.tidings stimuli).flatMap Tiding.news ∧
        (r.tidings stimuli).flatMap Tiding.wishes = stimuli.filterMap Stimulus.asked? := by
  induction stimuli with
  | nil =>
    intro r _ _
    exact ⟨rfl, (List.append_nil _).symm, rfl⟩
  | cons stimulus stimuli ih =>
    intro r h own
    obtain ⟨prospects, hears⟩ := prospects_react h stimulus
    obtain ⟨h', own'⟩ := (kept_config config).react ⟨h, own⟩ stimulus
    obtain ⟨later, hears_later, asked_later⟩ := ih h' own'
    have asked : (r.tidingsOf stimulus).flatMap Tiding.wishes = stimulus.asked?.toList := by
      cases stimulus with
      | turn sight means =>
        simp only [tidingsOf]
        split <;> rfl
      | _ => rfl
    simp only [tidings, run_cons, List.flatMap_append]
    refine ⟨?_, ?_, ?_⟩
    · rw [later, prospects, own, Prospects.replay, Prospects.replay, Prospects.replay,
        List.foldl_append]
    · rw [hears_later, hears, List.append_assoc]
    · rw [asked, asked_later]
      cases asked_now : stimulus.asked? with
      | none => exact (List.filterMap_cons_none asked_now).symm
      | some address => exact (List.filterMap_cons_some asked_now).symm

/-! ### Who is listened to -/

/-- If a peer passes addresses on before it has introduced itself, its connection did not begin with
an introduction. -/
theorem forward_of_unverified {id : PeerId} {e : Envelope} {deeds : List Deed}
    (unknown : firstIntroduction id deeds = none) (gossip : e.addresses ≠ []) :
    ∃ f rest, dispatchedTo id deeds ++ [e] = f :: rest ∧
      ∀ info, f.message ≠ .ok (.peerInfo info) := by
  cases before : dispatchedTo id deeds with
  | nil =>
    refine ⟨e, [], rfl, fun info introduced => gossip ?_⟩
    rw [Envelope.addresses, introduced]
  | cons f rest =>
    refine ⟨f, rest ++ [e], rfl, fun info introduced => ?_⟩
    rw [firstIntroduction_eq, List.findSome?_eq_none_iff] at unknown
    have mute := unknown f (before ▸ List.mem_cons_self)
    rw [Envelope.introduces?_eq_some.2 introduced] at mute
    cases mute

/-- Only turns act upon envelopes, one each, of a peer that is there. -/
theorem acts_react (h : r.Consistent) (stimulus : Stimulus) :
    acts (r.react stimulus).deeds = acts r.deeds ∨
      ∃ p e, r.Holds p ∧ acts (r.react stimulus).deeds = acts r.deeds ++ [(p.id, e)] := by
  cases stimulus with
  | turn sight means =>
    by_cases round : r.running = true ∧ (r.wait sight).1 = some (.control (some .tryConnect))
    · refine Or.inl ?_
      rw [react, turn_eq round.1 round.2 means]
      exact ((r.wait sight).2.tryConnect_prospects means.words).2
    · rcases turn_gathers h round means with quiet | ⟨p, e, held, acted⟩
      · exact Or.inl (quiet.acts.trans (List.append_nil _))
      · exact Or.inr ⟨p, e, held, acted.acts⟩
  | request q =>
    simp only [react]
    split <;> exact Or.inl rfl
  | dialEnded address outcome =>
    rw [react]
    rcases r.dialEnded_cases address outcome with
      ⟨-, ended⟩ | ⟨socket, remote, -, ⟨-, ended⟩ | ⟨-, ended⟩⟩ <;>
    · rw [ended]
      exact Or.inl rfl
  | _ => exact Or.inl rfl

/-- **Every address is one of the first ones, one that was asked for, or one heard from a peer that
is ready or has not introduced itself.**

The pool and the dials of a run come of its tidings and of nothing else.  Copy by copy, whatever is
in the pool or has been dialed was there at first, has been heard or was asked for.  Whatever is
heard is heard from a peer that is there: from one that was accepted and is ready, or from one that
has not introduced itself, and then only on a connection that did not begin with an introduction.
So a node hears from none whom it has refused, and from verified peers alone if all of them
introduce themselves before they say anything else. -/
theorem gossip_sources (config : ReactorConfig) (shared : Shared) (now : Nat)
    (stimuli : List Stimulus) :
    let start := start config shared now
    let r := start.run stimuli
    r.prospects = Prospects.replay config.target ⟨shared.pool, []⟩ (start.tidings stimuli) ∧
      (∃ dropped, (r.shared.pool.entries ++ dialedIn r.deeds ++ dropped).Perm
        (shared.pool.entries ++ (heard r.deeds ++ stimuli.filterMap Stimulus.asked?))) ∧
      ∀ stimulus, acts (r.react stimulus).deeds = acts r.deeds ∨
        ∃ p e, r.Holds p ∧ acts (r.react stimulus).deeds = acts r.deeds ++ [(p.id, e)] ∧
          ((p.session.state = .ready ∧ (r.accepted p.id).isSome) ∨
            (p.session.state = .unverified ∧ firstIntroduction p.id r.deeds = none ∧
              (e.addresses ≠ [] → ∃ f rest, dispatchedTo p.id (r.react stimulus).deeds = f :: rest ∧
                ∀ info, f.message ≠ .ok (.peerInfo info)))) := by
  intro first r
  have consistent := consistent_start config shared now
  obtain ⟨prospects, hears, asks⟩ := prospects_run (r := first) stimuli consistent rfl
  have introduced : r.Introduced := introduced_run config shared now stimuli
  have replayed : r.prospects = Prospects.replay config.target ⟨shared.pool, []⟩
      (first.tidings stimuli) := prospects
  have heard_all : heard r.deeds = (first.tidings stimuli).flatMap Tiding.news := hears
  refine ⟨replayed, ?_, fun stimulus => ?_⟩
  · obtain ⟨dropped, kept⟩ := Prospects.replay_perm config.target (first.tidings stimuli)
      ⟨shared.pool, []⟩
    rw [← replayed, asks, ← heard_all, List.append_nil] at kept
    exact ⟨dropped, kept⟩
  · rcases acts_react introduced.consistent stimulus with quiet | ⟨p, e, held, acted⟩
    · exact Or.inl quiet
    · refine Or.inr ⟨p, e, held, acted, ?_⟩
      have state := introduced.state p.id p held
      -- Whoever is there has not introduced itself, or was accepted when it did.
      rcases introduced.state_cases held with ⟨unverified, unknown⟩ | ⟨ready, -⟩
      · refine Or.inr ⟨unverified, unknown, fun gossip => ?_⟩
        rw [dispatchedTo_of_acts acted]
        exact forward_of_unverified unknown gossip
      · refine Or.inl ⟨ready, ?_⟩
        rw [ready] at state
        exact Classical.not_not.1 fun strange => by rw [if_neg strange] at state; cases state

/-- **A stranger makes a node dial.**  A connection comes and passes an address on; later it
introduces itself as of another network and is let go.  It is not ready when it is listened to, it
is never accepted, and yet the address gets into the pool and is dialed.  Had it kept the address to
itself nothing would have been dialed. -/
theorem gossip_of_strangers :
    let config : ReactorConfig := { (default : ReactorConfig) with target := 2 }
    let idle : Means := ⟨0, .waiting [], [], []⟩
    let coming : Sight := ⟨0, 0, .connection ⟨3⟩ .elsewhere, []⟩
    let readable : Sight := ⟨0, 0, .none, [(⟨1⟩, .ok .read)]⟩
    let saying (bytes : Bytes) : Stimulus := .turn readable { idle with incoming := .waiting bytes }
    let gossip := (Message.discovery ["10.0.0.9:1"]).encode
    let foreign := (Message.peerInfo { (default : PeerInfo) with networkId := 4 }).encode
    let come := (start config .empty 0).run [.turn coming idle]
    let told := come.react (saying gossip)
    let quiet := come.react (saying [])
    let rest := [.turn readable idle, saying foreign]
    (come.table.get? ⟨1⟩).map (·.session.state) = some .unverified ∧
      told.shared.pool.entries = ["10.0.0.9:1"] ∧ quiet.shared.pool.entries = [] ∧
      (told.run rest).accepted ⟨1⟩ = none ∧ ((told.run rest).table.get? ⟨1⟩).isNone ∧
      dialedIn (told.run rest).deeds = ["10.0.0.9:1"] ∧ dialedIn (quiet.run rest).deeds = [] := by
  decide +kernel

end Reactor

end GossipNode
