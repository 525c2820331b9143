import GossipNode.Proofs.Address.Grammar
import GossipNode.Proofs.Reactor.Sizes

/-!
# Whether those who are passed on can be dialed

A node passes on where its peers say they accept connections: the address a connection leads to and
the port that was announced on it.  What is announced may be any number of 32 bits, while a dialer
takes ports only, so that a peer may be passed on whom nobody can dial.

## Main definitions

* `PeerInfo.announcesPort` — whether the number announced is a port.

## Main results

* `Reactor.said_known` — what is passed on in a run are the addresses known at some time in it.
* `Reactor.referrals_exact` — **those who are passed on can be dialed just if they announced a
  port.**
* `Reactor.exists_undialable` — **peers are passed on whom nobody can dial.**
-/

namespace GossipNode

/-- Whether the number that a peer announced is a port. -/
def PeerInfo.announcesPort (info : PeerInfo) : Prop :=
  0 ≤ info.listenPort.toInt ∧ info.listenPort.toInt ≤ 65535

theorem PeerInfo.announcesPort_iff {info : PeerInfo} :
    info.announcesPort ↔ ∃ port : UInt16, (port.toNat : Int) = info.listenPort.toInt := by
  constructor
  · rintro ⟨least, most⟩
    refine ⟨UInt16.ofNat info.listenPort.toInt.toNat, ?_⟩
    rw [UInt16.toNat_ofNat_of_lt' (show info.listenPort.toInt.toNat < 65536 by omega)]
    exact Int.toNat_of_nonneg least
  · rintro ⟨port, same⟩
    have small := port.toNat_lt
    exact ⟨by omega, by omega⟩

namespace Reactor

variable {r s : Reactor} {p : Peer} {k : PeerId} {info : PeerInfo}

/-- What the address of a peer denotes to a dialer: the host that the connection leads to and the
port that was announced, if it is one. -/
theorem parse_listenAddress (identity : p.session.identity = some info) :
    ∃ a, p.listenAddress = some a ∧ ∀ e, Endpoint.parse a = .ok e ↔
      e.host = p.remote.ip.render ∧ (e.port.toNat : Int) = info.listenPort.toInt := by
  refine ⟨_, Peer.listenAddress_of_identity identity, fun e => ?_⟩
  rw [Endpoint.parse_eq_ok, Endpoint.parse?_announced p.remote.ip.render_ne_empty]

/-- Whoever is ready is so by the introduction by which it was accepted. -/
theorem Introduced.identity_of_ready (h : r.Introduced) (held : r.Holds p)
    (ready : p.isReady = true) :
    ∃ info, r.accepted p.id = some info ∧ p.session.identity = some info := by
  have state := h.state p.id p held
  rw [show p.session.state = .ready from of_decide_eq_true ready] at state
  split at state
  · next accepted =>
    obtain ⟨info, accepted⟩ := Option.isSome_iff_exists.mp accepted
    exact ⟨info, accepted, (h.identity p.id p (Or.inl held)).trans accepted⟩
  · cases state

theorem Introduced.isReady_of_accepted (h : r.Introduced) (held : r.Holds p)
    (accepted : r.accepted p.id = some info) : p.isReady = true := by
  refine decide_eq_true ((h.state p.id p held).trans ?_)
  rw [accepted]
  rfl

/-- **What is passed on in a run are the addresses known at some time in it**, by induction on the
run. -/
theorem said_known (config : ReactorConfig) (shared : Shared) (now : Nat) (stimuli : List Stimulus)
    {addresses : List String}
    (said : .discovery addresses ∈ sentTo k ((start config shared now).run stimuli).deeds) :
    ∃ before behind, stimuli = before ++ behind ∧
      addresses = ((start config shared now).run before).table.readyAddresses := by
  induction stimuli using List.reverseRecOn with
  | nil => cases said
  | append_singleton stimuli stimulus ih =>
    have consistent := kept_consistent.run (consistent_start config shared now) stimuli
    obtain ⟨new, told, passed⟩ := react_gossips (k := k) consistent stimulus
    rw [run_append, run_cons, run_nil, told, List.mem_append] at said
    rcases said with earlier | just_now
    · obtain ⟨before, behind, rfl, known⟩ := ih earlier
      exact ⟨before, behind ++ [stimulus], List.append_assoc .., known⟩
    · refine ⟨stimuli ++ [stimulus], [], (List.append_nil _).symm, ?_⟩
      rw [run_append]
      exact (passed addresses just_now).1

/-- **Those who are passed on can be dialed just if they announced a port.**

The addresses a node knows are those of the peers that are ready, one each, in the order of their
numbers.  That of a peer denotes to a dialer the host the connection leads to and the very port that
the peer announced when it was accepted; it denotes nothing if the number announced is no port, of
which there is no check.  So all of them can be dialed just if whoever is there and was accepted has
announced a port.  Whatever a node passes on in a run are the addresses it knew at some time in it.
-/
theorem referrals_exact (config : ReactorConfig) (shared : Shared) (now : Nat)
    (stimuli : List Stimulus) :
    let start := start config shared now
    let r := start.run stimuli
    r.table.ListsReady r.table.readyAddresses ∧
      (∀ p, r.Holds p → p.isReady = true → ∃ info a, r.accepted p.id = some info ∧
        p.listenAddress = some a ∧ ∀ e, Endpoint.parse a = .ok e ↔
          e.host = p.remote.ip.render ∧ (e.port.toNat : Int) = info.listenPort.toInt) ∧
      ((∀ a ∈ r.table.readyAddresses, ∃ e, Endpoint.parse a = .ok e) ↔
        ∀ p info, r.Holds p → r.accepted p.id = some info → info.announcesPort) ∧
      ∀ k addresses, .discovery addresses ∈ sentTo k r.deeds → ∃ before behind,
        stimuli = before ++ behind ∧ addresses = (start.run before).table.readyAddresses := by
  intro first r
  have introduced : r.Introduced := introduced_run config shared now stimuli
  have lists := introduced.listsReady
  have denotes : ∀ p, r.Holds p → p.isReady = true → ∃ info a, r.accepted p.id = some info ∧
      p.listenAddress = some a ∧ ∀ e, Endpoint.parse a = .ok e ↔
        e.host = p.remote.ip.render ∧ (e.port.toNat : Int) = info.listenPort.toInt := by
    intro p held ready
    obtain ⟨info, accepted, identity⟩ := introduced.identity_of_ready held ready
    obtain ⟨a, address, parsed⟩ := parse_listenAddress identity
    exact ⟨info, a, accepted, address, parsed⟩
  refine ⟨lists, denotes, ⟨?_, ?_⟩, fun k addresses => said_known config shared now stimuli⟩
  · intro dialable p info held accepted
    have ready := introduced.isReady_of_accepted held accepted
    obtain ⟨info', a, accepted', address, parsed⟩ := denotes p held ready
    cases accepted.symm.trans accepted'
    obtain ⟨e, ok⟩ := dialable a (PeerTable.mem_readyAddresses held ready address)
    exact PeerInfo.announcesPort_iff.mpr ⟨e.port, ((parsed e).mp ok).2⟩
  · intro announced a listed
    obtain ⟨ps, -, members, addresses⟩ := lists
    obtain ⟨p, there, same⟩ := List.mem_map.mp
      (addresses ▸ List.mem_map_of_mem listed : some a ∈ ps.map (·.listenAddress))
    obtain ⟨held, ready⟩ := (members p).mp there
    obtain ⟨info, a', accepted, address, parsed⟩ := denotes p held ready
    cases same.symm.trans address
    obtain ⟨port, number⟩ := PeerInfo.announcesPort_iff.mp (announced p info held accepted)
    exact ⟨⟨p.remote.ip.render, port⟩, (parsed _).mpr ⟨rfl, number⟩⟩

/-- **Peers are passed on whom nobody can dial.**  A peer announces the number 70000 and is
accepted; it is told its own address, which denotes nothing to a dialer. -/
theorem exists_undialable :
    let info : PeerInfo := { (default : PeerInfo) with uid := 7, listenPort := 70000 }
    let idle : Means := ⟨0, .waiting [], [], []⟩
    let r := (start default .empty 0).run
      [.turn ⟨0, 0, .connection ⟨3⟩ ⟨.v4 ⟨10, 0, 0, 1⟩, 5000⟩, []⟩ idle,
        .turn ⟨0, 0, .none, [(⟨1⟩, .ok .read)]⟩
          { idle with incoming := .waiting (Message.peerInfo info).encode, writes := [.accepted 999] }]
    r.accepted ⟨1⟩ = some info ∧ r.table.readyAddresses = ["10.0.0.1:70000"] ∧
      .discovery ["10.0.0.1:70000"] ∈ sentTo ⟨1⟩ r.deeds ∧
      Endpoint.parse "10.0.0.1:70000" = .error (.invalidAddress "10.0.0.1:70000") := by
  decide +kernel

end Reactor

end GossipNode
