import GossipNode.Proofs.Address.Texts
import GossipNode.Proofs.AddressPool
import GossipNode.Proofs.Peer.Table
import GossipNode.Proofs.Reactor.Search

/-!
# Whether a node dials its own peers

A round of dialing leaves out the addresses of those who are there, and tells them by their texts.
A dialer reads texts, and one address may be written in many ways: an address that is heard of may
lead to a peer all the same.  If it is of version four it is then not written the way a node writes
it: its port has a plus sign or zeros in front.

## Main definitions

* `Reactor.LeadsTo` — the addresses that lead to a peer.

## Main results

* `Reactor.mem_begun` — what is dialed was heard of and is no text by which a peer is known.
* `Reactor.redials_respelt` — **what leads to a peer is dialed only if it is written unusually.**
* `Reactor.exists_redial` — **a peer is dialed once more.**
-/

namespace GossipNode

namespace SocketAddress

variable {text : String} {ip : IPv4} {port : UInt16}

/-- What denotes an address of version four and a port, and is not the text that a node would write,
has a plus sign or zeros in front of its port. -/
theorem respelt_of_ne (denotes : dialed? text = some ⟨.v4 ip, port⟩)
    (unusual : text ≠ ip.render ++ ":" ++ toString port.toNat) :
    ∃ plus zeros, (plus = true ∨ 0 < zeros) ∧
      text.toList = ip.render.toList ++ ':' :: Endpoint.ports port plus zeros := by
  obtain ⟨plus, zeros, spelt⟩ := dialed?_eq_some_v4.mp denotes
  refine ⟨plus, zeros, ?_, spelt⟩
  by_contra plain
  obtain ⟨no_plus, no_zeros⟩ := not_or.mp plain
  rw [Bool.not_eq_true] at no_plus
  obtain rfl : zeros = 0 := Nat.eq_zero_of_not_pos no_zeros
  refine unusual (String.toList_inj.mp ?_)
  rw [spelt, no_plus, String.toList_append, String.toList_append, Endpoint.toList_toString,
    List.append_assoc]
  rfl

end SocketAddress

namespace Reactor

variable {r : Reactor} {p : Peer} {info : PeerInfo} {a : String}

/-- The addresses that lead to a peer: where a connection leads that the node began, and where a
connection leads with the port that a peer announced which is ready. -/
inductive LeadsTo (r : Reactor) : SocketAddress → Prop
  | dialed {p : Peer} (held : r.Holds p) (outbound : p.direction = .outbound) : LeadsTo r p.remote
  | announced {p : Peer} {info : PeerInfo} {port : UInt16} (held : r.Holds p)
    (ready : p.isReady = true) (accepted : r.accepted p.id = some info)
    (number : (port.toNat : Int) = info.listenPort.toInt) : LeadsTo r ⟨p.remote.ip, port⟩

/-- What a turn begins to dial was in the pool, and is no text by which a peer is known. -/
theorem mem_begun {sight : Sight} {means : Means} (dialed : a ∈ r.begun sight means) :
    a ∈ r.shared.pool.entries ∧ ∀ p, r.Holds p → a ∉ p.knownAddresses := by
  unfold begun at dialed
  split at dialed
  · obtain ⟨_, selection⟩ := r.shared.pool.exists_selection r.table.size r.config.target
      r.table.connectedAddresses ⟨means.words, 0⟩
    refine ⟨selection.drawn dialed, fun p held known => ?_⟩
    refine selection.unconnected a dialed (List.mem_flatMap.mpr ⟨p, ?_, known⟩)
    exact IdMap.mem_values_iff.mpr ⟨p.id, held⟩
  · cases dialed

/-- A peer that is ready is known by the address a node writes for it. -/
theorem mem_knownAddresses (introduced : r.Introduced) (held : r.Holds p)
    (accepted : r.accepted p.id = some info) :
    p.remote.ip.render ++ ":" ++ toString info.listenPort.toInt ∈ p.knownAddresses := by
  have identity := (introduced.identity p.id p (Or.inl held)).trans accepted
  rw [Peer.knownAddresses, Peer.listenAddress_of_identity identity]
  exact List.mem_append_right _ (List.mem_singleton.mpr rfl)

/-- A text by which no peer is known is not the one that a node writes for an address of version
four that leads to a peer. -/
theorem LeadsTo.unusual (introduced : r.Introduced) {ip : IPv4} {port : UInt16}
    (leads : r.LeadsTo ⟨.v4 ip, port⟩) (unknown : ∀ p, r.Holds p → a ∉ p.knownAddresses) :
    a ≠ ip.render ++ ":" ++ toString port.toNat := by
  rintro rfl
  generalize address : (⟨.v4 ip, port⟩ : SocketAddress) = target at leads
  cases leads with
  | @dialed p held outbound =>
    refine unknown p held ?_
    have written : p.remote.render = ip.render ++ ":" ++ toString port.toNat := by
      rw [← address]
      rfl
    rw [Peer.knownAddresses, if_pos outbound, written]
    simp
  | @announced p info port' held ready accepted number =>
    have same := SocketAddress.mk.inj address
    have known := mem_knownAddresses introduced held accepted
    rw [← same.1, ← number, ← same.2] at known
    exact unknown p held known

/-- **What leads to a peer is dialed only if it is written unusually.**

Whatever a turn begins to dial was in the pool.  It is not the text by which a peer was dialed, nor
the address of a ready peer with the port it announced, as a node writes them.  If nevertheless it
denotes, to a dialer, an address of version four that leads to a peer, it is the usual text of that
address, and the port has a plus sign or zeros in front. -/
theorem redials_respelt (config : ReactorConfig) (shared : Shared) (now : Nat)
    (stimuli : List Stimulus) (sight : Sight) (means : Means)
    (dialed : a ∈ ((start config shared now).run stimuli).begun sight means) :
    let r := (start config shared now).run stimuli
    a ∈ r.shared.pool.entries ∧
      (∀ p, r.Holds p → p.dialed ≠ some a ∧ ∀ info, r.accepted p.id = some info →
        a ≠ p.remote.ip.render ++ ":" ++ toString info.listenPort.toInt) ∧
      ∀ ip port, r.LeadsTo ⟨.v4 ip, port⟩ → SocketAddress.dialed? a = some ⟨.v4 ip, port⟩ →
        ∃ plus zeros, (plus = true ∨ 0 < zeros) ∧
          a.toList = ip.render.toList ++ ':' :: Endpoint.ports port plus zeros := by
  intro r
  have introduced : r.Introduced := introduced_run config shared now stimuli
  obtain ⟨pooled, unknown⟩ := mem_begun dialed
  refine ⟨pooled, fun p held => ⟨?_, ?_⟩, fun ip port leads denotes =>
    SocketAddress.respelt_of_ne denotes (leads.unusual introduced unknown)⟩
  · intro same
    refine unknown p held ?_
    rw [Peer.knownAddresses, same]
    simp
  · rintro info accepted rfl
    exact unknown p held (mem_knownAddresses introduced held accepted)

theorem leadsTo_dialed (id : PeerId) {target : SocketAddress}
    (there : (r.table.get? id).map (fun p => (p.id, p.remote, p.direction)) =
      some (id, target, .outbound)) : r.LeadsTo target := by
  obtain ⟨p, found, same⟩ := Option.map_eq_some_iff.mp there
  obtain ⟨rfl, rfl, outbound⟩ : p.id = id ∧ p.remote = target ∧ p.direction = .outbound := by
    simpa using same
  exact .dialed found outbound

/-- A node dials port 5000 of its own machine and is told there of another port or of the same
one. -/
def hearsay (port : String) : List Stimulus :=
  let quiet : Sight := ⟨0, 0, .none, []⟩
  let idle : Means := ⟨0, .waiting [], [.accepted 999], []⟩
  [.request (.adopt ⟨3⟩ ⟨.v4 .localhost, 5000⟩ "127.0.0.1:5000"), .turn quiet idle,
    .turn quiet idle,
    .turn ⟨0, 0, .none, [(⟨1⟩, .ok .read)]⟩
      { idle with incoming := .waiting (Message.discovery ["127.0.0.1:" ++ port]).encode }]

/-- A text that is dialed and leads to a peer has a zero in front of its port. -/
theorem redials_respelt_zero :
    let config : ReactorConfig := { (default : ReactorConfig) with target := 2 }
    let r := (start config .empty 0).run (hearsay "05000")
    "127.0.0.1:05000" ∈ r.begun ⟨0, 0, .none, []⟩ ⟨0, .waiting [], [], []⟩ ∧
      ∃ plus zeros, (plus = true ∨ 0 < zeros) ∧ "127.0.0.1:05000".toList =
        IPv4.localhost.render.toList ++ ':' :: Endpoint.ports 5000 plus zeros := by
  intro config r
  have dialed : "127.0.0.1:05000" ∈ r.begun ⟨0, 0, .none, []⟩ ⟨0, .waiting [], [], []⟩ := by
    decide +kernel
  have leads : r.LeadsTo ⟨.v4 .localhost, 5000⟩ := leadsTo_dialed ⟨1⟩ (by decide +kernel)
  exact ⟨dialed, (redials_respelt config .empty 0 (hearsay "05000") _ _ dialed).2.2
    .localhost 5000 leads (by decide +kernel)⟩

/-- **A peer is dialed once more.**  The text by which the node dialed it is left out when it is
heard of; another text that leads to it is not. -/
theorem exists_redial :
    let config : ReactorConfig := { (default : ReactorConfig) with target := 2 }
    let quiet : Sight := ⟨0, 0, .none, []⟩
    let idle : Means := ⟨0, .waiting [], [], []⟩
    let r := (start config .empty 0).run (hearsay "05000")
    r.LeadsTo ⟨.v4 .localhost, 5000⟩ ∧
      (∃ a ∈ r.begun quiet idle, SocketAddress.dialed? a = some ⟨.v4 .localhost, 5000⟩) ∧
      ((start config .empty 0).run (hearsay "5000")).begun quiet idle = [] := by
  intro config quiet idle r
  refine ⟨leadsTo_dialed ⟨1⟩ (by decide +kernel), ⟨"127.0.0.1:05000", ?_, ?_⟩, ?_⟩
  · decide +kernel
  · decide +kernel
  · decide +kernel

end Reactor

end GossipNode
