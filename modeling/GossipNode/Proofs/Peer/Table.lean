import GossipNode.Peer.Table
import GossipNode.Proofs.IdMap

/-!
# Whom a node passes on

## Main definitions

* `PeerTable.ListsReady` — addresses are those of the peers that have introduced themselves, in the
  order of their numbers.

## Main results

* `PeerTable.readyAddresses_spec` — **these are the addresses a node passes on.**
* `PeerTable.readyAddresses_insert` — they stay the same as long as nobody is accepted or goes.
-/

namespace GossipNode

/-- Where a peer can be reached that has introduced itself. -/
theorem Peer.listenAddress_of_identity {p : Peer} {info : PeerInfo}
    (identity : p.session.identity = some info) :
    p.listenAddress = some (p.remote.ip.render ++ ":" ++ toString info.listenPort.toInt) := by
  rw [listenAddress, identity]
  rfl

namespace PeerTable

variable {t : PeerTable} {id : PeerId} {p q : Peer}

/-- Addresses are those at which the peers that have introduced themselves can be reached, in
increasing order of the peers' numbers. -/
def ListsReady (t : PeerTable) (addresses : List String) : Prop :=
  ∃ ps : List Peer, ps.Pairwise (fun p q => p.id < q.id) ∧
    (∀ p, p ∈ ps ↔ t.get? p.id = some p ∧ p.isReady = true) ∧
    ps.map (·.listenAddress) = addresses.map some

/-- Where a peer can be reached, if it has introduced itself. -/
def readyAddress? (p : Peer) : Option String := if p.isReady then p.listenAddress else none

theorem readyAddresses_eq (t : PeerTable) :
    t.readyAddresses = (t.values.map readyAddress?).filterMap fun a => a := by
  unfold readyAddresses
  generalize t.values = ps
  induction ps with
  | nil => rfl
  | cons p ps ih =>
    rw [List.filter_cons, List.map_cons, List.filterMap_cons, readyAddress?, ← ih]
    split
    · rw [List.filterMap_cons]
    · rfl

/-- The addresses stay the same when a peer changes that stays accepted or not, and reachable where
it is. -/
theorem readyAddresses_insert (found : t.get? id = some p) (ready : q.isReady = p.isReady)
    (address : q.listenAddress = p.listenAddress) :
    readyAddresses (t.insert id q) = t.readyAddresses := by
  have same : readyAddress? q = readyAddress? p := by
    rw [readyAddress?, readyAddress?, ready, address]
  rw [readyAddresses_eq, readyAddresses_eq, IdMap.map_values_insert readyAddress? found same]

theorem mem_readyAddresses (found : t.get? id = some p) (ready : p.isReady = true) {a : String}
    (address : p.listenAddress = some a) : a ∈ t.readyAddresses := by
  have listed : p ∈ t.values := IdMap.mem_values_iff.2 ⟨id, found⟩
  exact List.mem_filterMap.2 ⟨p, List.mem_filter.2 ⟨listed, ready⟩, address⟩

/-- **The addresses a node passes on are those of the peers that have introduced themselves, in the
order of their numbers.** -/
theorem readyAddresses_spec (keyed : ∀ id p, t.get? id = some p → p.id = id)
    (known : ∀ id p, t.get? id = some p → p.isReady = true → p.session.identity.isSome) :
    t.ListsReady t.readyAddresses := by
  refine ⟨t.values.filter (·.isReady), ?_, fun p => ?_, ?_⟩
  · have ordered : t.values.Pairwise fun p q => p.id < q.id := by
      refine List.pairwise_map.2 (t.ascending.imp_of_mem fun {a b} ha hb less => ?_)
      have first := keyed a.1 a.2 (IdMap.mem_entries_iff.1 ha)
      have second := keyed b.1 b.2 (IdMap.mem_entries_iff.1 hb)
      rw [first, second]
      exact less
    exact ordered.filter _
  · rw [List.mem_filter, IdMap.mem_values_iff]
    refine and_congr_left fun _ => ⟨?_, fun found => ⟨p.id, found⟩⟩
    rintro ⟨id, found⟩
    rwa [keyed id p found]
  · have reachable : ∀ p ∈ t.values.filter (·.isReady), p.listenAddress.isSome := by
      intro p hp
      obtain ⟨listed, ready⟩ := List.mem_filter.1 hp
      obtain ⟨id, found⟩ := IdMap.mem_values_iff.1 listed
      rw [Peer.listenAddress, Option.isSome_map]
      exact known id p found ready
    unfold readyAddresses
    generalize t.values.filter (·.isReady) = ps at reachable
    induction ps with
    | nil => rfl
    | cons p ps ih =>
      obtain ⟨a, ha⟩ := Option.isSome_iff_exists.1 (reachable p List.mem_cons_self)
      have rest := ih fun q hq => reachable q (List.mem_cons_of_mem p hq)
      rw [List.map_cons, List.filterMap_cons_some ha, List.map_cons, ha, rest]

end PeerTable

end GossipNode
