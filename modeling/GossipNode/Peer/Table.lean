import GossipNode.IdMap
import GossipNode.Peer.Basic

/-!
# The peers of a node

## Main definitions

* `PeerTable` — the peers by number.
* `PeerTable.readyAddresses` — the addresses a node passes on.
* `PeerTable.connectedAddresses` — the addresses a node need not dial.
-/

namespace GossipNode

/-- The peers of a node by number. -/
abbrev PeerTable := IdMap Peer

namespace PeerTable

/-- The number of peers that have introduced themselves. -/
def readyCount (t : PeerTable) : Nat := (t.values.filter (·.isReady)).length

/-- Where the peers that have introduced themselves can be reached, in the order of their
numbers. -/
def readyAddresses (t : PeerTable) : List String :=
  (t.values.filter (·.isReady)).filterMap (·.listenAddress)

/-- Every text that leads to a peer, in the order of the peers. -/
def connectedAddresses (t : PeerTable) : List String := t.values.flatMap (·.knownAddresses)

/-- What is shown of the peers, in the order of their numbers. -/
def snapshots (t : PeerTable) : List PeerSnapshot := t.values.map (·.snapshot)

end PeerTable

end GossipNode
