import GossipNode.CommandLine.Parse
import GossipNode.Loopback.Machine
import GossipNode.Main
import GossipNode.Proofs.Json.Scalars
import GossipNode.Proofs.Json.Values
import GossipNode.Proofs.Wire.Envelopes
import GossipNode.Proofs.Message.Payload
import GossipNode.Proofs.Peer.Calls
import GossipNode.Proofs.Reactor.Moves
import GossipNode.Proofs.Wire.Stream
import GossipNode.Proofs.Multiplexer
import GossipNode.Proofs.Reactor.Consistency
import GossipNode.Proofs.IdMap
import GossipNode.Proofs.Reactor.Sessions
import GossipNode.Proofs.Reactor.Introductions
import GossipNode.Proofs.Reactor.Frames
import GossipNode.Proofs.Reactor.Serving
import GossipNode.Proofs.Reactor.Delivery
import GossipNode.Proofs.Reactor.Connections
import GossipNode.Proofs.Reactor.Handling
import GossipNode.Proofs.Reactor.Promptness
import GossipNode.Proofs.Peer.Table
import GossipNode.Proofs.Reactor.Transcript
import GossipNode.Proofs.Reactor.Conversations
import GossipNode.Proofs.Wire.Prefixes
import GossipNode.Proofs.Wire.Cuts
import GossipNode.Proofs.Reactor.Batching
import GossipNode.Proofs.Peer.Output
import GossipNode.Proofs.Reactor.Chronicle
import GossipNode.Proofs.Reactor.Search
import GossipNode.Proofs.Message.Length
import GossipNode.Proofs.Reactor.Replies
import GossipNode.Proofs.Reactor.Writing
import GossipNode.Proofs.Duet.Party
import GossipNode.Proofs.Duet.Hearing
import GossipNode.Proofs.Duet.Basic
import GossipNode.Proofs.Duet.Agreement
import GossipNode.Proofs.Reactor.Gossip
import GossipNode.Proofs.Reactor.Containment
import GossipNode.Proofs.Reactor.Flood
import GossipNode.Proofs.Node.Career
import GossipNode.Proofs.Reactor.Postponement
import GossipNode.Proofs.Reactor.Sizes
import GossipNode.Proofs.Wire.Locality
import GossipNode.Proofs.Message.Acceptance
import GossipNode.Proofs.Text.Order
import GossipNode.Proofs.Json.Arranged
import GossipNode.Proofs.Json.Depth
import GossipNode.Proofs.Json.Compact
import GossipNode.Proofs.Wire.RoundTrip
import GossipNode.Proofs.Json.Layout
import GossipNode.Proofs.Json.Tokens
import GossipNode.Proofs.Json.Reading
import GossipNode.Proofs.Json.Skipping
import GossipNode.Proofs.Wire.Layouts
import GossipNode.Proofs.Registry
import GossipNode.Proofs.Address.Texts
import GossipNode.Proofs.Address.Grammar
import GossipNode.Proofs.RandomIndex
import GossipNode.Proofs.Removals
import GossipNode.Proofs.Reactor.Referrals
import GossipNode.Proofs.Reactor.Redials
import GossipNode.Proofs.Reactor.Likeness
import GossipNode.Proofs.Reactor.Lockstep
import GossipNode.Proofs.Reactor.Rest
import GossipNode.Proofs.Reactor.Transparency
