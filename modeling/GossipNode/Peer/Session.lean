import GossipNode.Peer.Error

/-!
# The conversation on one connection

A session is what a node remembers of the conversation on a connection: how far it has come, who
the other side is, the bytes that have been read and not decoded, and the bytes that have been
handed over and not accepted by the socket.

What a socket does is not decided here.  It is given to the operations as data: `WriteOutcome`s say
what becomes of bytes that are offered to it, `Incoming` says what it holds for the reader.

## Main definitions

* `PeerState`, `Direction` — how far a conversation has come, and who began it.
* `WriteOutcome`, `Incoming` — what a socket does.
* `Session.send`, `Session.flush` — output.
* `Session.fill`, `Session.nextEnvelope` — input.
* `Session.markReady`, `Session.markClosed` — changes of state.

## Main results

* `accepted_append_left_offer` — offering bytes neither loses nor repeats any.
-/

namespace GossipNode

/-- The largest number of bytes that are read from a socket at once. -/
def readChunk : Nat := 4096

/-- How far a conversation has come. -/
inductive PeerState
  /-- The connection is being made. -/
  | connecting
  /-- The other side has not introduced itself. -/
  | unverified
  /-- The other side has introduced itself and was accepted. -/
  | ready
  /-- The conversation is over. -/
  | closed
  deriving DecidableEq, Repr, Inhabited

/-- A state as it is shown to people. -/
def PeerState.display : PeerState → String
  | connecting => "connecting"
  | unverified => "unverified"
  | ready => "ready"
  | closed => "closed"

/-- Which side began a connection. -/
inductive Direction
  /-- The node itself. -/
  | outbound
  /-- The other side. -/
  | inbound
  | unknown
  deriving DecidableEq, Repr, Inhabited

/-- A direction as it is shown to people. -/
def Direction.display : Direction → String
  | outbound => "out"
  | inbound => "in"
  | unknown => "unknown"

/-- What a socket does with bytes that are offered to it. -/
inductive WriteOutcome
  /-- It takes so many of them from the front, or all if there are fewer. -/
  | accepted (n : Nat)
  /-- It takes none for the time being. -/
  | blocked
  /-- It takes none ever. -/
  | failed (why : IoError)
  deriving DecidableEq, Repr

/-- What a socket holds for its reader. -/
inductive Incoming
  /-- Bytes that have arrived; if there are none, more may come. -/
  | waiting (bytes : Bytes)
  /-- The end of what the other side sends. -/
  | ended
  /-- Nothing, for the connection is broken. -/
  | failed (why : IoError)
  deriving DecidableEq, Repr

/-- What one attempt to read came to. -/
inductive ReadOutcome
  /-- So many bytes were read. -/
  | data (n : Nat)
  /-- Nothing has arrived. -/
  | wouldBlock
  /-- The other side sends no more. -/
  | ended
  deriving DecidableEq, Repr

/-- What became of bytes that were offered to a socket again and again: those it accepted, those
that are left, how it ended, and what the socket would do with further offers. -/
structure Flushed where
  accepted : Bytes
  left : Bytes
  result : Except PeerError Unit
  rest : List WriteOutcome

/-- Offers bytes until all are accepted, the socket takes no more, or it fails.  A socket that takes
none although it is not blocked has been shut.  Where nothing is said about an offer the socket is
blocked. -/
def offer : List WriteOutcome → (accepted due : Bytes) → Flushed
  | outcomes, accepted, [] => ⟨accepted, [], .ok (), outcomes⟩
  | [], accepted, due => ⟨accepted, due, .ok (), []⟩
  | .accepted 0 :: rest, accepted, due => ⟨accepted, due, .error .disconnected, rest⟩
  | .accepted n :: rest, accepted, due => offer rest (accepted ++ due.take n) (due.drop n)
  | .blocked :: rest, accepted, due => ⟨accepted, due, .ok (), rest⟩
  | .failed why :: rest, accepted, due => ⟨accepted, due, .error (.io why), rest⟩

/-- What has been accepted and what is left make up what was there. -/
theorem accepted_append_left_offer (outcomes : List WriteOutcome) (accepted due : Bytes) :
    (offer outcomes accepted due).accepted ++ (offer outcomes accepted due).left =
      accepted ++ due := by
  fun_induction offer outcomes accepted due with
  | case1 => simp
  | case2 => rfl
  | case3 => rfl
  | case4 n rest accepted due _ _ ih => rw [ih, List.append_assoc, List.take_append_drop]
  | case5 => rfl
  | case6 => rfl

/-- What a node remembers of the conversation on a connection. -/
structure Session where
  state : PeerState
  /-- Who the other side is, once it has been accepted. -/
  identity : Option PeerInfo
  /-- Bytes that have been read and not decoded. -/
  inbound : Bytes
  /-- Bytes that have been handed over and not accepted by the socket. -/
  outbound : Bytes
  deriving DecidableEq, Repr, Inhabited

namespace Session

/-- The session of a connection that has just been made. -/
def start : Session := ⟨.unverified, none, [], []⟩

/-- What became of output: the session after it, the bytes the socket accepted, how it ended, and
what the socket would do with further offers. -/
structure Written where
  session : Session
  accepted : Bytes
  result : Except PeerError Unit
  rest : List WriteOutcome

/-- Whether there are bytes the socket has not accepted. -/
def hasPendingOutput (s : Session) : Bool := !s.outbound.isEmpty

/-- Whether there are bytes that have not been decoded. -/
def hasBufferedInput (s : Session) : Bool := !s.inbound.isEmpty

/-- Offers the bytes that are due to the socket. -/
def flush (s : Session) (outcomes : List WriteOutcome) : Written :=
  let f := offer outcomes [] s.outbound
  ⟨{ s with outbound := f.left }, f.accepted, f.result, f.rest⟩

/-- Hands over a message, behind whatever is due, and offers it all to the socket.  A message that
has been handed over stays due even if the socket fails.  Nothing is handed over once the
conversation is over. -/
def send (s : Session) (m : Message) (outcomes : List WriteOutcome) : Written :=
  if s.state = .closed then ⟨s, [], .error .disconnected, outcomes⟩
  else flush { s with outbound := s.outbound ++ m.encode } outcomes

/-- Reads once, at most a chunk.  More undecoded bytes than any message has are an error; they are
kept nonetheless. -/
def fill (s : Session) : Incoming → Except PeerError ReadOutcome × Session
  | .waiting [] => (.ok .wouldBlock, s)
  | .waiting bytes =>
    let chunk := bytes.take readChunk
    let inbound := s.inbound ++ chunk
    let outcome := if maxMessageSize < inbound.length then
        .error (.decode (.oversized inbound.length maxMessageSize))
      else .ok (.data chunk.length)
    (outcome, { s with inbound })
  | .ended => (.ok .ended, s)
  | .failed why => (.error (.io why), s)

/-- Takes the first envelope off the undecoded bytes. -/
def nextEnvelope (s : Session) : Except DecodeError (Option Envelope) × Session :=
  let (result, inbound) := takeEnvelope s.inbound
  (result, { s with inbound })

/-- Notes who the other side is and whether that was news: only the first introduction counts, and
none after the end. -/
def markReady (s : Session) (identity : PeerInfo) : Bool × Session :=
  if s.state = .unverified then (true, { s with state := .ready, identity := some identity })
  else (false, s)

/-- The conversation is over. -/
def markClosed (s : Session) : Session := { s with state := .closed }

end Session

end GossipNode
