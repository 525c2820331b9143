import GossipNode.Control
import GossipNode.IdMap

/-!
# Waiting for many things at once

The multiplexer watches the sockets of all peers, the socket new connections arrive on, the queue
of commands and the clock, and says what is to be served next.  Several things may be due at once;
their order of precedence is fixed:

* peers that were put back because bytes of theirs have been read and not decoded, first come first;
* commands;
* new connections, unless they are paused;
* sockets that report something, or that cannot be waited for;
* the periodic tick;
* the end of a pause.

The outside is given to `Multiplexer.wait` as data, a `Sight`.

## Main definitions

* `Readiness` — what a socket reports.
* `Sight` — what is seen of the outside.
* `Multiplexer`, `Multiplexer.register`, `Multiplexer.deregister`, `Multiplexer.requeue` — what is
  watched.
* `Wakeup`, `Multiplexer.wait` — what is to be served next.
-/

namespace GossipNode

/-- What a socket reports. -/
structure Readiness where
  /-- There may be something to read. -/
  readable : Bool
  /-- There may be room to write. -/
  writable : Bool
  /-- The other side sends no more. -/
  readClosed : Bool
  deriving DecidableEq, Repr, Inhabited

namespace Readiness

/-- The report that stands for bytes which have been read and not decoded. -/
def read : Readiness := ⟨true, false, false⟩

/-- The part of a report that is asked for: room to write only matters where bytes are due. -/
def masked (r : Readiness) (owing : Bool) : Readiness := { r with writable := r.writable && owing }

/-- Whether there is anything in a report. -/
def any (r : Readiness) : Bool := r.readable || r.writable || r.readClosed

end Readiness

/-- What may have come to the socket that new connections arrive on. -/
inductive Arrival
  | none
  | connection (socket : SocketId) (remote : SocketAddress)
  | failed (why : IoError)
  deriving DecidableEq, Repr, Inhabited

/-- What is seen of the outside while the multiplexer waits. -/
structure Sight where
  /-- When the wait begins, in milliseconds. -/
  began : Nat
  /-- When it ends. -/
  now : Nat
  arrival : Arrival
  /-- What the sockets report, or why they cannot be waited for, in the order in which they are
  heard. -/
  reports : List (PeerId × Except IoError Readiness)
  deriving Repr, Inhabited

/-- What is to be served. -/
inductive Wakeup
  | peer (id : PeerId) (ready : Readiness)
  /-- A command, or the news that none will ever come. -/
  | control (command : Option Command)
  | accept (socket : SocketId) (remote : SocketAddress)
  | acceptFailed (why : IoError)
  | tick
  | acceptResumed
  /-- Waiting itself has failed. -/
  | failed (why : IoError)
  deriving DecidableEq, Repr

/-- What is watched. -/
structure Multiplexer where
  /-- The sockets of the peers. -/
  sockets : IdMap SocketId
  /-- The peers that were put back. -/
  pending : List PeerId
  /-- The time between two ticks, in milliseconds. -/
  period : Nat
  /-- When the next tick is due. -/
  nextTick : Nat
  /-- When new connections are watched for again, if they are paused. -/
  resumeAt : Option Nat

namespace Multiplexer

/-- A multiplexer without sockets.  The first tick is due at once. -/
def start (now period : Nat) : Multiplexer := ⟨.empty, [], period, now, none⟩

instance : Inhabited Multiplexer := ⟨start 0 1⟩

/-- The number of sockets. -/
def size (m : Multiplexer) : Nat := m.sockets.size

/-- Whether the socket of a peer is watched. -/
def isRegistered (m : Multiplexer) (id : PeerId) : Bool := m.sockets.contains id

/-- Watches the socket of a peer. -/
def register (m : Multiplexer) (id : PeerId) (socket : SocketId) : Multiplexer :=
  { m with sockets := m.sockets.insert id socket }

/-- Watches the socket of a peer no longer, and forgets that the peer was put back. -/
def deregister (m : Multiplexer) (id : PeerId) : Multiplexer :=
  { m with sockets := m.sockets.erase id, pending := m.pending.filter (· ≠ id) }

/-- Puts a peer back, so that it is served before anything else.  A peer that is not watched or has
been put back already is passed over. -/
def requeue (m : Multiplexer) (id : PeerId) : Multiplexer :=
  if m.isRegistered id ∧ id ∉ m.pending then { m with pending := m.pending ++ [id] } else m

/-- Watches for no new connections until some time has passed. -/
def pauseAccept (m : Multiplexer) (now limit : Nat) : Multiplexer :=
  { m with resumeAt := some (now + limit) }

/-- Whether new connections are watched for. -/
def isAccepting (m : Multiplexer) : Bool := m.resumeAt.isNone

/-- Watches no socket any more. -/
def clear (m : Multiplexer) : Multiplexer := { m with sockets := .empty, pending := [] }

/-- The first peer that was put back and is still watched, and those after it. -/
def nextPending (sockets : IdMap SocketId) : List PeerId → Option (PeerId × List PeerId)
  | [] => none
  | id :: rest => if sockets.contains id then some (id, rest) else nextPending sockets rest

/-- Ends a pause whose time is over. -/
def liftPause (m : Multiplexer) (now : Nat) : Multiplexer :=
  if m.resumeAt.any (· ≤ now) then { m with resumeAt := none } else m

/-- What a report of a watched socket is about to have served, if it says anything that is asked
for.  `owing` tells whether bytes are due to the peer. -/
def heed (id : PeerId) (owing : Bool) : Except IoError Readiness → Option Wakeup
  | .ok ready =>
    let ready := ready.masked owing
    if ready.any then some (.peer id ready) else none
  | .error why => some (.failed why)

/-- What the first report of a watched socket is about to have served that says anything that is
asked for.  `owing` tells which peers have bytes that are due. -/
def firstReport (m : Multiplexer) (owing : PeerId → Bool)
    (reports : List (PeerId × Except IoError Readiness)) : Option Wakeup :=
  reports.findSome? fun (id, report) =>
    if m.isRegistered id then heed id (owing id) report else none

/-- By how much a tick may be late and still count as being on time. -/
def tickTolerance : Nat := 5

/-- A tick is taken.  The next one is due a period after this one was, or a period from now if it is
late. -/
def takeTick (m : Multiplexer) (now : Nat) : Multiplexer :=
  let base := if m.nextTick + tickTolerance < now then now else m.nextTick
  { m with nextTick := base + m.period }

/-- What the clock makes due. -/
def clockWakeup (m : Multiplexer) (now : Nat) : Option Wakeup × Multiplexer :=
  if m.nextTick ≤ now then (some .tick, m.takeTick now)
  else if m.resumeAt.any (· ≤ now) then (some .acceptResumed, m)
  else (none, m)

/-- What is to be served next, if anything is, and the multiplexer and the queue of commands after
it. -/
def wait (m : Multiplexer) (queue : ControlQueue) (owing : PeerId → Bool) (sight : Sight) :
    Option Wakeup × Multiplexer × ControlQueue :=
  match nextPending m.sockets m.pending with
  | some (id, rest) => (some (.peer id .read), { m with pending := rest }, queue)
  | none =>
    let m := { m with pending := [] }.liftPause sight.began
    match queue.receive with
    | some (command, queue) => (some (.control command), m, queue)
    | none =>
      match m.isAccepting, sight.arrival with
      | true, .connection socket remote => (some (.accept socket remote), m, queue)
      | true, .failed why => (some (.acceptFailed why), m, queue)
      | _, _ =>
        match m.firstReport owing sight.reports with
        | some wakeup => (some wakeup, m, queue)
        | none =>
          let (wakeup, m) := m.clockWakeup sight.now
          (wakeup, m, queue)

end Multiplexer

end GossipNode
