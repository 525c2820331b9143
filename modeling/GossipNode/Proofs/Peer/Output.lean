import GossipNode.Proofs.Peer.Calls
import GossipNode.Proofs.Wire.Stream

/-!
# What becomes of output

A message that is handed over is put behind the bytes that are due, and the bytes that are due are
offered to the socket, which takes as many as it likes, none for the time being, or none ever.  A
message may so be taken in pieces, by calls far apart, and an offer that fails may have had others
before it that did not.  Whatever the socket does, the bytes it has taken and the bytes that are due
are together the messages that were handed over, one behind the other.

What is said of calls holds between two offers of one call as well: a socket about which no more is
said takes nothing more, so that a call cut short there is again a call.

## Main definitions

* `Session.taken`, `Session.handed` — the bytes a call makes the socket take, and the message it
  hands over.
* `Session.takenBy`, `Session.handedBy` — the same for many calls.

## Main results

* `Session.taken_append_perform` — one call keeps the account.
* `Session.output_exact` — **output is neither lost, repeated nor mixed up**, whatever is called and
  whatever the socket does.
-/

namespace GossipNode

namespace Session

/-- The bytes the socket takes during a call. -/
def taken (s : Session) : Call → Bytes
  | .send m outcomes => (s.send m outcomes).accepted
  | .flush outcomes => (s.flush outcomes).accepted
  | .fill _ | .nextEnvelope | .markReady _ | .markClosed => []

/-- The message that a call hands over, if it does.  Nothing is handed over after the end. -/
def handed (s : Session) : Call → List Message
  | .send m _ => if s.state = .closed then [] else [m]
  | .flush _ | .fill _ | .nextEnvelope | .markReady _ | .markClosed => []

/-- The bytes the socket takes during some calls, in order. -/
def takenBy : Session → List Call → Bytes
  | _, [] => []
  | s, c :: calls => s.taken c ++ takenBy (s.perform c) calls

/-- The messages that some calls hand over, in order. -/
def handedBy : Session → List Call → List Message
  | _, [] => []
  | s, c :: calls => s.handed c ++ handedBy (s.perform c) calls

@[simp] theorem takenBy_nil (s : Session) : s.takenBy [] = [] := rfl

@[simp] theorem takenBy_cons (s : Session) (c : Call) (calls : List Call) :
    s.takenBy (c :: calls) = s.taken c ++ (s.perform c).takenBy calls := rfl

@[simp] theorem handedBy_nil (s : Session) : s.handedBy [] = [] := rfl

@[simp] theorem handedBy_cons (s : Session) (c : Call) (calls : List Call) :
    s.handedBy (c :: calls) = s.handed c ++ (s.perform c).handedBy calls := rfl

@[simp] theorem outbound_fill (s : Session) (incoming : Incoming) :
    (s.fill incoming).2.outbound = s.outbound := by
  unfold fill
  split <;> rfl

@[simp] theorem outbound_nextEnvelope (s : Session) : s.nextEnvelope.2.outbound = s.outbound := rfl

@[simp] theorem outbound_markReady (s : Session) (info : PeerInfo) :
    (s.markReady info).2.outbound = s.outbound := by
  unfold markReady
  split <;> rfl

@[simp] theorem outbound_markClosed (s : Session) : s.markClosed.outbound = s.outbound := rfl

/-- After the end nothing is handed over, nothing is offered, and the caller is told. -/
theorem send_closed {s : Session} (h : s.state = .closed) (m : Message)
    (outcomes : List WriteOutcome) :
    s.send m outcomes = ⟨s, [], .error .disconnected, outcomes⟩ := if_pos h

theorem send_open {s : Session} (h : s.state ≠ .closed) (m : Message)
    (outcomes : List WriteOutcome) :
    s.send m outcomes = flush { s with outbound := s.outbound ++ m.encode } outcomes := if_neg h

theorem accepted_append_flush (s : Session) (outcomes : List WriteOutcome) :
    (s.flush outcomes).accepted ++ (s.flush outcomes).session.outbound = s.outbound :=
  accepted_append_left_offer outcomes [] s.outbound

/-- What a call makes the socket take and what is due after it are what was due before it and the
message it hands over. -/
theorem taken_append_perform (s : Session) (c : Call) :
    s.taken c ++ (s.perform c).outbound = s.outbound ++ encodeAll (s.handed c) := by
  cases c with
  | send m outcomes =>
    show (s.send m outcomes).accepted ++ (s.send m outcomes).session.outbound = _
    by_cases ended : s.state = .closed
    · simp [send_closed ended, handed, ended]
    · rw [send_open ended, accepted_append_flush]
      simp [handed, ended]
  | flush outcomes =>
    show (s.flush outcomes).accepted ++ (s.flush outcomes).session.outbound = _
    rw [accepted_append_flush]
    simp [handed]
  | fill incoming => simp [taken, perform, handed]
  | nextEnvelope => simp [taken, perform, handed]
  | markReady info => simp [taken, perform, handed]
  | markClosed => simp [taken, perform, handed]

theorem takenBy_append_after (calls : List Call) : ∀ s : Session,
    s.takenBy calls ++ (s.after calls).outbound = s.outbound ++ encodeAll (s.handedBy calls) := by
  induction calls with
  | nil => simp
  | cons c calls ih =>
    intro s
    calc s.takenBy (c :: calls) ++ (s.after (c :: calls)).outbound
        = s.taken c ++ ((s.perform c).takenBy calls ++ ((s.perform c).after calls).outbound) := by
          simp
      _ = s.taken c ++ (s.perform c).outbound ++ encodeAll ((s.perform c).handedBy calls) := by
          rw [ih, List.append_assoc]
      _ = s.outbound ++ encodeAll (s.handedBy (c :: calls)) := by
          rw [taken_append_perform]
          simp

/-- **Output is neither lost, repeated nor mixed up**, whatever is called and whatever the socket
does: the bytes it has taken and those that are due are the messages that were handed over before
the end, one behind the other.  So the other side has seen the beginning of them, there is output
pending as long as it has not seen all, and after the end nothing can be handed over. -/
theorem output_exact (calls : List Call) :
    let s := start.after calls
    let all := encodeAll (start.handedBy calls)
    start.takenBy calls ++ s.outbound = all ∧
      start.takenBy calls <+: all ∧
      (s.hasPendingOutput = true ↔ start.takenBy calls ≠ all) ∧
      (s.state = .closed → ∀ m outcomes,
        s.send m outcomes = ⟨s, [], .error .disconnected, outcomes⟩) := by
  intro s all
  have account : start.takenBy calls ++ s.outbound = all := takenBy_append_after calls start
  refine ⟨account, ⟨s.outbound, account⟩, ?_, fun ended m outcomes => send_closed ended m outcomes⟩
  have taken_all : start.takenBy calls = all ↔ s.outbound = [] := by
    rw [← account, List.self_eq_append_right]
  rw [ne_eq, taken_all]
  simp [hasPendingOutput]

/-- A socket takes three bytes of a message and fails, takes two more when it is offered the rest,
and the conversation ends: the rest stays due, and no other message can be handed over. -/
theorem output_exact_cut_short :
    let farewell : Message := .disconnect .unknown ""
    let calls : List Call :=
      [.send farewell [.accepted 3, .failed .connectionReset], .flush [.accepted 2, .blocked],
        .markClosed]
    let s := start.after calls
    s.state = .closed ∧ start.takenBy calls = farewell.encode.take 5 ∧
      start.takenBy calls ++ s.outbound = farewell.encode ∧
      s.send farewell [.accepted 9] = ⟨s, [], .error .disconnected, [.accepted 9]⟩ := by
  intro farewell calls s
  have spec := output_exact calls
  refine ⟨rfl, by decide +kernel, ?_, spec.2.2.2 rfl farewell [.accepted 9]⟩
  have one : encodeAll (start.handedBy calls) = farewell.encode := by
    show encodeAll [farewell] = farewell.encode
    simp
  exact spec.1.trans one

end Session

end GossipNode
