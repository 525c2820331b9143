import GossipNode.Wire.Envelope

/-!
# Decoding the front of a byte stream

The first envelope of a buffer is found by running the envelope reader over it.  As long as the
buffer holds only a part of an envelope, more is needed; a buffer that has grown too large by then
is given up.

## Main definitions

* `DecodeError` — why bytes are not a message.
* `decodeOne` — the first envelope of a buffer and its length.
* `Envelope.message` — the message in an envelope.
* `decodeMessage` — both in one.
* `Message.encode` — the bytes of a message.
* `takeEnvelope` — takes the first envelope off a buffer.
-/

namespace GossipNode

/-- The largest number of bytes a peer may leave without a complete message. -/
def maxMessageSize : Nat := 1048576

/-- Why bytes are not a message. -/
inductive DecodeError
  /-- The bytes are not an envelope; the fault is at a position. -/
  | malformed (fault : Fault) (position : Position)
  /-- The kind of the message is not known. -/
  | unknownType (tag : UInt64)
  /-- The payload does not have the shape its kind asks for. -/
  | payload (kind : MessageKind) (fault : Mismatch)
  /-- Too many bytes without a complete message. -/
  | oversized (size limit : Nat)
  /-- The bytes could not be had. -/
  | io (reason : String)
  deriving DecidableEq, Repr

namespace DecodeError

/-- The words for a decoding error. -/
def message : DecodeError → String
  | malformed fault position =>
    "Malformed message: " ++ fault.message ++ " at line " ++ toString position.line ++ " column "
      ++ toString position.column
  | unknownType tag => "Unknown message type " ++ toString tag.toNat
  | payload kind fault => "Invalid " ++ kind.name ++ " payload: " ++ fault.message
  | oversized size limit =>
    "Message too large: " ++ toString size ++ " bytes (max: " ++ toString limit ++ ")"
  | io reason => "IO error: " ++ reason

/-- Whether the connection must be given up.  Only an unknown kind leaves the stream in step: its
envelope was sound. -/
def isFatal : DecodeError → Bool
  | unknownType _ => false
  | _ => true

end DecodeError

/-- How far an envelope reader came. -/
inductive Scan
  /-- An envelope ends after the given number of bytes. -/
  | found (e : Envelope) (used : Nat)
  /-- The bytes are refused; the fault is placed after the given number of bytes. -/
  | refused (fault : Fault) (offset : Nat)
  /-- The bytes ran out. -/
  | ended (r : EnvelopeReader) (size : Nat)
  deriving Repr

/-- Runs an envelope reader that has taken `used` bytes over further ones. -/
def EnvelopeReader.run (r : EnvelopeReader) (used : Nat) : Bytes → Scan
  | [] => .ended r used
  | b :: bs =>
    match r.step b with
    | .next r => r.run (used + 1) bs
    | .done e => .found e (used + 1)
    | .past e => .found e used
    | .refuse fault .before => .refused fault used
    | .refuse fault .after => .refused fault (used + 1)
    | .refuse fault (.back n) => .refused fault (used - n)

/-- The first envelope of a buffer and the number of bytes it takes, blanks before it included;
nothing while the buffer holds only a part of one. -/
def decodeOne (buffer : Bytes) : Except DecodeError (Option (Envelope × Nat)) :=
  match EnvelopeReader.start.run 0 buffer with
  | .found e used => .ok (some (e, used))
  | .refused fault offset => .error (.malformed fault (Position.after (buffer.take offset)))
  | .ended .start _ => .ok none
  | .ended r size =>
    match r.atEnd with
    | some fault => .error (.malformed fault (Position.after buffer))
    | none => if maxMessageSize < size then .error (.oversized size maxMessageSize) else .ok none

/-- The message in an envelope. -/
def Envelope.message (e : Envelope) : Except DecodeError Message :=
  match MessageKind.ofTag? e.tag with
  | none => .error (.unknownType e.tag)
  | some kind =>
    match Message.ofPayload kind e.payload with
    | .ok m => .ok m
    | .error fault => .error (.payload kind fault)

/-- The first message of a buffer and the number of bytes it takes. -/
def decodeMessage (buffer : Bytes) : Except DecodeError (Option (Message × Nat)) := do
  match ← decodeOne buffer with
  | some (e, used) => return some (← e.message, used)
  | none => return none

/-- The bytes of a message. -/
def Message.encode (m : Message) : Bytes := m.envelope.render

/-- Takes the first envelope off a buffer.  A buffer that holds only a part of one, or that is
refused, is left as it is. -/
def takeEnvelope (buffer : Bytes) : Except DecodeError (Option Envelope) × Bytes :=
  match decodeOne buffer with
  | .ok (some (e, used)) => (.ok (some e), buffer.drop used)
  | .ok none => (.ok none, buffer)
  | .error fault => (.error fault, buffer)

end GossipNode
