import GossipNode.Json.Reader
import GossipNode.Message.Schema

/-!
# Envelopes

On the wire every message stands in an envelope: the number of its kind and its payload, as a JSON
object with the members `type` and `payload` or as an array of the two.  Envelopes follow one
another without anything between them, and blanks before them do not matter.

`EnvelopeReader` is the machine that finds the end of the first envelope in a stretch of bytes.  It
takes one byte at a time, so where the network happens to cut a message plays no part in it.

## Main definitions

* `Envelope`, `Envelope.render` — envelopes and their compact text.
* `EnvelopeReader.step` — what the reader does with one byte.
* `EnvelopeReader.atEnd` — what the reader says when the bytes run out.
* `Message.envelope` — a message in its envelope.
-/

namespace GossipNode

/-- A message on the wire: the number of its kind, which need not be a known one, and its
payload. -/
structure Envelope where
  tag : UInt64
  payload : Json
  deriving Repr, Inhabited

namespace Envelope

/-- The compact text of an envelope. -/
def render (e : Envelope) : Bytes :=
  let start := 0x3A :: (JsonString.render "type").reverseAux [0x7B]
  let tagged := (decimalBytes e.tag.toNat).reverseAux start
  let named := Json.pushName (0x2C :: tagged) "payload"
  (0x7D :: Json.push named e.payload).reverse

end Envelope

/-- How many containers may be open at once, the envelope among them. -/
def maxDepth : Nat := 127

/-- The members of an envelope that have been read. -/
structure EnvelopeFields where
  tag : Option UInt64
  payload : Option Json
  deriving Repr, Inhabited

/-- A member of an envelope, told by its name. -/
inductive EnvelopeField
  | tag
  | payload
  | other
  deriving DecidableEq, Repr

/-- The member of a given name. -/
def EnvelopeField.ofName (name : String) : EnvelopeField :=
  if name = "type" then .tag else if name = "payload" then .payload else .other

/-- Where in an envelope that is an object the reader stands. -/
inductive ObjectStage
  | firstName
  | afterMember
  | nextName
  | name (r : StringReader)
  | colon (field : EnvelopeField)
  /-- The kind is due. -/
  | tagStart
  | tag (r : ScalarReader)
  | payload (r : JsonReader)
  | skipped (r : Skipper)
  /-- A member has been named a second time; only the place of the fault is open. -/
  | again (name : String)
  deriving Repr

/-- Where in an envelope that is an array the reader stands. -/
inductive ArrayStage
  | first
  | tag (r : ScalarReader)
  | afterTag (tag : UInt64)
  | beforePayload (tag : UInt64)
  | payload (tag : UInt64) (r : JsonReader)
  | afterPayload (e : Envelope)
  /-- After a comma behind the payload; only the kind of the fault is open. -/
  | surplus
  deriving Repr

/-- A reader of one envelope. -/
inductive EnvelopeReader
  /-- Before the envelope: nothing but blanks has been seen. -/
  | start
  /-- In a scalar that stands in the place of an envelope. -/
  | scalar (r : ScalarReader)
  | object (fields : EnvelopeFields) (stage : ObjectStage)
  | array (stage : ArrayStage)
  deriving Repr

namespace EnvelopeReader

/-- What a step of an envelope reader is. -/
abbrev Move := Step EnvelopeReader Envelope

/-- A value has the wrong shape: the place of the fault is on the given side of the byte. -/
def mismatch (fault : Mismatch) (side : Side) : Move := .refuse (.mismatch fault) side

/-- A value stands in the place of something else. -/
def wrong (found : Found) (wanted : Shape) (side : Side) : Move :=
  mismatch (.wrongType found wanted) side

/-- The shape of an envelope that is an array. -/
def pair : Shape := .recordOf "Envelope" 2

/-- The number of a kind: whole, and of 64 bits. -/
def tagOf (v : Scalar) : Except Mismatch UInt64 :=
  match v with
  | .integer n =>
    if 0 ≤ n then .ok (UInt64.ofNat n.toNat)
    else .error (.wrongValue (.scalar v) .unsigned64)
  | v => .error (.wrongType (.scalar v) .unsigned64)

/-- The kind has been read up to the given side of the byte; `next` goes on with it. -/
def receiveTag (v : Scalar) (side : Side) (next : UInt64 → Move) : Move :=
  match tagOf v with
  | .ok tag => next tag
  | .error fault => mismatch fault side

/-- A byte where the kind is due; `next` goes on with a reader of scalars. -/
def startTag (b : UInt8) (next : ScalarReader → Move) : Move :=
  if b = 0x5B then wrong .sequence .unsigned64 .before
  else if b = 0x7B then wrong .map .unsigned64 .before
  else
    match ScalarReader.start? b with
    | some r => next r
    | none => .refuseAt .expectedValue

/-- A reader of a payload, which stands one level below the envelope. -/
def payloadStart : JsonReader := .start (maxDepth - 1)

/-- A byte before the envelope. -/
def startEnvelope (b : UInt8) : Move :=
  if b = 0x7B then .next (.object ⟨none, none⟩ .firstName)
  else if b = 0x5B then .next (.array .first)
  else
    match ScalarReader.start? b with
    | some r => .next (.scalar r)
    | none => .refuseAt .expectedValue

/-- The envelope is not one but a scalar. -/
def notEnvelope (v : Scalar) (side : Side) : Move :=
  wrong (.scalar v) (.record "Envelope") side

/-- The object ends: both members must be there. -/
def closeObject (fields : EnvelopeFields) : Move :=
  match fields.tag, fields.payload with
  | some tag, some payload => .done ⟨tag, payload⟩
  | none, _ => mismatch (.missing "type") .after
  | some _, none => mismatch (.missing "payload") .after

/-- A byte where a name is due. -/
def startName (fields : EnvelopeFields) (b : UInt8) : Move :=
  if b = 0x22 then .next (.object fields (.name .start)) else .refuseAt .nameNotString

/-- A name has been read. -/
def receiveName (fields : EnvelopeFields) (name : String) : Move :=
  match EnvelopeField.ofName name with
  | .tag =>
    if fields.tag.isSome then .next (.object fields (.again "type"))
    else .next (.object fields (.colon .tag))
  | .payload =>
    if fields.payload.isSome then .next (.object fields (.again "payload"))
    else .next (.object fields (.colon .payload))
  | .other => .next (.object fields (.colon .other))

/-- A byte after a member. -/
def afterMember (fields : EnvelopeFields) (b : UInt8) : Move :=
  if isBlank b then .next (.object fields .afterMember)
  else if b = 0x2C then .next (.object fields .nextName)
  else if b = 0x7D then closeObject fields
  else .refuseAt .expectedCommaOrBrace

/-- What follows a colon. -/
def valueStage : EnvelopeField → ObjectStage
  | .tag => .tagStart
  | .payload => .payload payloadStart
  | .other => .skipped .start

/-- One byte of an envelope that is an object. -/
def stepObject (fields : EnvelopeFields) (stage : ObjectStage) (b : UInt8) : Move :=
  let stay : Move := .next (.object fields stage)
  match stage with
  | .firstName =>
    if isBlank b then stay
    else if b = 0x7D then closeObject fields
    else startName fields b
  | .afterMember => afterMember fields b
  | .nextName =>
    if isBlank b then stay
    else if b = 0x7D then .refuseAt .trailingComma
    else startName fields b
  | .name r =>
    match r.step b with
    | .next r => .next (.object fields (.name r))
    | .done name | .past name => receiveName fields name
    | .refuse fault side => .refuse fault side
  | .colon field =>
    if isBlank b then stay
    else if b = 0x3A then .next (.object fields (valueStage field))
    else .refuseAt .expectedColon
  | .tagStart =>
    if isBlank b then stay else startTag b fun r => .next (.object fields (.tag r))
  | .tag r =>
    match r.step b with
    | .next r => .next (.object fields (.tag r))
    | .done v =>
      receiveTag v .after fun tag => .next (.object { fields with tag := some tag } .afterMember)
    | .past v => receiveTag v .before fun tag => afterMember { fields with tag := some tag } b
    | .refuse fault side => .refuse fault side
  | .payload r =>
    match r.step b with
    | .next r => .next (.object fields (.payload r))
    | .done v => .next (.object { fields with payload := some v } .afterMember)
    | .past v => afterMember { fields with payload := some v } b
    | .refuse fault side => .refuse fault side
  | .skipped r =>
    match r.step b with
    | .next r => .next (.object fields (.skipped r))
    | .done _ => .next (.object fields .afterMember)
    | .past _ => afterMember fields b
    | .refuse fault side => .refuse fault side
  | .again name =>
    if isBlank b then stay
    else mismatch (.repeated name) (if b = 0x7D then .after else .before)

/-- A byte after the kind in an array. -/
def afterTag (tag : UInt64) (b : UInt8) : Move :=
  if isBlank b then .next (.array (.afterTag tag))
  else if b = 0x2C then .next (.array (.beforePayload tag))
  else if b = 0x5D then mismatch (.wrongLength 1 pair) .after
  else .refuseAt .expectedCommaOrBracket

/-- A byte after the payload in an array. -/
def afterPayload (e : Envelope) (b : UInt8) : Move :=
  if isBlank b then .next (.array (.afterPayload e))
  else if b = 0x5D then .done e
  else if b = 0x2C then .next (.array .surplus)
  else .refuseAt .trailingCharacters

/-- A byte of the payload in an array. -/
def stepPayload (tag : UInt64) (r : JsonReader) (b : UInt8) : Move :=
  match r.step b with
  | .next r => .next (.array (.payload tag r))
  | .done v => .next (.array (.afterPayload ⟨tag, v⟩))
  | .past v => afterPayload ⟨tag, v⟩ b
  | .refuse fault side => .refuse fault side

/-- One byte of an envelope that is an array. -/
def stepArray (stage : ArrayStage) (b : UInt8) : Move :=
  match stage with
  | .first =>
    if isBlank b then .next (.array stage)
    else if b = 0x5D then mismatch (.wrongLength 0 pair) .after
    else startTag b fun r => .next (.array (.tag r))
  | .tag r =>
    match r.step b with
    | .next r => .next (.array (.tag r))
    | .done v => receiveTag v .after fun tag => .next (.array (.afterTag tag))
    | .past v => receiveTag v .before fun tag => afterTag tag b
    | .refuse fault side => .refuse fault side
  | .afterTag tag => afterTag tag b
  | .beforePayload tag =>
    if isBlank b then .next (.array stage)
    else if b = 0x5D then .refuseAt .trailingComma
    else stepPayload tag payloadStart b
  | .payload tag r => stepPayload tag r b
  | .afterPayload e => afterPayload e b
  | .surplus =>
    if isBlank b then .next (.array stage)
    else if b = 0x5D then .refuseAt .trailingComma
    else .refuseAt .trailingCharacters

/-- Reads one byte. -/
def step (r : EnvelopeReader) (b : UInt8) : Move :=
  match r with
  | .start => if isBlank b then .next .start else startEnvelope b
  | .scalar r =>
    match r.step b with
    | .next r => .next (.scalar r)
    | .done v => notEnvelope v .after
    | .past v => notEnvelope v .before
    | .refuse fault side => .refuse fault side
  | .object fields stage => stepObject fields stage b
  | .array stage => stepArray stage b

/-- The fault of a scalar that ends the text where a kind or an envelope is due. -/
def scalarAtEnd (r : ScalarReader) (check : Scalar → Option Mismatch) : Option Fault :=
  match r.atEnd with
  | .whole v => (check v).map .mismatch
  | .refuse fault => some fault
  | .cut => none

/-- The fault of a kind, if it is not a kind. -/
def tagFault (v : Scalar) : Option Mismatch :=
  match tagOf v with
  | .ok _ => none
  | .error fault => some fault

/-- The fault an interrupted value ends in, if it does. -/
def endingFault {α : Type} : Ending α → Option Fault
  | .refuse fault => some fault
  | .whole _ | .cut => none

/-- What the end of the bytes means: a fault that no further byte can undo, or none, in which case
more is needed. -/
def atEnd : EnvelopeReader → Option Fault
  | .start => none
  | .scalar r => scalarAtEnd r fun v => some (.wrongType (.scalar v) (.record "Envelope"))
  | .object _ (.tag r) | .array (.tag r) => scalarAtEnd r tagFault
  | .object _ (.payload r) | .array (.payload _ r) => endingFault r.atEnd
  | .object _ (.skipped r) => endingFault r.atEnd
  | .object _ (.again name) => some (.mismatch (.repeated name))
  | .array .surplus => some (.syntactic .trailingCharacters)
  | .object _ _ | .array _ => none

end EnvelopeReader

namespace Message

/-- A message in its envelope. -/
def envelope (m : Message) : Envelope := ⟨m.kind.tag, m.payload⟩

end Message

end GossipNode
