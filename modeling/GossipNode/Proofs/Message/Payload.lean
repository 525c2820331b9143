import GossipNode.Proofs.Wire.Envelopes

/-!
# Messages survive their envelopes

A message is put into an envelope and taken out of it again.  Every such envelope has one spelling,
so what is true of plain envelopes is true of messages on the wire.

## Main results

* `Message.isPlain_envelope` — the envelope of a message is plain.
* `Message.message_envelope` — **the message in the envelope of a message is that message.**
-/

namespace GossipNode

namespace Schema

/-- A 32-bit field is read back. -/
theorem int32_ofInt32 (n : Int32) : int32 (.ofInt32 n) = .ok n := by
  have least := n.le_toInt
  have greatest := n.toInt_lt
  simp only [int32, Json.ofInt32, integer]
  rw [if_pos ⟨by omega, by omega⟩]
  simp [bind, Except.bind, pure, Except.pure]

/-- A byte is read back. -/
theorem byte_toNat (b : UInt8) : byte (.scalar (.integer b.toNat)) = .ok b := by
  have small := b.toNat_lt
  simp only [byte, integer]
  rw [if_pos ⟨by omega, by omega⟩]
  simp [bind, Except.bind, pure, Except.pure]

/-- As many bytes as are asked for are read back. -/
theorem takeBytes_map (wanted : Shape) (bs : Bytes) : ∀ i : Nat,
    takeBytes wanted i bs.length (bs.map fun b => .scalar (.integer b.toNat)) = .ok bs := by
  induction bs with
  | nil => intro i; rfl
  | cons b bs ih =>
    intro i
    simp [takeBytes, byte_toNat, ih, bind, Except.bind, pure, Except.pure]

/-- A name is read back. -/
theorem nodeName_bytes (name : NodeName) :
    nodeName (.array (name.bytes.map fun b => .scalar (.integer b.toNat))) = .ok name := by
  obtain ⟨bs, hlen⟩ := name
  have hread := takeBytes_map (.arrayOf nameLength) bs 0
  rw [hlen] at hread
  have hname : NodeName.ofBytes bs = ⟨bs, hlen⟩ := by
    unfold NodeName.ofBytes
    congr 1
    exact List.take_left' hlen
  simp [nodeName, hread, noMoreThan, hlen, hname, bind, Except.bind, pure, Except.pure]

/-- A list of strings is read back. -/
theorem strings_map (addresses : List String) :
    strings (.array (addresses.map fun a => .scalar (.string a))) = .ok addresses := by
  simp only [strings]
  induction addresses with
  | nil => rfl
  | cons a addresses ih =>
    rw [List.map_cons, List.mapM_cons, ih]
    rfl

/-- A reason is read back. -/
theorem reason_wireName (r : DisconnectReason) :
    reason (.scalar (.string r.wireName)) = .ok r := by
  cases r <;> rfl

end Schema

namespace Message

/-- The tag of a kind announces that kind. -/
theorem ofTag?_tag (kind : MessageKind) : MessageKind.ofTag? kind.tag = some kind := by
  cases kind <;> rfl

/-- The payload of a message stands for the message. -/
theorem ofPayload_payload (m : Message) : ofPayload m.kind m.payload = .ok m := by
  cases m with
  | peerInfo info =>
    simp [ofPayload, kind, payload, Schema.peerInfo, Schema.member?, List.lookup_cons,
      Schema.required, Schema.int32_ofInt32, Schema.nodeName_bytes, bind, Except.bind, pure,
      Except.pure, Except.map]
  | discovery addresses =>
    simp [ofPayload, kind, payload, Schema.discovery, Schema.member?, Schema.required,
      Schema.strings_map, bind, Except.bind, pure, Except.pure, Except.map]
  | disconnect why text =>
    simp [ofPayload, kind, payload, Schema.disconnect, Schema.member?, List.lookup_cons,
      Schema.required, Schema.reason_wireName, Schema.string, bind, Except.bind, pure, Except.pure,
      Except.map]

/-- **The message in the envelope of a message is that message.** -/
theorem message_envelope (m : Message) : m.envelope.message = .ok m := by
  simp only [envelope, Envelope.message, ofTag?_tag, ofPayload_payload]

theorem plainItems_map {α : Type} (as : List α) (f : α → Scalar) (h : ∀ a, (f a).isPlain = true) :
    Json.plainItems (as.map fun a => .scalar (f a)) = true := by
  induction as with
  | nil => rfl
  | cons a as ih => simp [Json.plainItems, Json.isPlain, h, ih]

theorem depthOfItems_map {α : Type} (as : List α) (f : α → Scalar) :
    Json.depthOfItems (as.map fun a => .scalar (f a)) = 0 := by
  induction as with
  | nil => rfl
  | cons a as ih => simp [Json.depthOfItems, Json.depth, ih]

theorem isPlain_ofInt32 (n : Int32) : (Json.ofInt32 n).isPlain = true := by
  have least := n.le_toInt
  have greatest := n.toInt_lt
  simp only [Json.ofInt32, Json.isPlain, Scalar.isPlain, Bool.and_eq_true, decide_eq_true_eq]
  omega

theorem depth_ofInt32 (n : Int32) : (Json.ofInt32 n).depth = 0 := by
  rw [Json.ofInt32, Json.depth]

theorem isPlain_toNat (b : UInt8) : (Scalar.integer b.toNat).isPlain = true := by
  have small := b.toNat_lt
  simp only [Scalar.isPlain, Bool.and_eq_true, decide_eq_true_eq]
  omega

/-- The members of payloads stand in ascending order of their names. -/
theorem ascendingNames_payload (m : Message) (members : List (String × Json))
    (h : m.payload = .object members) : Json.ascendingNames members = true := by
  cases m <;> cases h <;> simp only [Json.ascendingNames, List.map_cons, List.map_nil] <;> decide

/-- The envelope of a message has one spelling and is not too deep to be read. -/
theorem isPlain_envelope (m : Message) : m.envelope.isPlain = true := by
  have ascending := ascendingNames_payload m
  cases m with
  | peerInfo info =>
    have numbers := plainItems_map info.name.bytes (fun b => .integer b.toNat) isPlain_toNat
    have flat := depthOfItems_map info.name.bytes fun b => .integer b.toNat
    simp [envelope, Envelope.isPlain, payload, Json.isPlain, ascending _ rfl, Json.plainMembers,
      isPlain_ofInt32, numbers, Json.depth, Json.depthOfMembers, depth_ofInt32, flat, maxDepth]
  | discovery addresses =>
    have strings := plainItems_map addresses .string fun _ => rfl
    have flat := depthOfItems_map addresses .string
    simp [envelope, Envelope.isPlain, payload, Json.isPlain, ascending _ rfl, Json.plainMembers,
      strings, Json.depth, Json.depthOfMembers, flat, maxDepth]
  | disconnect why text =>
    simp [envelope, Envelope.isPlain, payload, Json.isPlain, ascending _ rfl, Json.plainMembers,
      Scalar.isPlain, Json.depth, Json.depthOfMembers, maxDepth]

end Message

end GossipNode
