import GossipNode.Peer.Basic
import GossipNode.Proofs.Message.Payload

/-!
# How long messages are

A message is as long as its texts make it.  Numbers and names take only so many characters, a
character takes at most four bytes, and a byte at most six where it stands in a string.

## Main results

* `Message.length_encode_peerInfo`, `Message.length_encode_disconnect` — **how long a message can
  be** that introduces a node or takes leave.
-/

namespace GossipNode

/-! ### Texts -/

theorem length_flatMap_le {α β : Type} {f : α → List β} {k : Nat} {as : List α}
    (bound : ∀ a ∈ as, (f a).length ≤ k) : (as.flatMap f).length ≤ k * as.length := by
  induction as with
  | nil => exact Nat.le_refl _
  | cons a as ih =>
    have first := bound a List.mem_cons_self
    have others := ih fun b hb => bound b (List.mem_cons_of_mem a hb)
    rw [List.flatMap_cons, List.length_append, List.length_cons, Nat.mul_succ]
    omega

theorem length_toDigits_le {n k : Nat} {base : Nat} (large : 1 < base) (some_digits : 0 < k)
    (small : n < Nat.pow base k) : (Nat.toDigits base n).length ≤ k :=
  (Nat.length_toDigits_le_iff large some_digits).2 small

theorem length_toString_nat_le {n k : Nat} (some_digits : 0 < k) (small : n < Nat.pow 10 k) :
    (toString n).length ≤ k := by
  rw [Nat.toString_eq_ofList_toDigits, String.length_ofList]
  exact length_toDigits_le (by decide) some_digits small

/-- A number of thirty-two bits takes at most ten digits and a sign. -/
theorem length_toString_int32 (n : Int32) : (toString n.toInt).length ≤ 11 := by
  have least := n.le_toInt
  have greatest := n.toInt_lt
  have power : Nat.pow 10 10 = 10000000000 := rfl
  show (Int.repr n.toInt).length ≤ 11
  generalize n.toInt = i at least greatest
  cases i with
  | ofNat m =>
    rw [Int.ofNat_eq_natCast] at greatest
    have digits := length_toString_nat_le (n := m) (k := 10) (by decide) (by omega)
    exact Nat.le_trans digits (by decide)
  | negSucc m =>
    have digits := length_toString_nat_le (n := m + 1) (k := 10) (by decide) (by omega)
    show ("-" ++ toString (m + 1)).length ≤ 11
    rw [String.length_append]
    exact Nat.add_le_add_left digits 1

/-- Parts with something between them. -/
theorem length_intercalate_le {separator : String} {parts : List String} {k : Nat}
    (bound : ∀ part ∈ parts, part.length ≤ k) :
    (separator.intercalate parts).length ≤ (k + separator.length) * parts.length := by
  induction parts with
  | nil => simp
  | cons part parts ih =>
    have first := bound part List.mem_cons_self
    have others := ih fun other h => bound other (List.mem_cons_of_mem part h)
    cases parts with
    | nil =>
      rw [String.intercalate_singleton, List.length_singleton]
      omega
    | cons next parts =>
      rw [String.intercalate_cons_cons, String.length_append, String.length_append,
        List.length_cons, Nat.mul_succ]
      omega

theorem IPv4.length_render (ip : IPv4) : ip.render.length ≤ 16 := by
  refine Nat.le_trans (length_intercalate_le (k := 3) fun part h => ?_) (Nat.le_refl _)
  obtain ⟨b, -, rfl⟩ := List.mem_map.1 h
  exact length_toString_nat_le (by decide) (Nat.lt_trans b.toNat_lt (by decide))

/-! ### Bytes -/

theorem Utf8.length_encodeChar (c : Char) : (encodeChar c).length ≤ 4 := by
  unfold encodeChar
  simp only
  split
  · exact (by decide : 1 ≤ 4)
  · split
    · exact (by decide : 2 ≤ 4)
    · split
      · exact (by decide : 3 ≤ 4)
      · exact Nat.le_refl 4

namespace JsonString

theorem length_escape (b : UInt8) : (escape b).length ≤ 6 := by
  unfold escape
  repeat' split
  all_goals simp [ascii, Bytes.hexPair]

/-- A character takes at most twenty-four bytes in a string. -/
theorem length_render_le {s : String} {k : Nat} (short : s.length ≤ k) :
    (render s).length ≤ 24 * k + 2 := by
  have escaped : ((utf8 s).flatMap escape).length ≤ 6 * (utf8 s).length :=
    length_flatMap_le fun b _ => length_escape b
  have encoded : (utf8 s).length ≤ 4 * s.toList.length :=
    length_flatMap_le fun c _ => Utf8.length_encodeChar c
  rw [String.length_toList] at encoded
  simp only [render, List.length_append, List.length_cons, List.length_nil]
  omega

end JsonString

theorem length_decimalBytes_le {n k : Nat} (some_digits : 0 < k) (small : n < Nat.pow 10 k) :
    (decimalBytes n).length ≤ k := by
  rw [decimalBytes, ascii, List.length_map]
  exact length_toDigits_le (by decide) some_digits small

namespace Json

theorem length_ofInt32 (n : Int32) : (ofInt32 n).render.length ≤ 11 := by
  have least := n.le_toInt
  have greatest := n.toInt_lt
  have power : Nat.pow 10 10 = 10000000000 := rfl
  rw [ofInt32, render_scalar]
  unfold Scalar.render integerBytes
  simp only
  have digits := length_decimalBytes_le (n := n.toInt.natAbs) (k := 10) (by decide) (by omega)
  split
  · exact Nat.succ_le_succ digits
  · exact Nat.le_trans digits (by decide)

theorem length_byte (b : UInt8) : (scalar (.integer b.toNat)).render.length ≤ 3 := by
  have positive : ¬ ((b.toNat : Int) < 0) := by omega
  rw [render_scalar]
  unfold Scalar.render integerBytes
  simp only
  rw [if_neg positive]
  exact length_decimalBytes_le (by decide) (Nat.lt_trans b.toNat_lt (by decide))

/-- An array takes a byte for each item beyond the items, and two. -/
theorem length_array_le {vs : List Json} {k : Nat} (bound : ∀ v ∈ vs, v.render.length ≤ k) :
    (array vs).render.length ≤ (k + 1) * vs.length + 2 := by
  cases vs with
  | nil => exact Nat.le_of_eq rfl
  | cons v vs =>
    have first := bound v List.mem_cons_self
    have others : (renderItems vs).length ≤ (k + 1) * vs.length := by
      refine length_flatMap_le fun w hw => ?_
      rw [List.length_cons]
      exact Nat.succ_le_succ (bound w (List.mem_cons_of_mem v hw))
    rw [render_array_cons]
    simp only [List.length_cons, List.length_append, List.length_nil]
    rw [Nat.mul_succ]
    omega

theorem length_renderMember (name : String) (v : Json) :
    (renderMember name v).length = (JsonString.render name).length + 1 + v.render.length := by
  simp only [renderMember, List.length_append, List.length_cons]
  omega

end Json

/-! ### Messages -/

/-- An envelope takes twenty bytes beyond its tag and its payload. -/
theorem Envelope.length_render (e : Envelope) :
    e.render.length = (decimalBytes e.tag.toNat).length + e.payload.render.length + 20 := by
  have type : (JsonString.render "type").length = 6 := by decide
  have payload : (JsonString.render "payload").length = 9 := by decide
  rw [Envelope.render_eq]
  simp only [List.length_cons, List.length_append, List.length_nil]
  omega

/-- A tag takes at most twenty more. -/
theorem Envelope.length_render_le (e : Envelope) :
    e.render.length ≤ e.payload.render.length + 40 := by
  have tag := length_decimalBytes_le (n := e.tag.toNat) (k := 20) (by decide)
    (Nat.lt_trans e.tag.toNat_lt (by decide))
  rw [Envelope.length_render]
  omega

namespace Message

theorem length_encode_peerInfo (info : PeerInfo) : (peerInfo info).encode.length ≤ 256 := by
  have bytes : ∀ v ∈ info.name.bytes.map fun b => Json.scalar (.integer b.toNat),
      v.render.length ≤ 3 := by
    intro v hv
    obtain ⟨b, -, rfl⟩ := List.mem_map.1 hv
    exact Json.length_byte b
  have name := Json.length_array_le bytes
  rw [List.length_map, info.name.length_eq, nameLength] at name
  have port := Json.length_ofInt32 info.listenPort
  have version := Json.length_ofInt32 info.version
  have networkId := Json.length_ofInt32 info.networkId
  have uid := Json.length_ofInt32 info.uid
  have label₁ : (JsonString.render "listen_port").length = 13 := by decide
  have label₂ : (JsonString.render "name").length = 6 := by decide
  have label₃ : (JsonString.render "network_id").length = 12 := by decide
  have label₄ : (JsonString.render "uid").length = 5 := by decide
  have label₅ : (JsonString.render "version").length = 9 := by decide
  have none_left : (Json.renderMembers []).length = 0 := rfl
  refine Nat.le_trans (Envelope.length_render_le _) ?_
  simp only [envelope, payload, Json.render_object_cons, Json.renderMembers_cons,
    List.length_cons, List.length_append, List.length_nil, Json.length_renderMember]
  omega

theorem length_encode_disconnect (why : DisconnectReason) {text : String} {k : Nat}
    (short : text.length ≤ k) : (disconnect why text).encode.length ≤ 24 * k + 128 := by
  have reason : (JsonString.render why.wireName).length ≤ 15 := by
    cases why <;> decide
  have words := JsonString.length_render_le short
  have label₁ : (JsonString.render "reason").length = 8 := by decide
  have label₂ : (JsonString.render "text").length = 6 := by decide
  have none_left : (Json.renderMembers []).length = 0 := rfl
  refine Nat.le_trans (Envelope.length_render_le _) ?_
  simp only [envelope, payload, Json.render_object_cons, Json.renderMembers_cons,
    Json.render_scalar, Scalar.render, List.length_cons, List.length_append, List.length_nil,
    Json.length_renderMember]
  omega

end Message

end GossipNode
