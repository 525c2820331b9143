import GossipNode.Proofs.Json.Arranged
import GossipNode.Proofs.Wire.Envelopes

/-!
# Envelopes with any payload

The number of a kind need not be known, and a payload need not have the shape any kind asks for: it
may be anything that is built of scalars, arrays and objects.  What is written of such an envelope
is what is read back, up to the depth that is allowed for; a deeper one is refused.

## Main results

* `EnvelopeReader.refuses_deep` — one of the bytes of an envelope that is too deep is refused.
* `decodeOne_arranged` — **an envelope with any payload is read back, or refused for its depth.**
-/

namespace GossipNode

namespace EnvelopeReader

/-- A payload that is too deep is refused where it is due. -/
theorem refuses_payload (fields : EnvelopeFields) {v : Json} (plain : v.isPlain = true)
    (deep : maxDepth ≤ v.depth) :
    Refuses step JsonReader.tooDeep (.object fields (.payload payloadStart)) v.render := by
  have refused : Refuses JsonReader.step JsonReader.tooDeep payloadStart v.render :=
    JsonReader.refuses_render [] plain deep (Or.inl rfl)
  refine refused.map (fun r => EnvelopeReader.object fields (.payload r)) ?_ ?_
  · intro r b t next
    simp only [step, stepObject, next]
  · intro r b side refuse
    simp only [step, stepObject, refuse]

/-- One of the bytes of an envelope that is too deep is refused, whatever stands behind it. -/
theorem refuses_deep (tag : UInt64) {v : Json} (plain : v.isPlain = true)
    (deep : maxDepth ≤ v.depth) (rest : Bytes) :
    Refuses step JsonReader.tooDeep .start ((Envelope.mk tag v).render ++ rest) := by
  have content := (takes_head tag).refuses (refuses_payload ⟨some tag, none⟩ plain deep)
  rw [Envelope.render_eq, List.append_assoc]
  exact content.append _

end EnvelopeReader

/-- **An envelope with any payload is read back, or refused for its depth**, whatever stands behind
it.  The payload may be built of all scalars but numbers with fractions or exponents, of arrays and
of objects that name no member twice, and its members are put in the order of the bytes of their
names first. -/
theorem decodeOne_arranged (tag : UInt64) {v : Json} (built : v.isBuilt = true) (rest : Bytes) :
    v.arranged.inByteOrder = true ∧ (v.inByteOrder = true → v.arranged = v) ∧
      (v.depth ≤ 126 → decodeOne ((Envelope.mk tag v.arranged).render ++ rest) =
        .ok (some (⟨tag, v.arranged⟩, (Envelope.mk tag v.arranged).render.length))) ∧
      (127 ≤ v.depth → ∃ position, decodeOne ((Envelope.mk tag v.arranged).render ++ rest) =
        .error (.malformed (.syntactic .tooDeep) position)) := by
  have plain : v.arranged.isPlain = true := Json.isPlain_arranged v built
  have levels : v.arranged.depth = v.depth := Json.depth_arranged v built
  refine ⟨Json.inByteOrder_of_isPlain _ plain, Json.arranged_of_inByteOrder built, fun few => ?_,
    fun many => ?_⟩
  · refine decodeOne_render_append ?_ rest
    rw [Envelope.isPlain, plain, Bool.true_and, decide_eq_true_eq, levels]
    exact Nat.lt_succ_of_le few
  · refine decodeOne_of_refuses (EnvelopeReader.refuses_deep tag plain ?_ rest)
    rw [levels]
    exact many

/-- A payload with members out of order is read back arranged, and one with a level too many is
refused. -/
theorem decodeOne_arranged_mixed :
    let mixed := Json.object [("n", .scalar (.integer (-9223372036854775808))),
      ("b", .array [.scalar .null, .scalar (.string "\"é\n")])]
    let deep := Json.array [.scalar (.bool true), Nat.repeat (fun v => .array [v]) 126 (.array [])]
    (mixed.isBuilt = true ∧ mixed.depth ≤ 126 ∧ deep.isBuilt = true ∧ 127 ≤ deep.depth) ∧
      decodeOne ((Envelope.mk 18446744073709551615 mixed.arranged).render ++ [0x7D]) =
        .ok (some (⟨18446744073709551615, mixed.arranged⟩,
          (Envelope.mk 18446744073709551615 mixed.arranged).render.length)) ∧
      ∃ position, decodeOne ((Envelope.mk 18446744073709551615 deep.arranged).render ++ []) =
        .error (.malformed (.syntactic .tooDeep) position) := by
  intro mixed deep
  have built : mixed.isBuilt = true := by decide
  have few : mixed.depth ≤ 126 := by decide
  have built' : deep.isBuilt = true := by decide +kernel
  have many : 127 ≤ deep.depth := by decide +kernel
  exact ⟨⟨built, few, built', many⟩, (decodeOne_arranged _ built _).2.2.1 few,
    (decodeOne_arranged _ built' _).2.2.2 many⟩

end GossipNode
