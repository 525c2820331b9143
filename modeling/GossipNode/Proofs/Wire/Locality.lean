import GossipNode.Proofs.Wire.Stream

/-!
# What an envelope is read off

An envelope has a last byte of its own, and with that byte the reader is done.  So what is found at
the front of a buffer is found in the bytes it takes and under whatever stands behind them, and
attempt after attempt cuts a buffer into envelopes and a rest.

## Main definitions

* `Step.IsOwn` — steps that do not look at a byte behind the value they complete.
* `Peels` — attempts that take one envelope after the other off a buffer.

## Main results

* `EnvelopeReader.isOwn_step` — an envelope ends with its own last byte.
* `decodeOne_append`, `decodeOne_take_used` — what is found depends on the bytes it takes alone.
* `Peels.conserves` — **the pieces and what is left are the buffer, and each piece is its
  envelope.**
* `exists_peels` — the attempts come to an end.
* `decoding_local` — all of it in one.
-/

namespace GossipNode

/-! ### The last byte of an envelope -/

/-- A step that does not complete a value before the byte it is given. -/
def Step.IsOwn {σ α : Type} : Step σ α → Prop
  | .past _ => False
  | .next _ | .done _ | .refuse _ _ => True

namespace EnvelopeReader

theorem isOwn_closeObject (fields : EnvelopeFields) : (closeObject fields).IsOwn := by
  unfold closeObject
  split <;> trivial

theorem isOwn_startName (fields : EnvelopeFields) (b : UInt8) : (startName fields b).IsOwn := by
  unfold startName
  split <;> trivial

theorem isOwn_receiveName (fields : EnvelopeFields) (name : String) :
    (receiveName fields name).IsOwn := by
  unfold receiveName
  repeat' split
  all_goals trivial

theorem isOwn_afterMember (fields : EnvelopeFields) (b : UInt8) : (afterMember fields b).IsOwn := by
  unfold afterMember
  split
  · trivial
  split
  · trivial
  split
  · exact isOwn_closeObject fields
  · trivial

theorem isOwn_startTag (b : UInt8) {next : ScalarReader → Move} (hnext : ∀ r, (next r).IsOwn) :
    (startTag b next).IsOwn := by
  unfold startTag
  repeat' split
  all_goals first
    | exact hnext _
    | trivial

theorem isOwn_receiveTag (v : Scalar) (side : Side) {next : UInt64 → Move}
    (hnext : ∀ tag, (next tag).IsOwn) : (receiveTag v side next).IsOwn := by
  unfold receiveTag
  split
  · exact hnext _
  · trivial

theorem isOwn_afterTag (tag : UInt64) (b : UInt8) : (afterTag tag b).IsOwn := by
  unfold afterTag
  repeat' split
  all_goals trivial

theorem isOwn_afterPayload (e : Envelope) (b : UInt8) : (afterPayload e b).IsOwn := by
  unfold afterPayload
  repeat' split
  all_goals trivial

theorem isOwn_stepPayload (tag : UInt64) (r : JsonReader) (b : UInt8) :
    (stepPayload tag r b).IsOwn := by
  unfold stepPayload
  split
  · trivial
  · trivial
  · exact isOwn_afterPayload _ b
  · trivial

/-- A value inside an object may end before the byte, but the byte is then one of the object. -/
theorem isOwn_stepObject (fields : EnvelopeFields) (stage : ObjectStage) (b : UInt8) :
    (stepObject fields stage b).IsOwn := by
  cases stage with
  | firstName =>
    simp only [stepObject]
    repeat' split
    · trivial
    · exact isOwn_closeObject fields
    · exact isOwn_startName fields b
  | afterMember => exact isOwn_afterMember fields b
  | nextName =>
    simp only [stepObject]
    repeat' split
    · trivial
    · trivial
    · exact isOwn_startName fields b
  | name r =>
    simp only [stepObject]
    split
    · trivial
    · exact isOwn_receiveName fields _
    · exact isOwn_receiveName fields _
    · trivial
  | colon field =>
    simp only [stepObject]
    repeat' split
    all_goals trivial
  | tagStart =>
    simp only [stepObject]
    split
    · trivial
    · exact isOwn_startTag b fun _ => trivial
  | tag r =>
    simp only [stepObject]
    split
    · trivial
    · exact isOwn_receiveTag _ _ fun _ => trivial
    · exact isOwn_receiveTag _ _ fun _ => isOwn_afterMember _ b
    · trivial
  | payload r =>
    simp only [stepObject]
    split
    · trivial
    · trivial
    · exact isOwn_afterMember _ b
    · trivial
  | skipped r =>
    simp only [stepObject]
    split
    · trivial
    · trivial
    · exact isOwn_afterMember fields b
    · trivial
  | again name =>
    simp only [stepObject]
    split <;> trivial

theorem isOwn_stepArray (stage : ArrayStage) (b : UInt8) : (stepArray stage b).IsOwn := by
  cases stage with
  | first =>
    simp only [stepArray]
    repeat' split
    · trivial
    · trivial
    · exact isOwn_startTag b fun _ => trivial
  | tag r =>
    simp only [stepArray]
    split
    · trivial
    · exact isOwn_receiveTag _ _ fun _ => trivial
    · exact isOwn_receiveTag _ _ fun _ => isOwn_afterTag _ b
    · trivial
  | afterTag tag => exact isOwn_afterTag tag b
  | beforePayload tag =>
    simp only [stepArray]
    repeat' split
    · trivial
    · trivial
    · exact isOwn_stepPayload tag payloadStart b
  | payload tag r => exact isOwn_stepPayload tag r b
  | afterPayload e => exact isOwn_afterPayload e b
  | surplus =>
    simp only [stepArray]
    repeat' split
    all_goals trivial

/-- **An envelope ends with its own last byte**: no step completes one before the byte. -/
theorem isOwn_step (r : EnvelopeReader) (b : UInt8) : (r.step b).IsOwn := by
  cases r with
  | start =>
    simp only [step, startEnvelope]
    repeat' split
    all_goals trivial
  | scalar r =>
    simp only [step]
    split <;> trivial
  | object fields stage => exact isOwn_stepObject fields stage b
  | array stage => exact isOwn_stepArray stage b

/-! ### Runs that find an envelope -/

/-- What a run has found it finds under whatever stands behind. -/
theorem run_found_append {bs : Bytes} {e : Envelope} {n : Nat} (rest : Bytes) :
    ∀ {r : EnvelopeReader} {used : Nat}, r.run used bs = .found e n →
      r.run used (bs ++ rest) = .found e n := by
  induction bs with
  | nil =>
    intro r used h
    rw [run] at h
    cases h
  | cons b bs ih =>
    intro r used h
    rw [List.cons_append, run]
    rw [run] at h
    split at h
    · exact ih h
    · exact h
    · exact h
    all_goals cases h

/-- A run that is given no more than what the envelope takes finds it, too. -/
theorem run_found_take {bs : Bytes} {e : Envelope} : ∀ {n used : Nat} {r : EnvelopeReader},
    r.run used bs = .found e (used + n) → r.run used (bs.take n) = .found e (used + n) := by
  induction bs with
  | nil =>
    intro n used r h
    rw [run] at h
    cases h
  | cons b bs ih =>
    intro n used r h
    have own := r.isOwn_step b
    rw [run] at h
    split at h
    · next t hstep =>
      -- The envelope ends behind this byte, so this byte is among those it takes.
      obtain ⟨n, rfl⟩ : ∃ m, n = m + 1 := by
        have inside := run_found h
        exact ⟨n - 1, by omega⟩
      rw [show used + (n + 1) = used + 1 + n by omega] at h ⊢
      rw [List.take_succ_cons, run, hstep]
      exact ih h
    · next hstep =>
      obtain ⟨rfl, hn⟩ := Scan.found.inj h
      obtain rfl : n = 1 := by omega
      rw [List.take_succ_cons, run, hstep]
    · -- completed before this byte, which no envelope is
      next hstep =>
      rw [hstep] at own
      exact own.elim
    all_goals cases h

end EnvelopeReader

/-! ### Buffers -/

variable {buffer left : Bytes} {e : Envelope} {used : Nat}

/-- What a run over a buffer finds is the envelope at its front. -/
theorem decodeOne_of_run (h : EnvelopeReader.start.run 0 buffer = .found e used) :
    decodeOne buffer = .ok (some (e, used)) := by
  unfold decodeOne
  rw [h]

/-- **Nothing behind an envelope plays a part.** -/
theorem decodeOne_append (found : decodeOne buffer = .ok (some (e, used))) (rest : Bytes) :
    decodeOne (buffer ++ rest) = .ok (some (e, used)) :=
  decodeOne_of_run (EnvelopeReader.run_found_append rest (run_of_decodeOne found))

/-- **The bytes an envelope takes are enough to find it.** -/
theorem decodeOne_take_used (found : decodeOne buffer = .ok (some (e, used))) :
    decodeOne (buffer.take used) = .ok (some (e, used)) := by
  have run := run_of_decodeOne found
  rw [← Nat.zero_add used] at run
  have short := EnvelopeReader.run_found_take run
  rw [Nat.zero_add] at short
  exact decodeOne_of_run short

/-! ### Attempt after attempt -/

/-- Attempts that take envelopes off a buffer one after the other: the bytes each took with the
envelope in them, and what is left in the end. -/
inductive Peels : Bytes → List (Bytes × Envelope) → Bytes → Prop
  /-- No attempt is made. -/
  | nil (buffer : Bytes) : Peels buffer [] buffer
  /-- An attempt takes an envelope off, and others follow. -/
  | cons {buffer rest left : Bytes} {e : Envelope} {pieces : List (Bytes × Envelope)}
    (taken : takeEnvelope buffer = (.ok (some e), rest)) (later : Peels rest pieces left) :
    Peels buffer ((buffer.take (buffer.length - rest.length), e) :: pieces) left

/-- An attempt that takes an envelope off cuts the buffer behind it. -/
theorem takeEnvelope_found {rest : Bytes} (h : takeEnvelope buffer = (.ok (some e), rest)) :
    ∃ used, decodeOne buffer = .ok (some (e, used)) ∧ rest = buffer.drop used ∧
      buffer.length - rest.length = used := by
  unfold takeEnvelope at h
  split at h
  · next e' used found =>
    cases h
    have inside := decodeOne_consumes found
    refine ⟨used, found, rfl, ?_⟩
    rw [List.length_drop]
    omega
  · cases h
  · cases h

/-- An attempt that takes nothing off leaves the buffer as it is. -/
theorem takeEnvelope_unchanged (h : ∀ e, (takeEnvelope buffer).1 ≠ .ok (some e)) :
    (takeEnvelope buffer).2 = buffer := by
  unfold takeEnvelope at h ⊢
  split
  · next e used found =>
    rw [found] at h
    exact absurd rfl (h e)
  · rfl
  · rfl

/-- **What attempts do to a buffer.**  The pieces and what is left are the buffer, every piece is
found on its own, and there are no more pieces than bytes. -/
theorem Peels.conserves {pieces : List (Bytes × Envelope)} (h : Peels buffer pieces left) :
    (pieces.map (·.1)).flatten ++ left = buffer ∧
      (∀ p ∈ pieces, decodeOne p.1 = .ok (some (p.2, p.1.length))) ∧
      pieces.length + left.length ≤ buffer.length := by
  induction h with
  | nil buffer => exact ⟨rfl, by simp, by simp⟩
  | @cons buffer rest left e pieces taken later ih =>
    obtain ⟨whole, alone, bound⟩ := ih
    obtain ⟨used, found, rfl, cut⟩ := takeEnvelope_found taken
    have inside := decodeOne_consumes found
    rw [cut]
    refine ⟨?_, ?_, ?_⟩
    · rw [List.map_cons, List.flatten_cons, List.append_assoc, whole]
      exact List.take_append_drop used buffer
    · intro p hp
      rcases List.mem_cons.1 hp with rfl | hp
      · rw [List.length_take_of_le inside.2]
        exact decodeOne_take_used found
      · exact alone p hp
    · rw [List.length_drop] at bound
      rw [List.length_cons]
      omega

/-- **The attempts come to an end**, at a buffer that holds no envelope. -/
theorem exists_peels (buffer : Bytes) : ∃ pieces left, Peels buffer pieces left ∧
    ∀ e, (takeEnvelope left).1 ≠ .ok (some e) := by
  -- an attempt that takes an envelope off leaves a shorter buffer
  induction hn : buffer.length using Nat.strongRecOn generalizing buffer with
  | _ n ih =>
    by_cases more : ∃ e, (takeEnvelope buffer).1 = .ok (some e)
    · obtain ⟨e, he⟩ := more
      have taken : takeEnvelope buffer = (.ok (some e), (takeEnvelope buffer).2) := by rw [← he]
      obtain ⟨pieces, left, later, last⟩ :=
        ih _ (hn ▸ takeEnvelope_shorter taken) (takeEnvelope buffer).2 rfl
      exact ⟨_, left, .cons taken later, last⟩
    · exact ⟨[], buffer, .nil buffer, fun e he => more ⟨e, he⟩⟩

/-- **Decoding looks at the bytes it consumes and at no others, and makes progress.**  An envelope
takes at least one byte of a buffer and not more than all; it is found in just these bytes and under
whatever stands behind the buffer.  An attempt that finds none leaves the buffer as it is.  However
often envelopes are taken off, that happens no more often than there are bytes, the pieces and what
is left are the buffer, and each piece is found on its own; and in the end no envelope is left. -/
theorem decoding_local (buffer : Bytes) :
    (∀ e used, decodeOne buffer = .ok (some (e, used)) →
      0 < used ∧ used ≤ buffer.length ∧
      decodeOne (buffer.take used) = .ok (some (e, used)) ∧
      ∀ rest, decodeOne (buffer ++ rest) = .ok (some (e, used))) ∧
    ((∀ e, (takeEnvelope buffer).1 ≠ .ok (some e)) → (takeEnvelope buffer).2 = buffer) ∧
    (∀ pieces left, Peels buffer pieces left →
      (pieces.map (·.1)).flatten ++ left = buffer ∧
      (∀ p ∈ pieces, decodeOne p.1 = .ok (some (p.2, p.1.length))) ∧
      pieces.length ≤ buffer.length) ∧
    ∃ pieces left, Peels buffer pieces left ∧ ∀ e, (takeEnvelope left).1 ≠ .ok (some e) := by
  refine ⟨fun e used found => ?_, takeEnvelope_unchanged, fun pieces left h => ?_,
    exists_peels buffer⟩
  · obtain ⟨progress, inside⟩ := decodeOne_consumes found
    exact ⟨progress, inside, decodeOne_take_used found, decodeOne_append found⟩
  · obtain ⟨whole, alone, bound⟩ := h.conserves
    exact ⟨whole, alone, by omega⟩

/-- Two envelopes of different forms, and the beginning of a third. -/
def mixed : Bytes := utf8 "\x7b\"type\":9,\"payload\":null\x7d [3,\"é\"]\x7b\"ty"

/-- The first of them takes twenty-five bytes, and is found in these. -/
theorem decoding_local_mixed :
    decodeOne mixed = .ok (some (⟨9, .scalar .null⟩, 25)) ∧
      decodeOne (mixed.take 25) = .ok (some (⟨9, .scalar .null⟩, 25)) := by
  have found : decodeOne mixed = .ok (some (⟨9, .scalar .null⟩, 25)) := by rfl
  exact ⟨found, ((decoding_local mixed).1 _ _ found).2.2.1⟩

end GossipNode
