import GossipNode.Proofs.Wire.Prefixes

/-!
# What a buffer that was cut short is taken for

A part of an acceptable envelope asks for more unless the cut makes its reader hasty; then it is
refused.  That has to do with numbers alone, and so can be told from the last byte of the part: a
reader stands in a number only after a byte that belongs to numbers.

## Main definitions

* `isNumeric` — the bytes numbers consist of.
* `Step.Avoids` — steps that do not lead to states of a given kind.
* `EnvelopeReader.inNumber` — readers in a number of a payload or of a member that is passed over.

## Main results

* `EnvelopeReader.avoids_step` — a byte that is no part of a number leads to no reader in a number.
* `decodeOne_of_last` — a part that does not end with a byte of a number asks for more.
* `decodeOne_take` — **what each part of an acceptable envelope is taken for.**
-/

namespace GossipNode

/-! ### Numbers and their bytes -/

/-- The bytes numbers consist of. -/
def isNumeric (b : UInt8) : Bool := !endsNumber b || b = 0x2D || b = 0x2B

theorem not_isNumeric {b : UInt8} (h : isNumeric b = false) :
    isDigit b = false ∧ b ≠ 0x2E ∧ b ≠ 0x65 ∧ b ≠ 0x45 ∧ b ≠ 0x2D ∧ b ≠ 0x2B := by
  simp only [isNumeric, endsNumber, Bool.or_eq_false_iff, Bool.not_eq_false', Bool.and_eq_true,
    Bool.not_eq_true', decide_eq_true_eq, decide_eq_false_iff_not] at h
  obtain ⟨⟨⟨⟨⟨digit, point⟩, small⟩, capital⟩, minus⟩, plus⟩ := h
  exact ⟨digit, point, small, capital, minus, plus⟩

variable {b : UInt8}

theorem NumberReader.close_ne_next (r t : NumberReader) : r.close ≠ .next t := by
  unfold close
  split <;> simp [Step.refuseAt]

theorem NumberReader.step_ne_next (h : isNumeric b = false) (r t : NumberReader) :
    r.step b ≠ .next t := by
  obtain ⟨digit, point, small, capital, minus, plus⟩ := not_isNumeric h
  have zero : b ≠ 0x30 := by rintro rfl; simp [isDigit] at digit
  obtain ⟨sign, stage⟩ := r
  cases stage <;> simp [step, digit, turnOrClose, turn?, markOrClose, point, small, capital, minus,
    plus, zero, Step.refuseAt, close_ne_next]

theorem NumberSkipper.step_ne_next (h : isNumeric b = false) (r t : NumberSkipper) :
    r.step b ≠ .next t := by
  obtain ⟨digit, point, small, capital, minus, plus⟩ := not_isNumeric h
  have zero : b ≠ 0x30 := by rintro rfl; simp [isDigit] at digit
  cases r <;> simp [step, digit, point, small, capital, minus, plus, zero, Step.refuseAt]

theorem NumberReader.start?_eq_none (h : isNumeric b = false) : start? b = none := by
  obtain ⟨digit, -, -, -, minus, -⟩ := not_isNumeric h
  have zero : b ≠ 0x30 := by rintro rfl; simp [isDigit] at digit
  simp [start?, digit, minus, zero]

theorem NumberSkipper.start?_eq_none (h : isNumeric b = false) : start? b = none := by
  obtain ⟨digit, -, -, -, minus, -⟩ := not_isNumeric h
  have zero : b ≠ 0x30 := by rintro rfl; simp [isDigit] at digit
  simp [start?, digit, minus, zero]

/-- A step that does not lead to a state of the given kind. -/
def Step.Avoids {σ α : Type} (bad : σ → Bool) : Step σ α → Prop
  | .next s => bad s = false
  | .done _ | .past _ | .refuse _ _ => True

@[simp] theorem Step.avoids_refuseAt {σ α : Type} (bad : σ → Bool) (fault : SyntaxFault) :
    (Step.refuseAt fault : Step σ α).Avoids bad := trivial

/-- A scalar stands in a number. -/
def ScalarReader.inNumber : ScalarReader → Bool
  | .number _ => true
  | .literal _ | .string _ => false

theorem ScalarReader.avoids_step (h : isNumeric b = false) (r : ScalarReader) :
    (r.step b).Avoids inNumber := by
  cases r with
  | literal r => simp only [step]; cases r.step b <;> trivial
  | string r => simp only [step]; cases r.step b <;> trivial
  | number r =>
    simp only [step]
    cases hstep : r.step b with
    | next t => exact absurd hstep (r.step_ne_next h t)
    | _ => trivial

theorem ScalarReader.inNumber_start (h : isNumeric b = false) {r : ScalarReader}
    (hr : start? b = some r) : r.inNumber = false := by
  simp only [start?, NumberReader.start?_eq_none h] at hr
  split at hr
  · cases hr
    rfl
  · obtain ⟨l, -, rfl⟩ := Option.map_eq_some_iff.1 hr
    rfl

namespace JsonReader

/-- A reader of values stands in a number. -/
def inNumber (r : JsonReader) : Bool :=
  match r.stage with
  | .scalar s => s.inNumber
  | _ => false

theorem avoids_receive (frames : List Frame) (room : Nat) (v : Json) :
    (receive frames room v).Avoids inNumber := by
  unfold receive
  split <;> trivial

theorem avoids_close (frames : List Frame) (room : Nat) : (close frames room).Avoids inNumber := by
  unfold close
  split
  · trivial
  · exact avoids_receive _ _ _
  · exact avoids_receive _ _ _

theorem avoids_startValue (h : isNumeric b = false) (r : JsonReader) :
    (r.startValue b).Avoids inNumber := by
  unfold startValue openFrame
  split
  · split <;> trivial
  split
  · split <;> trivial
  split
  · next hs => exact ScalarReader.inNumber_start h hs
  · trivial

theorem avoids_between (h : isNumeric b = false) {r : JsonReader}
    (apart : r.inNumber = false) : (r.between b).Avoids inNumber := by
  have name : (r.startName b).Avoids inNumber := by
    unfold startName
    split <;> trivial
  have value := r.avoids_startValue h
  have close := avoids_close r.frames r.room
  unfold between
  split
  · exact apart
  -- one goal for each stage and each byte the stage knows
  repeat' split
  all_goals first
    | exact value
    | exact close
    | exact name
    | exact apart
    | trivial

theorem avoids_step (h : isNumeric b = false) (r : JsonReader) :
    (r.step b).Avoids inNumber := by
  unfold step
  split
  · next s _ =>
    have scalar := s.avoids_step h
    split
    · next hs => rw [hs] at scalar; exact scalar
    · exact avoids_receive _ _ _
    · next v _ =>
      have received := avoids_receive r.frames r.room (.scalar v)
      split
      · next ht => rw [ht] at received; exact avoids_between h received
      all_goals trivial
    · trivial
  · split <;> trivial
  · next other _ =>
    refine avoids_between h ?_
    unfold inNumber
    split
    · next s hs => exact absurd hs (other s)
    · rfl

end JsonReader

/-- A scalar that is passed over stands in a number. -/
def ScalarSkipper.inNumber : ScalarSkipper → Bool
  | .number _ => true
  | .literal _ | .string _ => false

theorem ScalarSkipper.avoids_step (h : isNumeric b = false) (r : ScalarSkipper) :
    (r.step b).Avoids inNumber := by
  cases r with
  | literal r => simp only [step]; cases r.step b <;> trivial
  | string r => simp only [step]; cases r.step b <;> trivial
  | number r =>
    simp only [step]
    cases hstep : r.step b with
    | next t => exact absurd hstep (r.step_ne_next h t)
    | _ => trivial

theorem ScalarSkipper.inNumber_start (h : isNumeric b = false) {r : ScalarSkipper}
    (hr : start? b = some r) : r.inNumber = false := by
  simp only [start?, NumberSkipper.start?_eq_none h] at hr
  split at hr
  · cases hr
    rfl
  · obtain ⟨l, -, rfl⟩ := Option.map_eq_some_iff.1 hr
    rfl

namespace Skipper

/-- A skipper stands in a number. -/
def inNumber (r : Skipper) : Bool :=
  match r.stage with
  | .scalar s => s.inNumber
  | _ => false

theorem avoids_receive (frames : List Bracket) : (receive frames).Avoids inNumber := by
  unfold receive
  split <;> trivial

theorem avoids_startValue (h : isNumeric b = false) (r : Skipper) :
    (r.startValue b).Avoids inNumber := by
  unfold startValue
  split
  · rfl
  split
  · rfl
  split
  · next hs => exact ScalarSkipper.inNumber_start h hs
  · trivial

theorem avoids_between (h : isNumeric b = false) {r : Skipper} (apart : r.inNumber = false) :
    (r.between b).Avoids inNumber := by
  have name : (r.startName b).Avoids inNumber := by
    unfold startName
    split <;> trivial
  have value := r.avoids_startValue h
  unfold between
  split
  · exact apart
  split
  · exact value
  · unfold startFirst
    repeat' split
    all_goals first
      | exact value
      | exact name
      | exact avoids_receive _
  · unfold afterItem
    repeat' split
    all_goals first
      | exact avoids_receive _
      | trivial
  · exact name
  · split <;> trivial
  all_goals exact apart

theorem avoids_step (h : isNumeric b = false) (r : Skipper) : (r.step b).Avoids inNumber := by
  unfold step
  split
  · next s _ =>
    have scalar := s.avoids_step h
    split
    · next hs => rw [hs] at scalar; exact scalar
    · exact avoids_receive _
    · have received := avoids_receive r.frames
      split
      · next ht => rw [ht] at received; exact avoids_between h received
      all_goals trivial
    · trivial
  · split <;> trivial
  · next other _ =>
    refine avoids_between h ?_
    unfold inNumber
    split
    · next s hs => exact absurd hs (other s)
    · rfl

end Skipper

namespace EnvelopeReader

/-- A reader stands in a number of a payload or of a member that is passed over. -/
def inNumber : EnvelopeReader → Bool
  | .object _ (.payload r) | .array (.payload _ r) => r.inNumber
  | .object _ (.skipped r) => r.inNumber
  | _ => false

theorem Hasty.inNumber {r : EnvelopeReader} {fault : SyntaxFault} (h : Hasty r fault) :
    r.inNumber = true := by
  cases h <;> rfl

theorem avoids_closeObject (fields : EnvelopeFields) : (closeObject fields).Avoids inNumber := by
  unfold closeObject
  split <;> trivial

theorem avoids_startName (fields : EnvelopeFields) (b : UInt8) :
    (startName fields b).Avoids inNumber := by
  unfold startName
  split <;> trivial

theorem avoids_receiveName (fields : EnvelopeFields) (name : String) :
    (receiveName fields name).Avoids inNumber := by
  unfold receiveName
  repeat' split
  all_goals trivial

theorem avoids_afterMember (fields : EnvelopeFields) (b : UInt8) :
    (afterMember fields b).Avoids inNumber := by
  unfold afterMember
  split
  · rfl
  split
  · rfl
  split
  · exact avoids_closeObject fields
  · trivial

theorem avoids_startTag (b : UInt8) {next : ScalarReader → Move}
    (hnext : ∀ r, (next r).Avoids inNumber) : (startTag b next).Avoids inNumber := by
  unfold startTag
  repeat' split
  all_goals first
    | exact hnext _
    | trivial

theorem avoids_receiveTag (v : Scalar) (side : Side) {next : UInt64 → Move}
    (hnext : ∀ tag, (next tag).Avoids inNumber) : (receiveTag v side next).Avoids inNumber := by
  unfold receiveTag
  split
  · exact hnext _
  · trivial

theorem avoids_afterTag (tag : UInt64) (b : UInt8) : (afterTag tag b).Avoids inNumber := by
  unfold afterTag
  repeat' split
  all_goals trivial

theorem avoids_afterPayload (e : Envelope) (b : UInt8) : (afterPayload e b).Avoids inNumber := by
  unfold afterPayload
  repeat' split
  all_goals trivial

theorem avoids_stepPayload (h : isNumeric b = false) (tag : UInt64) (r : JsonReader) :
    (stepPayload tag r b).Avoids inNumber := by
  have value := r.avoids_step h
  unfold stepPayload
  split
  · next ht => rw [ht] at value; exact value
  · trivial
  · exact avoids_afterPayload _ _
  · trivial

theorem avoids_stepObject (h : isNumeric b = false) (fields : EnvelopeFields)
    (stage : ObjectStage) : (stepObject fields stage b).Avoids inNumber := by
  cases stage with
  | firstName =>
    simp only [stepObject]
    repeat' split
    · rfl
    · exact avoids_closeObject fields
    · exact avoids_startName fields b
  | afterMember => exact avoids_afterMember fields b
  | nextName =>
    simp only [stepObject]
    repeat' split
    · rfl
    · trivial
    · exact avoids_startName fields b
  | name r =>
    simp only [stepObject]
    split
    · rfl
    · exact avoids_receiveName fields _
    · exact avoids_receiveName fields _
    · trivial
  | colon field =>
    simp only [stepObject]
    repeat' split
    · rfl
    · cases field <;> rfl
    · trivial
  | tagStart =>
    simp only [stepObject]
    split
    · rfl
    · exact avoids_startTag b fun _ => rfl
  | tag r =>
    simp only [stepObject]
    split
    · rfl
    · exact avoids_receiveTag _ _ fun _ => rfl
    · exact avoids_receiveTag _ _ fun _ => avoids_afterMember _ b
    · trivial
  | payload r =>
    have value := r.avoids_step h
    simp only [stepObject]
    split
    · next ht => rw [ht] at value; exact value
    · rfl
    · exact avoids_afterMember _ b
    · trivial
  | skipped r =>
    have value := r.avoids_step h
    simp only [stepObject]
    split
    · next ht => rw [ht] at value; exact value
    · rfl
    · exact avoids_afterMember _ b
    · trivial
  | again name =>
    simp only [stepObject]
    split <;> trivial

theorem avoids_stepArray (h : isNumeric b = false) (stage : ArrayStage) :
    (stepArray stage b).Avoids inNumber := by
  cases stage with
  | first =>
    simp only [stepArray]
    repeat' split
    · rfl
    · trivial
    · exact avoids_startTag b fun _ => rfl
  | tag r =>
    simp only [stepArray]
    split
    · rfl
    · exact avoids_receiveTag _ _ fun _ => rfl
    · exact avoids_receiveTag _ _ fun _ => avoids_afterTag _ b
    · trivial
  | afterTag tag => exact avoids_afterTag tag b
  | beforePayload tag =>
    simp only [stepArray]
    repeat' split
    · rfl
    · trivial
    · exact avoids_stepPayload h tag payloadStart
  | payload tag r => exact avoids_stepPayload h tag r
  | afterPayload e => exact avoids_afterPayload e b
  | surplus =>
    simp only [stepArray]
    repeat' split
    all_goals trivial

/-- A byte that is no part of a number leads to no reader in a number. -/
theorem avoids_step (h : isNumeric b = false) (r : EnvelopeReader) :
    (r.step b).Avoids inNumber := by
  cases r with
  | start =>
    simp only [step, startEnvelope]
    repeat' split
    all_goals trivial
  | scalar r =>
    simp only [step]
    split <;> trivial
  | object fields stage => exact avoids_stepObject h fields stage
  | array stage => exact avoids_stepArray h stage

/-- Where the last byte is no part of a number, a run does not end in one. -/
theorem run_concat_ended (h : isNumeric b = false) {t : EnvelopeReader} {n : Nat} {bs : Bytes} :
    ∀ {r : EnvelopeReader} {used : Nat}, r.run used (bs ++ [b]) = .ended t n →
      t.inNumber = false := by
  induction bs with
  | nil =>
    intro r used hrun
    have avoids := r.avoids_step h
    rw [List.nil_append, run] at hrun
    split at hrun
    · next hstep =>
      cases hrun
      rw [hstep] at avoids
      exact avoids
    all_goals cases hrun
  | cons c bs ih =>
    intro r used hrun
    rw [List.cons_append, run] at hrun
    split at hrun
    · exact ih hrun
    all_goals cases hrun

end EnvelopeReader

/-- A part that does not end with a byte of a number asks for more. -/
theorem decodeOne_of_last {bytes : Bytes} {e : Envelope} {used k : Nat}
    (found : decodeOne bytes = .ok (some (e, used))) (hk : k < used) (small : k ≤ maxMessageSize)
    (outside : ∀ last ∈ (bytes.take k).getLast?, isNumeric last = false) :
    decodeOne (bytes.take k) = .ok none := by
  obtain ⟨r, cut, hopeful⟩ := run_part found hk
  rcases List.eq_nil_or_concat (bytes.take k) with nothing | ⟨initial, last, split⟩
  · rw [nothing]
    rfl
  · rw [List.concat_eq_append] at split
    refine decodeOne_of_patient cut small hopeful fun fault hasty => ?_
    rw [split] at cut outside
    have apart := EnvelopeReader.run_concat_ended (outside last (by simp)) cut
    rw [hasty.inNumber] at apart
    cases apart

/-- **What each part of an acceptable envelope is taken for.**  A part asks for more unless the
reader is hasty there; then the part is refused.  No part is refused that does not end with a byte
of a number. -/
theorem decodeOne_take {b : Bytes} {e : Envelope} {used k : Nat}
    (found : decodeOne b = .ok (some (e, used))) (hk : k < used) (small : k ≤ maxMessageSize) :
    (∃ r, EnvelopeReader.start.run 0 (b.take k) = .ended r k ∧
      (decodeOne (b.take k) = .ok none ↔ ∀ fault, ¬ r.Hasty fault) ∧
      ∀ fault, r.Hasty fault →
        decodeOne (b.take k) =
          .error (.malformed (.syntactic fault) (Position.after (b.take k)))) ∧
    ((∀ last ∈ (b.take k).getLast?, isNumeric last = false) → decodeOne (b.take k) = .ok none) := by
  obtain ⟨r, cut, hopeful⟩ := run_part found hk
  have refused : ∀ fault, r.Hasty fault → decodeOne (b.take k) =
      .error (.malformed (.syntactic fault) (Position.after (b.take k))) := by
    intro fault hasty
    exact decodeOne_of_atEnd cut hasty.atEnd
  refine ⟨⟨r, cut, ⟨fun more fault hasty => ?_, decodeOne_of_patient cut small hopeful⟩, refused⟩,
    decodeOne_of_last found hk small⟩
  rw [refused fault hasty] at more
  cases more

/-- A sound envelope whose first member, which is passed over, is a number below zero. -/
def overlooked : Bytes := utf8 "\x7b\"x\":-1,\"type\":9,\"payload\":0\x7d"

theorem decodeOne_overlooked :
    decodeOne overlooked = .ok (some (⟨9, .scalar (.integer 0)⟩, 29)) := by rfl

/-- Cut behind the minus sign, it is refused. -/
theorem decodeOne_take_overlooked :
    decodeOne overlooked = .ok (some (⟨9, .scalar (.integer 0)⟩, 29)) ∧
      decodeOne (overlooked.take 6) = .error (.malformed (.syntactic .invalidNumber) ⟨1, 6⟩) := by
  obtain ⟨⟨r, cut, -, refused⟩, -⟩ :=
    decodeOne_take (k := 6) decodeOne_overlooked (by decide) (by decide)
  have minus : EnvelopeReader.start.run 0 (overlooked.take 6) =
      .ended (.object ⟨none, none⟩ (.skipped ⟨[], .scalar (.number .minus)⟩)) 6 := by rfl
  rw [minus] at cut
  cases cut
  exact ⟨decodeOne_overlooked, refused _ (.skipped _ _ rfl)⟩

/-- Not every part of an acceptable envelope asks for more. -/
theorem exists_part_refused : ¬ ∀ (b : Bytes) (e : Envelope) (used k : Nat),
    decodeOne b = .ok (some (e, used)) → k < used → k ≤ maxMessageSize →
      decodeOne (b.take k) = .ok none := by
  intro all
  have refused : (decodeOne (overlooked.take 6)).toOption = none := by rfl
  rw [all _ _ _ 6 decodeOne_overlooked (by decide) (by decide)] at refused
  cases refused

end GossipNode
