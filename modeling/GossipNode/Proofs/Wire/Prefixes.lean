import GossipNode.Proofs.Wire.Stream

/-!
# Readers that are stopped within an envelope

The network may cut an envelope anywhere, and the receiver looks at the part that has come.  Nearly
every part asks for more: a number, a literal, an escape may go on, and a member may still come.
Two kinds of parts are refused though the envelope is sound.  A number in a member that is passed
over is refused where a digit is still due, and a number of a payload is refused where it is too
large so far, though an exponent that is still to come may bring it back.  Both cuts lie inside a
number.

## Main definitions

* `EnvelopeReader.Hasty` — readers that refuse the end of the bytes although more bytes could mend
  it, with the fault they find.
* `EnvelopeReader.Lost` — readers that no further bytes lead to an envelope.

## Main results

* `EnvelopeReader.Lost.run_ne_found` — a reader that is lost finds no envelope.
* `EnvelopeReader.hasty_of_atEnd` — a reader that is not lost is only refused for being hasty.
* `run_part`, `decodeOne_of_patient` — the reader of a part of an acceptable envelope is not lost,
  and so asks for more unless it is hasty.
-/

namespace GossipNode

/-! ### Numbers that may still be a kind -/

namespace NumberReader

/-- What a byte can do to a number: it goes on, and has neither fraction nor exponent only if it had
none before; or it has ended, with the value it stood at; or it is refused. -/
inductive Onward (r : NumberReader) : Step NumberReader Scalar → Prop
  | next {t : NumberReader} (h : ∀ negative, t.IsWhole negative → r.IsWhole negative) :
      Onward r (.next t)
  | past {v : Scalar} (h : r.value? = some (.ok v)) : Onward r (.past v)
  | refuse (fault : Fault) (side : Side) : Onward r (.refuse fault side)

theorem onward_close (r : NumberReader) : Onward r r.close := by
  unfold close
  split
  · next h => exact .past h
  · exact .refuse _ _
  · exact .refuse _ _

theorem onward_powerDigit (r : NumberReader) (s : Nat) (e : Int) (negative : Bool) (value : Nat)
    (b : UInt8) : Onward r (r.powerDigit s e negative value b) := by
  unfold powerDigit
  simp only
  split
  · exact .next fun _ h => absurd h.2 id
  split
  · exact .next fun _ h => absurd h.2 id
  · exact .refuse _ _

theorem onward_markOrClose (r : NumberReader) (s : Nat) (e : Int) (b : UInt8) :
    Onward r (r.markOrClose s e b) := by
  unfold markOrClose
  split
  · exact .next fun _ h => absurd h.2 id
  · exact r.onward_close

theorem onward_turnOrClose (r : NumberReader) (s : Nat) (e : Int) (b : UInt8) :
    Onward r (r.turnOrClose s e b) := by
  unfold turnOrClose turn?
  split
  · next h =>
    split at h
    · cases h
      exact .next fun _ h => absurd h.2 id
    split at h <;> cases h
    exact .next fun _ h => absurd h.2 id
  · exact r.onward_close

/-- A fraction does not become whole by another digit. -/
theorem not_isWhole_fractionDigit (r : NumberReader) (s : Nat) (e : Int) (b : UInt8)
    (negative : Bool) : ¬ (r.fractionDigit s e b).IsWhole negative := by
  unfold fractionDigit
  simp only
  split <;> exact fun h => h.2

/-- Every byte does one of these to a number. -/
theorem onward_step (r : NumberReader) (b : UInt8) : Onward r (r.step b) := by
  -- the sign never changes, so only the stages that may still be whole have something to show
  obtain ⟨sign, stage⟩ := r
  have refused : ∀ fault, Onward ⟨sign, stage⟩ (.refuseAt fault) := fun _ => .refuse _ _
  cases stage with
  | minus =>
    simp only [step]
    split
    · exact .next fun _ h => ⟨h.1, trivial⟩
    split
    · exact .next fun _ h => ⟨h.1, trivial⟩
    · exact refused _
  | zero =>
    simp only [step]
    split
    · exact refused _
    · exact onward_turnOrClose _ _ _ _
  | digits s =>
    simp only [step, digit]
    split
    · split
      · exact .next fun _ h => ⟨h.1, trivial⟩
      · exact .next fun _ h => absurd h.2 id
    · exact onward_turnOrClose _ _ _ _
  | surplus s e =>
    simp only [step]
    split
    · exact .next fun _ h => absurd h.2 id
    · exact onward_turnOrClose _ _ _ _
  | point s e =>
    simp only [step]
    split
    · exact .next fun _ h => absurd h (not_isWhole_fractionDigit _ _ _ _ _)
    · exact refused _
  | fraction s e =>
    simp only [step]
    split
    · exact .next fun _ h => absurd h (not_isWhole_fractionDigit _ _ _ _ _)
    · exact onward_markOrClose _ _ _ _
  | fractionSurplus s e =>
    simp only [step]
    split
    · exact .next fun _ h => h
    · exact onward_markOrClose _ _ _ _
  | mark s e =>
    simp only [step]
    split
    · exact .next fun _ h => absurd h.2 id
    split
    · exact .next fun _ h => absurd h.2 id
    split
    · exact onward_powerDigit _ _ _ _ _ _
    · exact refused _
  | markSign s e negative =>
    simp only [step]
    split
    · exact onward_powerDigit _ _ _ _ _ _
    · exact refused _
  | power s e negative value =>
    simp only [step]
    split
    · exact onward_powerDigit _ _ _ _ _ _
    · exact onward_close _
  | vanished =>
    simp only [step]
    split
    · exact .next fun _ h => h
    · exact onward_close _

/-- A number has no last byte of its own. -/
theorem step_ne_done (r : NumberReader) (b : UInt8) (v : Scalar) : r.step b ≠ .done v := by
  intro h
  have onward := r.onward_step b
  rw [h] at onward
  cases onward

/-- A number that has neither fraction nor exponent after a byte had none before it. -/
theorem IsWhole.of_step {negative : Bool} {r t : NumberReader} {b : UInt8}
    (whole : t.IsWhole negative) (h : r.step b = .next t) : r.IsWhole negative := by
  have onward := r.onward_step b
  rw [h] at onward
  cases onward with
  | next still => exact still _ whole

theorem ofParts_ne_integer (negative : Bool) (s : Nat) (e n : Int) :
    ofParts negative s e ≠ .ok (.integer n) := by
  unfold ofParts
  split <;> simp

/-- What stands behind a minus sign is rounded or below zero. -/
theorem wholeValue_negative {s : Nat} {n : Int} (h : wholeValue true s = .integer n) : n < 0 := by
  simp only [wholeValue, if_true] at h
  split at h
  · cases h
  · next big =>
    cases h
    omega

theorem ofParts_error {negative : Bool} {s : Nat} {e : Int} {fault : Fault}
    (h : ofParts negative s e = .error fault) : fault = .syntactic .numberOutOfRange := by
  unfold ofParts at h
  split at h
  · cases h
  · cases h
    rfl

/-- The only fault of a number that could end here is that it is too large. -/
theorem value?_error {r : NumberReader} {fault : Fault} (h : r.value? = some (.error fault)) :
    fault = .syntactic .numberOutOfRange := by
  obtain ⟨sign, stage⟩ := r
  cases stage with
  | minus | point _ _ | mark _ _ | markSign _ _ _ | zero | digits _ | vanished => simp [value?] at h
  | surplus s e | fraction s e | fractionSurplus s e | power s e negative value =>
    exact ofParts_error (Option.some.inj h)

/-- Only a number without fraction, exponent and minus sign is a kind. -/
theorem isWhole_of_tagOf {r : NumberReader} {v : Scalar} {tag : UInt64}
    (value : r.value? = some (.ok v)) (kind : EnvelopeReader.tagOf v = .ok tag) :
    r.IsWhole false := by
  obtain ⟨n, rfl, natural⟩ : ∃ n, v = .integer n ∧ 0 ≤ n := by
    cases v with
    | integer n =>
      simp only [EnvelopeReader.tagOf] at kind
      split at kind
      · next natural => exact ⟨n, rfl, natural⟩
      · cases kind
    | _ => cases kind
  -- fractions and exponents make a number one of binary64, and a minus sign leaves it below zero
  obtain ⟨sign, stage⟩ := r
  cases stage with
  | minus | point _ _ | mark _ _ | markSign _ _ _ | vanished => simp [value?] at value
  | surplus s e | fraction s e | fractionSurplus s e | power s e negative value =>
    exact absurd (Option.some.inj value) (ofParts_ne_integer _ _ _ _)
  | zero | digits s =>
    simp only [value?, Option.some.injEq, Except.ok.injEq] at value
    cases sign with
    | false => exact ⟨rfl, trivial⟩
    | true => exact absurd natural (Int.not_le.2 (wholeValue_negative value))

end NumberReader

namespace EnvelopeReader

/-! ### Readers that no further bytes lead to an envelope -/

/-- Readers that no further bytes lead to an envelope: a scalar stands in its place, the kind is
already known not to be one, a member has come twice, or there are too many. -/
inductive Lost : EnvelopeReader → Prop
  | scalar (r : ScalarReader) : Lost (.scalar r)
  | tag (fields : EnvelopeFields) {r : NumberReader} (h : ¬ r.IsWhole false) :
      Lost (.object fields (.tag (.number r)))
  | arrayTag {r : NumberReader} (h : ¬ r.IsWhole false) : Lost (.array (.tag (.number r)))
  | again (fields : EnvelopeFields) (name : String) : Lost (.object fields (.again name))
  | surplus : Lost (.array .surplus)

/-- A step after which a reader that was lost still is, or which refuses the byte. -/
def StaysLost : Move → Prop
  | .next r => Lost r
  | .refuse _ _ => True
  | .done _ | .past _ => False

/-- A number that is no kind goes on as one that is none, is not received as one, or is refused. -/
theorem step_tag_cases {r : NumberReader} (h : ¬ r.IsWhole false) (b : UInt8) :
    (∃ t, r.step b = .next t ∧ ¬ t.IsWhole false) ∨
      (∃ v fault, r.step b = .past v ∧ tagOf v = .error fault) ∨
        ∃ fault side, r.step b = .refuse fault side := by
  have onward := r.onward_step b
  cases hstep : r.step b with
  | next t => exact Or.inl ⟨t, rfl, fun whole => h (whole.of_step hstep)⟩
  | done v => exact absurd hstep (r.step_ne_done b v)
  | past v =>
    rw [hstep] at onward
    cases onward with
    | past value =>
      cases kind : tagOf v with
      | ok tag => exact absurd (NumberReader.isWhole_of_tagOf value kind) h
      | error fault => exact Or.inr (Or.inl ⟨v, fault, rfl, kind⟩)
  | refuse fault side => exact Or.inr (Or.inr ⟨fault, side, rfl⟩)

/-- Whatever the byte, a reader that is lost stays so. -/
theorem staysLost_step {r : EnvelopeReader} (lost : Lost r) (b : UInt8) :
    StaysLost (r.step b) := by
  cases lost with
  | scalar r =>
    simp only [step]
    split
    · exact .scalar _
    all_goals trivial
  | @tag fields r h =>
    simp only [step, stepObject, ScalarReader.step]
    rcases step_tag_cases h b with
      ⟨t, hstep, still⟩ | ⟨v, fault, hstep, kind⟩ | ⟨fault, side, hstep⟩
    · rw [hstep]
      exact .tag fields still
    · rw [hstep]
      simp only [Step.map, id, receiveTag, kind]
      trivial
    · rw [hstep]
      trivial
  | @arrayTag r h =>
    simp only [step, stepArray, ScalarReader.step]
    rcases step_tag_cases h b with
      ⟨t, hstep, still⟩ | ⟨v, fault, hstep, kind⟩ | ⟨fault, side, hstep⟩
    · rw [hstep]
      exact .arrayTag still
    · rw [hstep]
      simp only [Step.map, id, receiveTag, kind]
      trivial
    · rw [hstep]
      trivial
  | again fields name =>
    simp only [step, stepObject]
    split
    · exact .again fields name
    · trivial
  | surplus =>
    simp only [step, stepArray]
    split
    · exact .surplus
    split <;> trivial

/-- **A reader that is lost finds no envelope**, whatever bytes follow. -/
theorem Lost.run_ne_found {bs : Bytes} {e : Envelope} {n : Nat} :
    ∀ {r : EnvelopeReader} {used : Nat}, Lost r → r.run used bs ≠ .found e n := by
  induction bs with
  | nil =>
    intro r used _ h
    rw [run] at h
    cases h
  | cons b bs ih =>
    intro r used lost h
    have stays := staysLost_step lost b
    rw [run] at h
    split at h
    · next t step =>
      rw [step] at stays
      exact ih stays h
    · next step => rw [step] at stays; exact stays
    · next step => rw [step] at stays; exact stays
    all_goals cases h

/-! ### Readers that are refused too early -/

/-- Readers that refuse the end of the bytes although more bytes could mend it, and the fault they
find: a number that is passed over lacks a digit, or a number of a payload is too large so far. -/
inductive Hasty : EnvelopeReader → SyntaxFault → Prop
  | skipped (fields : EnvelopeFields) (frames : List Bracket) {r : NumberSkipper}
      (h : r.lacksDigit = true) :
      Hasty (.object fields (.skipped ⟨frames, .scalar (.number r)⟩)) .invalidNumber
  | payload (fields : EnvelopeFields) (frames : List Frame) (room : Nat) {r : NumberReader}
      (h : r.value? = some (.error (.syntactic .numberOutOfRange))) :
      Hasty (.object fields (.payload ⟨frames, room, .scalar (.number r)⟩)) .numberOutOfRange
  | arrayPayload (tag : UInt64) (frames : List Frame) (room : Nat) {r : NumberReader}
      (h : r.value? = some (.error (.syntactic .numberOutOfRange))) :
      Hasty (.array (.payload tag ⟨frames, room, .scalar (.number r)⟩)) .numberOutOfRange

/-- A hasty reader refuses the end of the bytes with its fault. -/
theorem Hasty.atEnd {r : EnvelopeReader} {fault : SyntaxFault} (h : Hasty r fault) :
    r.atEnd = some (.syntactic fault) := by
  cases h with
  | skipped fields frames h =>
    simp [EnvelopeReader.atEnd, Skipper.atEnd, ScalarSkipper.atEnd, NumberSkipper.atEnd, h,
      endingFault]
  | payload fields frames room h =>
    simp [EnvelopeReader.atEnd, JsonReader.atEnd, ScalarReader.atEnd, NumberReader.atEnd, h,
      endingFault]
  | arrayPayload tag frames room h =>
    simp [EnvelopeReader.atEnd, JsonReader.atEnd, ScalarReader.atEnd, NumberReader.atEnd, h,
      endingFault]

/-- A scalar where a kind is due is refused at the end of the bytes only if it is a number that is
no kind, whatever bytes follow. -/
theorem not_isWhole_of_scalarAtEnd {r : ScalarReader} {fault : Fault}
    (h : scalarAtEnd r tagFault = some fault) :
    ∃ n : NumberReader, r = .number n ∧ ¬ n.IsWhole false := by
  cases r with
  | literal r => simp [scalarAtEnd, ScalarReader.atEnd] at h
  | string r => simp [scalarAtEnd, ScalarReader.atEnd] at h
  | number n =>
    refine ⟨n, rfl, fun whole => ?_⟩
    have calm := calm_tag ⟨none, none⟩ whole
    simp only [Calm, EnvelopeReader.atEnd] at calm
    rw [calm] at h
    cases h

theorem endingFault_eq_some {α : Type} {ending : Ending α} {fault : Fault} :
    endingFault ending = some fault ↔ ending = .refuse fault := by
  cases ending <;> simp [endingFault]

/-- A reader of a payload refuses the end of the bytes only in a number that is too large so far. -/
theorem payload_of_atEnd {r : JsonReader} {fault : Fault} (h : r.atEnd = .refuse fault) :
    fault = .syntactic .numberOutOfRange ∧ ∃ frames room n,
      r = ⟨frames, room, .scalar (.number n)⟩ ∧ n.value? = some (.error fault) := by
  obtain ⟨frames, room, stage⟩ := r
  cases stage with
  | scalar s =>
    simp only [JsonReader.atEnd] at h
    cases s with
    | number n =>
      simp only [ScalarReader.atEnd, NumberReader.atEnd] at h
      cases value : n.value? with
      | none => simp [value] at h
      | some result =>
        cases result with
        | ok v =>
          simp only [value] at h
          split at h <;> cases h
        | error found =>
          simp only [value, Ending.refuse.injEq] at h
          subst h
          exact ⟨NumberReader.value?_error value, frames, room, n, rfl, value⟩
    | literal _ | string _ => cases h
  | _ => cases h

/-- A skipper refuses the end of the bytes only in a number that lacks a digit. -/
theorem skipped_of_atEnd {r : Skipper} {fault : Fault} (h : r.atEnd = .refuse fault) :
    fault = .syntactic .invalidNumber ∧ ∃ frames n,
      r = ⟨frames, .scalar (.number n)⟩ ∧ n.lacksDigit = true := by
  obtain ⟨frames, stage⟩ := r
  cases stage with
  | scalar s =>
    simp only [Skipper.atEnd] at h
    cases s with
    | number n =>
      simp only [ScalarSkipper.atEnd, NumberSkipper.atEnd] at h
      cases lacking : n.lacksDigit with
      | true =>
        simp only [lacking, if_true, Ending.refuse.injEq] at h
        exact ⟨h.symm, frames, n, rfl, lacking⟩
      | false =>
        simp only [lacking, Bool.false_eq_true, if_false] at h
        split at h <;> cases h
    | literal _ | string _ => cases h
  | _ => cases h

/-- **A reader that is not lost is only refused for being hasty.** -/
theorem hasty_of_atEnd {r : EnvelopeReader} {fault : Fault} (h : r.atEnd = some fault)
    (hopeful : ¬ Lost r) : ∃ f, fault = .syntactic f ∧ Hasty r f := by
  -- the stages that are not named take the end of the bytes for an interruption
  cases r with
  | start => cases h
  | scalar r => exact absurd (.scalar r) hopeful
  | object fields stage =>
    cases stage with
    | tag r =>
      obtain ⟨n, rfl, kindless⟩ := not_isWhole_of_scalarAtEnd h
      exact absurd (.tag fields kindless) hopeful
    | payload r =>
      obtain ⟨rfl, frames, room, n, rfl, large⟩ := payload_of_atEnd (endingFault_eq_some.1 h)
      exact ⟨_, rfl, .payload fields frames room large⟩
    | skipped r =>
      obtain ⟨rfl, frames, n, rfl, lacking⟩ := skipped_of_atEnd (endingFault_eq_some.1 h)
      exact ⟨_, rfl, .skipped fields frames lacking⟩
    | again name => exact absurd (.again fields name) hopeful
    | _ => cases h
  | array stage =>
    cases stage with
    | tag r =>
      obtain ⟨n, rfl, kindless⟩ := not_isWhole_of_scalarAtEnd h
      exact absurd (.arrayTag kindless) hopeful
    | payload tag r =>
      obtain ⟨rfl, frames, room, n, rfl, large⟩ := payload_of_atEnd (endingFault_eq_some.1 h)
      exact ⟨_, rfl, .arrayPayload tag frames room large⟩
    | surplus => exact absurd .surplus hopeful
    | _ => cases h

/-! ### Runs that are cut -/

/-- A run that finds an envelope is still under way at every place before the envelope's end. -/
theorem run_take {e : Envelope} {n : Nat} : ∀ {k : Nat} {bs : Bytes} {r : EnvelopeReader}
    {used : Nat}, r.run used bs = .found e n → used + k < n →
      ∃ t, r.run used (bs.take k) = .ended t (used + k) ∧
        t.run (used + k) (bs.drop k) = .found e n := by
  intro k
  -- A byte that ended the run within the part would have found the envelope there.
  induction k with
  | zero =>
    intro bs r used h _
    exact ⟨r, rfl, by simpa using h⟩
  | succ k ih =>
    intro bs r used h before
    cases bs with
    | nil =>
      rw [run] at h
      cases h
    | cons b bs =>
      rw [run] at h
      rw [List.take_succ_cons, List.drop_succ_cons, run]
      split at h
      · next t hstep =>
        simpa only [Nat.add_assoc, Nat.add_comm 1] using ih h (by omega)
      · cases h
        omega
      · cases h
        omega
      all_goals cases h

end EnvelopeReader

/-- A buffer that is not too large asks for more where its reader is neither lost nor hasty. -/
theorem decodeOne_of_patient {buffer : Bytes} {r : EnvelopeReader} {size : Nat}
    (h : EnvelopeReader.start.run 0 buffer = .ended r size) (small : size ≤ maxMessageSize)
    (hopeful : ¬ r.Lost) (patient : ∀ fault, ¬ r.Hasty fault) : decodeOne buffer = .ok none := by
  refine decodeOne_of_calm h ?_ small
  cases atEnd : r.atEnd with
  | none => exact atEnd
  | some fault =>
    obtain ⟨f, -, hasty⟩ := EnvelopeReader.hasty_of_atEnd atEnd hopeful
    exact absurd hasty (patient f)

/-- The reader of a part of an acceptable envelope is not lost. -/
theorem run_part {b : Bytes} {e : Envelope} {used k : Nat}
    (found : decodeOne b = .ok (some (e, used))) (hk : k < used) :
    ∃ r, EnvelopeReader.start.run 0 (b.take k) = .ended r k ∧ ¬ r.Lost := by
  obtain ⟨r, cut, rest⟩ := EnvelopeReader.run_take (run_of_decodeOne found) (by simpa using hk)
  rw [Nat.zero_add] at cut rest
  exact ⟨r, cut, fun lost => lost.run_ne_found rest⟩

end GossipNode
