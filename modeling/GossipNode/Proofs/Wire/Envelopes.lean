import GossipNode.Proofs.Json.Compact
import GossipNode.Wire.Decode

/-!
# Envelopes are read back as they were written

The first envelope of a buffer that begins with the text of one is that one, whatever stands behind
it; and a buffer that holds only a part of the text of one asks for more.

## Main definitions

* `Envelope.isPlain` — envelopes that have one spelling and are not too deep to be read.

## Main results

* `EnvelopeReader.takes_render` — all of an envelope is taken but its last brace, and that one
  completes it.
* `decodeOne_render_append` — **an envelope is found at the front of a buffer.**
* `decodeOne_of_part` — **a part of an envelope asks for more.**
* `decodeOne_stream` — what stands at the front of a stream of envelopes.
-/

namespace GossipNode

namespace Envelope

/-- Whether an envelope has one spelling and a payload of at most as many levels as are read. -/
def isPlain (e : Envelope) : Bool := e.payload.isPlain && decide (e.payload.depth < maxDepth)

theorem render_eq (e : Envelope) : e.render =
    0x7B :: (JsonString.render "type" ++ [0x3A] ++ decimalBytes e.tag.toNat ++ [0x2C]
      ++ (JsonString.render "payload" ++ [0x3A]) ++ e.payload.render) ++ [0x7D] := by
  unfold render
  simp only
  rw [Json.push_append]
  simp [Json.render, Json.pushName, List.reverseAux_eq]

end Envelope

namespace EnvelopeReader

/-- The text may end here without being wrong. -/
def Calm (r : EnvelopeReader) : Prop := r.atEnd = none

theorem calm_tag (fields : EnvelopeFields) {r : NumberReader} (h : r.IsWhole false) :
    Calm (.object fields (.tag (.number r))) := by
  simp only [Calm, atEnd, scalarAtEnd, ScalarReader.atEnd]
  cases hr : r.atEnd with
  | cut => rfl
  | refuse fault => exact absurd hr (h.atEnd_ne_refuse fault)
  | whole v =>
    obtain ⟨n, rfl⟩ := h.atEnd_natural hr
    simp [tagFault, tagOf]

theorem calm_payload (fields : EnvelopeFields) {r : JsonReader} (h : r.Calm) :
    Calm (.object fields (.payload r)) := by
  simp only [Calm, atEnd]
  cases hr : r.atEnd with
  | refuse fault => exact absurd hr (h fault)
  | _ => rfl

/-- A name between quotes is taken where one is due, and the reader goes on as is seen fit. -/
theorem takes_quoted {fields : EnvelopeFields} {stage : ObjectStage}
    (hstage : stage = .firstName ∨ stage = .nextName) {text : Bytes} {name : String}
    (content : Takes StringReader.step StringReader.Calm .start text
      ⟨(utf8 name).reverse, .plain⟩) {calm : EnvelopeReader → Prop} (hcalm : ∀ r, r.Calm → calm r)
    {r : EnvelopeReader} (hname : receiveName fields name = .next r) (hr : calm r) :
    Takes step calm (.object fields stage) (0x22 :: text ++ [0x22]) r := by
  have inside : Takes step calm (.object fields (.name .start)) text
      (.object fields (.name ⟨(utf8 name).reverse, .plain⟩)) := by
    refine content.map (fun s => EnvelopeReader.object fields (.name s)) (fun s b t hst => ?_)
      fun s _ => hcalm (.object fields (.name s)) rfl
    simp [step, stepObject, hst]
  refine .cons (t := .object fields (.name .start)) ?_ (hcalm (.object fields (.name .start)) rfl)
    (inside.snoc ?_ hr)
  · rcases hstage with rfl | rfl <;> simp [step, stepObject, isBlank, startName]
  · simp only [step, stepObject, StringReader.step_quote, hname]

/-- The name of a member and its colon are taken where a name is due. -/
theorem takes_name {fields : EnvelopeFields} {stage : ObjectStage}
    (hstage : stage = .firstName ∨ stage = .nextName) {name : String} (field : EnvelopeField)
    (hname : receiveName fields name = .next (.object fields (.colon field))) :
    Takes step Calm (.object fields stage) (JsonString.render name ++ [0x3A])
      (.object fields (valueStage field)) :=
  (takes_quoted hstage (StringReader.takes_text name) (fun _ h => h) hname rfl).snoc
    (by simp [step, stepObject, isBlank]) (by cases field <;> rfl)

/-- A place for the number of a kind: where it is due a scalar begins, which is read as `f` says,
and `g` goes on with its number. -/
structure IsKindPlace (due : EnvelopeReader) (f : ScalarReader → EnvelopeReader)
    (g : UInt64 → EnvelopeReader) : Prop where
  begins : ∀ b, isBlank b = false → b ≠ 0x5D → step due b = startTag b fun r => .next (f r)
  goesOn : ∀ r b, step (f r) b =
    match ScalarReader.step r b with
    | .next r => .next (f r)
    | .done v => receiveTag v .after fun tag => .next (g tag)
    | .past v => receiveTag v .before fun tag => step (g tag) b
    | .refuse fault side => .refuse fault side

theorem isKindPlace_object (fields : EnvelopeFields) :
    IsKindPlace (.object fields .tagStart) (fun r => .object fields (.tag r))
      fun tag => .object { fields with tag := some tag } .afterMember where
  begins b blank _ := by simp [step, stepObject, blank]
  goesOn r b := by cases h : r.step b <;> simp only [step, stepObject, h]

theorem tagOf_integer (tag : UInt64) : tagOf (.integer tag.toNat) = .ok tag := by simp [tagOf]

/-- The number of a kind is taken in its place, and the reader goes on after it. -/
theorem IsKindPlace.takes {due : EnvelopeReader} {f : ScalarReader → EnvelopeReader}
    {g : UInt64 → EnvelopeReader} (place : IsKindPlace due f g) {calm : ScalarReader → Prop}
    {calm' : EnvelopeReader → Prop} (hcalm : ∀ r, calm r → calm' (f r)) {tag : UInt64}
    (hg : calm' (g tag)) {b : UInt8} {bs : Bytes} {r : ScalarReader}
    (started : ScalarReader.start? b = some r) (hr : calm r)
    (h : Gives ScalarReader.step calm r bs (.integer tag.toNat)) :
    ∃ t, Takes step calm' due (b :: bs) t ∧ StandsFor step t (g tag) := by
  obtain ⟨blank, array, object, close, -⟩ := ScalarReader.separators_of_start? started
  have begun : step due b = .next (f r) := by
    rw [place.begins b blank close]
    simp [startTag, array, object, started]
  obtain ⟨t, taken, stands⟩ := h.reaches.inside step f (g tag)
    (fun s c u next => by rw [place.goesOn, next])
    (fun s c done => by rw [place.goesOn, done]; simp only [receiveTag, tagOf_integer])
    (fun s c past => by rw [place.goesOn, past]; simp only [receiveTag, tagOf_integer]) hcalm hg
  exact ⟨t, .cons begun (hcalm r hr) taken, stands⟩

/-- The number of a kind is taken where it is due, and the object goes on after it. -/
theorem takes_tag (fields : EnvelopeFields) (tag : UInt64) :
    ∃ t, Takes step Calm (.object fields .tagStart) (decimalBytes tag.toNat) t ∧
      StandsFor step t (.object { fields with tag := some tag } .afterMember) := by
  obtain ⟨b, bs, r, hb, hstart, hwhole, hgives⟩ := NumberReader.gives_decimalBytes tag.toNat
    (Nat.le_sub_one_of_lt tag.toNat_lt)
  have hquote : b ≠ 0x22 := by rintro rfl; simp [NumberReader.start?, isDigit] at hstart
  have hscalar : ScalarReader.start? b = some (.number r) := by
    simp [ScalarReader.start?, hquote, hstart]
  have gives : Gives ScalarReader.step (fun s => ∃ r, s = .number r ∧ r.IsWhole false)
      (.number r) bs (.integer tag.toNat) :=
    hgives.map ScalarReader.number id (fun _ _ => rfl) fun r whole => ⟨r, rfl, whole⟩
  rw [hb]
  have waiting : Calm (.object { fields with tag := some tag } .afterMember) := rfl
  refine (isKindPlace_object fields).takes ?_ waiting hscalar ⟨r, rfl, hwhole⟩ gives
  rintro s ⟨r, rfl, whole⟩
  exact calm_tag fields whole

/-- What is read as a payload is taken where one is due, and the object goes on after it. -/
theorem takes_payloadText (fields : EnvelopeFields) {text : Bytes} {v : Json}
    (h : Reaches JsonReader.step JsonReader.Calm payloadStart text (.done v)) :
    ∃ t, Takes step Calm (.object fields (.payload payloadStart)) text t ∧
      StandsFor step t (.object { fields with payload := some v } .afterMember) :=
  h.inside step (fun r => .object fields (.payload r))
    (.object { fields with payload := some v } .afterMember)
    (fun r b t next => by simp only [step, stepObject, next])
    (fun r b done => by simp only [step, stepObject, done])
    (fun r b past => by simp only [step, stepObject, past])
    (fun _ calm => calm_payload fields calm) rfl

/-- A payload is taken where it is due, and the object goes on after it. -/
theorem takes_payload (fields : EnvelopeFields) {v : Json} (plain : v.isPlain = true)
    (deep : v.depth < maxDepth) :
    ∃ t, Takes step Calm (.object fields (.payload payloadStart)) v.render t ∧
      StandsFor step t (.object { fields with payload := some v } .afterMember) :=
  takes_payloadText fields
    (JsonReader.reaches_render [] plain (by omega) (Or.inl rfl))

/-- All that stands before the payload is taken, and the payload is due then. -/
theorem takes_head (tag : UInt64) : Takes step Calm .start
    (0x7B :: (JsonString.render "type" ++ [0x3A] ++ decimalBytes tag.toNat ++ [0x2C]
      ++ (JsonString.render "payload" ++ [0x3A])))
    (.object ⟨some tag, none⟩ (.payload payloadStart)) := by
  have opened : Takes step Calm .start [0x7B] (.object ⟨none, none⟩ .firstName) :=
    .single (by simp [step, isBlank, startEnvelope]) rfl
  have tagged : Takes step Calm (.object ⟨none, none⟩ .firstName)
      (JsonString.render "type" ++ [0x3A]) (.object ⟨none, none⟩ .tagStart) :=
    takes_name (Or.inl rfl) .tag (by simp [receiveName, EnvelopeField.ofName])
  obtain ⟨t, kind, stands⟩ := takes_tag ⟨none, none⟩ tag
  have comma : Takes step Calm t [0x2C] (.object ⟨some tag, none⟩ .nextName) :=
    .single (stands 0x2C rfl) rfl
  have named : Takes step Calm (.object ⟨some tag, none⟩ .nextName)
      (JsonString.render "payload" ++ [0x3A]) (.object ⟨some tag, none⟩ (.payload payloadStart)) :=
    takes_name (Or.inr rfl) .payload (by simp [receiveName, EnvelopeField.ofName])
  simpa using opened.append (tagged.append (kind.append (comma.append named)))

/-- **All of an envelope is taken but its last brace, and that one completes it.** -/
theorem takes_render {e : Envelope} (h : e.isPlain = true) :
    ∃ body t, e.render = body ++ [0x7D] ∧ Takes step Calm .start body t ∧
      t.step 0x7D = .done e := by
  obtain ⟨tag, payload⟩ := e
  simp only [Envelope.isPlain, Bool.and_eq_true, decide_eq_true_eq] at h
  obtain ⟨u, content, stands⟩ := takes_payload ⟨some tag, none⟩ h.1 h.2
  refine ⟨_, u, Envelope.render_eq _, (takes_head tag).append content, ?_⟩
  exact stands 0x7D rfl

/-! ### Buffers -/

/-- A run over bytes that are taken goes on behind them. -/
theorem run_append {calm : EnvelopeReader → Prop} {s t : EnvelopeReader} {bs : Bytes}
    (h : Takes step calm s bs t) (rest : Bytes) : ∀ used,
    s.run used (bs ++ rest) = t.run (used + bs.length) rest := by
  induction h with
  | nil => intro used; simp
  | cons first _ _ ih =>
    intro used
    rw [List.cons_append, run, first]
    simp only
    rw [ih, List.length_cons, Nat.add_assoc, Nat.add_comm 1]

/-- A run over bytes one of which is refused ends there. -/
theorem run_of_refuses {r : EnvelopeReader} {bs : Bytes} {fault : Fault}
    (h : Refuses step fault r bs) : ∀ used, ∃ offset, r.run used bs = .refused fault offset := by
  induction h with
  | here first =>
    intro used
    simp only [run, first]
    next side => cases side <;> exact ⟨_, rfl⟩
  | later first _ ih =>
    intro used
    simp only [run, first]
    exact ih (used + 1)

end EnvelopeReader

/-- A buffer is malformed if one of its bytes is refused. -/
theorem decodeOne_of_refuses {buffer : Bytes} {fault : Fault}
    (h : Refuses EnvelopeReader.step fault .start buffer) :
    ∃ position, decodeOne buffer = .error (.malformed fault position) := by
  obtain ⟨offset, hrun⟩ := EnvelopeReader.run_of_refuses h 0
  simp only [decodeOne, hrun]
  exact ⟨_, rfl⟩

/-- What is taken up to a byte that completes an envelope is found, whatever stands behind it. -/
theorem decodeOne_of_takes {calm : EnvelopeReader → Prop} {body : Bytes} {t : EnvelopeReader}
    {b : UInt8} {e : Envelope} (taken : Takes EnvelopeReader.step calm .start body t)
    (last : t.step b = .done e) (rest : Bytes) :
    decodeOne (body ++ b :: rest) = .ok (some (e, body.length + 1)) := by
  rw [decodeOne, EnvelopeReader.run_append taken]
  simp [EnvelopeReader.run, last]

open EnvelopeReader in
/-- **An envelope is found at the front of a buffer**, whatever stands behind it. -/
theorem decodeOne_render_append {e : Envelope} (h : e.isPlain = true) (rest : Bytes) :
    decodeOne (e.render ++ rest) = .ok (some (e, e.render.length)) := by
  obtain ⟨body, t, hbody, taken, last⟩ := takes_render h
  rw [hbody, List.append_assoc, List.length_append]
  exact decodeOne_of_takes taken last rest

/-- A buffer asks for more if it ends in a calm reader and is not too large. -/
theorem decodeOne_of_calm {buffer : Bytes} {r : EnvelopeReader} {size : Nat}
    (h : EnvelopeReader.start.run 0 buffer = .ended r size) (calm : r.Calm)
    (small : size ≤ maxMessageSize) : decodeOne buffer = .ok none := by
  have quiet : r.atEnd = none := calm
  unfold decodeOne
  rw [h]
  split
  · next h => cases h
  · next h => cases h
  · rfl
  · next h =>
    cases h
    rw [quiet]
    simp only
    rw [if_neg (Nat.not_lt.mpr small)]

/-- A buffer is refused if it ends in a reader that no further byte can help. -/
theorem decodeOne_of_atEnd {buffer : Bytes} {r : EnvelopeReader} {size : Nat} {fault : Fault}
    (h : EnvelopeReader.start.run 0 buffer = .ended r size) (refused : r.atEnd = some fault) :
    decodeOne buffer = .error (.malformed fault (Position.after buffer)) := by
  unfold decodeOne
  rw [h]
  split
  · next h => cases h
  · next h => cases h
  · next h =>
    cases h
    cases refused
  · next h =>
    cases h
    rw [refused]

open EnvelopeReader in
/-- **A part of an envelope asks for more**, as long as the part is not too large itself. -/
theorem decodeOne_of_part {e : Envelope} (h : e.isPlain = true) {part missing : Bytes}
    (hsplit : part ++ missing = e.render) (hmissing : missing ≠ [])
    (hsize : part.length ≤ maxMessageSize) : decodeOne part = .ok none := by
  obtain ⟨body, t, hbody, taken, -⟩ := takes_render h
  obtain ⟨initial, b, rfl⟩ : ∃ initial b, missing = initial ++ [b] :=
    ⟨_, _, (List.dropLast_concat_getLast hmissing).symm⟩
  rw [hbody, ← List.append_assoc] at hsplit
  obtain ⟨rfl, -⟩ := List.append_inj' hsplit rfl
  obtain ⟨u, upTo, -⟩ := taken.split
  have hrun := run_append upTo [] 0
  rw [List.append_nil, Nat.zero_add, run] at hrun
  have calm : u.Calm := by
    cases part with
    | nil => cases upTo; rfl
    | cons b part => exact upTo.calm_end
  exact decodeOne_of_calm hrun calm hsize

/-- An envelope takes at least one byte. -/
theorem Envelope.render_ne_nil (e : Envelope) : e.render ≠ [] := by
  rw [Envelope.render_eq]
  simp

/-- The bytes of envelopes that follow one another. -/
def renderAll (es : List Envelope) : Bytes := es.flatMap Envelope.render

@[simp] theorem renderAll_nil : renderAll [] = [] := rfl

@[simp] theorem renderAll_cons (e : Envelope) (es : List Envelope) :
    renderAll (e :: es) = e.render ++ renderAll es := rfl

@[simp] theorem renderAll_append (es fs : List Envelope) :
    renderAll (es ++ fs) = renderAll es ++ renderAll fs := List.flatMap_append

/-- A buffer holds less than the next envelope. -/
def Short (buffer : Bytes) (es : List Envelope) : Prop :=
  ∀ e, es.head? = some e → buffer.length < e.render.length

/-- An empty buffer holds less than an envelope. -/
theorem short_nil (es : List Envelope) : Short [] es := by
  intro e _
  exact List.length_pos_iff.2 e.render_ne_nil

/-- Where nothing is missing, a buffer that holds less than the next envelope is at the end. -/
theorem Short.eq_nil {es : List Envelope} (short : Short (renderAll es) es) : es = [] := by
  cases es with
  | nil => rfl
  | cons e es =>
    have tooLong := short e rfl
    rw [renderAll_cons, List.length_append] at tooLong
    omega

/-- **What stands at the front of a stream**: the next envelope is found if it is there whole, and
otherwise more is asked for. -/
theorem decodeOne_stream {es : List Envelope} (plain : ∀ e ∈ es, e.isPlain = true)
    (small : ∀ e ∈ es, e.render.length ≤ maxMessageSize) {buffer missing : Bytes}
    (h : buffer ++ missing = renderAll es) :
    (decodeOne buffer = .ok none ∧ Short buffer es) ∨
      ∃ e rest more, es = e :: rest ∧ buffer = e.render ++ more ∧
        more ++ missing = renderAll rest ∧
        decodeOne buffer = .ok (some (e, e.render.length)) := by
  cases es with
  | nil =>
    obtain ⟨rfl, -⟩ := List.append_eq_nil_iff.1 h
    exact Or.inl ⟨rfl, short_nil []⟩
  | cons e rest =>
    rw [renderAll_cons] at h
    -- The buffer and the first envelope both begin the stream, so the shorter begins the longer.
    by_cases whole : e.render.length ≤ buffer.length
    · obtain ⟨more, rfl⟩ : e.render <+: buffer :=
        List.prefix_of_prefix_length_le ⟨_, rfl⟩ ⟨_, h⟩ whole
      rw [List.append_assoc] at h
      exact Or.inr ⟨e, rest, more, rfl, rfl, List.append_cancel_left h,
        decodeOne_render_append (plain e List.mem_cons_self) more⟩
    · have short : buffer.length < e.render.length := Nat.lt_of_not_le whole
      obtain ⟨gap, hgap⟩ : buffer <+: e.render :=
        List.prefix_of_prefix_length_le ⟨_, h⟩ ⟨_, rfl⟩ (Nat.le_of_lt short)
      have someMissing : gap ≠ [] := by
        rintro rfl
        rw [← hgap, List.append_nil] at short
        exact Nat.lt_irrefl _ short
      -- A part of an envelope is only waited for as long as it is not too large.
      have size := small e List.mem_cons_self
      refine Or.inl ⟨decodeOne_of_part (plain e List.mem_cons_self) hgap someMissing (by omega),
        fun f hf => ?_⟩
      cases hf
      exact short

end GossipNode
