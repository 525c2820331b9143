import GossipNode.Proofs.Json.Skipping
import GossipNode.Proofs.Wire.Envelopes

/-!
# Envelopes are found in every layout

An envelope is an object with members of two names, among any others, or an array of two items.
However its text is laid out, the envelope is found in it, and nothing behind it is looked at.  A
text that is laid out like an envelope but lacks one of its two parts, or has one more, is refused.

## Main definitions

* `Layout.IsReadable` — layouts of values that can be a payload.
* `Layout.LaysOut w e` — `w` is a layout of the envelope `e`.
* `Layout.IsMisshapen` — layouts of envelopes with a part too few or too many.

## Main results

* `EnvelopeReader.takes_members` — the members of an envelope are taken in any order.
* `EnvelopeReader.refuses_members` — members are refused if one is missing or given twice.
* `decodeOne_layout` — **an envelope is found in every layout**, and what is misshapen is refused.
-/

namespace GossipNode

/-! ### Layouts of envelopes -/

/-- Whether a member has a given name, however it is spelled. -/
def Member.isNamed (name : String) (m : Member Layout) : Bool :=
  decide (m.name.value? = some name)

namespace Layout

/-- Whether a layout is one of a value that can be a payload. -/
def IsReadable (w : Layout) : Prop := (∃ v, w.value? = some v) ∧ w.depth ≤ 126

/-- Layouts of an envelope.  The levels of a payload are those of its layout, which are the levels
of its value if no object in it names a member twice: `Layout.depth_of_value?`. -/
inductive LaysOut : Layout → Envelope → Prop
  /-- An object with one member for the kind, one for the payload, and others of any names and
  values, in any order. -/
  | object {e : Envelope} (inside : Blanks) {members others : List (Member Layout)}
      {tag payload : Member Layout} (order : members.Perm (tag :: payload :: others))
      (tagNamed : tag.isNamed "type" = true) (payloadNamed : payload.isNamed "payload" = true)
      (othersNamed : ∀ m ∈ others, ∃ name, m.name.value? = some name ∧ name ≠ "type" ∧
        name ≠ "payload")
      (tagValue : tag.item.value.value? = some (.scalar (.integer e.tag.toNat)))
      (payloadValue : payload.item.value.value? = some e.payload)
      (depth : payload.item.value.depth ≤ 126) : LaysOut (.object inside members) e
  /-- An array of the two. -/
  | array {e : Envelope} (inside : Blanks) {tag payload : Item Layout}
      (tagValue : tag.value.value? = some (.scalar (.integer e.tag.toNat)))
      (payloadValue : payload.value.value? = some e.payload)
      (depth : payload.value.depth ≤ 126) : LaysOut (.array inside [tag, payload]) e

/-- Layouts of envelopes with a part too few or too many. -/
inductive IsMisshapen : Layout → Prop
  /-- An object in which the kind or the payload is missing, or is given more than once. -/
  | object (inside : Blanks) {members : List (Member Layout)}
      (named : ∀ m ∈ members, ∃ name, m.name.value? = some name)
      (readable : ∀ name ∈ ["type", "payload"], ∀ m, members.find? (·.isNamed name) = some m →
        m.item.value.IsReadable)
      (unfit : ∃ name ∈ ["type", "payload"], members.countP (·.isNamed name) ≠ 1) :
      IsMisshapen (.object inside members)
  /-- An array of fewer or more than two items. -/
  | array (inside : Blanks) {items : List (Item Layout)}
      (readable : ∀ i ∈ items.take 2, i.value.IsReadable) (unfit : items.length ≠ 2) :
      IsMisshapen (.array inside items)

/-- The first byte of a value is neither blank nor the end of an array. -/
theorem exists_first (w : Layout) :
    ∃ b bs, w.text = b :: bs ∧ isBlank b = false ∧ b ≠ 0x5D := by
  cases w with
  | scalar t =>
    obtain ⟨b, bs, r, hb, started, -⟩ := ScalarSkipper.gives_token t
    obtain ⟨blank, -, -, close⟩ := ScalarSkipper.separators_of_start? started
    exact ⟨b, bs, hb, blank, close⟩
  | array inside items => exact ⟨0x5B, _, rfl, rfl, by decide⟩
  | object inside members => exact ⟨0x7B, _, rfl, rfl, by decide⟩

end Layout

namespace EnvelopeReader

/-- Nothing is asked of a reader of a text that is there whole. -/
abbrev Any (_ : EnvelopeReader) : Prop := True

/-- A value that can be a payload is read as one. -/
theorem reaches_payload {w : Layout} {v : Json} (value : w.value? = some v)
    (deep : w.depth ≤ 126) :
    Reaches JsonReader.step JsonReader.Calm payloadStart w.text (.done v) :=
  JsonReader.reaches_text w [] (maxDepth - 1) .value value deep (Or.inl rfl)

/-! ### Kinds -/

/-- What is no number of a kind is no kind. -/
theorem exists_mismatch {s : Scalar} (plain : s.isPlain = true)
    (other : ∀ tag : UInt64, s ≠ .integer tag.toNat) : ∃ mismatch, tagOf s = .error mismatch := by
  cases s with
  | integer n =>
    simp only [Scalar.isPlain, Bool.and_eq_true, decide_eq_true_eq] at plain
    by_cases natural : 0 ≤ n
    · have number : (UInt64.ofNat n.toNat).toNat = n.toNat := by
        rw [UInt64.toNat_ofNat', Nat.mod_eq_of_lt (by omega)]
      exact absurd (by rw [number, Int.toNat_of_nonneg natural]) (other (UInt64.ofNat n.toNat))
    · exact ⟨.wrongValue (.scalar (.integer n)) .unsigned64, by rw [tagOf, if_neg natural]⟩
  | null => exact ⟨.wrongType (.scalar .null) .unsigned64, rfl⟩
  | bool b => exact ⟨.wrongType (.scalar (.bool b)) .unsigned64, rfl⟩
  | float x => exact ⟨.wrongType (.scalar (.float x)) .unsigned64, rfl⟩
  | string s => exact ⟨.wrongType (.scalar (.string s)) .unsigned64, rfl⟩

theorem isKindPlace_array :
    IsKindPlace (.array .first) (fun r => .array (.tag r)) fun tag => .array (.afterTag tag) where
  begins b blank close := by simp [step, stepArray, blank, close]
  goesOn r b := by cases h : r.step b <;> simp only [step, stepArray, h]

section Kind

variable {due : EnvelopeReader} {f : ScalarReader → EnvelopeReader} {g : UInt64 → EnvelopeReader}

/-- The number of a kind is taken in its place, however it is spelled. -/
theorem IsKindPlace.takes_text (place : IsKindPlace due f g) {w : Layout} {tag : UInt64}
    (value : w.value? = some (.scalar (.integer tag.toNat))) :
    ∃ t, Takes step Any due w.text t ∧ StandsFor step t (g tag) := by
  cases w with
  | scalar t =>
    simp only [Layout.value?, Option.map_eq_some_iff] at value
    obtain ⟨s, spelled, same⟩ := value
    cases same
    obtain ⟨b, bs, r, hb, started, hr, gives⟩ := ScalarReader.gives_token spelled
    rw [Layout.text, hb]
    exact place.takes (fun _ _ => trivial) trivial started hr gives
  | array inside items => simp [Layout.value?] at value
  | object inside members => simp [Layout.value?] at value

/-- Any other value is refused there, at the byte behind it if not before. -/
theorem IsKindPlace.refuses_text (place : IsKindPlace due f g) {w : Layout} {v : Json}
    (value : w.value? = some v) (other : ∀ tag : UInt64, v ≠ .scalar (.integer tag.toNat)) :
    ∃ fault, ∀ b, endsNumber b = true → ∀ rest, Refuses step fault due (w.text ++ b :: rest) := by
  cases w with
  | scalar t =>
    simp only [Layout.value?, Option.map_eq_some_iff] at value
    obtain ⟨s, spelled, rfl⟩ := value
    obtain ⟨b, bs, r, hb, started, hr, gives⟩ := ScalarReader.gives_token spelled
    obtain ⟨blank, array, object, close, -⟩ := ScalarReader.separators_of_start? started
    have begun : step due b = .next (f r) := by
      rw [place.begins b blank close]
      simp [startTag, array, object, started]
    obtain ⟨wrong, hwrong⟩ := exists_mismatch (Token.isPlain_of_value? spelled)
      fun tag same => other tag (congrArg Json.scalar same)
    refine ⟨.mismatch wrong, fun c hc rest => ?_⟩
    have refused : Refuses step (.mismatch wrong) (f r) (bs ++ c :: rest) :=
      gives.reaches.refused step f (fun s c u next => by rw [place.goesOn, next])
        (fun s c done => ⟨.after, by rw [place.goesOn, done]; simp only [receiveTag, hwrong]; rfl⟩)
        (fun s c past => ⟨.before, by rw [place.goesOn, past]; simp only [receiveTag, hwrong]; rfl⟩) hc rest
    rw [Layout.text, hb]
    exact .later begun refused
  | array inside items =>
    have refused : step due 0x5B = wrong .sequence .unsigned64 .before := by
      rw [place.begins 0x5B rfl (by decide)]
      rfl
    exact ⟨_, fun c _ rest => .here refused⟩
  | object inside members =>
    have refused : step due 0x7B = wrong .map .unsigned64 .before := by
      rw [place.begins 0x7B rfl (by decide)]
      rfl
    exact ⟨_, fun c _ rest => .here refused⟩

end Kind

/-! ### One member -/

section Member

variable {fields : EnvelopeFields} {stage : ObjectStage} {m : Member Layout}

theorem waits_afterMember (fields : EnvelopeFields) :
    Waits step (.object fields .afterMember) := by
  intro b h
  simp [step, stepObject, afterMember, h]

theorem waits_name (fields : EnvelopeFields) (hstage : stage = .firstName ∨ stage = .nextName) :
    Waits step (.object fields stage) := by
  intro b h
  rcases hstage with rfl | rfl <;> simp [step, stepObject, h]

theorem waits_colon (fields : EnvelopeFields) (field : EnvelopeField) :
    Waits step (.object fields (.colon field)) := by
  intro b h
  simp [step, stepObject, h]

/-- Blanks between the colon and the value change nothing, whatever value is due. -/
theorem waits_value (fields : EnvelopeFields) (field : EnvelopeField) :
    Waits step (.object fields (valueStage field)) := by
  intro b h
  cases field with
  | tag => simp [step, stepObject, valueStage, h]
  | payload =>
    simp [step, stepObject, valueStage, payloadStart, JsonReader.start, JsonReader.step,
      JsonReader.between, h]
  | other =>
    simp [step, stepObject, valueStage, Skipper.start, Skipper.step, Skipper.between, h]

/-- The name of a member is taken with the blanks before it. -/
theorem takes_memberName (hstage : stage = .firstName ∨ stage = .nextName) {name : String}
    (spelled : m.name.value? = some name) {r : EnvelopeReader}
    (received : receiveName fields name = .next r) :
    Takes step Any (.object fields stage) (m.before.bytes ++ m.name.text) r :=
  ((waits_name fields hstage).takes trivial m.before).append
    (takes_quoted hstage (StringReader.takes_content spelled) (fun _ _ => trivial) received trivial)

/-- A value with blanks around it is taken if the value is, where it is due. -/
theorem takes_itemText {i : Item Layout} {due target : EnvelopeReader} (hdue : Waits step due)
    (htarget : Waits step target)
    (h : ∃ t, Takes step Any due i.value.text t ∧ StandsFor step t target) :
    ∃ t, Takes step Any due i.text t ∧ StandsFor step t target := by
  obtain ⟨t, inside, stands⟩ := h
  obtain ⟨u, after, stands⟩ : ∃ u, Takes step Any t i.after.bytes u ∧ StandsFor step u target :=
    htarget.takesBehind trivial stands i.after
  exact ⟨u, ((hdue.takes trivial i.before).append inside).append after, stands⟩

/-- A value with blanks around it is refused if the value is, where it is due. -/
theorem refuses_itemText {i : Item Layout} {due : EnvelopeReader} {fault : Fault}
    (hdue : Waits step due)
    (h : ∀ b, endsNumber b = true → ∀ rest, Refuses step fault due (i.value.text ++ b :: rest)) :
    ∀ b, endsNumber b = true → ∀ rest, Refuses step fault due (i.text ++ b :: rest) := by
  intro b hb rest
  obtain ⟨c, cs, behind, hc⟩ := i.after.exists_first hb rest
  have before : Takes step Any due i.before.bytes due := hdue.takes trivial i.before
  have whole := before.refuses (h c hc cs)
  rw [← behind] at whole
  simpa [Item.text] using whole

/-- All of a member up to its colon is taken. -/
theorem takes_memberHead (hstage : stage = .firstName ∨ stage = .nextName) (field : EnvelopeField)
    {name : String} (spelled : m.name.value? = some name)
    (received : receiveName fields name = .next (.object fields (.colon field))) :
    Takes step Any (.object fields stage)
      (m.before.bytes ++ m.name.text ++ m.behind.bytes ++ [0x3A])
      (.object fields (valueStage field)) := by
  have named := takes_memberName hstage spelled received
  have behind : Takes step Any _ m.behind.bytes _ :=
    (waits_colon fields field).takes trivial m.behind
  have colon : step (.object fields (.colon field)) 0x3A =
      .next (.object fields (valueStage field)) := by
    simp [step, stepObject, isBlank]
  exact (named.append behind).snoc colon trivial

theorem text_eq (m : Member Layout) : m.text =
    m.before.bytes ++ m.name.text ++ m.behind.bytes ++ [0x3A] ++ m.item.text := by
  simp [Member.text]

/-- A member is taken if its value is, where it is due. -/
theorem takes_memberOf (hstage : stage = .firstName ∨ stage = .nextName) (field : EnvelopeField)
    {name : String} (spelled : m.name.value? = some name)
    (received : receiveName fields name = .next (.object fields (.colon field)))
    {fields' : EnvelopeFields}
    (value : ∃ t, Takes step Any (.object fields (valueStage field)) m.item.value.text t ∧
      StandsFor step t (.object fields' .afterMember)) :
    ∃ t, Takes step Any (.object fields stage) m.text t ∧
      StandsFor step t (.object fields' .afterMember) := by
  obtain ⟨t, item, stands⟩ :=
    takes_itemText (waits_value fields field) (waits_afterMember fields') value
  refine ⟨t, ?_, stands⟩
  rw [text_eq]
  exact (takes_memberHead hstage field spelled received).append item

/-- The kind is taken. -/
theorem takes_tagMember (hstage : stage = .firstName ∨ stage = .nextName)
    (spelled : m.name.value? = some "type") (free : fields.tag = none) {tag : UInt64}
    (value : m.item.value.value? = some (.scalar (.integer tag.toNat))) :
    ∃ t, Takes step Any (.object fields stage) m.text t ∧
      StandsFor step t (.object { fields with tag := some tag } .afterMember) :=
  takes_memberOf hstage .tag spelled
    (by simp [receiveName, EnvelopeField.ofName, free])
    ((isKindPlace_object fields).takes_text value)

/-- The payload is taken. -/
theorem takes_payloadMember (hstage : stage = .firstName ∨ stage = .nextName)
    (spelled : m.name.value? = some "payload") (free : fields.payload = none) {v : Json}
    (value : m.item.value.value? = some v) (deep : m.item.value.depth ≤ 126) :
    ∃ t, Takes step Any (.object fields stage) m.text t ∧
      StandsFor step t (.object { fields with payload := some v } .afterMember) := by
  obtain ⟨t, taken, stands⟩ := takes_payloadText fields (reaches_payload value deep)
  exact takes_memberOf hstage .payload spelled
    (by simp [receiveName, EnvelopeField.ofName, free]) ⟨t, taken.mono fun _ _ => trivial, stands⟩

/-- Any other member is passed over, whatever its value is. -/
theorem takes_otherMember (hstage : stage = .firstName ∨ stage = .nextName) {name : String}
    (spelled : m.name.value? = some name) (notTag : name ≠ "type") (notPayload : name ≠ "payload") :
    ∃ t, Takes step Any (.object fields stage) m.text t ∧
      StandsFor step t (.object fields .afterMember) :=
  takes_memberOf hstage .other spelled
    (by simp [receiveName, EnvelopeField.ofName, notTag, notPayload])
    ((Skipper.reaches_text m.item.value [] .value (Or.inl rfl)).inside step
      (fun r => .object fields (.skipped r)) (.object fields .afterMember)
      (fun r b t next => by simp only [step, stepObject, next])
      (fun r b done => by simp only [step, stepObject, done])
      (fun r b past => by simp only [step, stepObject, past]) (fun _ _ => trivial) trivial)

/-- A value that is no kind is refused in its place. -/
theorem refuses_tagMember (hstage : stage = .firstName ∨ stage = .nextName)
    (spelled : m.name.value? = some "type") (free : fields.tag = none) {v : Json}
    (value : m.item.value.value? = some v) (other : ∀ tag : UInt64, v ≠ .scalar (.integer tag.toNat)) :
    ∃ fault, ∀ b, endsNumber b = true → ∀ rest,
      Refuses step fault (.object fields stage) (m.text ++ b :: rest) := by
  obtain ⟨fault, refused⟩ := (isKindPlace_object fields).refuses_text value other
  refine ⟨fault, fun b hb rest => ?_⟩
  rw [text_eq, List.append_assoc]
  exact (takes_memberHead hstage .tag spelled
    (by simp [receiveName, EnvelopeField.ofName, free])).refuses
      (refuses_itemText (waits_value fields .tag) refused b hb rest)

/-- A name that is given a second time is refused, whatever its value is. -/
theorem refuses_again (hstage : stage = .firstName ∨ stage = .nextName) {name : String}
    (spelled : m.name.value? = some name)
    (received : receiveName fields name = .next (.object fields (.again name))) :
    Refuses step (.mismatch (.repeated name)) (.object fields stage) m.text := by
  have named := takes_memberName hstage spelled received
  have waits : Waits step (.object fields (.again name)) := by
    intro b h
    simp [step, stepObject, h]
  have behind : Takes step Any _ m.behind.bytes _ := waits.takes trivial m.behind
  have colon : step (.object fields (.again name)) 0x3A =
      .refuse (.mismatch (.repeated name)) .before := by
    simp [step, stepObject, isBlank, mismatch]
  exact (named.append behind).refuses (.here colon)

end Member

/-! ### All members -/

/-- What is owed to a part of an envelope that has the value `b`: it has been given, and no member
has its name, or it has not, and exactly one member has its name and spells `b`. -/
def Owed {β : Type} (given : Option β) (name : String) (spells : Layout → β → Prop) (b : β)
    (ms : List (Member Layout)) : Prop :=
  match given with
  | none => ∃ m, ms.filter (·.isNamed name) = [m] ∧ spells m.item.value b
  | some b' => b' = b ∧ ms.filter (·.isNamed name) = []

section Owed

variable {β : Type} {given : Option β} {name : String} {spells : Layout → β → Prop} {b : β}
  {m : Member Layout} {ms : List (Member Layout)}

theorem Owed.eq_some (h : Owed given name spells b []) : given = some b := by
  cases given with
  | none =>
    obtain ⟨m, none, -⟩ := h
    cases none
  | some b' => exact congrArg some h.1

theorem Owed.other (h : Owed given name spells b (m :: ms)) (other : m.isNamed name = false) :
    Owed given name spells b ms := by
  unfold Owed at h ⊢
  rwa [List.filter_cons_of_neg (by simp [other])] at h

theorem Owed.named (h : Owed given name spells b (m :: ms)) (named : m.isNamed name = true) :
    given = none ∧ spells m.item.value b ∧ Owed (some b) name spells b ms := by
  unfold Owed at h
  rw [List.filter_cons_of_pos named] at h
  cases given with
  | none =>
    obtain ⟨m', only, spelled⟩ := h
    obtain ⟨rfl, rest⟩ := List.cons.inj only
    exact ⟨rfl, spelled, rfl, rest⟩
  | some b' => cases h.2

end Owed

/-- A layout of a number of a kind. -/
def SpellsKind (w : Layout) (tag : UInt64) : Prop :=
  w.value? = some (.scalar (.integer tag.toNat))

/-- A layout of a payload. -/
def SpellsPayload (w : Layout) (v : Json) : Prop := w.value? = some v ∧ w.depth ≤ 126

theorem isNamed_of_value? {m : Member Layout} {name : String} (h : m.name.value? = some name)
    (other : String) : m.isNamed other = decide (name = other) := by
  simp [Member.isNamed, h]

/-- A member is taken, and as much is owed then to both parts as before. -/
theorem takes_member {fields : EnvelopeFields} {stage : ObjectStage} {m : Member Layout}
    {ms : List (Member Layout)} {e : Envelope} (hstage : stage = .firstName ∨ stage = .nextName)
    {name : String} (spelled : m.name.value? = some name)
    (tag : Owed fields.tag "type" SpellsKind e.tag (m :: ms))
    (payload : Owed fields.payload "payload" SpellsPayload e.payload (m :: ms)) :
    ∃ fields' t, Takes step Any (.object fields stage) m.text t ∧
      StandsFor step t (.object fields' .afterMember) ∧
      Owed fields'.tag "type" SpellsKind e.tag ms ∧
      Owed fields'.payload "payload" SpellsPayload e.payload ms := by
  by_cases isTag : name = "type"
  · subst isTag
    obtain ⟨free, value, tag⟩ := tag.named (by simp [isNamed_of_value? spelled])
    obtain ⟨t, taken, stands⟩ := takes_tagMember hstage spelled free value
    exact ⟨_, t, taken, stands, tag, payload.other (by simp [isNamed_of_value? spelled])⟩
  by_cases isPayload : name = "payload"
  · subst isPayload
    obtain ⟨free, ⟨value, deep⟩, payload⟩ := payload.named (by simp [isNamed_of_value? spelled])
    obtain ⟨t, taken, stands⟩ := takes_payloadMember hstage spelled free value deep
    exact ⟨_, t, taken, stands, tag.other (by simp [isNamed_of_value? spelled]), payload⟩
  · obtain ⟨t, taken, stands⟩ := takes_otherMember hstage spelled isTag isPayload
    exact ⟨fields, t, taken, stands, tag.other (by simp [isNamed_of_value? spelled, isTag]),
      payload.other (by simp [isNamed_of_value? spelled, isPayload])⟩

/-- Behind a member a comma leads to the next name. -/
theorem step_comma {fields : EnvelopeFields} {t : EnvelopeReader}
    (stands : StandsFor step t (.object fields .afterMember)) :
    step t 0x2C = .next (.object fields .nextName) :=
  (stands 0x2C rfl).trans rfl

/-- **The members of an envelope are taken in any order**, with others between them. -/
theorem takes_members {e : Envelope} (ms : List (Member Layout)) :
    ∀ (m : Member Layout) (fields : EnvelopeFields) (stage : ObjectStage),
      stage = .firstName ∨ stage = .nextName →
      (∀ x ∈ m :: ms, ∃ name, x.name.value? = some name) →
      Owed fields.tag "type" SpellsKind e.tag (m :: ms) →
      Owed fields.payload "payload" SpellsPayload e.payload (m :: ms) →
        ∃ t, Takes step Any (.object fields stage) (joined ((m :: ms).map Member.text)) t ∧
          StandsFor step t (.object ⟨some e.tag, some e.payload⟩ .afterMember) := by
  induction ms with
  | nil =>
    intro m fields stage hstage named tag payload
    obtain ⟨name, spelled⟩ := named m List.mem_cons_self
    obtain ⟨⟨tag', payload'⟩, t, taken, stands, tag, payload⟩ :=
      takes_member hstage spelled tag payload
    obtain rfl := tag.eq_some
    obtain rfl := payload.eq_some
    exact ⟨t, by simpa [joined] using taken, stands⟩
  | cons q ms ih =>
    intro m fields stage hstage named tag payload
    obtain ⟨name, spelled⟩ := named m List.mem_cons_self
    obtain ⟨fields', t, taken, stands, tag, payload⟩ := takes_member hstage spelled tag payload
    obtain ⟨u, others, stands'⟩ := ih q fields' .nextName (Or.inr rfl)
      (fun x there => named x (List.mem_cons_of_mem m there)) tag payload
    refine ⟨u, ?_, stands'⟩
    rw [List.map_cons, List.map_cons, joined_cons_cons, ← List.map_cons]
    exact taken.append (.cons (step_comma stands) trivial others)

/-- How often a part of an envelope is given, by what has been read and by members to come. -/
def timesGiven {β : Type} (given : Option β) (name : String) (ms : List (Member Layout)) : Nat :=
  given.toList.length + ms.countP (·.isNamed name)

/-- Members that do not complete an envelope: one of its parts is given never or more than once.
What is given first is readable. -/
structure Unfit (fields : EnvelopeFields) (ms : List (Member Layout)) : Prop where
  tagReadable : fields.tag = none → ∀ m, ms.find? (·.isNamed "type") = some m →
    m.item.value.IsReadable
  payloadReadable : fields.payload = none → ∀ m, ms.find? (·.isNamed "payload") = some m →
    m.item.value.IsReadable
  unfit : timesGiven fields.tag "type" ms ≠ 1 ∨ timesGiven fields.payload "payload" ms ≠ 1

/-- A member is refused, or taken and no envelope is completed by the others either. -/
theorem refuses_or_takes_member {fields : EnvelopeFields} {stage : ObjectStage} {m : Member Layout}
    {ms : List (Member Layout)} (hstage : stage = .firstName ∨ stage = .nextName)
    {name : String} (spelled : m.name.value? = some name) (h : Unfit fields (m :: ms)) :
    (∃ fault, ∀ b, endsNumber b = true → ∀ rest,
      Refuses step fault (.object fields stage) (m.text ++ b :: rest)) ∨
    ∃ fields' t, Takes step Any (.object fields stage) m.text t ∧
      StandsFor step t (.object fields' .afterMember) ∧ Unfit fields' ms := by
  obtain ⟨tagReadable, payloadReadable, unfit⟩ := h
  have isNamed := isNamed_of_value? spelled
  by_cases isTag : name = "type"
  · subst isTag
    simp only [List.find?_cons, isNamed, timesGiven, List.countP_cons] at *
    cases given : fields.tag with
    | some tag =>
      -- refused at the colon already, so its value is never looked at
      exact Or.inl ⟨_, fun b _ rest => (refuses_again hstage spelled
        (by simp [receiveName, EnvelopeField.ofName, given])).append _⟩
    | none =>
      obtain ⟨⟨v, value⟩, -⟩ := tagReadable given m (by simp)
      by_cases kind : ∃ tag : UInt64, v = .scalar (.integer tag.toNat)
      · obtain ⟨tag, rfl⟩ := kind
        obtain ⟨t, taken, stands⟩ := takes_tagMember hstage spelled given value
        refine Or.inr ⟨_, t, taken, stands, by simp, by simpa using payloadReadable, ?_⟩
        simpa [timesGiven, given, Nat.add_comm] using unfit
      · exact Or.inl (refuses_tagMember hstage spelled given value fun tag same => kind ⟨tag, same⟩)
  by_cases isPayload : name = "payload"
  · subst isPayload
    simp only [List.find?_cons, isNamed, timesGiven, List.countP_cons] at *
    cases given : fields.payload with
    | some payload =>
      exact Or.inl ⟨_, fun b _ rest => (refuses_again hstage spelled
        (by simp [receiveName, EnvelopeField.ofName, given])).append _⟩
    | none =>
      obtain ⟨⟨v, value⟩, deep⟩ := payloadReadable given m (by simp)
      obtain ⟨t, taken, stands⟩ := takes_payloadMember hstage spelled given value deep
      refine Or.inr ⟨_, t, taken, stands, by simpa using tagReadable, by simp, ?_⟩
      simpa [timesGiven, given, Nat.add_comm] using unfit
  · obtain ⟨t, taken, stands⟩ := takes_otherMember hstage spelled isTag isPayload
    simp only [List.find?_cons, isNamed, timesGiven, List.countP_cons, isTag, isPayload] at *
    exact Or.inr ⟨fields, t, taken, stands, by simpa using tagReadable, by simpa using payloadReadable,
      by simpa [timesGiven] using unfit⟩

/-- Without both of its parts an envelope is refused where it ends. -/
theorem exists_missing {fields : EnvelopeFields} (h : Unfit fields []) :
    ∃ fault, closeObject fields = .refuse fault .after := by
  obtain ⟨tag, payload⟩ := fields
  have unfit := h.unfit
  cases tag with
  | none => exact ⟨_, rfl⟩
  | some tag =>
    cases payload with
    | none => exact ⟨_, rfl⟩
    | some payload => simp [timesGiven] at unfit

/-- **Members are refused if one is missing or given twice**, at the closing brace if not before. -/
theorem refuses_members (ms : List (Member Layout)) :
    ∀ (m : Member Layout) (fields : EnvelopeFields) (stage : ObjectStage),
      stage = .firstName ∨ stage = .nextName →
      (∀ x ∈ m :: ms, ∃ name, x.name.value? = some name) → Unfit fields (m :: ms) →
        ∃ fault, ∀ rest, Refuses step fault (.object fields stage)
          (joined ((m :: ms).map Member.text) ++ 0x7D :: rest) := by
  induction ms with
  | nil =>
    intro m fields stage hstage named unfit
    obtain ⟨name, spelled⟩ := named m List.mem_cons_self
    have single : joined ([m].map Member.text) = m.text := by simp [joined]
    rw [single]
    rcases refuses_or_takes_member hstage spelled unfit with ⟨fault, refused⟩ |
      ⟨fields', t, taken, stands, unfit⟩
    · exact ⟨fault, fun rest => refused 0x7D rfl rest⟩
    · obtain ⟨fault, missing⟩ := exists_missing unfit
      exact ⟨fault, fun rest => taken.refuses (.here ((stands 0x7D rfl).trans missing))⟩
  | cons q ms ih =>
    intro m fields stage hstage named unfit
    obtain ⟨name, spelled⟩ := named m List.mem_cons_self
    rw [List.map_cons, List.map_cons, joined_cons_cons, ← List.map_cons]
    rcases refuses_or_takes_member hstage spelled unfit with ⟨fault, refused⟩ |
      ⟨fields', t, taken, stands, unfit⟩
    · refine ⟨fault, fun rest => ?_⟩
      rw [List.append_assoc]
      exact refused 0x2C rfl _
    · obtain ⟨fault, refused⟩ := ih q fields' .nextName (Or.inr rfl)
        (fun x there => named x (List.mem_cons_of_mem m there)) unfit
      refine ⟨fault, fun rest => ?_⟩
      rw [List.append_assoc]
      exact taken.refuses (.later (step_comma stands) (refused rest))

/-! ### Objects and arrays -/

theorem waits_start : Waits step .start := by
  intro b h
  simp [step, h]

theorem waits_first : Waits step (.array .first) := by
  intro b h
  simp [step, stepArray, h]

/-- What stands before the first name is taken. -/
theorem takes_brace (lead inside : Blanks) :
    Takes step Any .start (lead.bytes ++ 0x7B :: inside.bytes)
      (.object ⟨none, none⟩ .firstName) := by
  have opened : step .start 0x7B = .next (.object ⟨none, none⟩ .firstName) := by
    simp [step, isBlank, startEnvelope]
  exact (waits_start.takes trivial lead).append
    (.cons opened trivial ((waits_name _ (Or.inl rfl)).takes trivial inside))

/-- What stands before the first item is taken. -/
theorem takes_bracket (lead inside : Blanks) :
    Takes step Any .start (lead.bytes ++ 0x5B :: inside.bytes) (.array .first) := by
  have opened : step .start 0x5B = .next (.array .first) := by
    simp [step, isBlank, startEnvelope]
  exact (waits_start.takes trivial lead).append
    (.cons opened trivial (waits_first.takes trivial inside))

theorem waits_afterTag (tag : UInt64) : Waits step (.array (.afterTag tag)) := by
  intro b h
  simp [step, stepArray, afterTag, h]

theorem waits_beforePayload (tag : UInt64) : Waits step (.array (.beforePayload tag)) := by
  intro b h
  simp [step, stepArray, h]

theorem waits_afterPayload (e : Envelope) : Waits step (.array (.afterPayload e)) := by
  intro b h
  simp [step, stepArray, afterPayload, h]

/-- The kind is taken as the first item. -/
theorem takes_tagItem {i : Item Layout} {tag : UInt64} (h : SpellsKind i.value tag) :
    ∃ t, Takes step Any (.array .first) i.text t ∧ StandsFor step t (.array (.afterTag tag)) :=
  takes_itemText waits_first (waits_afterTag tag) (isKindPlace_array.takes_text h)

/-- The payload is taken as the second item. -/
theorem takes_payloadItem (tag : UInt64) {i : Item Layout} {v : Json} (h : SpellsPayload i.value v) :
    ∃ t, Takes step Any (.array (.beforePayload tag)) i.text t ∧
      StandsFor step t (.array (.afterPayload ⟨tag, v⟩)) := by
  refine takes_itemText (waits_beforePayload tag) (waits_afterPayload ⟨tag, v⟩) ?_
  obtain ⟨t, taken, stands⟩ := (reaches_payload h.1 h.2).inside step
    (fun r => .array (.payload tag r)) (.array (.afterPayload ⟨tag, v⟩))
    (fun r b t next => by simp only [step, stepArray, stepPayload, next])
    (fun r b done => by simp only [step, stepArray, stepPayload, done])
    (fun r b past => by simp only [step, stepArray, stepPayload, past]) (fun _ _ => trivial)
    (show Any _ from trivial)
  -- the reader of the payload is not there before its first byte
  obtain ⟨b, bs, text, blank, close⟩ := i.value.exists_first
  have same : step (.array (.beforePayload tag)) b = step (.array (.payload tag payloadStart)) b := by
    simp [step, stepArray, blank, close]
  rw [text] at taken ⊢
  cases taken with
  | cons first _ others => exact ⟨t, .cons (same.trans first) trivial others, stands⟩

/-- A third item is refused, whatever it is, at the first byte of its value. -/
theorem refuses_surplus (i : Item Layout) :
    Refuses step (.syntactic .trailingCharacters) (.array .surplus) i.text := by
  obtain ⟨b, bs, text, blank, close⟩ := i.value.exists_first
  have waits : Waits step (.array .surplus) := by
    intro b h
    simp [step, stepArray, h]
  have before : Takes step Any (.array .surplus) i.before.bytes _ := waits.takes trivial i.before
  have refused : step (.array .surplus) b = .refuse (.syntactic .trailingCharacters) .after := by
    simp [step, stepArray, blank, close, Step.refuseAt]
  rw [Item.text, text]
  exact (before.refuses (.here refused)).append _

/-- An array is refused unless it has two items. -/
theorem refuses_items {items : List (Item Layout)}
    (readable : ∀ i ∈ items.take 2, i.value.IsReadable) (unfit : items.length ≠ 2) :
    ∃ fault, ∀ rest, Refuses step fault (.array .first)
      (joined (items.map Item.text) ++ 0x5D :: rest) := by
  cases items with
  | nil => exact ⟨_, fun rest => .here rfl⟩
  | cons i items =>
  obtain ⟨⟨v, value⟩, -⟩ := readable i (by simp)
  by_cases kind : ∃ tag : UInt64, v = .scalar (.integer tag.toNat)
  · obtain ⟨tag, rfl⟩ := kind
    obtain ⟨t, taken, stands⟩ := takes_tagItem value
    match items, unfit with
    | [], _ =>
      refine ⟨.mismatch (.wrongLength 1 pair), fun rest => ?_⟩
      have single : joined ([i].map Item.text) = i.text := by simp [joined]
      rw [single]
      exact taken.refuses (.here ((stands 0x5D rfl).trans rfl))
    | [j], unfit => exact absurd rfl unfit
    | j :: k :: more, _ =>
      -- both parts are there, and the comma behind them leads to a third item
      obtain ⟨⟨w, value'⟩, deep⟩ := readable j (by simp)
      obtain ⟨u, taken', stands'⟩ := takes_payloadItem tag ⟨value', deep⟩
      refine ⟨.syntactic .trailingCharacters, fun rest => ?_⟩
      rw [List.map_cons, List.map_cons, List.map_cons, joined_cons_cons, joined_cons_cons,
        List.append_assoc, List.cons_append, List.append_assoc]
      refine taken.refuses (.later ((stands 0x2C rfl).trans rfl) (taken'.refuses
        (.later ((stands' 0x2C rfl).trans rfl) ?_)))
      exact ((refuses_surplus k).append _).append _
  · -- the first item is no kind, so it does not matter how many there are
    obtain ⟨fault, refused⟩ :=
      isKindPlace_array.refuses_text value fun tag same => kind ⟨tag, same⟩
    refine ⟨fault, fun rest => ?_⟩
    have behind := refuses_itemText waits_first refused
    cases items with
    | nil => simpa [joined] using behind 0x5D rfl rest
    | cons j more =>
      rw [List.map_cons, List.map_cons, joined_cons_cons, List.append_assoc]
      exact behind 0x2C rfl _

end EnvelopeReader

/-! ### Whole envelopes -/

namespace Layout

open EnvelopeReader

theorem LaysOut.takes_object {e : Envelope} {members others : List (Member Layout)}
    {tag payload : Member Layout} (order : members.Perm (tag :: payload :: others))
    (tagNamed : tag.isNamed "type" = true) (payloadNamed : payload.isNamed "payload" = true)
    (othersNamed : ∀ m ∈ others, ∃ name, m.name.value? = some name ∧ name ≠ "type" ∧
      name ≠ "payload")
    (tagValue : SpellsKind tag.item.value e.tag)
    (payloadValue : SpellsPayload payload.item.value e.payload) :
    ∃ t, Takes step Any (.object ⟨none, none⟩ .firstName) (joined (members.map Member.text)) t ∧
      t.step 0x7D = .done e := by
  have tagName : tag.name.value? = some "type" := of_decide_eq_true tagNamed
  have payloadName : payload.name.value? = some "payload" := of_decide_eq_true payloadNamed
  have named : ∀ m ∈ members, ∃ name, m.name.value? = some name := by
    intro m there
    rcases List.mem_cons.1 (order.mem_iff.1 there) with rfl | there
    · exact ⟨_, tagName⟩
    rcases List.mem_cons.1 there with rfl | there
    · exact ⟨_, payloadName⟩
    · obtain ⟨name, spelled, -⟩ := othersNamed m there
      exact ⟨name, spelled⟩
  -- among all members one is named after each part, in whatever order they come
  have noTag : others.filter (·.isNamed "type") = [] := by
    rw [List.filter_eq_nil_iff]
    intro m there
    obtain ⟨name, spelled, notTag, -⟩ := othersNamed m there
    simp [isNamed_of_value? spelled, notTag]
  have noPayload : others.filter (·.isNamed "payload") = [] := by
    rw [List.filter_eq_nil_iff]
    intro m there
    obtain ⟨name, spelled, -, notPayload⟩ := othersNamed m there
    simp [isNamed_of_value? spelled, notPayload]
  have oneTag : members.filter (·.isNamed "type") = [tag] := by
    have same := order.filter (·.isNamed "type")
    simpa [isNamed_of_value? tagName, isNamed_of_value? payloadName, noTag] using same
  have onePayload : members.filter (·.isNamed "payload") = [payload] := by
    have same := order.filter (·.isNamed "payload")
    simpa [isNamed_of_value? tagName, isNamed_of_value? payloadName, noPayload] using same
  cases members with
  | nil => cases oneTag
  | cons m ms =>
    obtain ⟨t, taken, stands⟩ := takes_members ms m ⟨none, none⟩ .firstName (Or.inl rfl) named
      ⟨tag, oneTag, tagValue⟩ ⟨payload, onePayload, payloadValue⟩
    exact ⟨t, taken, (stands 0x7D rfl).trans rfl⟩

/-- The text of a layout of an envelope is taken up to its last byte, and that one completes it. -/
theorem LaysOut.takes {w : Layout} {e : Envelope} (h : w.LaysOut e) (lead : Blanks) :
    ∃ body b t, lead.bytes ++ w.text = body ++ [b] ∧ Takes step Any .start body t ∧
      t.step b = .done e := by
  cases h with
  | @object _ inside members _ _ _ order tagNamed payloadNamed othersNamed tagValue payloadValue
      depth =>
    obtain ⟨t, taken, last⟩ := takes_object order tagNamed payloadNamed othersNamed tagValue
      ⟨payloadValue, depth⟩
    refine ⟨_, 0x7D, t, ?_, (takes_brace lead inside).append taken, last⟩
    simp [text, memberTexts_eq_map]
  | @array _ inside _ _ tagValue payloadValue depth =>
    obtain ⟨t, taken, stands⟩ := takes_tagItem tagValue
    obtain ⟨u, taken', stands'⟩ := takes_payloadItem e.tag ⟨payloadValue, depth⟩
    have comma : step t 0x2C = .next (.array (.beforePayload e.tag)) := (stands 0x2C rfl).trans rfl
    refine ⟨_, 0x5D, u, ?_, (takes_bracket lead inside).append
      (taken.append (.cons comma trivial taken')), (stands' 0x5D rfl).trans rfl⟩
    simp [text, itemTexts_eq_map, joined]

/-- One of the bytes of a misshapen layout is refused, whatever stands behind it. -/
theorem IsMisshapen.refuses {w : Layout} (h : w.IsMisshapen) (lead : Blanks) (rest : Bytes) :
    ∃ fault, Refuses step fault .start (lead.bytes ++ w.text ++ rest) := by
  cases h with
  | @object inside members named readable unfit =>
    have shape : lead.bytes ++ (Layout.object inside members).text ++ rest =
        (lead.bytes ++ 0x7B :: inside.bytes) ++
          (joined (members.map Member.text) ++ 0x7D :: rest) := by
      simp [text, memberTexts_eq_map]
    rw [shape]
    cases members with
    | nil => exact ⟨_, (takes_brace lead inside).refuses (.here rfl)⟩
    | cons m ms =>
      have notBoth : Unfit ⟨none, none⟩ (m :: ms) := by
        refine ⟨fun _ => readable _ (by simp), fun _ => readable _ (by simp), ?_⟩
        simpa [timesGiven] using unfit
      obtain ⟨fault, refused⟩ :=
        refuses_members ms m ⟨none, none⟩ .firstName (Or.inl rfl) named notBoth
      exact ⟨fault, (takes_brace lead inside).refuses (refused rest)⟩
  | @array inside items readable unfit =>
    have shape : lead.bytes ++ (Layout.array inside items).text ++ rest =
        (lead.bytes ++ 0x5B :: inside.bytes) ++ (joined (items.map Item.text) ++ 0x5D :: rest) := by
      simp [text, itemTexts_eq_map]
    obtain ⟨fault, refused⟩ := refuses_items readable unfit
    rw [shape]
    exact ⟨fault, (takes_bracket lead inside).refuses (refused rest)⟩

end Layout

/-- **An envelope is found in every layout of it**, with any blanks before it and anything behind
it, and exactly its text is used up.  What is laid out like an envelope but has a part too few or
too many is malformed, and nothing is taken off the buffer. -/
theorem decodeOne_layout (lead : Blanks) (w : Layout) (rest : Bytes) :
    (∀ e, w.LaysOut e → decodeOne (lead.bytes ++ w.text ++ rest) =
      .ok (some (e, lead.bytes.length + w.text.length))) ∧
    (w.IsMisshapen → ∃ fault position,
      decodeOne (lead.bytes ++ w.text ++ rest) = .error (.malformed fault position) ∧
      takeEnvelope (lead.bytes ++ w.text ++ rest) =
        (.error (.malformed fault position), lead.bytes ++ w.text ++ rest)) := by
  refine ⟨fun e laysOut => ?_, fun misshapen => ?_⟩
  · obtain ⟨body, b, t, text, taken, last⟩ := laysOut.takes lead
    rw [← List.length_append, text, List.append_assoc, List.length_append]
    exact decodeOne_of_takes taken last rest
  · obtain ⟨fault, refused⟩ := misshapen.refuses lead rest
    obtain ⟨position, malformed⟩ := decodeOne_of_refuses refused
    refine ⟨fault, position, malformed, ?_⟩
    rw [takeEnvelope, malformed]

/-- An object whose kind comes last and has an escape in its name, with half a surrogate pair among
what is passed over, and an object with two kinds. -/
theorem decodeOne_layout_escaped :
    let wide : Blanks := ⟨[0x20, 0x0A], List.forall_mem_cons.2 ⟨rfl, List.forall_mem_cons.2
      ⟨rfl, List.forall_mem_nil _⟩⟩⟩
    let half : Spelling := ⟨[.unit (ascii ['d', '8', '0', '0']) 0xD800 rfl]⟩
    let tag : Member Layout :=
      ⟨wide, ⟨.unit (ascii ['0', '0', '7', '4']) 0x74 rfl :: (Spelling.ofString "ype").glyphs⟩, wide,
        ⟨wide, .scalar (.number ⟨false, 7, none, none⟩), wide⟩⟩
    let payload : Member Layout := ⟨.none, .ofString "payload", .none,
      ⟨wide, .array wide [⟨.none, .scalar .null, wide⟩], .none⟩⟩
    let other : Member Layout :=
      ⟨.none, .ofString "x", .none, ⟨.none, .scalar (.string half), .none⟩⟩
    decodeOne (wide.bytes ++ (Layout.object .none [payload, other, tag]).text ++ [0x7B]) =
        .ok (some (⟨7, .array [.scalar .null]⟩,
          2 + (Layout.object .none [payload, other, tag]).text.length)) ∧
      ∃ fault position,
        decodeOne (wide.bytes ++ (Layout.object wide [tag, other, tag]).text ++ []) =
          .error (.malformed fault position) ∧
        takeEnvelope (wide.bytes ++ (Layout.object wide [tag, other, tag]).text ++ []) =
          (.error (.malformed fault position),
            wide.bytes ++ (Layout.object wide [tag, other, tag]).text ++ []) := by
  intro wide half tag payload other
  have order : ([payload, other] ++ [tag]).Perm ([tag] ++ [payload, other]) :=
    List.perm_append_comm
  have laysOut :
      (Layout.object .none [payload, other, tag]).LaysOut ⟨7, .array [.scalar .null]⟩ := by
    refine .object .none order (by decide) (by decide) ?_ rfl rfl (by decide)
    intro m there
    rw [List.mem_singleton.1 there]
    exact ⟨"x", rfl, by decide, by decide⟩
  have misshapen : (Layout.object wide [tag, other, tag]).IsMisshapen := by
    refine .object wide ?_ ?_ ⟨"type", by decide, by decide⟩
    · intro m there
      simp only [List.mem_cons, List.not_mem_nil, or_false] at there
      rcases there with rfl | rfl | rfl
      · exact ⟨"type", rfl⟩
      · exact ⟨"x", rfl⟩
      · exact ⟨"type", rfl⟩
    · intro name there m found
      simp only [List.mem_cons, List.not_mem_nil, or_false] at there
      rcases there with rfl | rfl
      · cases found
        exact ⟨⟨.scalar (.integer 7), rfl⟩, by decide⟩
      · cases found
  exact ⟨(decodeOne_layout wide _ [0x7B]).1 _ laysOut, (decodeOne_layout wide _ []).2 misshapen⟩

end GossipNode
