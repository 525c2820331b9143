import GossipNode.Json.Reader
import GossipNode.Proofs.Json.Tokens

/-!
# Anything that is laid out is passed over

A value that is not asked for is passed over, whatever it is: numbers of all kinds, strings with
halves of surrogate pairs, any number of levels.  What is passed over is all of its text and no
byte more, just as if it had been read.

## Main results

* `Skipper.reaches_text` — **the text of any layout is passed over.**
-/

namespace GossipNode

namespace Skipper

/-- A skipper that is cut short is nobody's concern here. -/
abbrev Calm (_ : Skipper) : Prop := True

/-- Between tokens blanks change nothing. -/
theorem waits {r : Skipper} (scalar : ∀ s, r.stage ≠ .scalar s) (name : ∀ s, r.stage ≠ .name s) :
    Waits step r := by
  intro b h
  obtain ⟨frames, stage⟩ := r
  cases stage with
  | scalar s => exact absurd rfl (scalar s)
  | name s => exact absurd rfl (name s)
  | _ => simp [step, between, h]

/-- A skipper at which a value may begin. -/
def ExpectsValue (r : Skipper) : Prop :=
  r.stage = .value ∨ r.stage = .first ∧ ∃ frames, r.frames = .square :: frames

/-- Where a value is due, a byte that is neither blank nor the end of an array begins one. -/
theorem step_of_expectsValue {r : Skipper} {b : UInt8} (h : r.ExpectsValue)
    (blank : isBlank b = false) (close : b ≠ 0x5D) : r.step b = r.startValue b := by
  obtain ⟨frames, stage⟩ := r
  rcases h with rfl | ⟨rfl, frames, rfl⟩
  · simp [step, between, blank]
  · simp [step, between, blank, startFirst, close]

/-- What a scalar takes is taken by the value it is. -/
theorem reaches_scalar {frames : List Bracket} {s : ScalarSkipper} {bs : Bytes}
    (h : Gives ScalarSkipper.step (fun _ => True) s bs ()) :
    Reaches step Calm ⟨frames, .scalar s⟩ bs (receive frames) := by
  have hnext : ∀ s b t, ScalarSkipper.step s b = .next t →
      step ⟨frames, .scalar s⟩ b = .next ⟨frames, .scalar t⟩ := by
    intro s b t hst
    simp [step, hst]
  cases h with
  | done taken last =>
    refine .done (taken.map (fun s => (⟨frames, .scalar s⟩ : Skipper)) hnext fun _ _ => trivial) ?_
    simp only [step, last]
  | past taken behind =>
    refine .past (taken.map (fun s => (⟨frames, .scalar s⟩ : Skipper)) hnext fun _ _ => trivial)
      fun b hb => ?_
    simp only [step, behind b hb]
    cases frames <;> rfl

/-- A value with blanks around it is passed over in a container. -/
theorem takes_itemText {frame : Bracket} {frames : List Bracket} {stage : SkipStage}
    (expected : ExpectsValue ⟨frame :: frames, stage⟩) (before after : Blanks) {text : Bytes}
    (h : Reaches step Calm ⟨frame :: frames, stage⟩ text (receive (frame :: frames))) :
    ∃ t, Takes step Calm ⟨frame :: frames, stage⟩ (before.bytes ++ text ++ after.bytes) t ∧
      StandsFor step t ⟨frame :: frames, .afterItem⟩ := by
  have ahead : Takes step Calm ⟨frame :: frames, stage⟩ before.bytes _ :=
    (waits (by rcases expected with rfl | ⟨rfl, -⟩ <;> simp)
      (by rcases expected with rfl | ⟨rfl, -⟩ <;> simp)).takes trivial before
  obtain ⟨t, inside, stands⟩ := h.standsFor trivial
  obtain ⟨u, behind, stands⟩ : ∃ u, Takes step Calm t after.bytes u ∧ StandsFor step u _ :=
    (waits (by simp) (by simp)).takesBehind trivial stands after
  exact ⟨u, (ahead.append inside).append behind, stands⟩

/-- A name is passed over where one is due, with blanks around it and its colon. -/
theorem takes_name {frames : List Bracket} {stage : SkipStage}
    (hstage : stage = .first ∨ stage = .nextName) (before behind : Blanks) (spelling : Spelling) :
    Takes step Calm ⟨.curly :: frames, stage⟩
      (before.bytes ++ spelling.text ++ behind.bytes ++ [0x3A]) ⟨.curly :: frames, .value⟩ := by
  have ahead : Takes step Calm ⟨.curly :: frames, stage⟩ before.bytes _ :=
    (waits (by rcases hstage with rfl | rfl <;> simp)
      (by rcases hstage with rfl | rfl <;> simp)).takes trivial before
  have quoted : step ⟨.curly :: frames, stage⟩ 0x22 = .next ⟨.curly :: frames, .name .plain⟩ := by
    rcases hstage with rfl | rfl <;> rfl
  have content : Takes step Calm ⟨.curly :: frames, .name .plain⟩ spelling.content
      ⟨.curly :: frames, .name .plain⟩ := by
    refine (StringSkipper.takes_content spelling).map
      (fun s => (⟨.curly :: frames, .name s⟩ : Skipper)) (fun s b t hst => ?_) fun _ _ => trivial
    simp [step, hst]
  have named : Takes step Calm ⟨.curly :: frames, stage⟩ spelling.text
      ⟨.curly :: frames, .colon⟩ :=
    .cons quoted trivial (content.snoc rfl trivial)
  have after : Takes step Calm ⟨.curly :: frames, .colon⟩ behind.bytes _ :=
    (waits (by simp) (by simp)).takes trivial behind
  exact ((ahead.append named).append after).snoc rfl trivial

/-- Parts with commas between them are taken if each of them is, where the first one is due and
where another one is, and leads to a skipper that waits for a separator. -/
theorem takes_joined {first next waiting : Skipper} (out : Step Skipper Unit) (bracket : UInt8)
    {parts : List Bytes}
    (atFirst : ∀ p ∈ parts, ∃ t, Takes step Calm first p t ∧ StandsFor step t waiting)
    (atNext : ∀ p ∈ parts, ∃ t, Takes step Calm next p t ∧ StandsFor step t waiting)
    (comma : step waiting 0x2C = .next next) (ends : endsNumber bracket = true)
    (empty : step first bracket = out) (closes : step waiting bracket = out) :
    ∃ t, Takes step Calm first (joined parts) t ∧ step t bracket = out := by
  -- by induction on the parts behind the first, each of which a comma leads to
  have further : ∀ ps : List Bytes, (∀ p ∈ ps, p ∈ parts) → ∀ t, StandsFor step t waiting →
      ∃ u, Takes step Calm t (ps.flatMap fun p => 0x2C :: p) u ∧ StandsFor step u waiting := by
    intro ps
    induction ps with
    | nil => exact fun _ t stands => ⟨t, .nil t, stands⟩
    | cons p ps ih =>
      intro among t stands
      obtain ⟨t', taken, stands'⟩ := atNext p (among p List.mem_cons_self)
      obtain ⟨u, others, stands''⟩ :=
        ih (fun q there => among q (List.mem_cons_of_mem p there)) t' stands'
      exact ⟨u, .cons ((stands 0x2C rfl).trans comma) trivial (taken.append others), stands''⟩
  cases parts with
  | nil => exact ⟨first, .nil first, empty⟩
  | cons p ps =>
    obtain ⟨t, taken, stands⟩ := atFirst p List.mem_cons_self
    obtain ⟨u, others, stands⟩ := further ps (fun q there => List.mem_cons_of_mem p there) t stands
    exact ⟨u, taken.append others, (stands bracket ends).trans closes⟩

mutual

/-- **The text of any layout is passed over**, whatever containers are open. -/
theorem reaches_text : ∀ (w : Layout) (frames : List Bracket) (stage : SkipStage),
    ExpectsValue ⟨frames, stage⟩ → Reaches step Calm ⟨frames, stage⟩ w.text (receive frames)
  | .scalar t, frames, stage, expected => by
    obtain ⟨b, bs, r, hb, hstart, hgives⟩ := ScalarSkipper.gives_token t
    obtain ⟨blank, array, object, close⟩ := ScalarSkipper.separators_of_start? hstart
    have started : step ⟨frames, stage⟩ b = .next ⟨frames, .scalar r⟩ := by
      rw [step_of_expectsValue expected blank close]
      simp [startValue, array, object, hstart]
    rw [Layout.text, hb]
    exact Reaches.prepend (.single started trivial) (reaches_scalar hgives)
  | .array inside items, frames, stage, expected => by
    have opened : step ⟨frames, stage⟩ 0x5B = .next ⟨.square :: frames, .first⟩ := by
      rw [step_of_expectsValue expected rfl (by decide)]
      rfl
    have begun : Takes step Calm _ (0x5B :: inside.bytes) _ :=
      .cons opened trivial ((waits (by simp) (by simp)).takes trivial inside)
    obtain ⟨t, content, closes⟩ := takes_joined (receive frames) 0x5D
      (fun p there => takes_itemOf items frames (Or.inr ⟨rfl, frames, rfl⟩) there)
      (fun p there => takes_itemOf items frames (Or.inl rfl) there) rfl rfl rfl rfl
    rw [Layout.text, ← List.cons_append, ← List.cons_append]
    exact .done (begun.append content) closes
  | .object inside members, frames, stage, expected => by
    have opened : step ⟨frames, stage⟩ 0x7B = .next ⟨.curly :: frames, .first⟩ := by
      rw [step_of_expectsValue expected rfl (by decide)]
      rfl
    have begun : Takes step Calm _ (0x7B :: inside.bytes) _ :=
      .cons opened trivial ((waits (by simp) (by simp)).takes trivial inside)
    obtain ⟨t, content, closes⟩ := takes_joined (receive frames) 0x7D
      (fun p there => takes_memberOf members frames (Or.inl rfl) there)
      (fun p there => takes_memberOf members frames (Or.inr rfl) there) rfl rfl rfl rfl
    rw [Layout.text, ← List.cons_append, ← List.cons_append]
    exact .done (begun.append content) closes

/-- Each item of an array is passed over. -/
theorem takes_itemOf : ∀ (items : List (Item Layout)) (frames : List Bracket) {stage : SkipStage}
    {p : Bytes}, ExpectsValue ⟨.square :: frames, stage⟩ → p ∈ Layout.itemTexts items →
      ∃ t, Takes step Calm ⟨.square :: frames, stage⟩ p t ∧
        StandsFor step t ⟨.square :: frames, .afterItem⟩
  | [], _, _, _, _, there => by cases there
  | ⟨before, w, after⟩ :: items, frames, stage, p, expected, there => by
    rw [Layout.itemTexts] at there
    rcases List.mem_cons.1 there with rfl | there
    · exact takes_itemText expected before after
        (reaches_text w (.square :: frames) stage expected)
    · exact takes_itemOf items frames expected there

/-- Each member of an object is passed over. -/
theorem takes_memberOf : ∀ (members : List (Member Layout)) (frames : List Bracket)
    {stage : SkipStage} {p : Bytes}, stage = .first ∨ stage = .nextName →
      p ∈ Layout.memberTexts members →
      ∃ t, Takes step Calm ⟨.curly :: frames, stage⟩ p t ∧
        StandsFor step t ⟨.curly :: frames, .afterItem⟩
  | [], _, _, _, _, there => by cases there
  | ⟨before, spelling, behind, ⟨ahead, w, after⟩⟩ :: members, frames, stage, p, hstage, there => by
    rw [Layout.memberTexts] at there
    rcases List.mem_cons.1 there with rfl | there
    · obtain ⟨t, inside, stands⟩ := takes_itemText (Or.inl rfl) ahead after
        (reaches_text w (.curly :: frames) .value (Or.inl rfl))
      refine ⟨t, ?_, stands⟩
      simpa using (takes_name hstage before behind spelling).append inside
    · exact takes_memberOf members frames hstage there

end

end Skipper

end GossipNode
