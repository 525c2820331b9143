import GossipNode.Proofs.Json.Tokens
import GossipNode.Proofs.Json.Values

/-!
# Values are read however they are laid out

Blanks are taken wherever they may stand, and change nothing.  So whatever the layout of a value is,
its text is read as that value, under any stack of open containers.

## Main results

* `JsonReader.reaches_text` — **the text of a layout leads to the reception of its value.**
-/

namespace GossipNode

namespace JsonReader

/-- Between tokens blanks change nothing. -/
theorem waits {r : JsonReader} (scalar : ∀ s, r.stage ≠ .scalar s) (name : ∀ s, r.stage ≠ .name s) :
    Waits step r := by
  intro b h
  obtain ⟨frames, room, stage⟩ := r
  cases stage with
  | scalar s => exact absurd rfl (scalar s)
  | name s => exact absurd rfl (name s)
  | _ => simp [step, between, h]

/-- Blanks between tokens are taken. -/
theorem takes_blanks {r : JsonReader} (scalar : ∀ s, r.stage ≠ .scalar s)
    (name : ∀ s, r.stage ≠ .name s) (ws : Blanks) : Takes step Calm r ws.bytes r :=
  (waits scalar name).takes (calm_of_not_scalar scalar) ws

/-- Blanks behind a value are taken. -/
theorem takes_blanksBehind {t r : JsonReader} (h : StandsFor step t r)
    (scalar : ∀ s, r.stage ≠ .scalar s) (name : ∀ s, r.stage ≠ .name s) (ws : Blanks) :
    ∃ u, Takes step Calm t ws.bytes u ∧ StandsFor step u r :=
  (waits scalar name).takesBehind (calm_of_not_scalar scalar) h ws

/-- A bracket that opens an array takes one of the levels that are left. -/
theorem takes_bracket (frames : List Frame) (room : Nat) {stage : JsonStage}
    (hstage : expectsValue stage) (inside : Blanks) :
    Takes step Calm ⟨frames, room + 1, stage⟩ (0x5B :: inside.bytes)
      ⟨.array [] :: frames, room, .firstItem⟩ := by
  have opened : step ⟨frames, room + 1, stage⟩ 0x5B =
      .next ⟨.array [] :: frames, room, .firstItem⟩ := by
    rw [step_of_expectsValue hstage rfl (by decide)]
    rfl
  exact .cons opened (calm_of_not_scalar (by simp)) (takes_blanks (by simp) (by simp) inside)

/-- So does a brace that opens an object. -/
theorem takes_brace (frames : List Frame) (room : Nat) {stage : JsonStage}
    (hstage : expectsValue stage) (inside : Blanks) :
    Takes step Calm ⟨frames, room + 1, stage⟩ (0x7B :: inside.bytes)
      ⟨.object [] "" :: frames, room, .firstName⟩ := by
  have opened : step ⟨frames, room + 1, stage⟩ 0x7B =
      .next ⟨.object [] "" :: frames, room, .firstName⟩ := by
    rw [step_of_expectsValue hstage rfl (by decide)]
    rfl
  exact .cons opened (calm_of_not_scalar (by simp)) (takes_blanks (by simp) (by simp) inside)

/-- An item with blanks around it is received, and the array waits for a separator. -/
theorem takes_itemText {seen : List Json} {frames : List Frame} {room : Nat} {stage : JsonStage}
    (hstage : stage = .firstItem ∨ stage = .nextItem) (before after : Blanks) {text : Bytes}
    {v : Json} (hv : Reaches step Calm ⟨.array seen :: frames, room, stage⟩ text
      (receive (.array seen :: frames) room v)) :
    ∃ t, Takes step Calm ⟨.array seen :: frames, room, stage⟩
        (before.bytes ++ text ++ after.bytes) t ∧
      StandsFor step t ⟨.array (v :: seen) :: frames, room, .afterItem⟩ := by
  have ahead : Takes step Calm ⟨.array seen :: frames, room, stage⟩ before.bytes _ :=
    takes_blanks (by rcases hstage with rfl | rfl <;> simp)
      (by rcases hstage with rfl | rfl <;> simp) before
  obtain ⟨t, inside, stands⟩ := takes_item hv
  obtain ⟨u, behind, stands⟩ := takes_blanksBehind stands (by simp) (by simp) after
  exact ⟨u, (ahead.append inside).append behind, stands⟩

/-- All of a member that stands before its value is taken, and the value is due then. -/
theorem takes_memberHead (seen : List (String × Json)) (earlier : String) (frames : List Frame)
    (room : Nat) {stage : JsonStage} (hstage : stage = .firstName ∨ stage = .nextName)
    (before behind ahead : Blanks) {spelling : Spelling} {name : String}
    (spelled : spelling.value? = some name) :
    Takes step Calm ⟨.object seen earlier :: frames, room, stage⟩
      (before.bytes ++ spelling.text ++ behind.bytes ++ 0x3A :: ahead.bytes)
      ⟨.object seen name :: frames, room, .value⟩ := by
  have first : Takes step Calm ⟨.object seen earlier :: frames, room, stage⟩ before.bytes _ :=
    takes_blanks (by rcases hstage with rfl | rfl <;> simp)
      (by rcases hstage with rfl | rfl <;> simp) before
  have named : Takes step Calm ⟨.object seen earlier :: frames, room, stage⟩ spelling.text
      ⟨.object seen name :: frames, room, .colon⟩ :=
    takes_quoted (.object seen earlier :: frames) room hstage
      (StringReader.takes_content spelled)
  have second : Takes step Calm ⟨.object seen name :: frames, room, .colon⟩ behind.bytes _ :=
    takes_blanks (by simp) (by simp) behind
  have colon : step ⟨.object seen name :: frames, room, .colon⟩ 0x3A =
      .next ⟨.object seen name :: frames, room, .value⟩ := rfl
  have third : Takes step Calm ⟨.object seen name :: frames, room, .value⟩ ahead.bytes _ :=
    takes_blanks (by simp) (by simp) ahead
  exact ((first.append named).append second).append
    (.cons colon (calm_of_not_scalar (by simp)) third)

/-- A member with blanks around its parts is received, and the object waits for a separator. -/
theorem takes_memberText {seen : List (String × Json)} (earlier : String) {frames : List Frame}
    {room : Nat} {stage : JsonStage} (hstage : stage = .firstName ∨ stage = .nextName)
    (before behind ahead after : Blanks) {spelling : Spelling} {name : String}
    (spelled : spelling.value? = some name) {text : Bytes} {v : Json}
    (hv : Reaches step Calm ⟨.object seen name :: frames, room, .value⟩ text
      (receive (.object seen name :: frames) room v)) :
    ∃ t, Takes step Calm ⟨.object seen earlier :: frames, room, stage⟩
        (before.bytes ++ spelling.text ++ behind.bytes
          ++ 0x3A :: (ahead.bytes ++ text ++ after.bytes)) t ∧
      StandsFor step t
        ⟨.object (Json.insertMember name v seen) name :: frames, room, .afterMember⟩ := by
  have head := takes_memberHead seen earlier frames room hstage before behind ahead spelled
  obtain ⟨t, inside, stands⟩ := hv.standsFor (calm_of_not_scalar (by simp))
  obtain ⟨u, last, stands⟩ := takes_blanksBehind stands (by simp) (by simp) after
  refine ⟨u, ?_, stands⟩
  simpa using (head.append inside).append last

mutual

/-- **The text of a layout leads to the reception of its value**, whatever containers are open. -/
theorem reaches_text : ∀ (w : Layout) (frames : List Frame) (room : Nat) (stage : JsonStage)
    {v : Json}, w.value? = some v → w.depth ≤ room → expectsValue stage →
      Reaches step Calm ⟨frames, room, stage⟩ w.text (receive frames room v)
  | .scalar t, frames, room, stage, v, value, _, hstage => by
    simp only [Layout.value?, Option.map_eq_some_iff] at value
    obtain ⟨s, spelled, rfl⟩ := value
    obtain ⟨b, bs, r, hb, hstart, hcalm, hgives⟩ := ScalarReader.gives_token spelled
    rw [Layout.text, hb]
    exact Reaches.prepend (.single (step_of_start? hstage hstart) (calm_scalar hcalm))
      (reaches_scalar hgives)
  | .array inside items, frames, room, stage, v, value, deep, hstage => by
    -- The level that the array takes is given back when it ends.
    obtain ⟨room, rfl⟩ : ∃ n, room = n + 1 := ⟨room - 1, by simp [Layout.depth] at deep; omega⟩
    simp only [Layout.depth, Nat.add_le_add_iff_right] at deep
    simp only [Layout.value?, Option.map_eq_some_iff] at value
    obtain ⟨vs, values, rfl⟩ := value
    have begun := takes_bracket frames room hstage inside
    rw [Layout.text, ← List.cons_append, ← List.cons_append]
    cases items with
    | nil =>
      obtain rfl : [] = vs := Option.some.inj values
      exact .done (begun.append (.nil _)) rfl
    | cons i items =>
      obtain ⟨t, content, stands⟩ := takes_items (i :: items) [] frames room .firstItem
        (Or.inl rfl) (List.cons_ne_nil i items) values deep
      refine .done (begun.append content) ?_
      rw [stands 0x5D rfl]
      simp [step, between, isBlank, close]
  | .object inside members, frames, room, stage, v, value, deep, hstage => by
    obtain ⟨room, rfl⟩ : ∃ n, room = n + 1 := ⟨room - 1, by simp [Layout.depth] at deep; omega⟩
    simp only [Layout.depth, Nat.add_le_add_iff_right] at deep
    simp only [Layout.value?, Option.map_eq_some_iff] at value
    obtain ⟨ms, values, rfl⟩ := value
    have begun := takes_brace frames room hstage inside
    rw [Layout.text, ← List.cons_append, ← List.cons_append]
    cases members with
    | nil =>
      obtain rfl : [] = ms := Option.some.inj values
      exact .done (begun.append (.nil _)) rfl
    | cons m members =>
      obtain ⟨t, last, content, stands⟩ := takes_members (m :: members) [] "" frames room .firstName
        (Or.inl rfl) (List.cons_ne_nil m members) values deep
      exact .done (begun.append content) ((stands 0x7D rfl).trans rfl)

/-- Items are received one after the other. -/
theorem takes_items : ∀ (items : List (Item Layout)) (seen : List Json) (frames : List Frame)
    (room : Nat) (stage : JsonStage) {vs : List Json}, stage = .firstItem ∨ stage = .nextItem →
      items ≠ [] → Layout.itemValues? items = some vs → Layout.depthOfItems items ≤ room →
        ∃ t, Takes step Calm ⟨.array seen :: frames, room, stage⟩
            (joined (Layout.itemTexts items)) t ∧
          StandsFor step t ⟨.array (vs.reverse ++ seen) :: frames, room, .afterItem⟩
  | [], _, _, _, _, _, _, nonempty, _, _ => absurd rfl nonempty
  | ⟨before, w, after⟩ :: items, seen, frames, room, stage, vs, hstage, _, values, deep => by
    simp only [Layout.itemValues?, Option.bind_eq_bind, Option.bind_eq_some_iff] at values
    obtain ⟨v, value, vs', values, same⟩ := values
    obtain rfl := Option.some.inj same
    simp only [Layout.depthOfItems, Nat.max_le] at deep
    obtain ⟨t, first, stands⟩ := takes_itemText hstage before after
      (reaches_text w (.array seen :: frames) room stage value deep.1 (Or.inr hstage))
    cases items with
    | nil =>
      obtain rfl : [] = vs' := Option.some.inj values
      exact ⟨t, by simpa [Layout.itemTexts, joined] using first, by simpa using stands⟩
    | cons i items =>
      have comma : step t 0x2C = .next ⟨.array (v :: seen) :: frames, room, .nextItem⟩ :=
        (stands 0x2C rfl).trans rfl
      obtain ⟨u, others, stands⟩ := takes_items (i :: items) (v :: seen) frames room .nextItem
        (Or.inr rfl) (List.cons_ne_nil i items) values deep.2
      refine ⟨u, ?_, by simpa using stands⟩
      rw [Layout.itemTexts_cons, Layout.itemTexts_cons, joined_cons_cons, ← Layout.itemTexts_cons]
      exact first.append (.cons comma (calm_of_not_scalar (by simp)) others)

/-- Members are received one after the other. -/
theorem takes_members : ∀ (members : List (Member Layout)) (seen : List (String × Json))
    (earlier : String) (frames : List Frame) (room : Nat) (stage : JsonStage)
    {ms : List (String × Json)}, stage = .firstName ∨ stage = .nextName → members ≠ [] →
      Layout.memberValues? seen members = some ms → Layout.depthOfMembers members ≤ room →
        ∃ t last, Takes step Calm ⟨.object seen earlier :: frames, room, stage⟩
            (joined (Layout.memberTexts members)) t ∧
          StandsFor step t ⟨.object ms last :: frames, room, .afterMember⟩
  | [], _, _, _, _, _, _, _, nonempty, _, _ => absurd rfl nonempty
  | ⟨before, spelling, behind, ⟨ahead, w, after⟩⟩ :: members, seen, earlier, frames, room, stage,
      ms, hstage, _, values, deep => by
    simp only [Layout.memberValues?, Option.bind_eq_bind, Option.bind_eq_some_iff] at values
    obtain ⟨name, spelled, v, value, values⟩ := values
    simp only [Layout.depthOfMembers, Nat.max_le] at deep
    obtain ⟨t, first, stands⟩ := takes_memberText earlier hstage before behind ahead after spelled
      (reaches_text w (.object seen name :: frames) room .value value deep.1 (Or.inl rfl))
    cases members with
    | nil =>
      obtain rfl := Option.some.inj values
      exact ⟨t, name, by simpa [Layout.memberTexts, joined] using first, stands⟩
    | cons m members =>
      have comma : step t 0x2C =
          .next ⟨.object (Json.insertMember name v seen) name :: frames, room, .nextName⟩ :=
        (stands 0x2C rfl).trans rfl
      obtain ⟨u, last, others, stands⟩ := takes_members (m :: members) _ name frames room .nextName
        (Or.inr rfl) (List.cons_ne_nil m members) values deep.2
      refine ⟨u, last, ?_, stands⟩
      rw [Layout.memberTexts_cons, Layout.memberTexts_cons, joined_cons_cons,
        ← Layout.memberTexts_cons]
      exact first.append (.cons comma (calm_of_not_scalar (by simp)) others)

end

end JsonReader

end GossipNode
