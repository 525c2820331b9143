import GossipNode.Proofs.Json.Reading

/-!
# Values with too many levels are refused

How many containers may be open at once is limited.  However a value with more levels than are left
is laid out, its text is taken up to the bracket that opens one container too many, and refused
there.

## Main results

* `JsonReader.refuses_text` — **a value that is too deep is refused**, whatever containers are open.
-/

namespace GossipNode

namespace JsonReader

/-- The fault of a value that is too deep. -/
abbrev tooDeep : Fault := .syntactic .tooDeep

mutual

/-- **The text of a layout with more levels than are left is refused.** -/
theorem refuses_text : ∀ (w : Layout) (frames : List Frame) (room : Nat) (stage : JsonStage)
    {v : Json}, w.value? = some v → room < w.depth → expectsValue stage →
      Refuses step tooDeep ⟨frames, room, stage⟩ w.text
  | .scalar _, _, room, _, _, _, deep, _ => absurd deep (Nat.not_lt_zero room)
  | .array inside items, frames, room, stage, v, value, deep, hstage => by
    simp only [Layout.value?, Option.map_eq_some_iff] at value
    obtain ⟨vs, values, rfl⟩ := value
    cases room with
    | zero =>
      have refused : step ⟨frames, 0, stage⟩ 0x5B = .refuse tooDeep .after := by
        rw [step_of_expectsValue hstage rfl (by decide)]
        rfl
      exact .here refused
    | succ room =>
      simp only [Layout.depth, Nat.add_lt_add_iff_right] at deep
      rw [Layout.text, ← List.cons_append, ← List.cons_append]
      exact ((takes_bracket frames room hstage inside).refuses
        (refuses_items items [] frames room .firstItem (Or.inl rfl) values deep)).append _
  | .object inside members, frames, room, stage, v, value, deep, hstage => by
    simp only [Layout.value?, Option.map_eq_some_iff] at value
    obtain ⟨ms, values, rfl⟩ := value
    cases room with
    | zero =>
      have refused : step ⟨frames, 0, stage⟩ 0x7B = .refuse tooDeep .after := by
        rw [step_of_expectsValue hstage rfl (by decide)]
        rfl
      exact .here refused
    | succ room =>
      simp only [Layout.depth, Nat.add_lt_add_iff_right] at deep
      rw [Layout.text, ← List.cons_append, ← List.cons_append]
      exact ((takes_brace frames room hstage inside).refuses
        (refuses_members members [] "" frames room .firstName (Or.inl rfl) values deep)).append _

/-- Items are refused if one of them is too deep. -/
theorem refuses_items : ∀ (items : List (Item Layout)) (seen : List Json) (frames : List Frame)
    (room : Nat) (stage : JsonStage) {vs : List Json}, stage = .firstItem ∨ stage = .nextItem →
      Layout.itemValues? items = some vs → room < Layout.depthOfItems items →
        Refuses step tooDeep ⟨.array seen :: frames, room, stage⟩ (joined (Layout.itemTexts items))
  | [], _, _, room, _, _, _, _, deep => absurd deep (Nat.not_lt_zero room)
  | ⟨before, w, after⟩ :: items, seen, frames, room, stage, vs, hstage, values, deep => by
    simp only [Layout.itemValues?, Option.bind_eq_bind, Option.bind_eq_some_iff] at values
    obtain ⟨v, value, vs', values, -⟩ := values
    simp only [Layout.depthOfItems] at deep
    -- Either this item is too deep, or it is received and one of the others is.
    by_cases shallow : w.depth ≤ room
    · obtain ⟨t, first, stands⟩ := takes_itemText hstage before after
        (reaches_text w (.array seen :: frames) room stage value shallow (Or.inr hstage))
      have others : room < Layout.depthOfItems items := by omega
      cases items with
      | nil => exact absurd others (Nat.not_lt_zero room)
      | cons i items =>
        have comma : step t 0x2C = .next ⟨.array (v :: seen) :: frames, room, .nextItem⟩ :=
          (stands 0x2C rfl).trans rfl
        rw [Layout.itemTexts_cons, Layout.itemTexts_cons, joined_cons_cons,
          ← Layout.itemTexts_cons]
        exact first.refuses (.later comma (refuses_items (i :: items) (v :: seen) frames room
          .nextItem (Or.inr rfl) values others))
    · have ahead : Takes step Calm ⟨.array seen :: frames, room, stage⟩ before.bytes _ :=
        takes_blanks (by rcases hstage with rfl | rfl <;> simp)
          (by rcases hstage with rfl | rfl <;> simp) before
      have refused := refuses_text w (.array seen :: frames) room stage value (by omega)
        (Or.inr hstage)
      rw [Layout.itemTexts_cons]
      exact ((ahead.refuses refused).append _).append _

/-- Members are refused if the value of one of them is too deep. -/
theorem refuses_members : ∀ (members : List (Member Layout)) (seen : List (String × Json))
    (earlier : String) (frames : List Frame) (room : Nat) (stage : JsonStage)
    {ms : List (String × Json)}, stage = .firstName ∨ stage = .nextName →
      Layout.memberValues? seen members = some ms → room < Layout.depthOfMembers members →
        Refuses step tooDeep ⟨.object seen earlier :: frames, room, stage⟩
          (joined (Layout.memberTexts members))
  | [], _, _, _, room, _, _, _, _, deep => absurd deep (Nat.not_lt_zero room)
  | ⟨before, spelling, behind, ⟨ahead, w, after⟩⟩ :: members, seen, earlier, frames, room, stage,
      ms, hstage, values, deep => by
    simp only [Layout.memberValues?, Option.bind_eq_bind, Option.bind_eq_some_iff] at values
    obtain ⟨name, spelled, v, value, values⟩ := values
    simp only [Layout.depthOfMembers] at deep
    by_cases shallow : w.depth ≤ room
    · obtain ⟨t, first, stands⟩ := takes_memberText earlier hstage before behind ahead after spelled
        (reaches_text w (.object seen name :: frames) room .value value shallow (Or.inl rfl))
      have others : room < Layout.depthOfMembers members := by omega
      cases members with
      | nil => exact absurd others (Nat.not_lt_zero room)
      | cons m members =>
        have comma : step t 0x2C =
            .next ⟨.object (Json.insertMember name v seen) name :: frames, room, .nextName⟩ :=
          (stands 0x2C rfl).trans rfl
        rw [Layout.memberTexts_cons, Layout.memberTexts_cons, joined_cons_cons,
          ← Layout.memberTexts_cons]
        exact first.refuses (.later comma (refuses_members (m :: members) _ name frames room
          .nextName (Or.inr rfl) values others))
    · have head := takes_memberHead seen earlier frames room hstage before behind ahead spelled
      have refused := refuses_text w (.object seen name :: frames) room .value value (by omega)
        (Or.inl rfl)
      have whole := (head.refuses refused).append after.bytes
      refine Refuses.append ?_ _
      simpa using whole

end

end JsonReader

end GossipNode
