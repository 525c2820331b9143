import GossipNode.Proofs.Json.Depth

/-!
# The compact text of a value is one of its layouts

What is written of a value has no blanks between its tokens, and escapes in strings only what has
to be escaped.  It is a layout like any other, so what is shown of all layouts holds of it.

## Main definitions

* `Glyph.ofChar`, `Spelling.ofString` — characters and strings as they are written.

## Main results

* `Json.exists_layout` — **a value with one spelling has a layout whose text is the compact one.**
* `JsonReader.reaches_render` — the text of a value leads to its reception.
* `JsonReader.refuses_render` — the text of a value that is too deep is refused.
-/

namespace GossipNode

/-- No blanks. -/
def Blanks.none : Blanks := ⟨[], List.forall_mem_nil _⟩

/-! ### Strings -/

/-- Two hexadecimal digits after two zeros are read back, for the bytes that need them. -/
theorem hexNumber?_hexPair : ∀ n : Fin 32,
    hexNumber? (ascii (['0', '0'] ++ Bytes.hexPair (UInt8.ofNat n))) = some n.val := by
  decide

/-- A character as it is written. -/
def Glyph.ofChar (c : Char) : Glyph :=
  if control : c.toNat < 32 then
    if c.toNat = 8 then .short 0x62 0x08 rfl
    else if c.toNat = 9 then .short 0x74 0x09 rfl
    else if c.toNat = 10 then .short 0x6E 0x0A rfl
    else if c.toNat = 12 then .short 0x66 0x0C rfl
    else if c.toNat = 13 then .short 0x72 0x0D rfl
    else .unit (ascii (['0', '0'] ++ Bytes.hexPair (UInt8.ofNat c.toNat))) c.toNat
      (hexNumber?_hexPair ⟨c.toNat, control⟩)
  else if quote : c = '"' then .short 0x22 0x22 rfl
  else if backslash : c = '\\' then .short 0x5C 0x5C rfl
  else .plain c ⟨quote, backslash, Nat.not_lt.1 control⟩

/-- Control characters are written as they are escaped, and stand for themselves. -/
theorem Glyph.ofChar_control : ∀ n : Fin 32,
    (ofChar (Char.ofNat n)).char? = some (Char.ofNat n) ∧ (ofChar (Char.ofNat n)).text =
      (Utf8.encodeChar (Char.ofNat n)).flatMap JsonString.escape := by
  decide

/-- Bytes that stand for themselves are not escaped. -/
theorem flatMap_escape {bs : Bytes} (h : ∀ b ∈ bs, standsForItself b) :
    bs.flatMap JsonString.escape = bs := by
  induction bs with
  | nil => rfl
  | cons b bs ih =>
    obtain ⟨quote, backslash, control⟩ := h b List.mem_cons_self
    have printable : (0x20 : UInt8) ≤ b := UInt8.not_lt.1 control
    have itself : JsonString.escape b = [b] := by
      rw [JsonString.escape, if_neg quote, if_neg backslash, if_pos printable]
    rw [List.flatMap_cons, itself, ih fun c there => h c (List.mem_cons_of_mem b there)]
    rfl

/-- A character is spelled by what is written of it. -/
theorem Glyph.ofChar_spec (c : Char) : (ofChar c).char? = some c ∧
    (ofChar c).text = (Utf8.encodeChar c).flatMap JsonString.escape := by
  by_cases control : c.toNat < 32
  · have spec := ofChar_control ⟨c.toNat, control⟩
    simp only [Char.ofNat_toNat] at spec
    exact spec
  by_cases quote : c = '"'
  · subst quote
    exact ⟨rfl, rfl⟩
  by_cases backslash : c = '\\'
  · subst backslash
    exact ⟨rfl, rfl⟩
  · rw [ofChar, dif_neg control, dif_neg quote, dif_neg backslash]
    refine ⟨rfl, (flatMap_escape fun b there => ?_).symm⟩
    exact standsForItself_of_mem ⟨quote, backslash, Nat.not_lt.1 control⟩ there

namespace Spelling

/-- A string as it is written. -/
def ofString (s : String) : Spelling := ⟨s.toList.map Glyph.ofChar⟩

theorem mapM_ofChar (cs : List Char) : (cs.map Glyph.ofChar).mapM Glyph.char? = some cs := by
  induction cs with
  | nil => rfl
  | cons c cs ih => simp [List.mapM_cons, (Glyph.ofChar_spec c).1, ih]

theorem value?_ofString (s : String) : (ofString s).value? = some s := by
  rw [value?, ofString, mapM_ofChar]
  simp

theorem flatMap_ofChar (cs : List Char) : (cs.map Glyph.ofChar).flatMap Glyph.text =
    (Utf8.encode cs).flatMap JsonString.escape := by
  induction cs with
  | nil => rfl
  | cons c cs ih =>
    rw [List.map_cons, List.flatMap_cons, (Glyph.ofChar_spec c).2, ih, Utf8.encode, Utf8.encode,
      List.flatMap_cons, List.flatMap_append]

theorem content_ofString (s : String) :
    (ofString s).content = (utf8 s).flatMap JsonString.escape :=
  flatMap_ofChar s.toList

theorem text_ofString (s : String) : (ofString s).text = JsonString.render s := by
  rw [text, content_ofString, JsonString.render]

end Spelling

/-- What is written of a string between its quotes is collected. -/
theorem StringReader.takes_text (s : String) :
    Takes step Calm start ((utf8 s).flatMap JsonString.escape) ⟨(utf8 s).reverse, .plain⟩ := by
  rw [← Spelling.content_ofString]
  exact takes_content (Spelling.value?_ofString s)

/-! ### Scalars -/

/-- A whole number as it is written. -/
theorem NumberText.exists_integer {n : Int} (plain : (Scalar.integer n).isPlain = true) :
    ∃ t : NumberText, t.value? = some n ∧ t.text = integerBytes n := by
  simp only [Scalar.isPlain, Bool.and_eq_true, decide_eq_true_eq] at plain
  by_cases negative : n < 0
  · refine ⟨⟨true, n.natAbs, none, none⟩, ?_, ?_⟩
    · simp only [value?, if_true]
      rw [if_pos (by omega)]
      exact congrArg some (by omega)
    · simp [text, fractionText, exponentText, integerBytes, negative]
  · refine ⟨⟨false, n.natAbs, none, none⟩, ?_, ?_⟩
    · simp only [value?, Bool.false_eq_true, if_false]
      rw [if_pos (by omega)]
      exact congrArg some (by omega)
    · simp [text, fractionText, exponentText, integerBytes, negative]

/-- A scalar is spelled by what is written of it. -/
theorem Token.exists_scalar {s : Scalar} (plain : s.isPlain = true) :
    ∃ t : Token, t.value? = some s ∧ t.text = s.render := by
  cases s with
  | null => exact ⟨.null, rfl, rfl⟩
  | bool b => exact ⟨.bool b, rfl, rfl⟩
  | integer n =>
    obtain ⟨t, value, text⟩ := NumberText.exists_integer plain
    exact ⟨.number t, congrArg (Option.map Scalar.integer) value, text⟩
  | float x => cases plain
  | string s =>
    exact ⟨.string (Spelling.ofString s),
      congrArg (Option.map Scalar.string) (Spelling.value?_ofString s), Spelling.text_ofString s⟩

/-! ### Values -/

namespace Json

theorem render_array (vs : List Json) :
    (Json.array vs).render = 0x5B :: (joined (vs.map render) ++ [0x5D]) := by
  cases vs with
  | nil => rfl
  | cons v vs =>
    rw [render_array_cons, List.map_cons, joined, List.flatMap_map]
    rfl

theorem render_object (ms : List (String × Json)) : (Json.object ms).render =
    0x7B :: (joined (ms.map fun m => renderMember m.1 m.2) ++ [0x7D]) := by
  cases ms with
  | nil => rfl
  | cons m ms =>
    rw [render_object_cons, List.map_cons, joined, List.flatMap_map]
    rfl

mutual

/-- **A value with one spelling has a layout whose text is the compact one.** -/
theorem exists_layout : ∀ v : Json, v.isPlain = true →
    ∃ w : Layout, w.value? = some v ∧ w.depth = v.depth ∧ w.text = v.render
  | .scalar s, plain => by
    rw [isPlain] at plain
    obtain ⟨t, value, text⟩ := Token.exists_scalar plain
    exact ⟨.scalar t, congrArg (Option.map Json.scalar) value, rfl, by
      rw [Layout.text, text, render_scalar]⟩
  | .array vs, plain => by
    rw [isPlain] at plain
    obtain ⟨items, values, depth, texts⟩ := exists_items vs plain
    refine ⟨.array .none items, congrArg (Option.map Json.array) values, ?_, ?_⟩
    · rw [Layout.depth, Json.depth, depth]
    · rw [Layout.text, texts, render_array]
      rfl
  | .object ms, plain => by
    simp only [isPlain, ascendingNames, Bool.and_eq_true, decide_eq_true_eq] at plain
    obtain ⟨members, values, depth, texts⟩ := exists_members ms [] plain.2 plain.1 (by simp)
    refine ⟨.object .none members, ?_, ?_, ?_⟩
    · rw [Layout.value?, values]
      simp
    · rw [Layout.depth, Json.depth, depth]
    · rw [Layout.text, texts, render_object]
      rfl

/-- Items with one spelling have layouts without blanks. -/
theorem exists_items : ∀ vs : List Json, plainItems vs = true →
    ∃ items, Layout.itemValues? items = some vs ∧ Layout.depthOfItems items = depthOfItems vs ∧
      Layout.itemTexts items = vs.map render
  | [], _ => ⟨[], rfl, rfl, rfl⟩
  | v :: vs, plain => by
    simp only [plainItems, Bool.and_eq_true] at plain
    obtain ⟨w, value, depth, text⟩ := exists_layout v plain.1
    obtain ⟨items, values, depths, texts⟩ := exists_items vs plain.2
    refine ⟨⟨.none, w, .none⟩ :: items, ?_, ?_, ?_⟩
    · simp [Layout.itemValues?, value, values]
    · rw [Layout.depthOfItems, depthOfItems, depth, depths]
    · simp [Layout.itemTexts, Blanks.none, text, texts]

/-- Members in ascending order have layouts without blanks. -/
theorem exists_members : ∀ ms seen : List (String × Json), plainMembers ms = true →
    (ms.map (·.1)).Pairwise (· < ·) → (∀ s ∈ seen, ∀ n ∈ ms.map (·.1), s.1 < n) →
    ∃ members, Layout.memberValues? seen members = some (ms.reverse ++ seen) ∧
      Layout.depthOfMembers members = depthOfMembers ms ∧
      Layout.memberTexts members = ms.map fun m => renderMember m.1 m.2
  | [], seen, _, _, _ => ⟨[], rfl, rfl, rfl⟩
  | (name, v) :: ms, seen, plain, ascending, after => by
    simp only [plainMembers, Bool.and_eq_true] at plain
    simp only [List.map_cons, List.pairwise_cons] at ascending
    simp only [List.map_cons, List.mem_cons, forall_eq_or_imp] at after
    obtain ⟨w, value, depth, text⟩ := exists_layout v plain.1
    -- The names ascend, so every member is put in front of those before it.
    obtain ⟨members, values, depths, texts⟩ := exists_members ms ((name, v) :: seen) plain.2
      ascending.2 (List.forall_mem_cons.2 ⟨ascending.1, fun s hs => (after s hs).2⟩)
    refine ⟨⟨.none, .ofString name, .none, ⟨.none, w, .none⟩⟩ :: members, ?_, ?_, ?_⟩
    · simp [Layout.memberValues?, Spelling.value?_ofString, value, values,
        insertMember_of_lt fun s hs => (after s hs).1]
    · rw [Layout.depthOfMembers, depthOfMembers, depth, depths]
    · simp [Layout.memberTexts, Blanks.none, Spelling.text_ofString, renderMember, text, texts]

end

end Json

namespace JsonReader

variable {v : Json} (frames : List Frame) {room : Nat} {stage : JsonStage}

/-- **The text of a value leads to its reception**, whatever containers are open. -/
theorem reaches_render (plain : v.isPlain = true) (deep : v.depth ≤ room)
    (hstage : expectsValue stage) :
    Reaches step Calm ⟨frames, room, stage⟩ v.render (receive frames room v) := by
  obtain ⟨w, value, depth, text⟩ := Json.exists_layout v plain
  rw [← text]
  exact reaches_text w frames room stage value (depth ▸ deep) hstage

/-- **The text of a value with more levels than are left is refused.** -/
theorem refuses_render (plain : v.isPlain = true) (deep : room < v.depth)
    (hstage : expectsValue stage) :
    Refuses step tooDeep ⟨frames, room, stage⟩ v.render := by
  obtain ⟨w, value, depth, text⟩ := Json.exists_layout v plain
  rw [← text]
  exact refuses_text w frames room stage value (depth ▸ deep) hstage

end JsonReader

end GossipNode
