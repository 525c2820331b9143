import GossipNode.Proofs.Json.Layout
import GossipNode.Proofs.Json.Scalars

/-!
# Scalars as they are spelled

A scalar that is kept is read off every spelling it has, and one that is passed over may have any
spelling at all.  Both ways end at the same byte.  Between tokens blanks change nothing.

## Main definitions

* `Waits step s` — blanks do not change the state `s`.

## Main results

* `Waits.takes`, `Waits.takesBehind` — blanks are taken where they may stand.
* `StringReader.takes_content`, `StringSkipper.takes_content` — what stands between quotes.
* `NumberSkipper.gives_text` — numbers that are passed over.
* `ScalarReader.gives_token` — **a scalar is read off what spells it.**
* `ScalarSkipper.gives_token` — **whatever spells a scalar is passed over.**
-/

namespace GossipNode

/-! ### Blanks -/

section Blanks

variable {σ α : Type} {step : σ → UInt8 → Step σ α} {calm : σ → Prop} {s t : σ}

/-- A state that blanks do not change. -/
def Waits (step : σ → UInt8 → Step σ α) (s : σ) : Prop := ∀ b, isBlank b = true → step s b = .next s

theorem endsNumber_of_isBlank {b : UInt8} (h : isBlank b = true) : endsNumber b = true := by
  simp only [isBlank, Bool.or_eq_true, decide_eq_true_eq] at h
  rcases h with ((rfl | rfl) | rfl) | rfl <;> rfl

/-- A state that blanks do not change takes them. -/
theorem Waits.takes (h : Waits step s) (hc : calm s) (ws : Blanks) :
    Takes step calm s ws.bytes s := by
  obtain ⟨bytes, blank⟩ := ws
  induction bytes with
  | nil => exact .nil s
  | cons b bs ih =>
    exact .cons (h b (blank b List.mem_cons_self)) hc
      (ih fun c there => blank c (List.mem_cons_of_mem b there))

/-- Blanks behind a value lead to a state that stands for the same one. -/
theorem Waits.takesBehind (h : Waits step s) (hc : calm s) (stands : StandsFor step t s)
    (ws : Blanks) : ∃ u, Takes step calm t ws.bytes u ∧ StandsFor step u s := by
  obtain ⟨bytes, blank⟩ := ws
  cases bytes with
  | nil => exact ⟨t, .nil t, stands⟩
  | cons b bs =>
    have first := blank b List.mem_cons_self
    have moved : step t b = .next s := (stands b (endsNumber_of_isBlank first)).trans (h b first)
    have others : Takes step calm s bs s :=
      h.takes hc ⟨bs, fun c there => blank c (List.mem_cons_of_mem b there)⟩
    exact ⟨s, .cons moved hc others, fun _ _ => rfl⟩

/-- Blanks and a byte that ends a number begin with such a byte. -/
theorem Blanks.exists_first (ws : Blanks) {b : UInt8} (hb : endsNumber b = true) (rest : Bytes) :
    ∃ c cs, ws.bytes ++ b :: rest = c :: cs ∧ endsNumber c = true := by
  obtain ⟨bytes, blank⟩ := ws
  cases bytes with
  | nil => exact ⟨b, rest, rfl, hb⟩
  | cons c cs => exact ⟨c, _, rfl, endsNumber_of_isBlank (blank c List.mem_cons_self)⟩

end Blanks

/-! ### Strings -/

/-- A byte that stands for itself in a string. -/
def standsForItself (b : UInt8) : Prop := b ≠ 0x22 ∧ b ≠ 0x5C ∧ ¬ b < 0x20

theorem standsForItself_of_le {b : UInt8} (h : 0x80 ≤ b.toNat) : standsForItself b := by
  refine ⟨?_, ?_, ?_⟩
  · rintro rfl
    exact absurd h (by decide)
  · rintro rfl
    exact absurd h (by decide)
  · rw [UInt8.lt_iff_toNat_lt]
    exact Nat.not_lt.2 (Nat.le_trans (by decide) h)

theorem standsForItself_tail (n : Nat) : standsForItself (Utf8.tail n) := by
  refine standsForItself_of_le ?_
  rw [Utf8.tail, UInt8.toNat_ofNat']
  omega

/-- The bytes of a character that stands for itself do so. -/
theorem standsForItself_of_mem {c : Char} (itself : c ≠ '"' ∧ c ≠ '\\' ∧ ' ' ≤ c) {b : UInt8}
    (h : b ∈ Utf8.encodeChar c) : standsForItself b := by
  have top := Utf8.toNat_lt c
  have least : 32 ≤ c.toNat := itself.2.2
  unfold Utf8.encodeChar at h
  simp only at h
  split at h
  · next low =>
    rw [List.mem_singleton] at h
    subst h
    have number : (UInt8.ofNat c.toNat).toNat = c.toNat := by
      rw [UInt8.toNat_ofNat', Nat.mod_eq_of_lt (by omega)]
    have differs : ∀ d : Char, c ≠ d → (UInt8.ofNat c.toNat).toNat ≠ d.toNat := by
      intro d other same
      rw [number] at same
      exact other (Char.toNat_inj.1 same)
    refine ⟨fun same => differs _ itself.1 (congrArg UInt8.toNat same),
      fun same => differs _ itself.2.1 (congrArg UInt8.toNat same), ?_⟩
    rw [UInt8.lt_iff_toNat_lt, number]
    exact Nat.not_lt.2 least
  -- all bytes of a longer character are above those that mean something
  have high : ∀ {m : Nat}, 0x80 ≤ m → m < 256 → standsForItself (UInt8.ofNat m) := by
    intro m lower upper
    refine standsForItself_of_le ?_
    rwa [UInt8.toNat_ofNat', Nat.mod_eq_of_lt upper]
  split at h
  · simp only [List.mem_cons, List.not_mem_nil, or_false] at h
    rcases h with rfl | rfl
    · exact high (by omega) (by omega)
    · exact standsForItself_tail _
  split at h
  · simp only [List.mem_cons, List.not_mem_nil, or_false] at h
    rcases h with rfl | rfl | rfl
    · exact high (by omega) (by omega)
    · exact standsForItself_tail _
    · exact standsForItself_tail _
  · simp only [List.mem_cons, List.not_mem_nil, or_false] at h
    rcases h with rfl | rfl | rfl | rfl
    · exact high (by omega) (by omega)
    · exact standsForItself_tail _
    · exact standsForItself_tail _
    · exact standsForItself_tail _

/-- A number of four hexadecimal digits has four of them. -/
theorem exists_digits {digits : Bytes} {n : Nat} (h : hexNumber? digits = some n) :
    ∃ a b c d, digits = [a, b, c, d] := by
  unfold hexNumber? at h
  split at h
  · exact ⟨_, _, _, _, rfl⟩
  · cases h

/-- What an escape of two characters stands for is one byte of a character. -/
theorem encodeChar_of_shortEscape {e b : UInt8} (h : shortEscape? e = some b) :
    Utf8.encodeChar (Char.ofNat b.toNat) = [b] := by
  unfold shortEscape? at h
  repeat' split at h
  all_goals first
    | cases h; decide
    | cases h

namespace StringReader

theorem takes_itself {bs : Bytes} (h : ∀ b ∈ bs, standsForItself b) (content : Bytes) :
    Takes step Calm ⟨content, .plain⟩ bs ⟨bs.reverse ++ content, .plain⟩ := by
  induction bs generalizing content with
  | nil => exact .nil _
  | cons b bs ih =>
    obtain ⟨quote, backslash, control⟩ := h b List.mem_cons_self
    have first : step ⟨content, .plain⟩ b = .next ⟨b :: content, .plain⟩ := by
      simp only [step, if_neg quote, if_neg backslash, if_neg control]
    have others := ih (fun c there => h c (List.mem_cons_of_mem b there)) (b :: content)
    rw [List.reverse_cons, List.append_assoc]
    exact .cons first trivial others

/-- Three of the digits behind `\u` are collected. -/
theorem takes_threeDigits (content : Bytes) (a b c : UInt8) :
    Takes step Calm ⟨content, .plain⟩ [0x5C, 0x75, a, b, c] ⟨content, .unicode [a, b, c]⟩ := by
  refine .cons (t := ⟨content, .escape⟩) rfl trivial ?_
  refine .cons (t := ⟨content, .unicode []⟩) rfl trivial ?_
  refine .cons (t := ⟨content, .unicode [a]⟩) rfl trivial ?_
  refine .cons (t := ⟨content, .unicode [a, b]⟩) rfl trivial ?_
  exact .single rfl trivial

/-- So they are behind a leading surrogate. -/
theorem takes_threeMoreDigits (content : Bytes) (high : Nat) (a b c : UInt8) :
    Takes step Calm ⟨content, .paired high⟩ [0x5C, 0x75, a, b, c]
      ⟨content, .pairedUnicode high [a, b, c]⟩ := by
  refine .cons (t := ⟨content, .pairedEscape high⟩) rfl trivial ?_
  refine .cons (t := ⟨content, .pairedUnicode high []⟩) rfl trivial ?_
  refine .cons (t := ⟨content, .pairedUnicode high [a]⟩) rfl trivial ?_
  refine .cons (t := ⟨content, .pairedUnicode high [a, b]⟩) rfl trivial ?_
  exact .single rfl trivial

/-- A character is put behind the content, however it is spelled. -/
theorem takes_glyph {g : Glyph} {c : Char} (h : g.char? = some c) (content : Bytes) :
    Takes step Calm ⟨content, .plain⟩ g.text ⟨(Utf8.encodeChar c).reverse ++ content, .plain⟩ := by
  cases g with
  | plain c' itself =>
    obtain rfl : c' = c := Option.some.inj h
    exact takes_itself (fun b there => standsForItself_of_mem itself there) content
  | short e b known =>
    obtain rfl : Char.ofNat b.toNat = c := Option.some.inj h
    rw [encodeChar_of_shortEscape known]
    have other : e ≠ 0x75 := by rintro rfl; cases known
    exact takes_shortEscape other known
  | unit digits n number =>
    obtain ⟨x, y, z, last, rfl⟩ := exists_digits number
    simp only [Glyph.char?] at h
    split at h
    · cases h
    next single =>
    obtain rfl : Char.ofNat n = c := Option.some.inj h
    refine (takes_threeDigits content x y z).snoc ?_ trivial
    change unit content [x, y, z, last] = _
    simp only [unit, number]
    rw [if_neg (by omega), if_neg (by omega), put]
  | pair leading trailing high low leads trails paired =>
    obtain ⟨x, y, z, last, rfl⟩ := exists_digits leads
    obtain ⟨x', y', z', last', rfl⟩ := exists_digits trails
    obtain rfl := Option.some.inj h
    -- nothing is put behind the content before the second half is there
    have half : step ⟨content, .unicode [x, y, z]⟩ last = .next ⟨content, .paired high⟩ := by
      change unit content [x, y, z, last] = _
      simp only [unit, leads]
      rw [if_neg (by omega), if_pos (by omega)]
    have whole : step ⟨content, .pairedUnicode high [x', y', z']⟩ last' =
        .next (put content (0x10000 + (high - 0xD800) * 0x400 + (low - 0xDC00))) := by
      change partner content high [x', y', z', last'] = _
      simp only [partner, trails]
      rw [if_pos (by omega)]
    exact ((takes_threeDigits content x y z).snoc half trivial).append
      ((takes_threeMoreDigits content high x' y' z').snoc whole trivial)

theorem takes_glyphs {gs : List Glyph} {cs : List Char} (h : gs.mapM Glyph.char? = some cs)
    (content : Bytes) : Takes step Calm ⟨content, .plain⟩ (gs.flatMap Glyph.text)
      ⟨(Utf8.encode cs).reverse ++ content, .plain⟩ := by
  induction gs generalizing cs content with
  | nil =>
    obtain rfl : [] = cs := Option.some.inj h
    exact .nil _
  | cons g gs ih =>
    simp only [List.mapM_cons, Option.bind_eq_bind, Option.bind_eq_some_iff] at h
    obtain ⟨c, first, cs', others, same⟩ := h
    obtain rfl := Option.some.inj same
    have taken := (takes_glyph first content).append
      (ih others ((Utf8.encodeChar c).reverse ++ content))
    simpa [Utf8.encode] using taken

/-- **What stands between the quotes is collected**, however it is spelled. -/
theorem takes_content {s : Spelling} {value : String} (h : s.value? = some value) :
    Takes step Calm start s.content ⟨(utf8 value).reverse, .plain⟩ := by
  simp only [Spelling.value?, Option.map_eq_some_iff] at h
  obtain ⟨cs, chars, rfl⟩ := h
  simpa [start, utf8, Spelling.content] using takes_glyphs chars []

end StringReader

namespace StringSkipper

theorem takes_itself {bs : Bytes} (h : ∀ b ∈ bs, standsForItself b) :
    Takes step (fun _ => True) .plain bs .plain := by
  induction bs with
  | nil => exact .nil _
  | cons b bs ih =>
    obtain ⟨quote, backslash, control⟩ := h b List.mem_cons_self
    have first : step .plain b = .next .plain := by
      simp only [step, if_neg quote, if_neg backslash, if_neg control]
    exact .cons first trivial (ih fun c there => h c (List.mem_cons_of_mem b there))

/-- Four digits behind `\u` are passed. -/
theorem takes_unit {digits : Bytes} {n : Nat} (h : hexNumber? digits = some n) :
    Takes step (fun _ => True) .plain (0x5C :: 0x75 :: digits) .plain := by
  obtain ⟨a, b, c, d, rfl⟩ := exists_digits h
  refine .cons (t := .escape) rfl trivial ?_
  refine .cons (t := .unicode []) rfl trivial ?_
  refine .cons (t := .unicode [a]) rfl trivial ?_
  refine .cons (t := .unicode [a, b]) rfl trivial ?_
  refine .cons (t := .unicode [a, b, c]) rfl trivial ?_
  refine .single ?_ trivial
  change (if (hexNumber? [a, b, c, d]).isSome then Step.next plain else .refuseAt .invalidEscape) = _
  rw [h]
  rfl

theorem takes_glyph (g : Glyph) : Takes step (fun _ => True) .plain g.text .plain := by
  cases g with
  | plain c itself => exact takes_itself fun b there => standsForItself_of_mem itself there
  | short e b known =>
    have other : e ≠ 0x75 := by rintro rfl; cases known
    refine .cons (t := .escape) rfl trivial (.single ?_ trivial)
    simp only [step, if_neg other, known, Option.isSome_some, if_true]
  | unit digits n number => exact takes_unit number
  | pair leading trailing high low leads trails paired =>
    exact (takes_unit leads).append (takes_unit trails)

/-- **What stands between the quotes is passed**, whatever it spells. -/
theorem takes_content (s : Spelling) : Takes step (fun _ => True) .plain s.content .plain := by
  obtain ⟨gs⟩ := s
  induction gs with
  | nil => exact .nil _
  | cons g gs ih => exact (takes_glyph g).append ih

end StringSkipper

/-! ### Numbers -/

/-- The digits of a number that is not zero do not begin with a zero. -/
theorem decimalBytes_digits {n : Nat} (h : 0 < n) : ∃ b bs, decimalBytes n = b :: bs ∧ b ≠ 0x30 ∧
    ∀ c ∈ b :: bs, isDigit c = true := by
  induction n using Nat.strongRecOn with
  | ind n ih =>
    by_cases small : n < 10
    · obtain ⟨hdigit, -, hzero⟩ := digit_facts ⟨n, small⟩
      refine ⟨_, [], decimalBytes_of_lt small, fun zero => ?_, by simpa using hdigit⟩
      exact absurd (hzero zero) (Nat.ne_of_gt h)
    · obtain ⟨b, bs, hb, hzero, hdigits⟩ := ih (n / 10) (by omega) (by omega)
      obtain ⟨hlast, -⟩ := digit_facts ⟨n % 10, by omega⟩
      refine ⟨b, _, by rw [decimalBytes_of_le (by omega), hb, List.cons_append], hzero, ?_⟩
      intro c there
      rw [← List.cons_append, List.mem_append, List.mem_singleton] at there
      rcases there with there | rfl
      · exact hdigits c there
      · exact hlast

namespace NumberSkipper

/-- A number that lacks no digit ends before a byte no number goes on with. -/
theorem step_of_endsNumber {r : NumberSkipper} (whole : r.lacksDigit = false) {b : UInt8}
    (hb : endsNumber b = true) : r.step b = .past () := by
  simp only [endsNumber, Bool.and_eq_true, Bool.not_eq_true', decide_eq_true_eq] at hb
  obtain ⟨⟨⟨hdigit, hpoint⟩, he⟩, hE⟩ := hb
  cases r <;> simp_all [step, lacksDigit]

/-- Digits are passed where any number of them may stand. -/
theorem takes_digits {r : NumberSkipper} (stay : ∀ b, isDigit b = true → r.step b = .next r) :
    ∀ {bs : Bytes}, (∀ b ∈ bs, isDigit b = true) → Takes step (fun _ => True) r bs r
  | [], _ => .nil r
  | b :: _, all => .cons (stay b (all b List.mem_cons_self)) trivial
      (takes_digits stay fun c there => all c (List.mem_cons_of_mem b there))

/-- Where digits are due they are passed, and more may follow. -/
theorem takes_dueDigits {r s : NumberSkipper} (ds : Digits)
    (first : ∀ b, isDigit b = true → r.step b = .next s)
    (stay : ∀ b, isDigit b = true → s.step b = .next s) :
    Takes step (fun _ => True) r ds.bytes s :=
  .cons (first _ (ds.digits _ List.mem_cons_self)) trivial
    (takes_digits stay fun c there => ds.digits c (List.mem_cons_of_mem _ there))

/-- The digits before the point are passed, whether or not there is a sign before them. -/
theorem takes_whole (n : Nat) : ∃ b bs r t, decimalBytes n = b :: bs ∧ start? b = some r ∧
    step .minus b = .next r ∧ Takes step (fun _ => True) r bs t ∧ (t = .zero ∨ t = .digits) := by
  rcases Nat.eq_zero_or_pos n with rfl | pos
  · exact ⟨0x30, [], .zero, .zero, rfl, rfl, rfl, .nil _, Or.inl rfl⟩
  · obtain ⟨b, bs, hb, hzero, hdigits⟩ := decimalBytes_digits pos
    have digit : isDigit b = true := hdigits b List.mem_cons_self
    have sign : b ≠ 0x2D := by rintro rfl; cases digit
    refine ⟨b, bs, .digits, .digits, hb, by simp [start?, sign, hzero, digit],
      by simp [step, hzero, digit], takes_digits (fun c hc => by simp [step, hc]) fun c there =>
        hdigits c (List.mem_cons_of_mem b there), Or.inr rfl⟩

/-- An exponent is passed. -/
theorem takes_exponent {r : NumberSkipper} (h : r = .zero ∨ r = .digits ∨ r = .fraction)
    (e : ExponentText) : Takes step (fun _ => True) r e.text .power := by
  obtain ⟨capital, sign, ds⟩ := e
  have marked : ∀ b : UInt8, b = 0x45 ∨ b = 0x65 → step r b = .next .mark := by
    rintro b (rfl | rfl) <;> rcases h with rfl | rfl | rfl <;> rfl
  have power : ∀ b, isDigit b = true → step .power b = .next .power := fun b hb => by
    simp [step, hb]
  have mark : step r (if capital then 0x45 else 0x65) = .next .mark :=
    marked _ (by cases capital <;> simp)
  refine .cons mark trivial ?_
  cases sign with
  | none =>
    refine takes_dueDigits ds (fun b hb => ?_) power
    have plus : b ≠ 0x2B := by rintro rfl; cases hb
    have minus : b ≠ 0x2D := by rintro rfl; cases hb
    simp [step, plus, minus, hb]
  | some negative =>
    refine .cons (t := .markSign) (by cases negative <;> rfl) trivial ?_
    exact takes_dueDigits ds (fun b hb => by simp [step, hb]) power

/-- What stands behind the digits before the point is passed. -/
theorem takes_tail {r : NumberSkipper} (h : r = .zero ∨ r = .digits) (n : NumberText) :
    ∃ t, Takes step (fun _ => True) r (n.fractionText ++ n.exponentText) t ∧
      t.lacksDigit = false := by
  obtain ⟨negative, whole, fraction, exponent⟩ := n
  have fractional : ∃ t, Takes step (fun _ => True) r
      (NumberText.mk negative whole fraction exponent).fractionText t ∧
      (t = .zero ∨ t = .digits ∨ t = .fraction) := by
    cases fraction with
    | none => exact ⟨r, .nil r, h.imp id Or.inl⟩
    | some ds =>
      refine ⟨.fraction, .cons (t := .point) (by rcases h with rfl | rfl <;> rfl) trivial ?_,
        Or.inr (Or.inr rfl)⟩
      exact takes_dueDigits ds (fun b hb => by simp [step, hb]) fun b hb => by simp [step, hb]
  obtain ⟨t, taken, kind⟩ := fractional
  -- an exponent may follow the whole number or its fraction
  cases exponent with
  | none =>
    refine ⟨t, taken.append (.nil t), ?_⟩
    rcases kind with rfl | rfl | rfl <;> rfl
  | some e => exact ⟨.power, taken.append (takes_exponent kind e), rfl⟩

/-- **A number is passed, whatever it is**, and told by its first byte. -/
theorem gives_text (n : NumberText) : ∃ b bs r, n.text = b :: bs ∧ start? b = some r ∧
    Gives step (fun _ => True) r bs () := by
  obtain ⟨b, bs, r, t, hb, started, signed, taken, kind⟩ := takes_whole n.whole
  obtain ⟨u, others, whole⟩ := takes_tail kind n
  have ends : ∀ c, endsNumber c = true → step u c = .past () := fun _ => step_of_endsNumber whole
  rw [NumberText.text, hb]
  by_cases negative : n.negative = true
  · rw [if_pos negative]
    exact ⟨0x2D, _, .minus, rfl, rfl, .past (.cons signed trivial (taken.append others)) ends⟩
  · rw [if_neg negative]
    exact ⟨b, _, r, rfl, started, .past (taken.append others) ends⟩

end NumberSkipper

/-- A number that is kept is spelled as it is written. -/
theorem NumberText.text_of_value? {n : NumberText} {i : Int} (h : n.value? = some i) :
    n.text = integerBytes i ∧ (Scalar.integer i).isPlain = true := by
  obtain ⟨negative, whole, fraction, exponent⟩ := n
  unfold NumberText.value? at h
  simp only at h
  split at h
  · split at h
    · next sign =>
      split at h
      · next bounds =>
        obtain rfl := Option.some.inj h
        have below : (-(whole : Int)) < 0 := by omega
        refine ⟨?_, by simp [Scalar.isPlain]; omega⟩
        rw [integerBytes, if_pos below]
        simp [NumberText.text, NumberText.fractionText,
          NumberText.exponentText, sign]
      · cases h
    · next sign =>
      split at h
      · next bound =>
        obtain rfl := Option.some.inj h
        refine ⟨?_, by simp [Scalar.isPlain]; omega⟩
        rw [integerBytes, if_neg (by omega)]
        simp [NumberText.text, NumberText.fractionText,
          NumberText.exponentText, sign]
      · cases h
  · cases h

/-! ### Scalars -/

/-- A scalar that is kept has one spelling that is written. -/
theorem Token.isPlain_of_value? {t : Token} {s : Scalar} (h : t.value? = some s) :
    s.isPlain = true := by
  cases t with
  | null =>
    obtain rfl : Scalar.null = s := Option.some.inj h
    rfl
  | bool b =>
    obtain rfl : Scalar.bool b = s := Option.some.inj h
    rfl
  | number n =>
    simp only [Token.value?, Option.map_eq_some_iff] at h
    obtain ⟨i, value, rfl⟩ := h
    exact (NumberText.text_of_value? value).2
  | string spelling =>
    simp only [Token.value?, Option.map_eq_some_iff] at h
    obtain ⟨value, spelled, rfl⟩ := h
    rfl

/-- **A scalar is read off what spells it**, and told by the first byte of that. -/
theorem ScalarReader.gives_token {t : Token} {s : Scalar} (h : t.value? = some s) :
    ∃ b bs r, t.text = b :: bs ∧ start? b = some r ∧ r.Calm ∧ Gives step Calm r bs s := by
  cases t with
  | null =>
    obtain rfl : Scalar.null = s := Option.some.inj h
    exact ⟨0x6E, _, _, rfl, rfl, calm_literal _, gives_literal _ _ (by simp [ascii])⟩
  | bool b =>
    obtain rfl : Scalar.bool b = s := Option.some.inj h
    cases b with
    | true => exact ⟨0x74, _, _, rfl, rfl, calm_literal _, gives_literal _ _ (by simp [ascii])⟩
    | false => exact ⟨0x66, _, _, rfl, rfl, calm_literal _, gives_literal _ _ (by simp [ascii])⟩
  | number n =>
    simp only [Token.value?, Option.map_eq_some_iff] at h
    obtain ⟨i, value, rfl⟩ := h
    obtain ⟨text, plain⟩ := NumberText.text_of_value? value
    rw [Token.text, text]
    exact gives_integer plain
  | string spelling =>
    simp only [Token.value?, Option.map_eq_some_iff] at h
    obtain ⟨value, spelled, rfl⟩ := h
    have gives : Gives StringReader.step StringReader.Calm .start (spelling.content ++ [0x22])
        value :=
      .done (StringReader.takes_content spelled) (StringReader.step_quote value)
    exact ⟨0x22, _, .string .start, rfl, rfl, calm_string _,
      gives.map ScalarReader.string Scalar.string (fun _ _ => rfl) fun r _ => calm_string r⟩

/-- **Whatever spells a scalar is passed over**, and told by its first byte. -/
theorem ScalarSkipper.gives_token (t : Token) :
    ∃ b bs r, t.text = b :: bs ∧ start? b = some r ∧ Gives step (fun _ => True) r bs () := by
  have literal : ∀ (v : Scalar) (due : Bytes), due ≠ [] →
      Gives step (fun _ => True) (.literal ⟨due, v⟩) due () := fun v due h =>
    (LiteralReader.gives_due v due h).map ScalarSkipper.literal (fun _ => ()) (fun _ _ => rfl)
      fun _ _ => trivial
  cases t with
  | null => exact ⟨0x6E, _, _, rfl, rfl, literal _ _ (by simp [ascii])⟩
  | bool b =>
    cases b with
    | true => exact ⟨0x74, _, _, rfl, rfl, literal _ _ (by simp [ascii])⟩
    | false => exact ⟨0x66, _, _, rfl, rfl, literal _ _ (by simp [ascii])⟩
  | number n =>
    obtain ⟨b, bs, r, hb, started, gives⟩ := NumberSkipper.gives_text n
    have quote : b ≠ 0x22 := by rintro rfl; cases started
    exact ⟨b, bs, .number r, hb, by simp [start?, quote, started],
      gives.map ScalarSkipper.number id (fun _ _ => rfl) fun _ _ => trivial⟩
  | string spelling =>
    have gives : Gives StringSkipper.step (fun _ => True) .plain (spelling.content ++ [0x22]) () :=
      .done (StringSkipper.takes_content spelling) rfl
    exact ⟨0x22, _, .string .plain, rfl, rfl,
      gives.map ScalarSkipper.string id (fun _ _ => rfl) fun _ _ => trivial⟩

/-- A byte that starts a scalar that is passed over is none of those that stand between values. -/
theorem ScalarSkipper.separators_of_start? {b : UInt8} {r : ScalarSkipper}
    (h : start? b = some r) : isBlank b = false ∧ b ≠ 0x5B ∧ b ≠ 0x7B ∧ b ≠ 0x5D := by
  have none_of : ∀ c : UInt8, start? c = none → b ≠ c := by
    rintro c hc rfl
    rw [h] at hc
    exact Option.some_ne_none r hc
  refine ⟨?_, none_of _ rfl, none_of _ rfl, none_of _ rfl⟩
  simp [isBlank, none_of 0x20 rfl, none_of 0x0A rfl, none_of 0x09 rfl, none_of 0x0D rfl]

end GossipNode
