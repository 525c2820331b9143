import GossipNode.Text.Utf8

/-!
# Decoding undoes encoding

Whatever text is written in UTF-8 is read back from its bytes.

## Main results

* `Utf8.decodeChar?_encodeChar` — one character, with anything behind it.
* `ofUtf8?_utf8` — **a text is read back from its bytes.**
-/

namespace GossipNode

namespace Utf8

theorem tailBits?_tail (n : Nat) : tailBits? (tail n) = some (n % 64) := by
  have h : (tail n).toNat = 0x80 + n % 64 := by
    rw [tail, UInt8.toNat_ofNat', Nat.mod_eq_of_lt (by omega)]
  have low : (0x80 : UInt8) ≤ tail n := by
    rw [UInt8.le_iff_toNat_le, h]; simp
  have high : tail n < (0xC0 : UInt8) := by
    rw [UInt8.lt_iff_toNat_lt, h]; simp; omega
  simp [tailBits?, low, high, h]

/-- A character is the scalar value of its own number. -/
theorem scalar?_toNat (c : Char) (least : Nat) {n : Nat} (hn : n = c.toNat) (h : least ≤ n) :
    scalar? least n = some c := by
  subst hn
  have valid : c.toNat.isValidChar := c.valid
  simp [scalar?, h, valid, Char.ofNat_toNat]

/-- The number of a character is below the end of the last plane. -/
theorem toNat_lt (c : Char) : c.toNat < 0x110000 := by
  have valid : c.toNat.isValidChar := c.valid
  rcases valid with h | h <;> omega

theorem decodeChar?_encodeChar (c : Char) (rest : Bytes) : ∃ a others, encodeChar c = a :: others ∧
    decodeChar? a (others ++ rest) = some (c, rest) := by
  have top := toNat_lt c
  unfold encodeChar
  simp only
  by_cases h₁ : c.toNat < 0x80
  · refine ⟨_, _, if_pos h₁, ?_⟩
    have ha : (UInt8.ofNat c.toNat).toNat = c.toNat := by
      rw [UInt8.toNat_ofNat', Nat.mod_eq_of_lt (by omega)]
    have low : UInt8.ofNat c.toNat < 0x80 := by
      rw [UInt8.lt_iff_toNat_lt, ha]; simpa using h₁
    unfold decodeChar?
    rw [if_pos low, ha, Char.ofNat_toNat]
    rfl
  rw [if_neg h₁]
  by_cases h₂ : c.toNat < 0x800
  · refine ⟨_, _, if_pos h₂, ?_⟩
    have ha : (UInt8.ofNat (0xC0 + c.toNat / 64)).toNat = 0xC0 + c.toNat / 64 := by
      rw [UInt8.toNat_ofNat', Nat.mod_eq_of_lt (by omega)]
    have hc := scalar?_toNat c 0x80
      (n := c.toNat / 64 * 64 + c.toNat % 64) (by omega) (by omega)
    unfold decodeChar?
    simp only [UInt8.lt_iff_toNat_lt, ha, UInt8.reduceToNat]
    rw [if_neg (by omega), if_neg (by omega), if_pos (by omega)]
    simp [tailBits?_tail, hc]
  rw [if_neg h₂]
  by_cases h₃ : c.toNat < 0x10000
  · refine ⟨_, _, if_pos h₃, ?_⟩
    have ha : (UInt8.ofNat (0xE0 + c.toNat / 4096)).toNat = 0xE0 + c.toNat / 4096 := by
      rw [UInt8.toNat_ofNat', Nat.mod_eq_of_lt (by omega)]
    have hc := scalar?_toNat c 0x800
      (n := (c.toNat / 4096 * 64 + c.toNat / 64 % 64) * 64 + c.toNat % 64)
      (by omega) (by omega)
    unfold decodeChar?
    simp only [UInt8.lt_iff_toNat_lt, ha, UInt8.reduceToNat]
    rw [if_neg (by omega), if_neg (by omega), if_neg (by omega), if_pos (by omega)]
    simp [tailBits?_tail, hc]
  · refine ⟨_, _, if_neg h₃, ?_⟩
    have ha : (UInt8.ofNat (0xF0 + c.toNat / 262144)).toNat = 0xF0 + c.toNat / 262144 := by
      rw [UInt8.toNat_ofNat', Nat.mod_eq_of_lt (by omega)]
    have hc := scalar?_toNat c 0x10000
      (n := ((c.toNat / 262144 * 64 + c.toNat / 4096 % 64) * 64 + c.toNat / 64 % 64) * 64
        + c.toNat % 64) (by omega) (by omega)
    unfold decodeChar?
    simp only [UInt8.lt_iff_toNat_lt, ha, UInt8.reduceToNat]
    rw [if_neg (by omega), if_neg (by omega), if_neg (by omega), if_neg (by omega),
      if_pos (by omega)]
    simp [tailBits?_tail, hc]

@[simp] theorem encode_cons (c : Char) (cs : List Char) :
    encode (c :: cs) = encodeChar c ++ encode cs := rfl

/-- As many rounds as there are bytes are enough to read everything. -/
theorem decodeLoop_encode (cs : List Char) : ∀ (rounds : Bytes) (seen : List Char),
    (encode cs).length ≤ rounds.length →
      decodeLoop rounds (encode cs) seen = some (seen.reverse ++ cs) := by
  induction cs with
  | nil =>
    intro rounds seen _
    cases rounds <;> simp [encode, decodeLoop]
  | cons c cs ih =>
    intro rounds seen enough
    obtain ⟨a, others, hc, hread⟩ := decodeChar?_encodeChar c (encode cs)
    rw [encode_cons, hc, List.cons_append] at enough ⊢
    cases rounds with
    | nil => simp at enough
    | cons _ rounds =>
      rw [decodeLoop, hread]
      simp only
      rw [ih rounds (c :: seen) (by simp at enough ⊢; omega)]
      simp

theorem decode?_encode (cs : List Char) : decode? (encode cs) = some cs := by
  rw [decode?, decodeLoop_encode cs _ _ (Nat.le_refl _)]
  rfl

end Utf8

/-- **A text is read back from its bytes.** -/
theorem ofUtf8?_utf8 (s : String) : ofUtf8? (utf8 s) = some s := by
  rw [ofUtf8?, utf8, Utf8.decode?_encode, Option.map_some, String.ofList_toList]

end GossipNode
