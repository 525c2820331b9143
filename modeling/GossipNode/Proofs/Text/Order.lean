import GossipNode.Text.Utf8

/-!
# The order of texts is the order of their bytes

Texts are ordered by the numbers of their characters.  UTF-8 keeps that order: of two characters
the one with the greater number has the greater bytes, and none begins with another.

## Main results

* `Utf8.encodeChar_lt` — two characters, with anything behind them.
* `utf8_lt_utf8` — **one text comes before another just if its bytes do.**
-/

namespace GossipNode

namespace Utf8

theorem ofNat_lt_ofNat {m n : Nat} (h : m < n) (small : n < 256) :
    UInt8.ofNat m < UInt8.ofNat n := by
  rw [UInt8.lt_iff_toNat_lt, UInt8.toNat_ofNat', UInt8.toNat_ofNat', Nat.mod_eq_of_lt small,
    Nat.mod_eq_of_lt (Nat.lt_trans h small)]
  exact h

/-- Of two bytes that continue characters the one that carries more is the greater one. -/
theorem tail_lt_tail {m n : Nat} (h : m % 64 < n % 64) : tail m < tail n :=
  ofNat_lt_ofNat (by omega) (by omega)

theorem tail_congr {m n : Nat} (h : m % 64 = n % 64) : tail m = tail n := by
  rw [tail, tail, h]

theorem cons_lt_cons {a b : UInt8} {as bs : Bytes} (h : a < b ∨ a = b ∧ as < bs) :
    a :: as < b :: bs :=
  List.cons_lt_cons_iff.2 h

/-- Of two stretches that carry numbers to the base of sixty-four the first byte that differs
decides. -/
theorem tail_cons_lt {m n : Nat} {as bs : Bytes}
    (h : m % 64 < n % 64 ∨ m % 64 = n % 64 ∧ as < bs) : tail m :: as < tail n :: bs :=
  cons_lt_cons (h.imp tail_lt_tail fun ⟨same, later⟩ => ⟨tail_congr same, later⟩)

/-- The greater character has the greater bytes, and begins with no other. -/
theorem encodeChar_lt {c d : Char} (h : c < d) (as bs : Bytes) :
    encodeChar c ++ as < encodeChar d ++ bs := by
  have less : c.toNat < d.toNat := h
  have last : d.toNat < 0x110000 := by
    have valid : d.toNat.isValidChar := d.valid
    rcases valid with h | h <;> omega
  unfold encodeChar
  simp only
  generalize c.toNat = m at less
  generalize d.toNat = n at less last
  -- A longer spelling has a greater first byte; among those of one length the digits decide.
  by_cases one : n < 0x80
  · rw [if_pos one, if_pos (Nat.lt_trans less one)]
    exact cons_lt_cons (Or.inl (ofNat_lt_ofNat less (by omega)))
  rw [if_neg one]
  by_cases two : n < 0x800
  · rw [if_pos two]
    by_cases short : m < 0x80
    · rw [if_pos short]
      exact cons_lt_cons (Or.inl (ofNat_lt_ofNat (by omega) (by omega)))
    rw [if_neg short, if_pos (Nat.lt_trans less two)]
    by_cases first : m / 64 < n / 64
    · exact cons_lt_cons (Or.inl (ofNat_lt_ofNat (by omega) (by omega)))
    · have same : m / 64 = n / 64 := by omega
      rw [same]
      exact cons_lt_cons (Or.inr ⟨rfl, tail_cons_lt (Or.inl (by omega))⟩)
  rw [if_neg two]
  by_cases three : n < 0x10000
  · rw [if_pos three]
    by_cases short : m < 0x80
    · rw [if_pos short]
      exact cons_lt_cons (Or.inl (ofNat_lt_ofNat (by omega) (by omega)))
    rw [if_neg short]
    by_cases short : m < 0x800
    · rw [if_pos short]
      exact cons_lt_cons (Or.inl (ofNat_lt_ofNat (by omega) (by omega)))
    rw [if_neg short, if_pos (Nat.lt_trans less three)]
    by_cases first : m / 4096 < n / 4096
    · exact cons_lt_cons (Or.inl (ofNat_lt_ofNat (by omega) (by omega)))
    · have same : m / 4096 = n / 4096 := by omega
      rw [same]
      refine cons_lt_cons (Or.inr ⟨rfl, ?_⟩)
      by_cases second : m / 64 < n / 64
      · exact tail_cons_lt (Or.inl (by omega))
      · exact tail_cons_lt (Or.inr ⟨by omega, tail_cons_lt (Or.inl (by omega))⟩)
  rw [if_neg three]
  by_cases short : m < 0x80
  · rw [if_pos short]
    exact cons_lt_cons (Or.inl (ofNat_lt_ofNat (by omega) (by omega)))
  rw [if_neg short]
  by_cases short : m < 0x800
  · rw [if_pos short]
    exact cons_lt_cons (Or.inl (ofNat_lt_ofNat (by omega) (by omega)))
  rw [if_neg short]
  by_cases short : m < 0x10000
  · rw [if_pos short]
    exact cons_lt_cons (Or.inl (ofNat_lt_ofNat (by omega) (by omega)))
  rw [if_neg short]
  by_cases first : m / 262144 < n / 262144
  · exact cons_lt_cons (Or.inl (ofNat_lt_ofNat (by omega) (by omega)))
  · have same : m / 262144 = n / 262144 := by omega
    rw [same]
    refine cons_lt_cons (Or.inr ⟨rfl, ?_⟩)
    by_cases second : m / 4096 < n / 4096
    · exact tail_cons_lt (Or.inl (by omega))
    · refine tail_cons_lt (Or.inr ⟨by omega, ?_⟩)
      by_cases third : m / 64 < n / 64
      · exact tail_cons_lt (Or.inl (by omega))
      · exact tail_cons_lt (Or.inr ⟨by omega, tail_cons_lt (Or.inl (by omega))⟩)

theorem encodeChar_ne_nil (c : Char) : encodeChar c ≠ [] := by
  unfold encodeChar
  simp only
  repeat' split
  all_goals simp

theorem encode_lt_encode {cs ds : List Char} (h : cs < ds) : encode cs < encode ds := by
  induction ds generalizing cs with
  | nil => exact absurd h (List.not_lt_nil cs)
  | cons d ds ih =>
    cases cs with
    | nil =>
      obtain ⟨b, bs, hb⟩ := List.exists_cons_of_ne_nil (encodeChar_ne_nil d)
      show [] < encodeChar d ++ encode ds
      rw [hb]
      exact List.nil_lt_cons _ _
    | cons c cs =>
      show encodeChar c ++ encode cs < encodeChar d ++ encode ds
      rcases List.cons_lt_cons_iff.1 h with less | ⟨rfl, less⟩
      · exact encodeChar_lt less _ _
      · exact List.append_left_lt (ih less)

end Utf8

/-- **One text comes before another just if its bytes do.** -/
theorem utf8_lt_utf8 {s t : String} : utf8 s < utf8 t ↔ s < t := by
  constructor
  · intro less
    by_cases before : t ≤ s
    · -- then the bytes of `t` are the same or come first as well
      by_cases after : s ≤ t
      · rw [String.le_antisymm after before] at less
        exact absurd less (List.lt_irrefl _)
      · have swapped := Utf8.encode_lt_encode (String.lt_iff.1 (String.not_le.1 after))
        exact absurd (List.lt_trans less swapped) (List.lt_irrefl _)
    · exact String.not_le.1 before
  · exact fun less => Utf8.encode_lt_encode (String.lt_iff.1 less)

end GossipNode
