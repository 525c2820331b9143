import GossipNode.Proofs.AddressPool
import Mathlib.Algebra.BigOperators.Group.Finset.Piecewise
import Mathlib.Algebra.BigOperators.Ring.Finset
import Mathlib.Algebra.Order.Floor.Div
import Mathlib.Data.FinEnum
import Mathlib.Order.Interval.Finset.Nat

/-!
# How random indices are made

A word `w` lands, for indices below `n`, at the place `w * n` of the numbers below `n * 2 ^ 64`.
These are made up of `n` stretches of `2 ^ 64` places, one for each index, and a word is accepted if
it lands among the first `n * 2 ^ k` places of a stretch, where `k` is the number of zeros in front
of `n`.  Words land `n` places apart: whatever the first place of a stretch is, there are just
`2 ^ k` words that land among the first `n * 2 ^ k` places from it on.  So every index is made from
equally many words, which follow one another.

## Main definitions

* `RandomIndex.share` — from how many words each index is made.
* `RandomIndex.firstWord` — the least word from which an index is made.

## Main results

* `RandomIndex.accepted_ofWord_iff` — the words from which an index is made.
* `RandomIndex.card_ofWord` — **every index is made from equally many words.**
* `RandomIndex.card_accepted` — how many words are accepted.
* `RandomIndex.sum_words` — a sum over all words, index by index.
* `RandomIndex.draw_eq` — the index is made from the first word that is accepted.
-/

namespace GossipNode

namespace RandomIndex

variable {n i : Nat} {w : UInt64}

/-- From how many words each index is made. -/
def share (n : Nat) : Nat := 2 ^ leadingZeros n

/-- The least word from which an index is made. -/
def firstWord (n i : Nat) : Nat := i * 2 ^ 64 ⌈/⌉ n

/-! ### Which words are accepted -/

/-- With as many zeros behind it as it has in front, a number takes 64 binary digits. -/
theorem mul_share (positive : 0 < n) (small : n < 2 ^ 64) :
    2 ^ 63 ≤ n * share n ∧ n * share n < 2 ^ 64 := by
  have least : 2 ^ n.log2 ≤ n := Nat.log2_self_le positive.ne'
  have most : n < 2 ^ (n.log2 + 1) := Nat.lt_log2_self
  have short : n.log2 ≤ 63 := Nat.le_of_lt_succ ((Nat.log2_lt positive.ne').mpr small)
  have filled : 2 ^ n.log2 * share n = 2 ^ 63 := by
    rw [share, leadingZeros, if_neg positive.ne', ← Nat.pow_add, Nat.add_sub_cancel' short]
  constructor
  · rw [← filled]
    exact Nat.mul_le_mul_right _ least
  · calc n * share n < 2 ^ (n.log2 + 1) * share n :=
          Nat.mul_lt_mul_of_pos_right most (Nat.two_pow_pos _)
      _ = 2 ^ 63 * 2 := by rw [Nat.pow_succ, Nat.mul_right_comm, filled]
      _ = 2 ^ 64 := rfl

/-- A word is accepted if it lands among the first `n * share n` places of a stretch. -/
theorem accepts_iff (positive : 0 < n) (small : n < 2 ^ 64) :
    accepts n w = true ↔ w.toNat * n % 2 ^ 64 < n * share n := by
  obtain ⟨least, most⟩ := mul_share positive small
  have limit : zone n = n * share n - 1 := by
    rw [zone, Nat.pow_eq, Nat.pow_eq, ← share]
    omega
  rw [accepts, decide_eq_true_iff, limit, Nat.pow_eq]
  omega

theorem accepts_zero (n : Nat) : accepts n 0 = true := by
  rw [accepts, UInt64.toNat_zero, Nat.zero_mul, Nat.zero_mod]
  exact decide_eq_true (Nat.zero_le _)

/-- **The words from which an index is made** follow one another. -/
theorem accepted_ofWord_iff (positive : 0 < n) (small : n < 2 ^ 64) :
    accepts n w = true ∧ ofWord n w = i ↔
      firstWord n i ≤ w.toNat ∧ w.toNat < firstWord n i + share n := by
  have most := (mul_share positive small).2
  -- Where these words land.
  have places : accepts n w = true ∧ ofWord n w = i ↔
      i * 2 ^ 64 ≤ n * w.toNat ∧ n * w.toNat < i * 2 ^ 64 + n * share n := by
    rw [accepts_iff positive small, ofWord, Nat.pow_eq, Nat.mul_comm w.toNat]
    omega
  have least (v : Nat) : firstWord n i ≤ v ↔ i * 2 ^ 64 ≤ n * v := by
    rw [firstWord, ceilDiv_le_iff_le_mul positive]
  rw [places, least]
  refine and_congr_right fun _ => ?_
  rw [← not_le, ← not_le, not_iff_not]
  -- A share of words further on is `n * share n` places further on.
  rcases Nat.lt_or_ge w.toNat (share n) with few | many
  · have := Nat.mul_lt_mul_of_pos_left few positive
    omega
  · obtain ⟨v, same⟩ := Nat.exists_eq_add_of_le' many
    rw [same, Nat.add_le_add_iff_right, least, Nat.mul_add, Nat.add_le_add_iff_right]

/-! ### How many words there are -/

theorem card_word : Fintype.card UInt64 = 2 ^ 64 :=
  FinEnum.card_eq_fintypeCard.symm.trans FinEnum.card_UInt64

/-- There is one word to each number below `2 ^ 64`. -/
theorem card_words {first count : Nat} (below : first + count ≤ 2 ^ 64) :
    (Finset.univ.filter fun w : UInt64 =>
      first ≤ w.toNat ∧ w.toNat < first + count).card = count := by
  have numbers : (Finset.Ico first (first + count)).card = count := by
    rw [Nat.card_Ico, Nat.add_sub_cancel_left]
  refine Eq.trans (Finset.card_bij (fun (w : UInt64) _ => w.toNat) ?_ ?_ ?_) numbers
  · intro w there
    exact Finset.mem_Ico.mpr (Finset.mem_filter.mp there).2
  · intro v _ w _ same
    exact UInt64.toNat_inj.mp same
  · intro v there
    have range := Finset.mem_Ico.mp there
    have word : (UInt64.ofNat v).toNat = v := UInt64.toNat_ofNat_of_lt' (by
      rw [show UInt64.size = 2 ^ 64 from rfl]
      omega)
    refine ⟨UInt64.ofNat v, Finset.mem_filter.mpr ⟨Finset.mem_univ _, ?_⟩, word⟩
    rw [word]
    exact range

/-- **Every index is made from equally many words.** -/
theorem card_ofWord (positive : 0 < n) (small : n < 2 ^ 64) (inside : i < n) :
    (Finset.univ.filter fun w : UInt64 => accepts n w = true ∧ ofWord n w = i).card = share n := by
  simp only [accepted_ofWord_iff positive small]
  have most := (mul_share positive small).2
  have fits : share n ≤ 2 ^ 64 :=
    Nat.le_trans (Nat.le_mul_of_pos_left _ positive) (Nat.le_of_lt most)
  -- Even the last stretch begins early enough for a whole share of words.
  have early : i * 2 ^ 64 + n * share n ≤ n * 2 ^ 64 :=
    calc i * 2 ^ 64 + n * share n ≤ i * 2 ^ 64 + 2 ^ 64 :=
          Nat.add_le_add_left (Nat.le_of_lt most) _
      _ = (i + 1) * 2 ^ 64 := (Nat.succ_mul i _).symm
      _ ≤ n * 2 ^ 64 := Nat.mul_le_mul_right _ inside
  have first : firstWord n i ≤ 2 ^ 64 - share n := by
    rw [firstWord, ceilDiv_le_iff_le_mul positive, Nat.mul_sub]
    exact Nat.le_sub_of_add_le early
  exact card_words (Nat.add_le_of_le_sub fits first)

/-- A sum over the accepted words, index by index: each index has its share of them. -/
theorem sum_accepted (positive : 0 < n) (small : n < 2 ^ 64) (f : Nat → Nat) :
    (∑ w : UInt64 with accepts n w = true, f (ofWord n w)) =
      share n * ∑ i ∈ Finset.range n, f i := by
  have indices : ∀ w ∈ Finset.univ.filter fun w : UInt64 => accepts n w = true,
      ofWord n w ∈ Finset.range n := fun w _ => Finset.mem_range.mpr (ofWord_lt positive w)
  have each : ∀ i ∈ Finset.range n,
      (∑ w ∈ (Finset.univ.filter fun w : UInt64 => accepts n w = true) with ofWord n w = i,
        f (ofWord n w)) = share n * f i := by
    intro i inside
    rw [Finset.sum_congr rfl fun w there => by rw [(Finset.mem_filter.mp there).2],
      Finset.sum_const, Finset.filter_filter,
      card_ofWord positive small (Finset.mem_range.mp inside), smul_eq_mul]
  rw [← Finset.sum_fiberwise_of_maps_to indices, Finset.sum_congr rfl each, Finset.mul_sum]

/-- How many words are accepted. -/
theorem card_accepted (positive : 0 < n) (small : n < 2 ^ 64) :
    (Finset.univ.filter fun w : UInt64 => accepts n w = true).card = n * share n := by
  rw [Finset.card_eq_sum_ones, sum_accepted positive small fun _ => 1, ← Finset.card_eq_sum_ones,
    Finset.card_range, Nat.mul_comm]

/-- How many words are not accepted. -/
theorem card_rejected (positive : 0 < n) (small : n < 2 ^ 64) :
    (Finset.univ.filter fun w : UInt64 => ¬accepts n w = true).card = 2 ^ 64 - n * share n := by
  have whole := Finset.card_filter_add_card_filter_not (s := (Finset.univ : Finset UInt64))
    (fun w => accepts n w = true)
  rw [card_accepted positive small, Finset.card_univ, card_word] at whole
  exact Nat.eq_sub_of_add_eq' whole

/-- **A sum over all words**: of what belongs to an index, each has its share, and what belongs to
no index counts once for each of the other words. -/
theorem sum_words (positive : 0 < n) (small : n < 2 ^ 64) (f : Nat → Nat) (other : Nat) :
    (∑ w : UInt64, if accepts n w = true then f (ofWord n w) else other) =
      share n * (∑ i ∈ Finset.range n, f i) + (2 ^ 64 - n * share n) * other := by
  rw [Finset.sum_ite, sum_accepted positive small, Finset.sum_const,
    card_rejected positive small, smul_eq_mul]

/-! ### Drawing words -/

/-- **The index is made from the first word that is accepted**, which is zero if none of those that
are left is. -/
theorem draw_eq (n : Nat) (words : List UInt64) (drawn : Nat) :
    draw n words drawn =
      (ofWord n (words.getD (words.findIdx (accepts n)) 0),
        ⟨words.drop (words.findIdx (accepts n) + 1), drawn + (words.findIdx (accepts n) + 1)⟩) := by
  induction words generalizing drawn with
  | nil =>
    rw [draw, List.findIdx_nil, List.getD_nil, ofWord, UInt64.toNat_zero, Nat.zero_mul,
      Nat.zero_div, List.drop_nil]
  | cons w words ih =>
    rw [draw, List.findIdx_cons]
    cases accepted : accepts n w with
    | true => rfl
    | false =>
      rw [if_neg Bool.false_ne_true, ih, Nat.add_assoc, Nat.add_comm 1]
      rfl

/-- That word is accepted. -/
theorem accepts_getD_findIdx (n : Nat) (words : List UInt64) :
    accepts n (words.getD (words.findIdx (accepts n)) 0) = true := by
  rw [List.getD_eq_getElem?_getD]
  rcases Nat.lt_or_ge (words.findIdx (accepts n)) words.length with among | past
  · rw [List.getElem?_eq_getElem among, Option.getD_some]
    exact List.findIdx_getElem
  · rw [List.getElem?_eq_none past]
    exact accepts_zero n

end RandomIndex

end GossipNode
