import GossipNode.Json.ScalarReader
import GossipNode.Proofs.Json.Taking
import GossipNode.Proofs.Text.Utf8

/-!
# Reading scalars

What the readers of strings, numbers and literals do with the bytes of each: at no byte in between
is there anything to complain of.

## Main definitions

* `NumberReader.IsWhole` — a number that has neither fraction nor exponent so far.
* `Scalar.isPlain` — scalars that have one spelling: all but binary64 numbers and whole numbers
  beyond 64 bits.

## Main results

* `NumberReader.takes_decimalBytes` — natural numbers.
* `ScalarReader.gives_integer` — whole numbers of 64 bits.
* `ScalarReader.gives_literal` — literals.
-/

namespace GossipNode

/-! ### Strings -/

namespace StringReader

/-- Nothing is ever wrong with a string that is cut short. -/
abbrev Calm (_ : StringReader) : Prop := True

/-- An escape of two characters leads to the byte it stands for. -/
theorem takes_shortEscape {content : Bytes} {e b : UInt8} (he : e ≠ 0x75)
    (h : shortEscape? e = some b) :
    Takes step Calm ⟨content, .plain⟩ [0x5C, e] ⟨b :: content, .plain⟩ := by
  refine .cons (t := ⟨content, .escape⟩) (by simp [step]) trivial (.single ?_ trivial)
  simp only [step, if_neg he, h]

/-- The closing quote gives the string whose bytes have been collected. -/
theorem step_quote (s : String) : step ⟨(utf8 s).reverse, .plain⟩ 0x22 = .done s := by
  simp [step, ofUtf8?_utf8]

end StringReader

/-! ### Whole numbers -/

/-- The character of a decimal digit as a byte. -/
theorem digit_facts : ∀ d : Fin 10, isDigit (UInt8.ofNat (Nat.digitChar d).toNat) = true ∧
    digitValue (UInt8.ofNat (Nat.digitChar d).toNat) = d.val ∧
    (UInt8.ofNat (Nat.digitChar d).toNat = 0x30 → d.val = 0) := by
  decide

theorem decimalBytes_of_lt {n : Nat} (h : n < 10) :
    decimalBytes n = [UInt8.ofNat (Nat.digitChar n).toNat] := by
  simp [decimalBytes, ascii, Nat.toDigits_of_lt_base h]

theorem decimalBytes_of_le {n : Nat} (h : 10 ≤ n) :
    decimalBytes n = decimalBytes (n / 10) ++ [UInt8.ofNat (Nat.digitChar (n % 10)).toNat] := by
  simp [decimalBytes, ascii, Nat.toDigits_of_base_le (by omega) h]

namespace NumberReader

/-- A number with a given sign that has neither fraction nor exponent so far. -/
def IsWhole (negative : Bool) (r : NumberReader) : Prop :=
  r.negative = negative ∧
    match r.stage with
    | .minus | .zero | .digits _ => True
    | _ => False

/-- A number that can be whole is never refused for being cut short. -/
theorem IsWhole.atEnd_ne_refuse {negative : Bool} {r : NumberReader} (h : r.IsWhole negative)
    (fault : Fault) : r.atEnd ≠ .refuse fault := by
  obtain ⟨sign, stage⟩ := r
  cases stage <;> simp_all [IsWhole, atEnd, value?]

/-- A number without a minus sign is none of those that are not natural. -/
theorem IsWhole.atEnd_natural {r : NumberReader} (h : r.IsWhole false) {v : Scalar}
    (hv : r.atEnd = .whole v) : ∃ n : Nat, v = .integer n := by
  obtain ⟨sign, stage⟩ := r
  cases stage with
  | zero => exact ⟨0, by simp_all [IsWhole, atEnd, value?, wholeValue]⟩
  | digits s => exact ⟨s, by simp_all [IsWhole, atEnd, value?, wholeValue]⟩
  | minus => simp [atEnd, value?] at hv
  | _ => simp [IsWhole] at h

/-- Digits are taken one by one; what is collected is the number itself. -/
theorem takes_decimalBytes (negative : Bool) (n : Nat) (hpos : 0 < n) (hn : n ≤ maxUnsigned64) :
    ∃ b bs, decimalBytes n = b :: bs ∧ isDigit b = true ∧ b ≠ 0x30 ∧
      Takes step (IsWhole negative) ⟨negative, .digits (digitValue b)⟩ bs
        ⟨negative, .digits n⟩ := by
  induction n using Nat.strongRecOn with
  | ind n ih =>
    by_cases small : n < 10
    · obtain ⟨hdigit, hvalue, hzero⟩ := digit_facts ⟨n, small⟩
      refine ⟨_, [], decimalBytes_of_lt small, hdigit, fun h => ?_, ?_⟩
      · have := hzero h; simp only at this; omega
      · simp only [hvalue]; exact .nil _
    · obtain ⟨b, bs, hb, hdigit, hzero, htakes⟩ :=
        ih (n / 10) (by omega) (by omega) (by omega)
      obtain ⟨hlast, hvalue, -⟩ := digit_facts ⟨n % 10, by omega⟩
      refine ⟨b, _, by rw [decimalBytes_of_le (by omega), hb, List.cons_append], hdigit, hzero,
        htakes.snoc ?_ ⟨rfl, trivial⟩⟩
      have longer : n / 10 * 10 + n % 10 = n := by omega
      simp only at hlast hvalue
      simp only [step, hlast, if_true, digit, hvalue, longer, if_pos hn]

/-- A whole number ends before the first byte that is no digit, point or exponent mark. -/
theorem step_digits_of_endsNumber {negative : Bool} {s : Nat} {b : UInt8}
    (hb : endsNumber b = true) :
    step ⟨negative, .digits s⟩ b = .past (wholeValue negative s) := by
  simp only [endsNumber, Bool.and_eq_true, Bool.not_eq_true', decide_eq_true_eq] at hb
  obtain ⟨⟨⟨hdigit, hpoint⟩, he⟩, hE⟩ := hb
  simp [step, hdigit, turnOrClose, turn?, hpoint, he, hE, close, value?]

theorem step_zero_of_endsNumber {negative : Bool} {b : UInt8} (hb : endsNumber b = true) :
    step ⟨negative, .zero⟩ b = .past (wholeValue negative 0) := by
  simp only [endsNumber, Bool.and_eq_true, Bool.not_eq_true', decide_eq_true_eq] at hb
  obtain ⟨⟨⟨hdigit, hpoint⟩, he⟩, hE⟩ := hb
  simp [step, hdigit, turnOrClose, turn?, hpoint, he, hE, close, value?]

/-- A byte that starts a number with a digit other than zero. -/
theorem start?_of_isDigit {b : UInt8} (hdigit : isDigit b = true) (hzero : b ≠ 0x30) :
    start? b = some ⟨false, .digits (digitValue b)⟩ := by
  have hminus : b ≠ 0x2D := by rintro rfl; simp [isDigit] at hdigit
  simp [start?, hminus, hzero, hdigit]

/-- Natural numbers of 64 bits are read back, without a minus sign in between. -/
theorem gives_decimalBytes (n : Nat) (hn : n ≤ maxUnsigned64) :
    ∃ b bs r, decimalBytes n = b :: bs ∧ start? b = some r ∧ r.IsWhole false ∧
      Gives step (IsWhole false) r bs (.integer n) := by
  rcases Nat.eq_zero_or_pos n with rfl | hpos
  · refine ⟨0x30, [], ⟨false, .zero⟩, rfl, rfl, ⟨rfl, trivial⟩, .past (.nil _) fun b hb => ?_⟩
    rw [step_zero_of_endsNumber hb]
    rfl
  · obtain ⟨b, bs, hb, hdigit, hzero, htakes⟩ := takes_decimalBytes false n hpos hn
    exact ⟨b, bs, _, hb, start?_of_isDigit hdigit hzero, ⟨rfl, trivial⟩,
      .past htakes fun b hb => step_digits_of_endsNumber hb⟩

/-- Negative numbers of 64 bits are read back. -/
theorem gives_negative (n : Nat) (hpos : 0 < n) (hn : n ≤ 9223372036854775808) :
    Gives step (IsWhole true) ⟨true, .minus⟩ (decimalBytes n) (.integer (-n)) := by
  have least : Nat.pow 2 63 = 9223372036854775808 := rfl
  have greatest : maxUnsigned64 = 18446744073709551615 := rfl
  obtain ⟨b, bs, hb, hdigit, hzero, htakes⟩ := takes_decimalBytes true n hpos (by omega)
  rw [hb]
  refine .past (.cons (by simp [step, hzero, hdigit]) ⟨rfl, trivial⟩ htakes) fun b hb => ?_
  rw [step_digits_of_endsNumber hb, wholeValue, if_pos rfl, if_neg (by omega)]

end NumberReader

/-! ### Scalars -/

/-- What is due of a literal is read, byte by byte. -/
theorem LiteralReader.gives_due (v : Scalar) (due : Bytes) (h : due ≠ []) :
    Gives LiteralReader.step (fun _ => True) ⟨due, v⟩ due v := by
  induction due with
  | nil => exact absurd rfl h
  | cons c due ih =>
    cases due with
    | nil =>
      have taken : Takes LiteralReader.step (fun _ => True) ⟨[c], v⟩ [] ⟨[c], v⟩ := .nil _
      exact .done taken (by simp [LiteralReader.step])
    | cons c' due =>
      have first : LiteralReader.step ⟨c :: c' :: due, v⟩ c = .next ⟨c' :: due, v⟩ := by
        simp [LiteralReader.step]
      exact .prepend (.single first trivial) (ih (by simp))

/-- Whether a scalar has one spelling that keeps all of it: a whole number must have 64 bits, and
numbers that are not whole are left out. -/
def Scalar.isPlain : Scalar → Bool
  | .null | .bool _ | .string _ => true
  | .integer n => -9223372036854775808 ≤ n && n ≤ 18446744073709551615
  | .float _ => false

namespace ScalarReader

/-- The text may end here without being wrong. -/
def Calm (r : ScalarReader) : Prop := ∀ fault, r.atEnd ≠ .refuse fault

theorem calm_literal (r : LiteralReader) : Calm (.literal r) := by
  intro fault; simp [atEnd]

theorem calm_string (r : StringReader) : Calm (.string r) := by
  intro fault; simp [atEnd]

theorem calm_number {negative : Bool} {r : NumberReader} (h : r.IsWhole negative) :
    Calm (.number r) :=
  h.atEnd_ne_refuse

/-- A number inside a scalar. -/
theorem gives_number {negative : Bool} {r : NumberReader} {bs : Bytes} {v : Scalar}
    (h : Gives NumberReader.step (NumberReader.IsWhole negative) r bs v) :
    Gives step Calm (.number r) bs v :=
  h.map ScalarReader.number id (fun _ _ => rfl) fun _ h => calm_number h

/-- A literal inside a scalar. -/
theorem gives_literal (v : Scalar) (due : Bytes) (h : due ≠ []) :
    Gives step Calm (.literal ⟨due, v⟩) due v :=
  (LiteralReader.gives_due v due h).map ScalarReader.literal id (fun _ _ => rfl) fun r _ =>
    calm_literal r

theorem gives_integer {n : Int} (h : (Scalar.integer n).isPlain = true) :
    ∃ b bs r, integerBytes n = b :: bs ∧ start? b = some r ∧ r.Calm ∧
      Gives step Calm r bs (.integer n) := by
  simp only [Scalar.isPlain, Bool.and_eq_true, decide_eq_true_eq] at h
  by_cases negative : n < 0
  · have hgives := NumberReader.gives_negative n.natAbs (by omega) (by omega)
    rw [show -(n.natAbs : Int) = n by omega] at hgives
    exact ⟨0x2D, _, .number ⟨true, .minus⟩, by rw [integerBytes, if_pos negative], rfl,
      calm_number ⟨rfl, trivial⟩, gives_number hgives⟩
  · have greatest : maxUnsigned64 = 18446744073709551615 := rfl
    obtain ⟨b, bs, r, hb, hstart, hwhole, hgives⟩ := NumberReader.gives_decimalBytes n.natAbs
      (by omega)
    rw [show (n.natAbs : Int) = n by omega] at hgives
    have hquote : b ≠ 0x22 := by rintro rfl; simp [NumberReader.start?, isDigit] at hstart
    exact ⟨b, bs, .number r, by rw [integerBytes, if_neg negative, hb],
      by simp [start?, hquote, hstart], calm_number hwhole, gives_number hgives⟩

/-- A byte that starts a scalar is none of those that stand between values. -/
theorem separators_of_start? {b : UInt8} {r : ScalarReader} (h : start? b = some r) :
    isBlank b = false ∧ b ≠ 0x5B ∧ b ≠ 0x7B ∧ b ≠ 0x5D ∧ b ≠ 0x7D := by
  have none_of : ∀ c : UInt8, start? c = none → b ≠ c := by
    rintro c hc rfl
    rw [h] at hc
    exact Option.some_ne_none r hc
  refine ⟨?_, none_of _ rfl, none_of _ rfl, none_of _ rfl, none_of _ rfl⟩
  simp [isBlank, none_of 0x20 rfl, none_of 0x0A rfl, none_of 0x09 rfl, none_of 0x0D rfl]

end ScalarReader

end GossipNode
