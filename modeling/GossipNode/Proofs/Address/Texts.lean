import GossipNode.Address.Host
import Mathlib.Data.Nat.Digits.Lemmas
import Mathlib.Tactic.IntervalCases

/-!
# The texts of addresses

A dialer is given an address as a text, which may be one of many: a port may have zeros and a plus
sign in front.  An address of version four, on the other hand, has one text only.

## Main definitions

* `Endpoint.ports` — the texts of a port.
* `SocketAddress.dialed?` — the address and port that a text denotes to a dialer.

## Main results

* `Endpoint.port?_eq_some` — which texts denote a port.
* `Endpoint.parse?_announced` — what a host and a number denote.
* `IPv4.ofChars?_eq_some` — the text of an address of version four is its usual one.
* `SocketAddress.dialed?_eq_some_v4` — **which texts denote an address of version four and a port.**
-/

namespace GossipNode

/-! ### Decimal digits -/

namespace Endpoint

variable {cs : List Char} {port : UInt16}

theorem decimalValue_eq_ofDigitChars (cs : List Char) :
    decimalValue cs = Nat.ofDigitChars 10 cs 0 := by
  simp only [decimalValue, Nat.ofDigitChars, Nat.mul_comm]
  rfl

theorem decimalValue_concat (cs : List Char) (c : Char) :
    decimalValue (cs ++ [c]) = 10 * decimalValue cs + (c.toNat - 48) := by
  rw [decimalValue, List.foldl_append, List.foldl_cons, List.foldl_nil, Nat.mul_comm]
  rfl

/-- The digits of a number denote it. -/
@[simp] theorem decimalValue_toDigits (n : Nat) : decimalValue (Nat.toDigits 10 n) = n := by
  rw [decimalValue_eq_ofDigitChars, Nat.ofDigitChars_ten_toDigits]

/-- Zeros in front change nothing. -/
theorem decimalValue_zeros (zeros : Nat) (cs : List Char) :
    decimalValue (List.replicate zeros '0' ++ cs) = decimalValue cs := by
  rw [decimalValue, List.foldl_append]
  suffices none_yet : (List.replicate zeros '0').foldl (fun n c => n * 10 + (c.toNat - 48)) 0 = 0 by
    rw [none_yet, decimalValue]
  induction zeros with
  | zero => rfl
  | succ zeros ih =>
    rw [List.replicate_succ, List.foldl_cons]
    exact ih

theorem all_isDecimal_toDigits (n : Nat) : (Nat.toDigits 10 n).all isDecimal = true :=
  List.all_eq_true.mpr fun _ there => Nat.isDigit_of_mem_toDigits (by decide) (by decide) there

theorem toDigits_of_isDecimal {c : Char} (decimal : isDecimal c = true) :
    Nat.toDigits 10 (c.toNat - 48) = [c] ∧ c.toNat - 48 < 10 := by
  obtain ⟨least, most⟩ := Char.isDigit_iff_toNat.mp decimal
  have small : c.toNat - 48 < 10 := by
    change c.toNat ≤ 57 at most
    omega
  refine ⟨?_, small⟩
  rw [Nat.toDigits_of_lt_base small]
  change 48 ≤ c.toNat at least
  have same : c = Char.ofNat (c.toNat - 48 + 48) := by
    rw [Nat.sub_add_cancel least, Char.ofNat_toNat]
  rw [same]
  interval_cases c.toNat - 48 <;> rfl

/-- The digits of a positive number do not begin with a zero. -/
theorem head?_toDigits {n : Nat} (positive : 0 < n) : (Nat.toDigits 10 n).head? ≠ some '0' := by
  induction n using Nat.strong_induction_on with
  | _ n ih =>
    rcases Nat.lt_or_ge n 10 with single | more
    · rw [Nat.toDigits_of_lt_base single]
      interval_cases n <;> decide
    · rw [Nat.toDigits_of_base_le (by decide) more, List.head?_append_of_ne_nil _ Nat.toDigits_ne_nil]
      exact ih (n / 10) (by omega) (by omega)

/-- Decimal digits are those of the number they denote, with zeros in front. -/
theorem exists_zeros (some_digits : cs ≠ []) (decimal : cs.all isDecimal = true) :
    ∃ zeros, cs = List.replicate zeros '0' ++ Nat.toDigits 10 (decimalValue cs) := by
  induction cs using List.reverseRecOn with
  | nil => exact absurd rfl some_digits
  | append_singleton cs c ih =>
    rw [List.all_append, Bool.and_eq_true, List.all_cons, List.all_nil, Bool.and_true] at decimal
    obtain ⟨digit, small⟩ := toDigits_of_isDecimal decimal.2
    rw [decimalValue_concat]
    by_cases first : cs = []
    · subst first
      exact ⟨0, by rw [decimalValue, List.foldl_nil, Nat.mul_zero, Nat.zero_add, digit]; rfl⟩
    obtain ⟨zeros, front⟩ := ih first decimal.1
    rcases Nat.eq_zero_or_pos (decimalValue cs) with nothing | positive
    · -- All digits so far are zeros.
      refine ⟨zeros + 1, ?_⟩
      rw [nothing] at front ⊢
      rw [front, Nat.mul_zero, Nat.zero_add, digit, List.replicate_succ']
      rfl
    · refine ⟨zeros, ?_⟩
      rw [← Nat.toDigits_append_toDigits (by decide) positive small, digit, ← List.append_assoc,
        ← front]

/-! ### Ports -/

/-- The texts of a port: its digits, with zeros in front as one likes and perhaps a plus sign before
them. -/
def ports (port : UInt16) (plus : Bool) (zeros : Nat) : List Char :=
  (if plus then ['+'] else []) ++ (List.replicate zeros '0' ++ Nat.toDigits 10 port.toNat)

theorem all_isDecimal_zeros (zeros n : Nat) :
    (List.replicate zeros '0' ++ Nat.toDigits 10 n).all isDecimal = true := by
  rw [List.all_append, all_isDecimal_toDigits, Bool.and_true]
  exact List.all_eq_true.mpr fun c there => List.eq_of_mem_replicate there ▸ rfl

theorem portDigits_of_all {cs : List Char} (decimal : cs.all isDecimal = true) :
    portDigits cs = cs := by
  unfold portDigits
  split
  · rw [List.all_cons] at decimal
    cases decimal
  · rfl

theorem portDigits_ports (port : UInt16) (plus : Bool) (zeros : Nat) :
    portDigits (ports port plus zeros) = List.replicate zeros '0' ++ Nat.toDigits 10 port.toNat := by
  cases plus with
  | true => rfl
  | false => exact portDigits_of_all (all_isDecimal_zeros zeros port.toNat)

/-- What comes before the digits of a port is nothing or a plus sign. -/
theorem exists_plus (cs : List Char) :
    ∃ plus : Bool, cs = (if plus then ['+'] else []) ++ portDigits cs := by
  unfold portDigits
  split
  · exact ⟨true, rfl⟩
  · exact ⟨false, rfl⟩

theorem port?_iff : port? cs = some port ↔ portDigits cs ≠ [] ∧
    (portDigits cs).all isDecimal = true ∧ decimalValue (portDigits cs) = port.toNat := by
  rw [port?, Option.ite_none_right_eq_some, Option.some_inj, and_assoc, and_assoc]
  refine and_congr_right fun _ => and_congr_right fun _ => ⟨?_, ?_⟩
  · rintro ⟨small, rfl⟩
    exact (UInt16.toNat_ofNat_of_lt' (Nat.lt_succ_of_le small)).symm
  · intro value
    rw [value, UInt16.ofNat_toNat]
    exact ⟨Nat.le_of_lt_succ port.toNat_lt, rfl⟩

/-- Which texts denote a port. -/
theorem port?_eq_some : port? cs = some port ↔ ∃ plus zeros, cs = ports port plus zeros := by
  rw [port?_iff]
  constructor
  · rintro ⟨some_digits, decimal, value⟩
    obtain ⟨plus, sign⟩ := exists_plus cs
    obtain ⟨zeros, digits⟩ := exists_zeros some_digits decimal
    refine ⟨plus, zeros, ?_⟩
    rw [ports, ← value, ← digits]
    exact sign
  · rintro ⟨plus, zeros, rfl⟩
    rw [portDigits_ports, decimalValue_zeros, decimalValue_toDigits]
    exact ⟨by simp [Nat.toDigits_ne_nil], all_isDecimal_zeros zeros port.toNat, rfl⟩

/-- Nothing that begins with a minus sign denotes a port. -/
theorem port?_minus (cs : List Char) : port? ('-' :: cs) = none := by
  rw [Option.eq_none_iff_forall_ne_some]
  intro port denotes
  obtain ⟨-, decimal, -⟩ := port?_iff.mp denotes
  cases decimal

theorem toList_toString (n : Nat) : (toString n).toList = Nat.toDigits 10 n := by
  rw [Nat.toString_eq_ofList_toDigits, String.toList_ofList]

/-- A number denotes the port that it is, if it is one. -/
theorem port?_toString {i : Int} :
    port? (toString i).toList = some port ↔ (port.toNat : Int) = i := by
  cases i with
  | ofNat n =>
    have digits : (toString (Int.ofNat n)).toList = Nat.toDigits 10 n := toList_toString n
    rw [digits, port?_iff, portDigits_of_all (all_isDecimal_toDigits n), decimalValue_toDigits]
    constructor
    · rintro ⟨-, -, same⟩
      rw [same]
      rfl
    · intro same
      exact ⟨Nat.toDigits_ne_nil, all_isDecimal_toDigits n, (Int.ofNat.inj same).symm⟩
  | negSucc n =>
    have digits : (toString (Int.negSucc n)).toList = '-' :: (toString (n + 1)).toList := by
      rw [show toString (Int.negSucc n) = "-" ++ toString (n + 1) from rfl, String.toList_append]
      rfl
    rw [digits, port?_minus]
    constructor <;> intro impossible <;> cases impossible

/-! ### Endpoints -/

/-- Where a text is taken apart: the last colon counts. -/
theorem splitAtLastColon?_eq_some {before after : List Char} :
    splitAtLastColon? cs = some (before, after) ↔ cs = before ++ ':' :: after ∧ ':' ∉ after := by
  unfold splitAtLastColon?
  rw [List.span_eq_takeWhile_dropWhile]
  constructor
  · intro h
    have whole := List.takeWhile_append_dropWhile (p := (· ≠ ':')) (l := cs.reverse)
    have plain := List.all_takeWhile (p := (· ≠ ':')) (l := cs.reverse)
    have stops := List.head?_dropWhile_not (· ≠ ':') cs.reverse
    generalize cs.reverse.takeWhile (· ≠ ':') = back at h whole plain
    generalize cs.reverse.dropWhile (· ≠ ':') = rest at h whole stops
    cases rest with
    | nil => cases h
    | cons c front =>
      cases h
      obtain rfl : c = ':' := by simpa using stops
      constructor
      · rw [← List.reverse_reverse cs, ← whole]
        simp
      · intro there
        have passed := List.all_eq_true.mp plain ':' (List.mem_reverse.mp there)
        simp at passed
  · rintro ⟨rfl, none_after⟩
    have plain : ∀ c ∈ after.reverse, decide (c ≠ ':') = true := by
      intro c there
      refine decide_eq_true fun same => none_after ?_
      rw [← same]
      exact List.mem_reverse.mp there
    have reversed : (before ++ ':' :: after).reverse = after.reverse ++ ':' :: before.reverse := by
      simp
    rw [reversed, List.takeWhile_append_of_pos plain, List.dropWhile_append_of_pos plain]
    simp

theorem not_colon_ports (port : UInt16) (plus : Bool) (zeros : Nat) :
    ':' ∉ ports port plus zeros := by
  intro there
  rw [ports, List.mem_append, List.mem_append] at there
  rcases there with sign | zero | digit
  · cases plus <;> simp at sign
  · cases List.eq_of_mem_replicate zero
  · exact absurd (Nat.isDigit_of_mem_toDigits (by decide) (by decide) digit) (by decide)

/-- Which texts denote an endpoint: its host, a colon and a text of its port. -/
theorem parse?_eq_some {text : String} {e : Endpoint} : parse? text = some e ↔
    e.host ≠ "" ∧ ∃ plus zeros, text.toList = e.host.toList ++ ':' :: ports e.port plus zeros := by
  simp only [parse?, Option.bind_eq_bind, Option.bind_eq_some_iff, Prod.exists]
  constructor
  · rintro ⟨host, after, split, rest⟩
    obtain ⟨text_eq, -⟩ := splitAtLastColon?_eq_some.mp split
    split at rest
    · cases rest
    · next some_host =>
      obtain ⟨port, denotes, rest⟩ := Option.bind_eq_some_iff.mp rest
      cases rest
      obtain ⟨plus, zeros, rfl⟩ := port?_eq_some.mp denotes
      refine ⟨fun nothing => some_host (String.ofList_eq_empty_iff.mp nothing), plus, zeros, ?_⟩
      rw [text_eq, String.toList_ofList]
  · rintro ⟨some_host, plus, zeros, text_eq⟩
    have some_chars : e.host.toList ≠ [] := fun nothing =>
      some_host (String.toList_eq_nil_iff.mp nothing)
    refine ⟨e.host.toList, ports e.port plus zeros,
      splitAtLastColon?_eq_some.mpr ⟨text_eq, not_colon_ports e.port plus zeros⟩, ?_⟩
    rw [if_neg some_chars, port?_eq_some.mpr ⟨plus, zeros, rfl⟩, String.ofList_toList]
    rfl

theorem not_colon_toString (i : Int) : ':' ∉ (toString i).toList := by
  have plain (n : Nat) : ':' ∉ Nat.toDigits 10 n := fun there =>
    absurd (Nat.isDigit_of_mem_toDigits (by decide) (by decide) there) (by decide)
  cases i with
  | ofNat n =>
    rw [show (toString (Int.ofNat n)).toList = Nat.toDigits 10 n from toList_toString n]
    exact plain n
  | negSucc n =>
    rw [show toString (Int.negSucc n) = "-" ++ toString (n + 1) from rfl, String.toList_append,
      toList_toString]
    exact List.not_mem_cons_of_ne_of_not_mem (by decide) (plain (n + 1))

/-- A host and a number denote the endpoint that they are, if the number is a port. -/
theorem parse?_announced {host : String} (some_host : host ≠ "") {i : Int} {e : Endpoint} :
    parse? (host ++ ":" ++ toString i) = some e ↔ e.host = host ∧ (e.port.toNat : Int) = i := by
  have text_eq : (host ++ ":" ++ toString i).toList = host.toList ++ ':' :: (toString i).toList := by
    rw [String.toList_append, String.toList_append, List.append_assoc]
    rfl
  have some_chars : host.toList ≠ [] :=
    fun nothing => some_host (String.toList_eq_nil_iff.mp nothing)
  have parts := splitAtLastColon?_eq_some.mpr ⟨text_eq, not_colon_toString i⟩
  simp only [parse?, parts, Option.bind_eq_bind, Option.bind_some, if_neg some_chars,
    Option.bind_eq_some_iff, port?_toString, String.ofList_toList]
  constructor
  · rintro ⟨port, same, made⟩
    cases made
    exact ⟨rfl, same⟩
  · rintro ⟨rfl, same⟩
    exact ⟨e.port, same, rfl⟩

end Endpoint

/-! ### Addresses of version four -/

namespace IPv4

/-- The parts between occurrences of a character. -/
theorem split_eq_splitOn (sep : Char) (cs : List Char) : split sep cs = cs.splitOn sep := by
  induction cs with
  | nil => rfl
  | cons c cs ih =>
    rw [split, ih, List.splitOn, List.splitOn, List.splitOnP_cons_eq_if_modifyHead]
    cases rest : cs.splitOnP (· == sep) with
    | nil => exact absurd rest (List.splitOnP_ne_nil _ _)
    | cons part parts =>
      by_cases same : c = sep <;> simp [same]

/-- A byte has one text: its digits. -/
theorem byte?_eq_some {cs : List Char} {b : UInt8} :
    byte? cs = some b ↔ cs = Nat.toDigits 10 b.toNat := by
  constructor
  · intro h
    obtain ⟨⟨some_digits, -, decimal, small, first⟩, value⟩ := Option.ite_none_right_eq_some.mp h
    obtain ⟨zeros, digits⟩ := Endpoint.exists_zeros some_digits decimal
    have number : b.toNat = Endpoint.decimalValue cs := by
      rw [← Option.some.inj value, UInt8.toNat_ofNat_of_lt' small]
    -- A zero in front of further digits is refused.
    cases zeros with
    | zero => rwa [number]
    | succ zeros =>
      exfalso
      rw [List.replicate_succ, List.cons_append] at digits
      rcases first with first | single
      · exact first (digits ▸ rfl)
      · rw [digits, List.length_cons, Nat.succ_inj, List.length_eq_zero_iff,
          List.append_eq_nil_iff] at single
        exact Nat.toDigits_ne_nil single.2
  · rintro rfl
    have small : b.toNat < 256 := b.toNat_lt
    have short : (Nat.toDigits 10 b.toNat).length ≤ 3 :=
      (Nat.length_toDigits_le_iff (by decide) (by decide)).mpr (Nat.lt_trans small (by decide))
    have first : (Nat.toDigits 10 b.toNat).head? ≠ some '0' ∨
        (Nat.toDigits 10 b.toNat).length = 1 := by
      rcases Nat.eq_zero_or_pos b.toNat with nothing | positive
      · exact Or.inr (by rw [nothing]; rfl)
      · exact Or.inl (Endpoint.head?_toDigits positive)
    rw [byte?, Endpoint.decimalValue_toDigits, UInt8.ofNat_toNat]
    exact if_pos ⟨Nat.toDigits_ne_nil, short, Endpoint.all_isDecimal_toDigits _, small, first⟩

theorem toList_render (ip : IPv4) : ip.render.toList =
    ['.'].intercalate ([ip.a, ip.b, ip.c, ip.d].map fun b => Nat.toDigits 10 b.toNat) := by
  rw [render, String.toList_intercalate, List.map_map]
  refine congrArg _ (List.map_congr_left fun b _ => ?_)
  exact Endpoint.toList_toString b.toNat

/-- An address of version four has one text. -/
theorem ofChars?_eq_some {cs : List Char} {ip : IPv4} :
    ofChars? cs = some ip ↔ cs = ip.render.toList := by
  have plain : ∀ part ∈ [ip.a, ip.b, ip.c, ip.d].map (fun b => Nat.toDigits 10 b.toNat),
      '.' ∉ part := by
    intro part there
    obtain ⟨b, -, rfl⟩ := List.mem_map.mp there
    exact fun dot =>
      absurd (Nat.isDigit_of_mem_toDigits (by decide) (by decide) dot) (by decide)
  rw [ofChars?, toList_render, split_eq_splitOn]
  constructor
  · intro h
    split at h
    · next a b c d parts =>
      have whole : ['.'].intercalate (cs.splitOn '.') = cs := List.intercalate_splitOn '.'
      simp only [Option.bind_eq_bind, Option.bind_eq_some_iff, byte?_eq_some] at h
      obtain ⟨a', rfl, b', rfl, c', rfl, d', rfl, same⟩ := h
      cases same
      rw [← whole, parts]
      rfl
    · cases h
  · rintro rfl
    rw [List.splitOn_intercalate _ plain (by simp)]
    have digits (b : UInt8) : byte? (Nat.toDigits 10 b.toNat) = some b := byte?_eq_some.mpr rfl
    simp only [List.map_cons, List.map_nil, digits]
    rfl

theorem render_ne_empty (ip : IPv4) : ip.render ≠ "" := by
  intro nothing
  have none_read : ofChars? "".toList = some ip := ofChars?_eq_some.mpr (by rw [nothing])
  cases none_read

end IPv4

/-! ### No address has the empty text -/

theorem IPv6.renderGroups_ne_empty (g h : UInt16) (groups : List UInt16) :
    renderGroups (g :: h :: groups) ≠ "" := by
  rw [renderGroups, List.map_cons, List.map_cons, String.intercalate_cons_cons]
  simp

theorem IPv6.render_ne_empty (ip : IPv6) : ip.render ≠ "" := by
  have eight := ip.length_eq
  unfold render
  split
  · simp
  · simp only
    split
    · simp
    · match ip.groups, eight with
      | g :: h :: groups, _ => exact renderGroups_ne_empty g h groups

theorem IpAddress.render_ne_empty (ip : IpAddress) : ip.render ≠ "" := by
  cases ip with
  | v4 ip => exact ip.render_ne_empty
  | v6 ip => exact ip.render_ne_empty

/-! ### What a text denotes to a dialer -/

/-- An address of version four has one text. -/
theorem IpAddress.parse?_eq_some_v4 {text : String} {ip : IPv4} :
    parse? text = some (.v4 ip) ↔ text = ip.render := by
  rw [← String.toList_inj, ← IPv4.ofChars?_eq_some, parse?]
  cases IPv4.ofChars? text.toList with
  | some other => simp
  | none => simp

namespace SocketAddress

/-- The address and port that a text denotes to a dialer, if its host is the text of an internet
address. -/
def dialed? (text : String) : Option SocketAddress := do
  let e ← Endpoint.parse? text
  return ⟨← IpAddress.parse? e.host, e.port⟩

/-- What denotes an address and a port to a dialer: an endpoint whose host denotes the address. -/
theorem dialed?_eq_some {text : String} {a : SocketAddress} : dialed? text = some a ↔
    ∃ host, Endpoint.parse? text = some ⟨host, a.port⟩ ∧ IpAddress.parse? host = some a.ip := by
  simp only [dialed?, Option.bind_eq_bind, Option.bind_eq_some_iff]
  constructor
  · rintro ⟨e, parsed, ip, host, same⟩
    cases same
    exact ⟨e.host, parsed, host⟩
  · rintro ⟨host, parsed, ip⟩
    exact ⟨⟨host, a.port⟩, parsed, a.ip, ip, rfl⟩

/-- **Which texts denote an address of version four and a port**: the usual text of the address, a
colon and a text of the port. -/
theorem dialed?_eq_some_v4 {text : String} {ip : IPv4} {port : UInt16} :
    dialed? text = some ⟨.v4 ip, port⟩ ↔
      ∃ plus zeros, text.toList = ip.render.toList ++ ':' :: Endpoint.ports port plus zeros := by
  rw [dialed?_eq_some]
  constructor
  · rintro ⟨host, parsed, named⟩
    obtain rfl := IpAddress.parse?_eq_some_v4.mp named
    exact (Endpoint.parse?_eq_some.mp parsed).2
  · intro spelt
    exact ⟨ip.render, Endpoint.parse?_eq_some.mpr ⟨ip.render_ne_empty, spelt⟩,
      IpAddress.parse?_eq_some_v4.mpr rfl⟩

end SocketAddress

end GossipNode
