import GossipNode.Peer.Error
import GossipNode.Proofs.Address.Texts

/-!
# The grammar of addresses

Which texts are addresses, and of which endpoint, is said here without a reader: by the parts that a
text is put together from, and by what its digits are worth, each by its place.

The reader of a port looks at the limit when it knows what all the digits come to.  It could as well
look after each digit, and never hold a number far above the limit: zeros in front leave the number
at zero however many they are, and a number that has passed the limit does not come back.

## Main definitions

* `Endpoint.worth` — what decimal digits are worth.
* `Endpoint.Spelling` — how a text of an endpoint is put together.
* `Endpoint.readWithin` — reads digits from the left and looks at a limit after each of them.

## Main results

* `Endpoint.readWithin_eq_some` — looking at the limit after each digit or at the end is the same.
* `Endpoint.parse?_iff_spelling` — which texts denote an endpoint.
* `Endpoint.grammar_exact` — **a text is read just if it is put together as an address, and to the
  endpoint that it is the text of; any other text is the error.**
-/

namespace GossipNode

namespace Endpoint

variable {text : String} {e : Endpoint} {sign digits : List Char}

/-! ### What digits are worth -/

/-- The digit that a character stands for. -/
def digit (c : Char) : Nat := c.toNat - '0'.toNat

/-- What decimal digits are worth: the last one counts ones, the one before it tens, and so on. -/
def worth (digits : List Char) : Nat := Nat.ofDigits 10 (digits.reverse.map digit)

/-- To count up from the left comes to the same. -/
theorem decimalValue_eq_worth (digits : List Char) : decimalValue digits = worth digits := by
  induction digits using List.reverseRecOn with
  | nil => rfl
  | append_singleton digits c ih =>
    rw [decimalValue_concat, ih, worth, worth, List.reverse_concat, List.map_cons,
      Nat.ofDigits_cons, Nat.add_comm]
    rfl

/-! ### The limit -/

/-- Reads digits from the left, and gives up as soon as the number is above a limit. -/
def readWithin (limit : Nat) : (number : Nat) → List Char → Option Nat
  | number, [] => some number
  | number, c :: cs =>
    if isDecimal c = true ∧ number * 10 + digit c ≤ limit then
      readWithin limit (number * 10 + digit c) cs
    else none

/-- A number only grows while further digits are read. -/
theorem le_foldl_digits (cs : List Char) (number : Nat) :
    number ≤ cs.foldl (fun n c => n * 10 + (c.toNat - 48)) number := by
  induction cs generalizing number with
  | nil => exact Nat.le_refl number
  | cons c cs ih =>
    rw [List.foldl_cons]
    exact Nat.le_trans (by omega) (ih _)

/-- Digits can be read within a limit from some number on just if what they come to is within it. -/
theorem readWithin_iff {limit : Nat} (cs : List Char) {number : Nat} (within : number ≤ limit)
    {result : Nat} :
    readWithin limit number cs = some result ↔ cs.all isDecimal = true ∧
      cs.foldl (fun n c => n * 10 + (c.toNat - 48)) number = result ∧ result ≤ limit := by
  induction cs generalizing number with
  | nil =>
    rw [readWithin, Option.some_inj]
    exact ⟨fun same => ⟨rfl, same, same ▸ within⟩, fun read => read.2.1⟩
  | cons c cs ih =>
    rw [readWithin, List.all_cons, Bool.and_eq_true, List.foldl_cons]
    constructor
    · intro read
      obtain ⟨⟨decimal, fits⟩, rest⟩ := Option.ite_none_right_eq_some.mp read
      obtain ⟨decimals, value⟩ := (ih fits).mp rest
      exact ⟨⟨decimal, decimals⟩, value⟩
    · rintro ⟨⟨decimal, decimals⟩, value, below⟩
      -- What is reached in the end bounds what is reached on the way.
      have fits : number * 10 + digit c ≤ limit :=
        Nat.le_trans (value ▸ le_foldl_digits cs _) below
      rw [if_pos ⟨decimal, fits⟩]
      exact (ih fits).mpr ⟨decimals, value, below⟩

/-- **Looking at the limit after each digit or at the end is the same.** -/
theorem readWithin_eq_some {limit result : Nat} :
    readWithin limit 0 digits = some result ↔
      digits.all isDecimal = true ∧ worth digits = result ∧ result ≤ limit := by
  rw [readWithin_iff digits (Nat.zero_le limit), ← decimalValue_eq_worth, decimalValue]

/-- A port can be read with a look at the limit after each digit. -/
theorem port?_iff_readWithin {cs : List Char} {port : UInt16} : port? cs = some port ↔
    portDigits cs ≠ [] ∧ readWithin 65535 0 (portDigits cs) = some port.toNat := by
  have small : port.toNat ≤ 65535 := Nat.le_of_lt_succ port.toNat_lt
  rw [port?_iff, readWithin_eq_some, decimalValue_eq_worth, and_iff_left small]

/-! ### The grammar -/

/-- How a text of an endpoint is put together: a host, which may hold colons, then a colon, then the
text of the port, which is a plus sign or none before decimal digits that are worth the port. -/
structure Spelling (text : String) (e : Endpoint) (sign digits : List Char) : Prop where
  parts : text.toList = e.host.toList ++ ':' :: (sign ++ digits)
  some_host : e.host ≠ ""
  no_colon : ':' ∉ sign ++ digits
  plus_or_none : sign = ['+'] ∨ sign = []
  some_digit : digits ≠ []
  decimal : ∀ c ∈ digits, c.isDigit = true
  value : worth digits = e.port.toNat

/-- The digits of a port, with zeros in front as one likes, are a spelling. -/
theorem spelling_ports {plus : Bool} {zeros : Nat} (some_host : e.host ≠ "")
    (parts : text.toList = e.host.toList ++ ':' :: ports e.port plus zeros) :
    Spelling text e (if plus then ['+'] else [])
      (List.replicate zeros '0' ++ Nat.toDigits 10 e.port.toNat) where
  parts := parts
  some_host := some_host
  no_colon := not_colon_ports e.port plus zeros
  plus_or_none := by cases plus <;> simp
  some_digit := by simp [Nat.toDigits_ne_nil]
  decimal := List.all_eq_true.mp (all_isDecimal_zeros zeros e.port.toNat)
  value := by rw [← decimalValue_eq_worth, decimalValue_zeros, decimalValue_toDigits]

/-- There are no others. -/
theorem Spelling.exists_ports (h : Spelling text e sign digits) :
    ∃ plus zeros, text.toList = e.host.toList ++ ':' :: ports e.port plus zeros := by
  obtain ⟨plus, same⟩ : ∃ plus : Bool, sign = if plus then ['+'] else [] :=
    h.plus_or_none.elim (fun some => ⟨true, some⟩) fun none => ⟨false, none⟩
  obtain ⟨zeros, front⟩ := exists_zeros h.some_digit (List.all_eq_true.mpr h.decimal)
  rw [decimalValue_eq_worth, h.value] at front
  exact ⟨plus, zeros, by rw [h.parts, ports, ← same, ← front]⟩

/-- Which texts denote an endpoint. -/
theorem parse?_iff_spelling :
    parse? text = some e ↔ ∃ sign digits, Spelling text e sign digits := by
  rw [parse?_eq_some]
  constructor
  · rintro ⟨some_host, plus, zeros, parts⟩
    exact ⟨_, _, spelling_ports some_host parts⟩
  · rintro ⟨sign, digits, spelling⟩
    exact ⟨spelling.some_host, spelling.exists_ports⟩

/-! ### Reading an address -/

theorem parse_eq_ok : parse text = .ok e ↔ parse? text = some e := by
  rw [parse]
  cases parse? text <;> simp

theorem parse_eq_error {error : PeerError} :
    parse text = .error error ↔ error = .invalidAddress text ∧ ∀ e, parse? text ≠ some e := by
  rw [parse]
  cases parse? text with
  | some e => simp
  | none => simp [eq_comm]

/-- The text of an endpoint denotes it, if it has a host. -/
theorem parse?_render : parse? e.render = some e ↔ e.host ≠ "" := by
  constructor
  · intro read
    exact (parse?_eq_some.mp read).1
  · intro some_host
    have written : e.render = e.host ++ ":" ++ toString (e.port.toNat : Int) := rfl
    rw [written]
    exact (parse?_announced some_host).mpr ⟨rfl, rfl⟩

/-- **A text is read just if it is put together as an address, and to the endpoint that it is the
text of; any other text is the error.**

A text is read to an endpoint if and only if it is the host, which is not empty and may hold colons,
then a colon, and then a text without colons: perhaps a plus sign, and decimal digits, at least one,
whose worth is the port.  If it is put together in no such way, and only then, the answer is the
error that carries the text as it is.  How many digits there are does not matter: read from the left
with a look at the limit after each of them they give the same port or none.  The text that is
written for a host and a port is read to this host and port just if the host is not empty. -/
theorem grammar_exact (text : String) :
    (∀ e, parse text = .ok e ↔ ∃ sign digits, Spelling text e sign digits) ∧
    (∀ error, parse text = .error error ↔ error = .invalidAddress text ∧
      ∀ e sign digits, ¬Spelling text e sign digits) ∧
    (∀ cs port, port? cs = some port ↔
      portDigits cs ≠ [] ∧ readWithin 65535 0 (portDigits cs) = some port.toNat) ∧
    ∀ e, parse e.render = .ok e ↔ e.host ≠ "" := by
  refine ⟨fun e => ?_, fun error => ?_, fun cs port => port?_iff_readWithin, fun e => ?_⟩
  · rw [parse_eq_ok, parse?_iff_spelling]
  · rw [parse_eq_error]
    simp only [ne_eq, parse?_iff_spelling, not_exists]
  · rw [parse_eq_ok, parse?_render]

/-- The last colon counts, and so do neither the plus sign nor the zeros in front of a port. -/
example : parse "a+1:2:+00080" = .ok ⟨"a+1:2", 80⟩ := by decide +kernel

end Endpoint

end GossipNode
