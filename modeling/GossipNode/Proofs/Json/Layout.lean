import GossipNode.Json.NumberReader
import GossipNode.Json.StringReader

/-!
# How JSON text is laid out

There are many texts for one value.  Blanks may stand between all tokens, characters of strings may
be escaped, the members of an object may come in any order, and even twice.  A layout says how all
of this is done.  It has a text, and a value if that can be kept: numbers with fractions or
exponents and halves of surrogate pairs are text as well, but not of a value that is asked for here.

## Main definitions

* `Blanks` — what may stand between two tokens.
* `Glyph`, `Spelling` — characters and strings as they are spelled.
* `NumberText` — numbers as they are spelled.
* `Token` — scalars as they are spelled.
* `Layout` — values as they are laid out.
* `Layout.text`, `Layout.value?`, `Layout.depth` — the bytes of a layout, the value it is a layout
  of, and how many containers enclose its innermost part.
-/

namespace GossipNode

/-- Blanks between two tokens. -/
structure Blanks where
  bytes : Bytes
  blank : ∀ b ∈ bytes, isBlank b = true

/-! ### Strings -/

/-- A character of a string as it may be spelled. -/
inductive Glyph
  /-- A character that stands for itself. -/
  | plain (c : Char) (itself : c ≠ '"' ∧ c ≠ '\\' ∧ ' ' ≤ c)
  /-- A backslash and one more byte. -/
  | short (e b : UInt8) (known : shortEscape? e = some b)
  /-- `\u` and four digits. -/
  | unit (digits : Bytes) (n : Nat) (number : hexNumber? digits = some n)
  /-- Two of those for one character. -/
  | pair (leading trailing : Bytes) (high low : Nat) (leads : hexNumber? leading = some high)
    (trails : hexNumber? trailing = some low)
    (paired : 0xD800 ≤ high ∧ high ≤ 0xDBFF ∧ 0xDC00 ≤ low ∧ low ≤ 0xDFFF)

namespace Glyph

/-- The bytes of a character as it is spelled. -/
def text : Glyph → Bytes
  | plain c _ => Utf8.encodeChar c
  | short e _ _ => [0x5C, e]
  | unit digits _ _ => 0x5C :: 0x75 :: digits
  | pair leading trailing _ _ _ _ _ => 0x5C :: 0x75 :: leading ++ 0x5C :: 0x75 :: trailing

/-- The character that is spelled; half a surrogate pair is none. -/
def char? : Glyph → Option Char
  | plain c _ => some c
  | short _ b _ => some (Char.ofNat b.toNat)
  | unit _ n _ => if 0xD800 ≤ n ∧ n ≤ 0xDFFF then none else some (Char.ofNat n)
  | pair _ _ high low _ _ _ =>
    some (Char.ofNat (0x10000 + (high - 0xD800) * 0x400 + (low - 0xDC00)))

end Glyph

/-- A string as it is spelled. -/
structure Spelling where
  glyphs : List Glyph

namespace Spelling

/-- What stands between the quotes. -/
def content (s : Spelling) : Bytes := s.glyphs.flatMap Glyph.text

/-- The bytes of a string, with its quotes. -/
def text (s : Spelling) : Bytes := 0x22 :: s.content ++ [0x22]

/-- The string that is spelled. -/
def value? (s : Spelling) : Option String := (s.glyphs.mapM Glyph.char?).map String.ofList

end Spelling

/-! ### Numbers -/

/-- Decimal digits, one at least. -/
structure Digits where
  first : UInt8
  others : Bytes
  digits : ∀ b ∈ first :: others, isDigit b = true

/-- The bytes of digits. -/
def Digits.bytes (ds : Digits) : Bytes := ds.first :: ds.others

/-- The exponent of a number: its mark, its sign if it has one, and its digits. -/
structure ExponentText where
  capital : Bool
  sign : Option Bool
  digits : Digits

/-- The bytes of an exponent. -/
def ExponentText.text (e : ExponentText) : Bytes :=
  let sign : Bytes :=
    match e.sign with
    | none => []
    | some negative => [if negative then 0x2D else 0x2B]
  (if e.capital then 0x45 else 0x65) :: (sign ++ e.digits.bytes)

/-- A number as it is spelled.  The digits before the point are those of a number, as there is no
zero in front of them. -/
structure NumberText where
  negative : Bool
  whole : Nat
  fraction : Option Digits
  exponent : Option ExponentText

namespace NumberText

/-- The bytes of the point and the digits behind it, if there are any. -/
def fractionText (n : NumberText) : Bytes :=
  match n.fraction with
  | none => []
  | some digits => 0x2E :: digits.bytes

/-- The bytes of the exponent, if there is one. -/
def exponentText (n : NumberText) : Bytes :=
  match n.exponent with
  | none => []
  | some e => e.text

/-- The bytes of a number. -/
def text (n : NumberText) : Bytes :=
  (if n.negative then [0x2D] else []) ++ decimalBytes n.whole ++
    (n.fractionText ++ n.exponentText)

/-- The number that is spelled, if it is whole and has 64 bits. -/
def value? (n : NumberText) : Option Int :=
  match n.fraction, n.exponent with
  | none, none =>
    if n.negative then
      if 0 < n.whole ∧ n.whole ≤ 9223372036854775808 then some (-n.whole) else none
    else if n.whole ≤ 18446744073709551615 then some n.whole else none
  | _, _ => none

end NumberText

/-! ### Values -/

/-- A scalar as it is spelled. -/
inductive Token
  | null
  | bool (b : Bool)
  | number (n : NumberText)
  | string (s : Spelling)

namespace Token

/-- The bytes of a scalar. -/
def text : Token → Bytes
  | null => Scalar.null.render
  | bool b => (Scalar.bool b).render
  | number n => n.text
  | string s => s.text

/-- The scalar that is spelled. -/
def value? : Token → Option Scalar
  | null => some .null
  | bool b => some (.bool b)
  | number n => n.value?.map .integer
  | string s => s.value?.map .string

end Token

/-- Something between blanks. -/
structure Item (α : Type) where
  before : Blanks
  value : α
  after : Blanks

/-- A name and, behind a colon, something between blanks. -/
structure Member (α : Type) where
  before : Blanks
  name : Spelling
  behind : Blanks
  item : Item α

/-- A value as it is laid out.  The blanks of a container stand behind its opening bracket. -/
inductive Layout
  | scalar (t : Token)
  | array (inside : Blanks) (items : List (Item Layout))
  | object (inside : Blanks) (members : List (Member Layout))

/-- Texts with commas between them. -/
def joined : List Bytes → Bytes
  | [] => []
  | part :: parts => part ++ parts.flatMap fun p => 0x2C :: p

theorem joined_cons_cons (p q : Bytes) (ps : List Bytes) :
    joined (p :: q :: ps) = p ++ 0x2C :: joined (q :: ps) := by
  simp [joined]

namespace Layout

mutual

/-- The bytes of a layout. -/
def text : Layout → Bytes
  | .scalar t => t.text
  | .array inside items => 0x5B :: (inside.bytes ++ joined (itemTexts items) ++ [0x5D])
  | .object inside members => 0x7B :: (inside.bytes ++ joined (memberTexts members) ++ [0x7D])

/-- The bytes of items, each for itself. -/
def itemTexts : List (Item Layout) → List Bytes
  | [] => []
  | ⟨before, w, after⟩ :: items => (before.bytes ++ w.text ++ after.bytes) :: itemTexts items

/-- The bytes of members, each for itself. -/
def memberTexts : List (Member Layout) → List Bytes
  | [] => []
  | ⟨before, name, behind, ⟨ahead, w, after⟩⟩ :: members =>
    (before.bytes ++ name.text ++ behind.bytes ++ 0x3A :: (ahead.bytes ++ w.text ++ after.bytes))
      :: memberTexts members

end

mutual

/-- The value a layout is one of, if there is one that keeps all of it.  Of several members of one
name the last one counts. -/
def value? : Layout → Option Json
  | .scalar t => t.value?.map .scalar
  | .array _ items => (itemValues? items).map .array
  | .object _ members => (memberValues? [] members).map fun ms => .object ms.reverse

/-- The values of items. -/
def itemValues? : List (Item Layout) → Option (List Json)
  | [] => some []
  | ⟨_, w, _⟩ :: items => do
    let v ← w.value?
    let vs ← itemValues? items
    return v :: vs

/-- The names and values of members, put in their places among others that stand in descending
order. -/
def memberValues? (seen : List (String × Json)) :
    List (Member Layout) → Option (List (String × Json))
  | [] => some seen
  | ⟨_, name, _, ⟨_, w, _⟩⟩ :: members => do
    let name ← name.value?
    let v ← w.value?
    memberValues? (Json.insertMember name v seen) members

end

mutual

/-- How many containers enclose the innermost part of a layout. -/
def depth : Layout → Nat
  | .scalar _ => 0
  | .array _ items => depthOfItems items + 1
  | .object _ members => depthOfMembers members + 1

/-- The greatest depth of items. -/
def depthOfItems : List (Item Layout) → Nat
  | [] => 0
  | ⟨_, w, _⟩ :: items => max w.depth (depthOfItems items)

/-- The greatest depth of members. -/
def depthOfMembers : List (Member Layout) → Nat
  | [] => 0
  | ⟨_, _, _, ⟨_, w, _⟩⟩ :: members => max w.depth (depthOfMembers members)

end

end Layout

/-- The bytes of a value between blanks. -/
def Item.text (i : Item Layout) : Bytes := i.before.bytes ++ i.value.text ++ i.after.bytes

/-- The bytes of a member. -/
def Member.text (m : Member Layout) : Bytes :=
  m.before.bytes ++ m.name.text ++ m.behind.bytes ++ 0x3A :: m.item.text

namespace Layout

theorem itemTexts_cons (i : Item Layout) (items : List (Item Layout)) :
    itemTexts (i :: items) = i.text :: itemTexts items := by
  obtain ⟨_, _, _⟩ := i
  rfl

theorem memberTexts_cons (m : Member Layout) (members : List (Member Layout)) :
    memberTexts (m :: members) = m.text :: memberTexts members := by
  obtain ⟨_, _, _, ⟨_, _, _⟩⟩ := m
  rfl

theorem itemTexts_eq_map (items : List (Item Layout)) : itemTexts items = items.map Item.text := by
  induction items with
  | nil => rfl
  | cons i items ih => rw [itemTexts_cons, ih, List.map_cons]

theorem memberTexts_eq_map (members : List (Member Layout)) :
    memberTexts members = members.map Member.text := by
  induction members with
  | nil => rfl
  | cons m members ih => rw [memberTexts_cons, ih, List.map_cons]

end Layout

end GossipNode
