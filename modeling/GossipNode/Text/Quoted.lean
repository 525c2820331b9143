import GossipNode.Text.Printable

/-!
# Text in double quotes

How text from outside is shown in messages to people: between double quotes, with everything that
could be mistaken or not be seen written as an escape.

## Main definitions

* `Quoted.char` — one character as it stands between the quotes.
* `quoted` — a whole text with its quotes.
* `quotedList` — texts in brackets, separated by a comma and a space.
-/

namespace GossipNode

namespace Quoted

/-- A character by its number: `\u`, then the hexadecimal number in braces. -/
def byNumber (c : Char) : List Char :=
  ['\\', 'u', '{'] ++ Nat.toDigits 16 c.toNat ++ ['}']

/-- One character between quotes.  The quote, the backslash, tab, line feed, carriage return and
NUL have an escape of two characters; other characters that extend their neighbour or have no
shape of their own are shown by number; the rest stand for themselves. -/
def char (c : Char) : List Char :=
  if c = '"' then ['\\', '"']
  else if c = '\\' then ['\\', '\\']
  else if c = '\n' then ['\\', 'n']
  else if c = '\r' then ['\\', 'r']
  else if c = '\t' then ['\\', 't']
  else if c = '\x00' then ['\\', '0']
  else if ' ' ≤ c ∧ c ≤ '~' then [c]
  else if isExtending c ∨ ¬ isPrintable c then byNumber c
  else [c]

end Quoted

/-- A text between double quotes. -/
def quoted (s : String) : String :=
  String.ofList ('"' :: s.toList.flatMap Quoted.char ++ ['"'])

/-- Texts in brackets, each in double quotes, separated by a comma and a space. -/
def quotedList (ss : List String) : String :=
  "[" ++ ", ".intercalate (ss.map quoted) ++ "]"

end GossipNode
