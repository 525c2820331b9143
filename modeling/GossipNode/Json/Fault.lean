import GossipNode.Json.Writer
import GossipNode.Text.Quoted

/-!
# What can be wrong with JSON text

Text is refused for one of two kinds of reasons: it is not JSON (`SyntaxFault`), or it is JSON of
another shape than the one asked for (`Mismatch`).

## Main definitions

* `SyntaxFault`, `Mismatch`, `Fault` — the reasons.
* `Fault.message` — the words for a reason.
* `Position` — a line and a column of a stretch of text.
* `Step`, `Ending` — what one byte, or the end of the text, does to a reader.
-/

namespace GossipNode

/-- Why a text is not JSON. -/
inductive SyntaxFault
  | expectedValue
  | expectedColon
  | expectedCommaOrBracket
  | expectedCommaOrBrace
  | misspelled
  | invalidNumber
  | numberOutOfRange
  | invalidEscape
  | loneSurrogate
  | surrogateCutShort
  | notUtf8
  | controlCharacter
  | nameNotString
  | trailingComma
  | trailingCharacters
  | tooDeep
  deriving DecidableEq, Repr

/-- The words for a syntax fault. -/
def SyntaxFault.message : SyntaxFault → String
  | .expectedValue => "expected value"
  | .expectedColon => "expected `:`"
  | .expectedCommaOrBracket => "expected `,` or `]`"
  | .expectedCommaOrBrace => "expected `,` or `\x7d`"
  | .misspelled => "expected ident"
  | .invalidNumber => "invalid number"
  | .numberOutOfRange => "number out of range"
  | .invalidEscape => "invalid escape"
  | .loneSurrogate => "lone leading surrogate in hex escape"
  | .surrogateCutShort => "unexpected end of hex escape"
  | .notUtf8 => "invalid unicode code point"
  | .controlCharacter => "control character (\\u0000-\\u001F) found while parsing a string"
  | .nameNotString => "key must be a string"
  | .trailingComma => "trailing comma"
  | .trailingCharacters => "trailing characters"
  | .tooDeep => "recursion limit exceeded"

/-- What stood in the place of what was asked for. -/
inductive Found
  | scalar (s : Scalar)
  | sequence
  | map
  deriving DecidableEq, Repr

/-- The words for what was found: the value itself for booleans, numbers and strings. -/
def Found.words : Found → String
  | .scalar .null => "null"
  | .scalar (.bool true) => "boolean `true`"
  | .scalar (.bool false) => "boolean `false`"
  | .scalar (.integer n) => "integer `" ++ toString n ++ "`"
  | .scalar (.float x) => "floating point `" ++ String.ofList x.text ++ "`"
  | .scalar (.string s) => "string " ++ quoted s
  | .sequence => "sequence"
  | .map => "map"

/-- What a value is, at its outermost level. -/
def Json.found : Json → Found
  | .scalar s => .scalar s
  | .array _ => .sequence
  | .object _ => .map

/-- The shapes that can be asked for.  Records are named, and so are the variants of a choice. -/
inductive Shape
  | unsigned64
  | unsigned8
  | signed32
  | string
  | sequence
  | arrayOf (n : Nat)
  | record (name : String)
  | recordOf (name : String) (fields : Nat)
  | variant
  | singleKey
  | unit
  | fewerItems
  deriving DecidableEq, Repr

/-- The words for a shape. -/
def Shape.words : Shape → String
  | .unsigned64 => "u64"
  | .unsigned8 => "u8"
  | .signed32 => "i32"
  | .string => "a string"
  | .sequence => "a sequence"
  | .arrayOf n => "an array of length " ++ toString n
  | .record name => "struct " ++ name
  | .recordOf name 1 => "struct " ++ name ++ " with 1 element"
  | .recordOf name n => "struct " ++ name ++ " with " ++ toString n ++ " elements"
  | .variant => "string or map"
  | .singleKey => "map with a single key"
  | .unit => "unit"
  | .fewerItems => "fewer elements in array"

/-- Why JSON does not have the shape asked for. -/
inductive Mismatch
  | wrongType (found : Found) (wanted : Shape)
  | wrongValue (found : Found) (wanted : Shape)
  | wrongLength (found : Nat) (wanted : Shape)
  | missing (field : String)
  | repeated (field : String)
  | unknownVariant (name : String) (known : List String)
  deriving DecidableEq, Repr

/-- The words for a mismatch. -/
def Mismatch.message : Mismatch → String
  | .wrongType found wanted => "invalid type: " ++ found.words ++ ", expected " ++ wanted.words
  | .wrongValue found wanted => "invalid value: " ++ found.words ++ ", expected " ++ wanted.words
  | .wrongLength found wanted =>
    "invalid length " ++ toString found ++ ", expected " ++ wanted.words
  | .missing field => "missing field `" ++ field ++ "`"
  | .repeated field => "duplicate field `" ++ field ++ "`"
  | .unknownVariant name known =>
    "unknown variant `" ++ name ++ "`, expected one of "
      ++ ", ".intercalate (known.map fun k => "`" ++ k ++ "`")

/-- Why a text is refused. -/
inductive Fault
  | syntactic (fault : SyntaxFault)
  | mismatch (fault : Mismatch)
  deriving DecidableEq, Repr

/-- The words for a fault. -/
def Fault.message : Fault → String
  | .syntactic fault => fault.message
  | .mismatch fault => fault.message

/-- A place in a text.  Lines count from one, columns from zero at the start of a line. -/
structure Position where
  line : Nat
  column : Nat
  deriving DecidableEq, Repr, Inhabited

/-- The position one byte further. -/
def Position.advance (p : Position) (b : UInt8) : Position :=
  if b = 0x0A then ⟨p.line + 1, 0⟩ else ⟨p.line, p.column + 1⟩

/-- The position after a stretch of text. -/
def Position.after (text : Bytes) : Position := text.foldl Position.advance ⟨1, 0⟩

/-- Where a fault is placed, seen from the byte just looked at. -/
inductive Side
  /-- Before the byte. -/
  | before
  /-- After the byte. -/
  | after
  /-- So many bytes further to the front than before the byte. -/
  | back (n : Nat)
  deriving DecidableEq, Repr

/-- What one byte does to a reader of values of type `α` in a state of type `σ`. -/
inductive Step (σ α : Type)
  /-- The byte is taken and the value goes on. -/
  | next (s : σ)
  /-- The byte is taken and the value ends with it. -/
  | done (a : α)
  /-- The value ended before the byte, which is left to others. -/
  | past (a : α)
  /-- The text is refused. -/
  | refuse (fault : Fault) (side : Side)
  deriving Repr

/-- What the end of the text means to a reader. -/
inductive Ending (α : Type)
  /-- The value is not complete: more text may complete it. -/
  | cut
  /-- The value is complete, though more text could have continued it. -/
  | whole (a : α)
  /-- The text is refused. -/
  | refuse (fault : Fault)
  deriving Repr

/-- Carries a step over to a larger state and a further use of the value. -/
def Step.map {σ σ' α α' : Type} (f : σ → σ') (g : α → α') : Step σ α → Step σ' α'
  | .next s => .next (f s)
  | .done a => .done (g a)
  | .past a => .past (g a)
  | .refuse fault side => .refuse fault side

/-- A syntax fault found with a byte: its place is after that byte. -/
def Step.refuseAt {σ α : Type} (fault : SyntaxFault) : Step σ α :=
  .refuse (.syntactic fault) .after

/-- Whether a byte is a blank between tokens: space, tab, line feed or carriage return. -/
def isBlank (b : UInt8) : Bool := b = 0x20 || b = 0x0A || b = 0x09 || b = 0x0D

/-- Whether a byte is a decimal digit. -/
def isDigit (b : UInt8) : Bool := 0x30 ≤ b && b ≤ 0x39

/-- The value of a decimal digit. -/
def digitValue (b : UInt8) : Nat := b.toNat - 0x30

end GossipNode
