import GossipNode.Json.NumberReader
import GossipNode.Json.StringReader

/-!
# Reading scalars byte by byte

## Main definitions

* `LiteralReader` — `null`, `true` and `false`.
* `ScalarReader` — any scalar, told by its first byte.
* `ScalarSkipper` — a scalar that is passed over.
-/

namespace GossipNode

/-- A literal being read: the bytes still due, and what it stands for. -/
structure LiteralReader where
  due : Bytes
  value : Scalar
  deriving DecidableEq, Repr

namespace LiteralReader

/-- The reader after the first byte of a literal, if the byte starts one. -/
def start? (b : UInt8) : Option LiteralReader :=
  if b = 0x6E then some ⟨ascii ['u', 'l', 'l'], .null⟩
  else if b = 0x74 then some ⟨ascii ['r', 'u', 'e'], .bool true⟩
  else if b = 0x66 then some ⟨ascii ['a', 'l', 's', 'e'], .bool false⟩
  else none

/-- Reads one byte. -/
def step (r : LiteralReader) (b : UInt8) : Step LiteralReader Scalar :=
  match r.due with
  | [] => .past r.value
  | [c] => if b = c then .done r.value else .refuseAt .misspelled
  | c :: due => if b = c then .next ⟨due, r.value⟩ else .refuseAt .misspelled

end LiteralReader

/-- A scalar being read. -/
inductive ScalarReader
  | literal (r : LiteralReader)
  | number (r : NumberReader)
  | string (r : StringReader)
  deriving DecidableEq, Repr

namespace ScalarReader

/-- The reader after the first byte of a scalar, if the byte starts one. -/
def start? (b : UInt8) : Option ScalarReader :=
  if b = 0x22 then some (.string .start)
  else
    match NumberReader.start? b with
    | some r => some (.number r)
    | none => (LiteralReader.start? b).map .literal

/-- Reads one byte. -/
def step (r : ScalarReader) (b : UInt8) : Step ScalarReader Scalar :=
  match r with
  | .literal r => (r.step b).map .literal id
  | .number r => (r.step b).map .number id
  | .string r => (r.step b).map .string .string

/-- What the end of the text means: only a number can be complete without a byte of its own. -/
def atEnd : ScalarReader → Ending Scalar
  | .number r => r.atEnd
  | .literal _ | .string _ => .cut

end ScalarReader

/-- A scalar that is passed over. -/
inductive ScalarSkipper
  | literal (r : LiteralReader)
  | number (r : NumberSkipper)
  | string (r : StringSkipper)
  deriving DecidableEq, Repr

namespace ScalarSkipper

/-- The skipper after the first byte of a scalar, if the byte starts one. -/
def start? (b : UInt8) : Option ScalarSkipper :=
  if b = 0x22 then some (.string .plain)
  else
    match NumberSkipper.start? b with
    | some r => some (.number r)
    | none => (LiteralReader.start? b).map .literal

/-- Passes one byte. -/
def step (r : ScalarSkipper) (b : UInt8) : Step ScalarSkipper Unit :=
  match r with
  | .literal r => (r.step b).map .literal fun _ => ()
  | .number r => (r.step b).map .number id
  | .string r => (r.step b).map .string id

/-- What the end of the text means. -/
def atEnd : ScalarSkipper → Ending Unit
  | .number r => r.atEnd
  | .literal _ | .string _ => .cut

end ScalarSkipper

end GossipNode
