import GossipNode.Json.ScalarReader

/-!
# Reading values byte by byte

A value is read with the containers that are open kept on a stack, so that the reader is a machine
that takes one byte at a time and can stop at any of them.  How many containers may be open is
limited.

`Skipper` passes over a value.  It checks the syntax only, and not the depth.

## Main definitions

* `Frame` — an open container and what it holds so far.
* `JsonReader`, `JsonReader.step`, `JsonReader.atEnd` — values that are kept.
* `Skipper`, `Skipper.step`, `Skipper.atEnd` — values that are passed over.
-/

namespace GossipNode

/-- An open container: its items so far, last first, or its members so far in descending order and
the name whose value is due or being read. -/
inductive Frame
  | array (items : List Json)
  | object (members : List (String × Json)) (name : String)
  deriving Repr

/-- What a reader of values expects next. -/
inductive JsonStage
  /-- A value. -/
  | value
  /-- A first item, or the end of the array. -/
  | firstItem
  /-- The rest of a scalar. -/
  | scalar (r : ScalarReader)
  /-- A comma and another item, or the end of the array. -/
  | afterItem
  /-- An item, after a comma. -/
  | nextItem
  /-- A first name, or the end of the object. -/
  | firstName
  /-- A comma and another name, or the end of the object. -/
  | afterMember
  /-- A name, after a comma. -/
  | nextName
  /-- The rest of a name. -/
  | name (r : StringReader)
  /-- A colon. -/
  | colon
  deriving Repr

/-- A value being read: the open containers, innermost first, how many more may be opened, and what
is expected next. -/
structure JsonReader where
  frames : List Frame
  room : Nat
  stage : JsonStage
  deriving Repr

namespace JsonReader

/-- A reader that expects a value of at most `room` levels of containers. -/
def start (room : Nat) : JsonReader := ⟨[], room, .value⟩

/-- A value is complete: the innermost open container receives it, or there is none and the reader
is done. -/
def receive (frames : List Frame) (room : Nat) (v : Json) : Step JsonReader Json :=
  match frames with
  | [] => .done v
  | .array items :: frames => .next ⟨.array (v :: items) :: frames, room, .afterItem⟩
  | .object members name :: frames =>
    .next ⟨.object (Json.insertMember name v members) name :: frames, room, .afterMember⟩

/-- The innermost container ends. -/
def close (frames : List Frame) (room : Nat) : Step JsonReader Json :=
  match frames with
  | [] => .refuseAt .expectedValue
  | .array items :: frames => receive frames (room + 1) (.array items.reverse)
  | .object members _ :: frames => receive frames (room + 1) (.object members.reverse)

/-- A container begins. -/
def openFrame (r : JsonReader) (frame : Frame) (stage : JsonStage) : Step JsonReader Json :=
  match r.room with
  | 0 => .refuseAt .tooDeep
  | room + 1 => .next ⟨frame :: r.frames, room, stage⟩

/-- The reader with another stage. -/
def expect (r : JsonReader) (stage : JsonStage) : Step JsonReader Json :=
  .next ⟨r.frames, r.room, stage⟩

/-- A byte where a value is due. -/
def startValue (r : JsonReader) (b : UInt8) : Step JsonReader Json :=
  if b = 0x5B then r.openFrame (.array []) .firstItem
  else if b = 0x7B then r.openFrame (.object [] "") .firstName
  else
    match ScalarReader.start? b with
    | some s => r.expect (.scalar s)
    | none => .refuseAt .expectedValue

/-- A byte where a name is due. -/
def startName (r : JsonReader) (b : UInt8) : Step JsonReader Json :=
  if b = 0x22 then r.expect (.name .start) else .refuseAt .nameNotString

/-- A byte between the tokens of a container. -/
def between (r : JsonReader) (b : UInt8) : Step JsonReader Json :=
  if isBlank b then .next r
  else
    match r.stage with
    | .value => r.startValue b
    | .firstItem => if b = 0x5D then close r.frames r.room else r.startValue b
    | .afterItem =>
      if b = 0x2C then r.expect .nextItem
      else if b = 0x5D then close r.frames r.room
      else .refuseAt .expectedCommaOrBracket
    | .nextItem => if b = 0x5D then .refuseAt .trailingComma else r.startValue b
    | .firstName => if b = 0x7D then close r.frames r.room else r.startName b
    | .afterMember =>
      if b = 0x2C then r.expect .nextName
      else if b = 0x7D then close r.frames r.room
      else .refuseAt .expectedCommaOrBrace
    | .nextName => if b = 0x7D then .refuseAt .trailingComma else r.startName b
    | .colon => if b = 0x3A then r.expect .value else .refuseAt .expectedColon
    | .scalar _ | .name _ => .next r

/-- Names the member whose value follows. -/
def setName (name : String) : List Frame → List Frame
  | .object members _ :: frames => .object members name :: frames
  | frames => frames

/-- Reads one byte. -/
def step (r : JsonReader) (b : UInt8) : Step JsonReader Json :=
  match r.stage with
  | .scalar s =>
    match s.step b with
    | .next s => r.expect (.scalar s)
    | .done v => receive r.frames r.room (.scalar v)
    | .past v =>
      match receive r.frames r.room (.scalar v) with
      | .next r => r.between b
      | .done v => .past v
      | .past v => .past v
      | .refuse fault side => .refuse fault side
    | .refuse fault side => .refuse fault side
  | .name s =>
    match s.step b with
    | .next s => r.expect (.name s)
    | .done name | .past name => .next ⟨setName name r.frames, r.room, .colon⟩
    | .refuse fault side => .refuse fault side
  | _ => r.between b

/-- What the end of the text means: only a number outside all containers can be complete. -/
def atEnd (r : JsonReader) : Ending Json :=
  match r.stage with
  | .scalar s =>
    match s.atEnd with
    | .whole v => if r.frames.isEmpty then .whole (.scalar v) else .cut
    | .refuse fault => .refuse fault
    | .cut => .cut
  | _ => .cut

end JsonReader

/-- The kinds of containers. -/
inductive Bracket
  | square
  | curly
  deriving DecidableEq, Repr

/-- What a skipper expects next. -/
inductive SkipStage
  /-- A value. -/
  | value
  /-- The first thing in a container, or its end. -/
  | first
  /-- The rest of a scalar. -/
  | scalar (r : ScalarSkipper)
  /-- A comma, or the end of the container. -/
  | afterItem
  /-- A name, after a comma. -/
  | nextName
  /-- The rest of a name. -/
  | name (r : StringSkipper)
  /-- A colon. -/
  | colon
  deriving DecidableEq, Repr

/-- A value that is passed over: the open containers, innermost first, and what is expected next. -/
structure Skipper where
  frames : List Bracket
  stage : SkipStage
  deriving DecidableEq, Repr

namespace Skipper

/-- A skipper that expects a value. -/
def start : Skipper := ⟨[], .value⟩

/-- A value has been passed. -/
def receive : List Bracket → Step Skipper Unit
  | [] => .done ()
  | frame :: frames => .next ⟨frame :: frames, .afterItem⟩

/-- A byte where a value is due. -/
def startValue (r : Skipper) (b : UInt8) : Step Skipper Unit :=
  if b = 0x5B then .next ⟨.square :: r.frames, .first⟩
  else if b = 0x7B then .next ⟨.curly :: r.frames, .first⟩
  else
    match ScalarSkipper.start? b with
    | some s => .next ⟨r.frames, .scalar s⟩
    | none => .refuseAt .expectedValue

/-- A byte where a name is due. -/
def startName (r : Skipper) (b : UInt8) : Step Skipper Unit :=
  if b = 0x22 then .next ⟨r.frames, .name .plain⟩ else .refuseAt .nameNotString

/-- A byte where the first thing of a container is due. -/
def startFirst (r : Skipper) (b : UInt8) : Step Skipper Unit :=
  match r.frames with
  | .square :: frames => if b = 0x5D then receive frames else r.startValue b
  | .curly :: frames => if b = 0x7D then receive frames else r.startName b
  | [] => r.startValue b

/-- A byte after an item or a member of a container. -/
def afterItem (r : Skipper) (b : UInt8) : Step Skipper Unit :=
  match r.frames with
  | .square :: frames =>
    if b = 0x2C then .next ⟨r.frames, .value⟩
    else if b = 0x5D then receive frames
    else .refuseAt .expectedCommaOrBracket
  | .curly :: frames =>
    if b = 0x2C then .next ⟨r.frames, .nextName⟩
    else if b = 0x7D then receive frames
    else .refuseAt .expectedCommaOrBrace
  | [] => .past ()

/-- A byte between the tokens of a container. -/
def between (r : Skipper) (b : UInt8) : Step Skipper Unit :=
  if isBlank b then .next r
  else
    match r.stage with
    | .value => r.startValue b
    | .first => r.startFirst b
    | .afterItem => r.afterItem b
    | .nextName => r.startName b
    | .colon => if b = 0x3A then .next ⟨r.frames, .value⟩ else .refuseAt .expectedColon
    | .scalar _ | .name _ => .next r

/-- Passes one byte. -/
def step (r : Skipper) (b : UInt8) : Step Skipper Unit :=
  match r.stage with
  | .scalar s =>
    match s.step b with
    | .next s => .next ⟨r.frames, .scalar s⟩
    | .done _ => receive r.frames
    | .past _ =>
      match receive r.frames with
      | .next r => r.between b
      | .done _ | .past _ => .past ()
      | .refuse fault side => .refuse fault side
    | .refuse fault side => .refuse fault side
  | .name s =>
    match s.step b with
    | .next s => .next ⟨r.frames, .name s⟩
    | .done _ | .past _ => .next ⟨r.frames, .colon⟩
    | .refuse fault side => .refuse fault side
  | _ => r.between b

/-- What the end of the text means. -/
def atEnd (r : Skipper) : Ending Unit :=
  match r.stage with
  | .scalar s =>
    match s.atEnd with
    | .whole _ => if r.frames.isEmpty then .whole () else .cut
    | .refuse fault => .refuse fault
    | .cut => .cut
  | _ => .cut

end Skipper

end GossipNode
