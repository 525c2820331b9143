import GossipNode.CommandLine.Options
import GossipNode.Text.Terminal

/-!
# Reading the command line

Arguments are read from left to right.  An option is called by its name after two dashes or, if it
has one, by its letter after one; letters of several options may follow one dash.  A value stands in
the same argument, with or without an equals sign after a letter and with one after a name, or in
the next one, unless that begins with a dash itself.  There are no other arguments.

A value is looked at when the next option is read or the line ends, and not at all if an argument
that is not known comes first.

## Main definitions

* `UsageFault` — why a command line is refused.
* `Request` — what a command line asks for.
* `parse` — the request of a command line.
-/

namespace GossipNode.CommandLine

/-- Why a command line is refused. -/
inductive UsageFault
  | unexpected (argument : String)
  | invalid (setting : Setting) (value : String) (why : NumberFault)
  | valueMissing (setting : Setting)
  | repeated (setting : Setting)
  | surplusValue (switch : Switch) (value : String)
  deriving DecidableEq, Repr

/-- The words for a fault of a command line.  What was written there is shown as a terminal would
show it. -/
def UsageFault.message : UsageFault → String
  | unexpected argument => "unexpected argument '" ++ Terminal.shown argument ++ "' found"
  | invalid setting value why =>
    "invalid value '" ++ Terminal.shown value ++ "' for '" ++ setting.display ++ "': "
      ++ why.message
  | valueMissing setting =>
    "a value is required for '" ++ setting.display ++ "' but none was supplied"
  | repeated setting => "the argument '" ++ setting.display ++ "' cannot be used multiple times"
  | surplusValue switch value =>
    "unexpected value '" ++ Terminal.shown value ++ "' for '" ++ switch.display
      ++ "' found; no more were expected"

/-- The report of a fault of a command line. -/
def UsageFault.report (f : UsageFault) : String := "error: " ++ f.message

/-- The characters of the first line.  A carriage return before the line feed belongs to the end of
the line. -/
def firstLine : List Char → List Char
  | [] | '\n' :: _ | '\r' :: '\n' :: _ => []
  | c :: cs => c :: firstLine cs

/-- The first line of the report, where no more is asked for. -/
def UsageFault.line (f : UsageFault) : String := String.ofList (firstLine f.report.toList)

/-- What a command line asks for. -/
inductive Request
  | run (options : Options)
  | help
  | version
  deriving DecidableEq, Repr

/-- Why reading stops before the end of the line. -/
inductive Stop
  | refused (fault : UsageFault)
  | help
  | version
  deriving DecidableEq, Repr

/-- A command line that has been read in part: the options given so far, which of them have been
given, and the last one while its value has not been looked at. -/
structure Reading where
  options : Options
  given : List Setting
  pending : Option (Setting × Option String)
  deriving DecidableEq, Repr

namespace Reading

/-- Before the first argument. -/
def start : Reading := { options := {}, given := [], pending := none }

/-- Gives an option its value, which may be given once. -/
def assign (r : Reading) (s : Setting) (value : Option String) : Except Stop Reading :=
  match value with
  | none => throw (.refused (.valueMissing s))
  | some text =>
    if s ∈ r.given then throw (.refused (.repeated s))
    else
      match s.assign text r.options with
      | .ok options => .ok { options, given := s :: r.given, pending := none }
      | .error why => throw (.refused (.invalid s text why))

/-- Looks at the value of the last option. -/
def resolve (r : Reading) : Except Stop Reading :=
  match r.pending with
  | none => .ok r
  | some (s, value) => { r with pending := none }.assign s value

/-- An option that has a value is called; the value may stand in the same argument. -/
def callSetting (r : Reading) (s : Setting) (value : Option String) : Except Stop Reading := do
  let r ← r.resolve
  match value with
  | some text => r.assign s (some text)
  | none => return { r with pending := some (s, none) }

/-- An option that has no value is called. -/
def callSwitch (r : Reading) (s : Switch) : Except Stop Reading := do
  let r ← r.resolve
  match s with
  | .verbose =>
    return { r with options := { r.options with verbosity := min (r.options.verbosity + 1) 255 } }
  | .help => throw .help
  | .version => throw .version

/-- An argument that is not known. -/
def unknown (argument : List Char) : Except Stop Reading :=
  throw (.refused (.unexpected (String.ofList argument)))

/-- An option is called by name. -/
def readName (r : Reading) (name : List Char) (value : Option (List Char)) : Except Stop Reading :=
  match Setting.all.find? fun s => s.longName.toList = name with
  | some s => r.callSetting s (value.map String.ofList)
  | none =>
    match Switch.all.find? fun s => s.longName.toList = name with
    | some s =>
      match value with
      | some value => throw (.refused (.surplusValue s (String.ofList value)))
      | none => r.callSwitch s
    | none => unknown ('-' :: '-' :: name)

/-- The value that stands behind a letter, if anything does. -/
def attached : List Char → Option String
  | [] => none
  | '=' :: cs => some (String.ofList cs)
  | cs => some (String.ofList cs)

/-- Options are called by letters. -/
def readLetters (r : Reading) : List Char → Except Stop Reading
  | [] => .ok r
  | c :: cs =>
    match Setting.all.find? fun s => s.shortName? = some c with
    | some s => r.callSetting s (attached cs)
    | none =>
      match Switch.all.find? fun s => s.shortName = c with
      | some s => do readLetters (← r.callSwitch s) cs
      | none => unknown ['-', c]

/-- An argument that calls no option: the value of the last option, if that is due. -/
def readValue (r : Reading) (argument : List Char) : Except Stop Reading :=
  match r.pending with
  | some (s, none) => .ok { r with pending := some (s, some (String.ofList argument)) }
  | _ => unknown argument

/-- The parts of a text before and after the first equals sign, if there is one. -/
def splitAtEquals (cs : List Char) : List Char × Option (List Char) :=
  match cs.span (· ≠ '=') with
  | (name, _ :: value) => (name, some value)
  | (name, []) => (name, none)

/-- Reads the arguments one after the other.  After two dashes alone nothing calls an option any
more. -/
def readAll (r : Reading) : List (List Char) → Except Stop Reading
  | [] => r.resolve
  | ['-', '-'] :: [] => r.resolve
  | ['-', '-'] :: argument :: _ => unknown argument
  | ('-' :: '-' :: cs) :: rest => do
    let (name, value) := splitAtEquals cs
    readAll (← r.readName name value) rest
  | ('-' :: c :: cs) :: rest => do readAll (← r.readLetters (c :: cs)) rest
  | argument :: rest => do readAll (← r.readValue argument) rest

end Reading

/-- What a command line asks for, or why it is refused. -/
def parse (arguments : List String) : Except UsageFault Request :=
  match Reading.start.readAll (arguments.map String.toList) with
  | .ok r => .ok (.run r.options)
  | .error .help => .ok .help
  | .error .version => .ok .version
  | .error (.refused fault) => .error fault

end GossipNode.CommandLine
