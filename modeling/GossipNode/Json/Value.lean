import GossipNode.Decimal.Shortest

/-!
# JSON values

A value is a scalar or a container of values.  Whole numbers and binary64 numbers are told apart:
a number that was written with a fraction or an exponent is never whole.  The members of an object
stand in ascending order of their names, each name once; the order of names is that of their
characters' numbers, which is also the order of their UTF-8 bytes.

## Main definitions

* `Scalar`, `Json` — scalars and values.
* `Json.insertMember` — puts a member in its place among members in descending order.
* `Json.depth` — how many containers enclose the innermost value.
-/

namespace GossipNode

/-- A value without parts. -/
inductive Scalar
  | null
  | bool (b : Bool)
  | integer (n : Int)
  | float (x : Binary64)
  | string (s : String)
  deriving DecidableEq, Repr, Inhabited

/-- A scalar, a sequence of values, or named values in ascending order of their names. -/
inductive Json
  | scalar (s : Scalar)
  | array (items : List Json)
  | object (members : List (String × Json))
  deriving Repr, Inhabited

namespace Json

/-- Puts a member among members in descending order of their names; a member of the same name is
replaced, so that of several the last one read stays. -/
def insertMember (name : String) (value : Json) : List (String × Json) → List (String × Json)
  | [] => [(name, value)]
  | (n, v) :: rest =>
    if n < name then (name, value) :: (n, v) :: rest
    else if n = name then (name, value) :: rest
    else (n, v) :: insertMember name value rest

mutual

/-- How many containers enclose the innermost value. -/
def depth : Json → Nat
  | .scalar _ => 0
  | .array items => depthOfItems items + 1
  | .object members => depthOfMembers members + 1

/-- The greatest depth of a list of values. -/
def depthOfItems : List Json → Nat
  | [] => 0
  | v :: vs => max v.depth (depthOfItems vs)

/-- The greatest depth of a list of members. -/
def depthOfMembers : List (String × Json) → Nat
  | [] => 0
  | (_, v) :: ms => max v.depth (depthOfMembers ms)

end

end Json

end GossipNode
