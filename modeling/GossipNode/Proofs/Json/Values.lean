import GossipNode.Json.Reader
import GossipNode.Proofs.Json.Scalars

/-!
# The text of a value, and the parts of reading one

The compact text of a value is put together from those of its parts.  The reader of values keeps the
containers that are open on a stack, so what is shown of a part holds under any stack; what may
follow a value is a comma or the end of a container, and a number at its end waits for one of them.

## Main definitions

* `Json.isPlain` — values that have one spelling: plain scalars in them, and members in ascending
  order of their names.
* `JsonReader.Calm` — readers that mind nothing if the text ends.

## Main results

* `Json.render_array_cons`, `Json.render_object_cons` — the text of a container.
* `JsonReader.reaches_scalar` — a scalar leads to its reception.
* `JsonReader.takes_quoted` — names are taken where they are due.
-/

namespace GossipNode

namespace Json

/-! ### The text of a value -/

mutual

/-- Output is put in front of what is there. -/
theorem push_append : ∀ (v : Json) (out : Bytes), push out v = push [] v ++ out
  | .scalar s, out => by simp [push, List.reverseAux_eq]
  | .array [], out => by simp [push]
  | .array (v :: vs), out => by
    rw [push, push, push_append v (0x5B :: out), push_append v [0x5B], pushItems_append vs,
      pushItems_append vs (push [] v ++ [0x5B])]
    simp
  | .object [], out => by simp [push]
  | .object ((n, v) :: ms), out => by
    rw [push, push, push_append v (pushName (0x7B :: out) n), push_append v (pushName [0x7B] n),
      pushMembers_append ms, pushMembers_append ms (push [] v ++ pushName [0x7B] n)]
    simp [pushName, List.reverseAux_eq]

theorem pushItems_append : ∀ (vs : List Json) (out : Bytes),
    pushItems out vs = pushItems [] vs ++ out
  | [], out => by simp [pushItems]
  | v :: vs, out => by
    rw [pushItems, pushItems, push_append v (0x2C :: out), push_append v [0x2C],
      pushItems_append vs, pushItems_append vs (push [] v ++ [0x2C])]
    simp

theorem pushMembers_append : ∀ (ms : List (String × Json)) (out : Bytes),
    pushMembers out ms = pushMembers [] ms ++ out
  | [], out => by simp [pushMembers]
  | (n, v) :: ms, out => by
    rw [pushMembers, pushMembers, push_append v (pushName (0x2C :: out) n),
      push_append v (pushName [0x2C] n), pushMembers_append ms,
      pushMembers_append ms (push [] v ++ pushName [0x2C] n)]
    simp [pushName, List.reverseAux_eq]

end

/-- The text of further items, each after a comma. -/
def renderItems (vs : List Json) : Bytes := vs.flatMap fun v => 0x2C :: v.render

/-- The text of a member. -/
def renderMember (name : String) (v : Json) : Bytes := JsonString.render name ++ 0x3A :: v.render

/-- The text of further members, each after a comma. -/
def renderMembers (ms : List (String × Json)) : Bytes :=
  ms.flatMap fun m => 0x2C :: renderMember m.1 m.2

@[simp] theorem renderItems_cons (v : Json) (vs : List Json) :
    renderItems (v :: vs) = 0x2C :: (v.render ++ renderItems vs) := rfl

@[simp] theorem renderMembers_cons (n : String) (v : Json) (ms : List (String × Json)) :
    renderMembers ((n, v) :: ms) = 0x2C :: (renderMember n v ++ renderMembers ms) := rfl

theorem reverse_pushItems (vs : List Json) : (pushItems [] vs).reverse = renderItems vs := by
  induction vs with
  | nil => rfl
  | cons v vs ih =>
    rw [pushItems, push_append, pushItems_append, renderItems_cons, ← ih]
    simp [render]

theorem reverse_pushMembers (ms : List (String × Json)) :
    (pushMembers [] ms).reverse = renderMembers ms := by
  induction ms with
  | nil => rfl
  | cons m ms ih =>
    obtain ⟨n, v⟩ := m
    rw [pushMembers, push_append, pushMembers_append, renderMembers_cons, ← ih]
    simp [render, renderMember, pushName, List.reverseAux_eq]

theorem render_scalar (s : Scalar) : (Json.scalar s).render = s.render := by
  simp [render, push, List.reverseAux_eq]

theorem render_array_cons (v : Json) (vs : List Json) :
    (Json.array (v :: vs)).render = 0x5B :: (v.render ++ renderItems vs ++ [0x5D]) := by
  rw [render, push, push_append, pushItems_append]
  simp [render, reverse_pushItems]

theorem render_object_cons (n : String) (v : Json) (ms : List (String × Json)) :
    (Json.object ((n, v) :: ms)).render =
      0x7B :: (renderMember n v ++ renderMembers ms ++ [0x7D]) := by
  rw [render, push, push_append, pushMembers_append]
  simp [render, reverse_pushMembers, renderMember, pushName, List.reverseAux_eq]

/-! ### Values with one spelling -/

/-- Whether members stand in ascending order of their names, each name once. -/
def ascendingNames (ms : List (String × Json)) : Bool := decide ((ms.map (·.1)).Pairwise (· < ·))

mutual

/-- Whether a value has one spelling that keeps all of it: all its scalars do, and all its objects
have their members in order. -/
def isPlain : Json → Bool
  | .scalar s => s.isPlain
  | .array items => plainItems items
  | .object members => ascendingNames members && plainMembers members

/-- Whether all items have one spelling. -/
def plainItems : List Json → Bool
  | [] => true
  | v :: vs => v.isPlain && plainItems vs

/-- Whether the values of all members have one spelling. -/
def plainMembers : List (String × Json) → Bool
  | [] => true
  | (_, v) :: ms => v.isPlain && plainMembers ms

end

/-- A member whose name comes after all others is put in front. -/
theorem insertMember_of_lt {name : String} {v : Json} {seen : List (String × Json)}
    (h : ∀ m ∈ seen, m.1 < name) : insertMember name v seen = (name, v) :: seen := by
  cases seen with
  | nil => rfl
  | cons m seen =>
    obtain ⟨n, w⟩ := m
    rw [insertMember, if_pos (h (n, w) List.mem_cons_self)]

end Json

namespace JsonReader

/-! ### What leads where -/

/-- The text may end here without being wrong. -/
def Calm (r : JsonReader) : Prop := ∀ fault, r.atEnd ≠ .refuse fault

theorem calm_scalar {frames : List Frame} {room : Nat} {s : ScalarReader} (h : s.Calm) :
    Calm ⟨frames, room, .scalar s⟩ := by
  intro fault
  simp only [atEnd]
  cases hs : s.atEnd with
  | whole v => simp only; split <;> simp
  | refuse f => exact absurd hs (h f)
  | cut => simp

theorem calm_of_not_scalar {r : JsonReader} (h : ∀ s, r.stage ≠ .scalar s) : r.Calm := by
  intro fault
  obtain ⟨frames, room, stage⟩ := r
  cases stage with
  | scalar s => exact absurd rfl (h s)
  | _ => simp [atEnd]

/-- What a scalar takes is taken by the value it is. -/
theorem takes_scalar (frames : List Frame) (room : Nat) {s t : ScalarReader} {bs : Bytes}
    (h : Takes ScalarReader.step ScalarReader.Calm s bs t) :
    Takes step Calm ⟨frames, room, .scalar s⟩ bs ⟨frames, room, .scalar t⟩ := by
  refine h.map (fun s => (⟨frames, room, .scalar s⟩ : JsonReader)) (fun s b t hst => ?_)
    fun _ hs => calm_scalar hs
  simp [step, hst, expect]

/-- A scalar leads to its reception. -/
theorem reaches_scalar {frames : List Frame} {room : Nat} {s : ScalarReader} {bs : Bytes}
    {v : Scalar} (h : Gives ScalarReader.step ScalarReader.Calm s bs v) :
    Reaches step Calm ⟨frames, room, .scalar s⟩ bs (receive frames room (.scalar v)) := by
  cases h with
  | done taken last =>
    refine .done (takes_scalar frames room taken) ?_
    simp only [step, last]
  | past taken after =>
    refine .past (takes_scalar frames room taken) fun b hb => ?_
    simp only [step, after b hb]
    cases frames with
    | nil => rfl
    | cons frame frames => cases frame <;> rfl

/-- A name between quotes is taken where one is due, and its colon is due then. -/
theorem takes_quoted (frames : List Frame) (room : Nat) {stage : JsonStage}
    (hstage : stage = .firstName ∨ stage = .nextName) {text : Bytes} {name : String}
    (content : Takes StringReader.step StringReader.Calm .start text
      ⟨(utf8 name).reverse, .plain⟩) :
    Takes step Calm ⟨frames, room, stage⟩ (0x22 :: text ++ [0x22])
      ⟨setName name frames, room, .colon⟩ := by
  have hcalm : ∀ s, Calm ⟨frames, room, .name s⟩ := fun s => calm_of_not_scalar (by simp)
  have inside : Takes step Calm ⟨frames, room, .name .start⟩ text
      ⟨frames, room, .name ⟨(utf8 name).reverse, .plain⟩⟩ := by
    refine content.map (fun s => (⟨frames, room, .name s⟩ : JsonReader)) (fun s b t hst => ?_)
      fun s _ => hcalm s
    simp [step, hst, expect]
  refine .cons (t := ⟨frames, room, .name .start⟩) ?_ (hcalm _)
    (inside.snoc ?_ (calm_of_not_scalar (by simp)))
  · rcases hstage with rfl | rfl <;> simp [step, between, isBlank, startName, expect]
  · simp only [step, StringReader.step_quote]

/-! ### Values -/

/-- A stage at which a value may begin. -/
def expectsValue (stage : JsonStage) : Prop :=
  stage = .value ∨ stage = .firstItem ∨ stage = .nextItem

/-- Where a value is due, a byte that is neither blank nor the end of an array begins one. -/
theorem step_of_expectsValue {frames : List Frame} {room : Nat} {stage : JsonStage} {b : UInt8}
    (h : expectsValue stage) (blank : isBlank b = false) (close : b ≠ 0x5D) :
    step ⟨frames, room, stage⟩ b = startValue ⟨frames, room, .value⟩ b := by
  rcases h with rfl | rfl | rfl <;>
    simp [step, between, blank, close, startValue, openFrame, expect]

/-- Where a value is due, the first byte of a scalar begins it. -/
theorem step_of_start? {frames : List Frame} {room : Nat} {stage : JsonStage} {b : UInt8}
    {r : ScalarReader} (h : expectsValue stage) (started : ScalarReader.start? b = some r) :
    step ⟨frames, room, stage⟩ b = .next ⟨frames, room, .scalar r⟩ := by
  obtain ⟨blank, array, object, close, -⟩ := ScalarReader.separators_of_start? started
  rw [step_of_expectsValue h blank close]
  simp [startValue, array, object, started, expect]

/-- A value that is an item of an array is received, and the array waits for a separator. -/
theorem takes_item {r : JsonReader} {bs : Bytes} {seen : List Json} {frames : List Frame}
    {room : Nat} {v : Json} (h : Reaches step Calm r bs (receive (.array seen :: frames) room v)) :
    ∃ t, Takes step Calm r bs t ∧ StandsFor step t ⟨.array (v :: seen) :: frames, room, .afterItem⟩ :=
  h.standsFor (calm_of_not_scalar (by simp))

end JsonReader

end GossipNode
