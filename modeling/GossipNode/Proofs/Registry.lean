import GossipNode.Event
import Mathlib.Data.List.Range
import Mathlib.Data.List.Induction

/-!
# What listeners are told

A registry tells an event to its listeners one after the other and drops those that answer no.  What
a listener hears is not for others to decide: it hears every event from its registration on, up to
the first one to which it answers no, whoever comes and goes before, after or beside it.

A history of calls to a registry is compared with what each listener by itself would have to be
told, which is read off the history and needs no registry.  Listeners are called by the number of
their registration.

## Main definitions

* `Registry.Call`, `Registry.Play`, `Registry.play` — a history of calls, and what comes of it.
* `Listener.told`, `Listener.stays` — what is told to a listener by itself, and whether it stays.
* `Registry.enrolments` — who is registered in a history, and which events come after that.
* `Registry.tellEach` — one notification, listener by listener.

## Main results

* `Registry.Play.sound` — a registry holds those who have not answered no.
* `Registry.delivery_exact` — **every listener is told what it has to be told, each thing once and
  in order.**
-/

namespace GossipNode

/-- How a listener answers: what it has been told, last first, and what it is told now. -/
abbrev Answer := List Event → Event → Bool

/-! ### A listener by itself -/

namespace Listener

/-- The events that a listener is told of those that happen, after it has heard some: all up to the
first one to which it answers no, and that one. -/
def told (answer : Answer) : (heard events : List Event) → List Event
  | _, [] => []
  | heard, e :: events => e :: if answer heard e then told answer (e :: heard) events else []

/-- Whether a listener answers yes to all events that happen. -/
def stays (answer : Answer) : (heard events : List Event) → Bool
  | _, [] => true
  | heard, e :: events => answer heard e && stays answer (e :: heard) events

variable {answer : Answer} {heard : List Event}

/-- One more event is told to whoever has stayed. -/
theorem told_concat (events : List Event) (e : Event) :
    told answer heard (events ++ [e]) =
      told answer heard events ++ if stays answer heard events then [e] else [] := by
  induction events generalizing heard with
  | nil =>
    rw [List.nil_append, told, told]
    cases answer heard e <;> rfl
  | cons first events ih =>
    rw [List.cons_append, told, told, stays, ih]
    cases answer heard first <;> rfl

/-- Whoever has stayed stays if it answers yes once more. -/
theorem stays_concat (events : List Event) (e : Event) :
    stays answer heard (events ++ [e]) =
      (stays answer heard events && answer (events.reverse ++ heard) e) := by
  induction events generalizing heard with
  | nil =>
    rw [List.nil_append, stays, stays, stays, Bool.and_true, Bool.true_and]
    rfl
  | cons first events ih =>
    rw [List.cons_append, stays, stays, ih, Bool.and_assoc, List.reverse_cons, List.append_assoc]
    rfl

end Listener

namespace Registry

/-! ### Histories -/

/-- A call to a registry. -/
inductive Call
  | register (answer : Answer)
  | notify (event : Event)

/-- Somebody who was registered: how it answers, and the events that have happened since. -/
structure Enrolment where
  answer : Answer
  since : List Event

namespace Enrolment

/-- What it has to be told. -/
def due (x : Enrolment) : List Event := Listener.told x.answer [] x.since

/-- Whether it has answered yes to everything. -/
def stays (x : Enrolment) : Bool := Listener.stays x.answer [] x.since

/-- One more event happens. -/
def witness (x : Enrolment) (event : Event) : Enrolment := { x with since := x.since ++ [event] }

/-- The listener it is as long as it stays. -/
def listener? (x : Enrolment) (number : Nat) : Option (Listener Nat) :=
  if x.stays then some ⟨number, x.since.reverse, x.answer⟩ else none

theorem due_witness (x : Enrolment) (event : Event) :
    (x.witness event).due = x.due ++ if x.stays then [event] else [] :=
  Listener.told_concat x.since event

theorem stays_witness (x : Enrolment) (event : Event) :
    (x.witness event).stays = (x.stays && x.answer x.since.reverse event) := by
  rw [stays, witness, Listener.stays_concat, List.append_nil, stays]

/-- Being told an event makes of a listener what it is after one more event. -/
theorem tell_listener? (x : Enrolment) (number : Nat) (event : Event) :
    (x.listener? number).bind (tell event) = (x.witness event).listener? number := by
  unfold listener?
  rw [stays_witness]
  cases x.stays with
  | false => rfl
  | true =>
    rw [if_pos rfl, Option.bind_some, tell, Bool.true_and, witness, List.reverse_append]
    rfl

end Enrolment

/-- The events of a history. -/
def happenings (history : List Call) : List Event :=
  history.filterMap fun
    | .register _ => none
    | .notify event => some event

/-- Who is registered in a history, in order, with the events that come after that. -/
def enrolments : List Call → List Enrolment
  | [] => []
  | .register answer :: history => ⟨answer, happenings history⟩ :: enrolments history
  | .notify _ :: history => enrolments history

theorem enrolments_register (history : List Call) (answer : Answer) :
    enrolments (history ++ [.register answer]) = enrolments history ++ [⟨answer, []⟩] := by
  induction history with
  | nil => rfl
  | cons call history ih =>
    cases call with
    | register first => simp [enrolments, ih, happenings]
    | notify event => exact ih

theorem enrolments_notify (history : List Call) (event : Event) :
    enrolments (history ++ [.notify event]) =
      (enrolments history).map fun x => x.witness event := by
  induction history with
  | nil => rfl
  | cons call history ih =>
    cases call with
    | register first => simp [enrolments, ih, happenings, Enrolment.witness]
    | notify earlier => exact ih

/-- A registry that calls its listeners by the number of their registration, how many have been
registered, and who has been told what, in order. -/
structure Play where
  registry : Registry Nat
  registered : Nat
  calls : List (Nat × Event)

/-- What comes of a call.  Those who are told an event are the audience. -/
def Play.step (s : Play) : Call → Play
  | .register answer =>
    { s with
      registry := s.registry.register s.registered answer
      registered := s.registered + 1 }
  | .notify event =>
    { s with
      registry := s.registry.notify event
      calls := s.calls ++ s.registry.audience.map (·, event) }

/-- What comes of a history. -/
def play (history : List Call) : Play := history.foldl Play.step ⟨.empty, 0, []⟩

theorem play_concat (history : List Call) (call : Call) :
    play (history ++ [call]) = (play history).step call := List.foldl_append

/-- What one of them has been told. -/
def callsTo (number : Nat) (calls : List (Nat × Event)) : List Event :=
  calls.filterMap fun call => if call.1 = number then some call.2 else none

/-- An event that is told to some of them, each once, is told to each of these once. -/
theorem callsTo_map {audience : List Nat} (nodup : audience.Nodup) (number : Nat) (event : Event) :
    callsTo number (audience.map (·, event)) = if number ∈ audience then [event] else [] := by
  induction audience with
  | nil => rfl
  | cons first audience ih =>
    obtain ⟨new, nodup⟩ := List.nodup_cons.mp nodup
    rw [List.map_cons, callsTo, List.filterMap_cons, ← callsTo, ih nodup]
    by_cases same : first = number
    · subst same
      simp [new]
    · simp [same, Ne.symm same]

/-! ### One notification -/

section

variable {ι : Type}

/-- Tells an event to listeners one after the other: whom it has told, in order, and who stays, in
the order in which they stood. -/
def tellEach (event : Event) : List (Listener ι) → List ι × List (Listener ι)
  | [] => ([], [])
  | l :: listeners =>
    let (told, staying) := tellEach event listeners
    (l.label :: told,
      if l.answer l.heard event then { l with heard := event :: l.heard } :: staying else staying)

/-- A notification tells an event to everybody in turn, whoever leaves meanwhile. -/
theorem tellEach_eq (event : Event) (listeners : List (Listener ι)) :
    tellEach event listeners = (audience ⟨listeners⟩, (notify ⟨listeners⟩ event).listeners) := by
  induction listeners with
  | nil => rfl
  | cons l listeners ih =>
    rw [tellEach, ih]
    simp only [audience, notify, List.map_cons, List.filterMap_cons, tell]
    cases l.answer l.heard event <;> rfl

end

/-! ### Everybody -/

/-- The numbers of those who have answered yes to everything, in order. -/
def staying (enrolled : List Enrolment) : List Nat :=
  (List.range enrolled.length).filter fun number => enrolled[number]?.any Enrolment.stays

theorem mem_staying {enrolled : List Enrolment} {number : Nat} :
    number ∈ staying enrolled ↔ ∃ x, enrolled[number]? = some x ∧ x.stays = true := by
  rw [staying, List.mem_filter, List.mem_range, Option.any_eq_true]
  refine and_iff_right_of_imp fun ⟨x, there, _⟩ => ?_
  exact (List.getElem?_eq_some_iff.mp there).1

/-- Numbering those who are there and keeping those who stay is the same as counting off. -/
theorem filterMap_zipIdx (enrolled : List Enrolment) :
    (enrolled.zipIdx.filterMap fun (x, number) => x.listener? number).map (·.label) =
      staying enrolled := by
  induction enrolled using List.reverseRecOn with
  | nil => rfl
  | append_singleton enrolled x ih =>
    have earlier : ∀ number ∈ List.range enrolled.length,
        (enrolled ++ [x])[number]?.any Enrolment.stays =
          enrolled[number]?.any Enrolment.stays := by
      intro number below
      rw [List.getElem?_append_left (List.mem_range.mp below)]
    rw [List.zipIdx_append, List.filterMap_append, List.map_append, ih, staying, staying,
      List.length_append, List.length_singleton, List.range_succ, List.filter_append,
      List.filter_congr earlier, List.zipIdx_singleton]
    congr 1
    cases stays : x.stays <;> simp [Enrolment.listener?, stays]

/-- What a history comes to. -/
structure Play.Sound (s : Play) (enrolled : List Enrolment) : Prop where
  registered : s.registered = enrolled.length
  /-- Whoever has not answered no is there, in the order of registration, and nobody else. -/
  listeners : s.registry.listeners =
    enrolled.zipIdx.filterMap fun (x, number) => x.listener? number
  /-- Everybody has been told what it had to be told. -/
  told : ∀ number, callsTo number s.calls = enrolled[number]?.elim [] Enrolment.due

theorem Play.Sound.audience {s : Play} {enrolled : List Enrolment} (h : s.Sound enrolled) :
    s.registry.audience = staying enrolled := by
  rw [Registry.audience, h.listeners, filterMap_zipIdx]

/-- Registering somebody tells nobody anything. -/
theorem Play.Sound.register {s : Play} {enrolled : List Enrolment} (h : s.Sound enrolled)
    (answer : Answer) : (s.step (.register answer)).Sound (enrolled ++ [⟨answer, []⟩]) where
  registered := by
    rw [List.length_append, ← h.registered]
    rfl
  listeners := by
    rw [List.zipIdx_append, List.filterMap_append, ← h.listeners, Nat.zero_add, ← h.registered]
    rfl
  told number := by
    rw [step, h.told, List.getElem?_append]
    split
    · rfl
    · next above =>
      -- Whoever has just come has nothing to be told, nor has a number that nobody has.
      rw [List.getElem?_eq_none_iff.mpr (Nat.le_of_not_lt above)]
      cases number - enrolled.length <;> rfl

/-- An event is told to those who are there, and some of them leave. -/
theorem Play.Sound.notify {s : Play} {enrolled : List Enrolment} (h : s.Sound enrolled)
    (event : Event) :
    (s.step (.notify event)).Sound (enrolled.map fun x => x.witness event) where
  registered := by
    rw [List.length_map]
    exact h.registered
  listeners := by
    rw [step, Registry.notify, h.listeners, List.filterMap_filterMap, List.zipIdx_map,
      List.filterMap_map]
    exact List.filterMap_congr fun ⟨x, number⟩ _ => x.tell_listener? number event
  told number := by
    have audience := h.audience
    have once : s.registry.audience.Nodup := by
      rw [audience]
      exact List.nodup_range.filter _
    have before := h.told number
    rw [step, callsTo, List.filterMap_append, ← callsTo, ← callsTo, callsTo_map once, before,
      audience, List.getElem?_map]
    cases there : enrolled[number]? with
    | none =>
      rw [if_neg fun member => ?_]
      · rfl
      · obtain ⟨x, somebody, -⟩ := mem_staying.mp member
        rw [there] at somebody
        cases somebody
    | some x =>
      have told : number ∈ staying enrolled ↔ x.stays = true := by
        rw [mem_staying, there]
        simp
      rw [if_congr told rfl rfl]
      exact (x.due_witness event).symm

/-- **A registry holds those who have not answered no**, and everybody has been told what it had to
be told, by induction on the history. -/
theorem Play.sound (history : List Call) : (play history).Sound (enrolments history) := by
  induction history using List.reverseRecOn with
  | nil => exact ⟨rfl, rfl, fun _ => rfl⟩
  | append_singleton history call ih =>
    rw [play_concat]
    cases call with
    | register answer =>
      rw [enrolments_register]
      exact ih.register answer
    | notify event =>
      rw [enrolments_notify]
      exact ih.notify event

/-- **Every listener is told what it has to be told, each thing once and in order.**

Whatever is registered and notified, and however listeners answer: each of them has been told every
event since its registration, in order, up to the first one to which it answered no, and nothing
after that; a number that nobody has is told nothing.  The next event is told to those who have not
answered no, one after the other in the order of registration, and those who answer yes stay in that
order, whoever leaves.  The size of the registry is the number of those who have not answered no. -/
theorem delivery_exact (history : List Call) :
    let s := play history
    let enrolled := enrolments history
    (∀ number, callsTo number s.calls =
      enrolled[number]?.elim [] fun x => Listener.told x.answer [] x.since) ∧
    (∀ event, tellEach event s.registry.listeners =
        (staying enrolled, (play (history ++ [.notify event])).registry.listeners) ∧
      (play (history ++ [.notify event])).registry.audience =
        (staying enrolled).filter fun number =>
          enrolled[number]?.any fun x => x.answer x.since.reverse event) ∧
    s.registry.size = enrolled.countP fun x => Listener.stays x.answer [] x.since := by
  intro s enrolled
  have sound : s.Sound enrolled := Play.sound history
  refine ⟨sound.told, fun event => ⟨?_, ?_⟩, ?_⟩
  · rw [tellEach_eq, play_concat, ← sound.audience]
    rfl
  · have later := (Play.sound (history ++ [.notify event])).audience
    rw [later, enrolments_notify, staying, staying, List.filter_filter, List.length_map]
    refine List.filter_congr fun number _ => ?_
    rw [List.getElem?_map]
    cases enrolled[number]? with
    | none => rfl
    | some x => exact (x.stays_witness event).trans (Bool.and_comm _ _)
  · rw [size, sound.listeners, ← List.length_map (·.label), filterMap_zipIdx, staying,
      ← List.countP_eq_length_filter]
    have each : (List.range enrolled.length).map (enrolled[·]?) = enrolled.map some := by
      refine List.ext_getElem (by simp) fun number _ _ => ?_
      simp
    calc (List.range enrolled.length).countP (fun number => enrolled[number]?.any Enrolment.stays)
        = ((List.range enrolled.length).map (enrolled[·]?)).countP (·.any Enrolment.stays) :=
          by rw [List.countP_map]; rfl
      _ = enrolled.countP Enrolment.stays := by rw [each, List.countP_map]; rfl

/-- The first of three leaves at the first event and the second one at its second: the third one
hears both all the same. -/
example :
    let once : Answer := fun _ _ => false
    let twice : Answer := fun heard _ => heard.isEmpty
    let always : Answer := fun _ _ => true
    (play [.register once, .register twice, .register always, .notify .tryConnect,
      .notify .shutdown, .notify .newTx]).calls =
        [(0, .tryConnect), (1, .tryConnect), (2, .tryConnect), (1, .shutdown), (2, .shutdown),
          (2, .newTx)] := by
  decide

end Registry

end GossipNode
