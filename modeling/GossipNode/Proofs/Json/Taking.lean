import GossipNode.Json.Fault

/-!
# Readers that take stretches of bytes

Every reader of JSON is a machine that takes one byte at a time.  What such a machine does with a
whole stretch of bytes is said here once for all of them: it takes them one after the other, and
whenever the bytes should run out in between it is content to wait for more.

## Main definitions

* `Takes step calm s bs t` — from `s` the machine takes `bs` and is in `t` then; every state it
  comes to is calm.
* `Gives step calm s bs a` — from `s` the machine reads the value `a` off exactly `bs`.
* `Refuses step fault s bs` — from `s` the machine refuses one of the bytes `bs`.
* `Reaches step calm s bs out` — from `s` the bytes `bs` lead to `out`, which may be any step.
* `StandsFor step t s` — at the end of a value `t` does what `s` does.
* `endsNumber` — the bytes a number cannot go on with.

## Main results

* `Takes.map`, `Gives.map` — a machine inside another one takes and gives the same.
* `Takes.split` — where a stretch is cut plays no part.
* `Reaches.standsFor` — a value that ends is followed up by a state that stands for the next one.
* `Takes.refuses`, `Refuses.append` — what is refused is refused behind what is taken, and whatever
  stands behind it.
-/

namespace GossipNode

variable {σ σ' α α' : Type}

/-- From the state `s` a machine takes the bytes `bs` one after the other and is in the state `t`
then.  All states it comes to are calm. -/
inductive Takes (step : σ → UInt8 → Step σ α) (calm : σ → Prop) : σ → Bytes → σ → Prop
  /-- Nothing is taken. -/
  | nil (s : σ) : Takes step calm s [] s
  /-- A byte is taken, and then the others. -/
  | cons {s t u : σ} {b : UInt8} {bs : Bytes} (first : step s b = .next t) (at_rest : calm t)
      (rest : Takes step calm t bs u) : Takes step calm s (b :: bs) u

/-- A byte no number goes on with. -/
def endsNumber (b : UInt8) : Bool := !isDigit b && b ≠ 0x2E && b ≠ 0x65 && b ≠ 0x45

/-- From the state `s` a machine reads the value `a` off exactly the bytes `bs`: it is done with
their last byte, or finds the value complete at whatever byte follows. -/
inductive Gives (step : σ → UInt8 → Step σ α) (calm : σ → Prop) : σ → Bytes → α → Prop
  /-- The value has a last byte of its own. -/
  | done {s t : σ} {bs : Bytes} {b : UInt8} {a : α} (taken : Takes step calm s bs t)
      (last : step t b = .done a) : Gives step calm s (bs ++ [b]) a
  /-- The value ends before the byte behind it. -/
  | past {s t : σ} {bs : Bytes} {a : α} (taken : Takes step calm s bs t)
      (behind : ∀ b, endsNumber b = true → step t b = .past a) : Gives step calm s bs a

/-- What a step of a value that has just ended becomes at the byte behind it. -/
def Step.behind (step : σ → UInt8 → Step σ α) (out : Step σ α) (b : UInt8) : Step σ α :=
  match out with
  | .next s => step s b
  | .done a => .past a
  | .past a => .past a
  | .refuse fault side => .refuse fault side

/-- The bytes `bs` lead from `s` to `out`: with the last of them, or at whatever byte follows. -/
inductive Reaches (step : σ → UInt8 → Step σ α) (calm : σ → Prop) (s : σ) :
    Bytes → Step σ α → Prop
  /-- The last byte does it. -/
  | done {t : σ} {bs : Bytes} {b : UInt8} {out : Step σ α} (taken : Takes step calm s bs t)
      (last : step t b = out) : Reaches step calm s (bs ++ [b]) out
  /-- The byte behind them does it. -/
  | past {t : σ} {bs : Bytes} {out : Step σ α} (taken : Takes step calm s bs t)
      (next : ∀ b, endsNumber b = true → step t b = out.behind step b) :
      Reaches step calm s bs out

/-- At the end of a value `t` does what `s` does. -/
def StandsFor (step : σ → UInt8 → Step σ α) (t s : σ) : Prop :=
  ∀ b, endsNumber b = true → step t b = step s b

/-- From the state `s` a machine takes some of the bytes `bs` and refuses the one behind those. -/
inductive Refuses (step : σ → UInt8 → Step σ α) (fault : Fault) : σ → Bytes → Prop
  /-- The first byte is refused. -/
  | here {s : σ} {b : UInt8} {bs : Bytes} {side : Side} (first : step s b = .refuse fault side) :
    Refuses step fault s (b :: bs)
  /-- The first byte is taken, and one of the others is refused. -/
  | later {s t : σ} {b : UInt8} {bs : Bytes} (first : step s b = .next t)
      (rest : Refuses step fault t bs) : Refuses step fault s (b :: bs)

namespace Takes

variable {step : σ → UInt8 → Step σ α} {calm : σ → Prop}

theorem single {s t : σ} {b : UInt8} (h : step s b = .next t) (hc : calm t) :
    Takes step calm s [b] t :=
  cons h hc (nil t)

/-- One stretch after another. -/
theorem append {s t u : σ} {as bs : Bytes} (h : Takes step calm s as t)
    (h' : Takes step calm t bs u) : Takes step calm s (as ++ bs) u := by
  induction h with
  | nil => exact h'
  | cons first at_rest _ ih => exact cons first at_rest (ih h')

/-- One more byte at the end. -/
theorem snoc {s t u : σ} {bs : Bytes} {b : UInt8} (h : Takes step calm s bs t)
    (hb : step t b = .next u) (hc : calm u) : Takes step calm s (bs ++ [b]) u :=
  h.append (single hb hc)

/-- A stretch may be cut anywhere: the machine is in some calm state there, or still where it
was. -/
theorem split {s u : σ} {as bs : Bytes} (h : Takes step calm s (as ++ bs) u) :
    ∃ t, Takes step calm s as t ∧ Takes step calm t bs u := by
  induction as generalizing s with
  | nil => exact ⟨s, nil s, h⟩
  | cons a as ih =>
    cases h with
    | cons first at_rest rest =>
      obtain ⟨t, ht, hu⟩ := ih rest
      exact ⟨t, cons first at_rest ht, hu⟩

/-- After at least one byte the machine is calm. -/
theorem calm_end {s t : σ} {b : UInt8} {bs : Bytes} (h : Takes step calm s (b :: bs) t) :
    calm t := by
  induction bs generalizing s b with
  | nil =>
    cases h with
    | cons first at_rest rest => cases rest; exact at_rest
  | cons b' bs ih =>
    cases h with
    | cons _ _ rest => exact ih rest

/-- What is true of all states on the way may be said less precisely. -/
theorem mono {calm' : σ → Prop} (hcalm : ∀ s, calm s → calm' s) {s t : σ} {bs : Bytes}
    (h : Takes step calm s bs t) : Takes step calm' s bs t := by
  induction h with
  | nil => exact nil _
  | cons first at_rest _ ih => exact cons first (hcalm _ at_rest) ih

/-- A machine that works inside another one takes the same bytes there. -/
theorem map {step' : σ' → UInt8 → Step σ' α'} {calm' : σ' → Prop} (f : σ → σ')
    (hstep : ∀ s b t, step s b = .next t → step' (f s) b = .next (f t))
    (hcalm : ∀ s, calm s → calm' (f s)) {s t : σ} {bs : Bytes} (h : Takes step calm s bs t) :
    Takes step' calm' (f s) bs (f t) := by
  induction h with
  | nil => exact nil _
  | cons first at_rest _ ih => exact cons (hstep _ _ _ first) (hcalm _ at_rest) ih

end Takes

namespace Gives

variable {step : σ → UInt8 → Step σ α} {calm : σ → Prop}

/-- Bytes that are taken before a value. -/
theorem prepend {s t : σ} {as bs : Bytes} {a : α} (h : Takes step calm s as t)
    (h' : Gives step calm t bs a) : Gives step calm s (as ++ bs) a := by
  cases h' with
  | done taken last => rw [← List.append_assoc]; exact done (h.append taken) last
  | past taken behind => exact past (h.append taken) behind

/-- What is true of all states on the way may be said less precisely. -/
theorem mono {calm' : σ → Prop} (hcalm : ∀ s, calm s → calm' s) {s : σ} {bs : Bytes} {a : α}
    (h : Gives step calm s bs a) : Gives step calm' s bs a := by
  cases h with
  | done taken last => exact done (taken.mono hcalm) last
  | past taken behind => exact past (taken.mono hcalm) behind

/-- A machine whose steps are those of another one, carried over, gives the same values, carried
over. -/
theorem map {step' : σ' → UInt8 → Step σ' α'} {calm' : σ' → Prop} (f : σ → σ') (g : α → α')
    (hstep : ∀ s b, step' (f s) b = (step s b).map f g) (hcalm : ∀ s, calm s → calm' (f s))
    {s : σ} {bs : Bytes} {a : α} (h : Gives step calm s bs a) :
    Gives step' calm' (f s) bs (g a) := by
  have hnext : ∀ s b t, step s b = .next t → step' (f s) b = .next (f t) := by
    intro s b t h
    rw [hstep, h, Step.map]
  cases h with
  | done taken last => exact done (taken.map f hnext hcalm) (by rw [hstep, last, Step.map])
  | past taken behind =>
    exact past (taken.map f hnext hcalm) fun b hb => by rw [hstep, behind b hb, Step.map]

end Gives

section Refuses

variable {step : σ → UInt8 → Step σ α} {calm : σ → Prop} {fault : Fault}

/-- What is refused behind bytes that are taken. -/
theorem Takes.refuses {s t : σ} {as bs : Bytes} (h : Takes step calm s as t)
    (h' : Refuses step fault t bs) : Refuses step fault s (as ++ bs) := by
  induction h with
  | nil => exact h'
  | cons first _ _ ih => exact .later first (ih h')

/-- What stands behind refused bytes plays no part. -/
theorem Refuses.append {s : σ} {as : Bytes} (h : Refuses step fault s as) (bs : Bytes) :
    Refuses step fault s (as ++ bs) := by
  induction h with
  | here first => exact .here first
  | later first _ ih => exact .later first ih

/-- A machine that works inside another one refuses the same bytes there. -/
theorem Refuses.map {step' : σ' → UInt8 → Step σ' α'} (f : σ → σ')
    (hnext : ∀ s b t, step s b = .next t → step' (f s) b = .next (f t))
    (hrefuse : ∀ s b side, step s b = .refuse fault side → step' (f s) b = .refuse fault side)
    {s : σ} {bs : Bytes} (h : Refuses step fault s bs) : Refuses step' fault (f s) bs := by
  induction h with
  | here first => exact .here (hrefuse _ _ _ first)
  | later first _ ih => exact .later (hnext _ _ _ first) ih

end Refuses

namespace Reaches

variable {step : σ → UInt8 → Step σ α} {calm : σ → Prop}

/-- Bytes that are taken before others that lead somewhere. -/
theorem prepend {s t : σ} {as bs : Bytes} {out : Step σ α} (h : Takes step calm s as t)
    (h' : Reaches step calm t bs out) : Reaches step calm s (as ++ bs) out := by
  cases h' with
  | done taken last => rw [← List.append_assoc]; exact done (h.append taken) last
  | past taken next => exact past (h.append taken) next

/-- Where bytes lead to a state, one is reached that does as much as that one. -/
theorem standsFor {s u : σ} {bs : Bytes} (h : Reaches step calm s bs (.next u)) (hc : calm u) :
    ∃ t, Takes step calm s bs t ∧ StandsFor step t u := by
  cases h with
  | done taken last => exact ⟨u, taken.snoc last hc, fun _ _ => rfl⟩
  | past taken next => exact ⟨_, taken, next⟩

end Reaches

/-- What is read off bytes is reached with them. -/
theorem Gives.reaches {step : σ → UInt8 → Step σ α} {calm : σ → Prop} {s : σ} {bs : Bytes} {a : α}
    (h : Gives step calm s bs a) : Reaches step calm s bs (.done a) := by
  cases h with
  | done taken last => exact .done taken last
  | past taken behind => exact .past taken behind

/-! ### Machines inside others

A value is read by a machine of its own inside another one, which takes over when the value ends:
with its last byte or at the byte behind it. -/

section Inside

variable {step : σ → UInt8 → Step σ α} {calm : σ → Prop} (step' : σ' → UInt8 → Step σ' α')
  {calm' : σ' → Prop} (f : σ → σ') {a : α}

/-- The outer machine goes on with the value. -/
theorem Reaches.inside (target : σ')
    (hnext : ∀ s b t, step s b = .next t → step' (f s) b = .next (f t))
    (hdone : ∀ s b, step s b = .done a → step' (f s) b = .next target)
    (hpast : ∀ s b, step s b = .past a → step' (f s) b = step' target b)
    (hcalm : ∀ s, calm s → calm' (f s)) (htarget : calm' target) {s : σ} {bs : Bytes}
    (h : Reaches step calm s bs (.done a)) :
    ∃ t, Takes step' calm' (f s) bs t ∧ StandsFor step' t target := by
  cases h with
  | done taken last =>
    exact ⟨target, (taken.map f hnext hcalm).snoc (hdone _ _ last) htarget, fun _ _ => rfl⟩
  | past taken next => exact ⟨_, taken.map f hnext hcalm, fun b hb => hpast _ b (next b hb)⟩

/-- The outer machine refuses the value, at the byte behind it if not before. -/
theorem Reaches.refused {fault : Fault}
    (hnext : ∀ s b t, step s b = .next t → step' (f s) b = .next (f t))
    (hdone : ∀ s b, step s b = .done a → ∃ side, step' (f s) b = .refuse fault side)
    (hpast : ∀ s b, step s b = .past a → ∃ side, step' (f s) b = .refuse fault side)
    {s : σ} {bs : Bytes} (h : Reaches step calm s bs (.done a)) {b : UInt8}
    (hb : endsNumber b = true) (rest : Bytes) : Refuses step' fault (f s) (bs ++ b :: rest) := by
  have inside : ∀ {u cs}, Takes step calm s cs u → Takes step' (fun _ => True) (f s) cs (f u) :=
    fun taken => taken.map f hnext fun _ _ => trivial
  cases h with
  | done taken last =>
    obtain ⟨side, refuse⟩ := hdone _ _ last
    rw [List.append_assoc]
    exact (inside taken).refuses (.here refuse)
  | past taken next =>
    obtain ⟨side, refuse⟩ := hpast _ b (next b hb)
    exact (inside taken).refuses (.here refuse)

end Inside

end GossipNode
