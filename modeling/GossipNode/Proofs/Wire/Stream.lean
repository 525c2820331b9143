import GossipNode.Proofs.Message.Payload

/-!
# A stream of messages, however it is cut

Messages follow one another on the wire without anything between them, and the network hands the
bytes over in stretches of its own choosing.  The receiver puts each stretch behind what it has kept
and takes messages off the front until there is none.  Every message is then had once, in order, and
as soon as its last byte has come.

## Main definitions

* `Trial`, `drain` — attempts to take messages off a buffer until one takes nothing off.
* `feed` — the attempts after each of several stretches.
* `arrivals` — the messages whose last byte lies in a part of a stream.

## Main results

* `decodeOne_consumes` — an envelope takes at least one byte of the buffer, and no more than all.
* `drain_spec` — what is taken off a buffer that holds the beginning of a stream.
* `feed_encoded` — **every cut of a stream gives back its messages, each when its last byte comes.**
-/

namespace GossipNode

/-! ### What an envelope takes -/

/-- An envelope that is found ends behind the bytes that were read before, and among those read. -/
theorem EnvelopeReader.run_found {bs : Bytes} {e : Envelope} {n : Nat} :
    ∀ {r : EnvelopeReader} {used : Nat}, r.run used bs = .found e n →
      used ≤ n ∧ n ≤ used + bs.length := by
  induction bs with
  | nil =>
    intro r used h
    rw [run] at h
    cases h
  | cons b bs ih =>
    intro r used h
    rw [run] at h
    rw [List.length_cons]
    split at h
    · have inside := ih h
      omega
    · cases h
      omega
    · cases h
      omega
    all_goals cases h

/-- No envelope ends at its first byte. -/
theorem EnvelopeReader.step_start (b : UInt8) :
    (∃ r, start.step b = .next r) ∨ ∃ fault side, start.step b = .refuse fault side := by
  simp only [step]
  split
  · exact Or.inl ⟨_, rfl⟩
  · unfold startEnvelope
    split
    · exact Or.inl ⟨_, rfl⟩
    · split
      · exact Or.inl ⟨_, rfl⟩
      · split
        · exact Or.inl ⟨_, rfl⟩
        · exact Or.inr ⟨_, _, rfl⟩

/-- An envelope at the front of a buffer is the one that the run over the buffer finds. -/
theorem run_of_decodeOne {buffer : Bytes} {e : Envelope} {used : Nat}
    (h : decodeOne buffer = .ok (some (e, used))) :
    EnvelopeReader.start.run 0 buffer = .found e used := by
  unfold decodeOne at h
  split at h
  · next hrun =>
    cases h
    exact hrun
  · cases h
  · cases h
  · split at h
    · cases h
    · split at h <;> cases h

/-- An envelope takes at least one byte of the buffer, and no more than all. -/
theorem decodeOne_consumes {buffer : Bytes} {e : Envelope} {used : Nat}
    (h : decodeOne buffer = .ok (some (e, used))) : 0 < used ∧ used ≤ buffer.length := by
  have found := run_of_decodeOne h
  cases buffer with
  | nil => cases found
  | cons b bs =>
    rw [EnvelopeReader.run] at found
    rcases EnvelopeReader.step_start b with ⟨r, next⟩ | ⟨fault, side, refused⟩
    · rw [next] at found
      have inside := EnvelopeReader.run_found found
      rw [List.length_cons]
      omega
    · rw [refused] at found
      cases side <;> cases found

/-- What is behind an envelope is shorter than the buffer. -/
theorem decodeOne_shorter {buffer : Bytes} {e : Envelope} {used : Nat}
    (h : decodeOne buffer = .ok (some (e, used))) : (buffer.drop used).length < buffer.length := by
  have inside := decodeOne_consumes h
  rw [List.length_drop]
  omega

/-- A buffer gets shorter when an envelope is taken off it. -/
theorem takeEnvelope_shorter {buffer rest : Bytes} {e : Envelope}
    (h : takeEnvelope buffer = (.ok (some e), rest)) : rest.length < buffer.length := by
  unfold takeEnvelope at h
  split at h
  · next hdecoded =>
    cases h
    exact decodeOne_shorter hdecoded
  · cases h
  · cases h

/-! ### Taking messages off a buffer -/

/-- An attempt to take a message off a buffer: what came of it, and the buffer after it. -/
structure Trial where
  outcome : Except DecodeError (Option Message)
  left : Bytes

/-- The attempts to take messages off a buffer, up to the first that takes nothing off, and the
buffer after them. -/
def drain (buffer : Bytes) : List Trial × Bytes :=
  match h : takeEnvelope buffer with
  | (.ok (some e), rest) =>
    have : rest.length < buffer.length := takeEnvelope_shorter h
    let (trials, left) := drain rest
    (⟨e.message.map some, rest⟩ :: trials, left)
  | (.ok none, rest) => ([⟨.ok none, rest⟩], rest)
  | (.error fault, rest) => ([⟨.error fault, rest⟩], rest)
termination_by buffer.length

/-- The attempts after each of the stretches that are put behind a buffer one by one, and the buffer
in the end. -/
def feed : Bytes → List Bytes → List (List Trial) × Bytes
  | buffer, [] => ([], buffer)
  | buffer, chunk :: chunks =>
    let (trials, left) := drain (buffer ++ chunk)
    let (later, last) := feed left chunks
    (trials :: later, last)

/-- The message an attempt has taken off, if it has. -/
def Trial.message? (t : Trial) : Option Message :=
  match t.outcome with
  | .ok m => m
  | .error _ => none

/-- The bytes of messages that follow one another. -/
def encodeAll (ms : List Message) : Bytes := ms.flatMap Message.encode

/-- The attempts that take off messages one by one, each with its own bytes and no more, until
what is left is not a message. -/
def takings : List Message → (left : Bytes) → List Trial
  | [], left => [⟨.ok none, left⟩]
  | m :: ms, left => ⟨.ok (some m), encodeAll ms ++ left⟩ :: takings ms left

/-- Messages that follow one another from some place of a stream on, with the place behind the last
byte of each. -/
def placed : (start : Nat) → List Message → List (Nat × Message)
  | _, [] => []
  | start, m :: ms => (start + m.encode.length, m) :: placed (start + m.encode.length) ms

/-- The messages of a stream whose last byte lies behind the first `lo` bytes and among the first
`hi`. -/
def arrivals (ms : List Message) (lo hi : Nat) : List Message :=
  ((placed 0 ms).filter fun p => lo < p.1 ∧ p.1 ≤ hi).map (·.2)

@[simp] theorem encodeAll_nil : encodeAll [] = [] := rfl

@[simp] theorem encodeAll_cons (m : Message) (ms : List Message) :
    encodeAll (m :: ms) = m.encode ++ encodeAll ms := rfl

@[simp] theorem encodeAll_append (ms ns : List Message) :
    encodeAll (ms ++ ns) = encodeAll ms ++ encodeAll ns := by
  simp [encodeAll]

/-- A message that stands whole at the front of a buffer is taken off it. -/
theorem drain_message (m : Message) (rest : Bytes) :
    drain (m.encode ++ rest) =
      (⟨.ok (some m), rest⟩ :: (drain rest).1, (drain rest).2) := by
  have taken : takeEnvelope (m.encode ++ rest) = (.ok (some m.envelope), rest) := by
    simp only [takeEnvelope, Message.encode, decodeOne_render_append m.isPlain_envelope rest,
      List.drop_left]
  rw [drain]
  split
  · next hout =>
    rw [taken] at hout
    cases hout
    rw [m.message_envelope]
    rfl
  · next hout =>
    rw [taken] at hout
    cases hout
  · next hout =>
    rw [taken] at hout
    cases hout

/-- A buffer that asks for more is left as it is. -/
theorem drain_partial {buffer : Bytes} (h : decodeOne buffer = .ok none) :
    drain buffer = ([⟨.ok none, buffer⟩], buffer) := by
  have taken : takeEnvelope buffer = (.ok none, buffer) := by simp only [takeEnvelope, h]
  rw [drain]
  split
  · next hout =>
    rw [taken] at hout
    cases hout
  · next hout =>
    rw [taken] at hout
    cases hout
    rfl
  · next hout =>
    rw [taken] at hout
    cases hout

theorem encodeAll_eq (ms : List Message) : encodeAll ms = renderAll (ms.map Message.envelope) := by
  rw [encodeAll, renderAll, List.flatMap_map]
  rfl

/-- A buffer holds less than the next message. -/
abbrev Partial (buffer : Bytes) (ms : List Message) : Prop := Short buffer (ms.map Message.envelope)

/-- What stands at the front of a stream of messages: the next one if it is there whole. -/
theorem decodeOne_messages {ms : List Message} (small : ∀ m ∈ ms, m.encode.length ≤ maxMessageSize)
    {buffer missing : Bytes} (h : buffer ++ missing = encodeAll ms) :
    (decodeOne buffer = .ok none ∧ Partial buffer ms) ∨
      ∃ m rest more, ms = m :: rest ∧ buffer = m.encode ++ more ∧
        more ++ missing = encodeAll rest ∧
        decodeOne buffer = .ok (some (m.envelope, m.encode.length)) := by
  have plain : ∀ e ∈ ms.map Message.envelope, e.isPlain = true := by
    intro e he
    obtain ⟨m, -, rfl⟩ := List.mem_map.1 he
    exact m.isPlain_envelope
  have small' : ∀ e ∈ ms.map Message.envelope, e.render.length ≤ maxMessageSize := by
    intro e he
    obtain ⟨m, hm, rfl⟩ := List.mem_map.1 he
    exact small m hm
  rw [encodeAll_eq] at h
  rcases decodeOne_stream plain small' h with short | ⟨e, es, more, hes, hbuffer, hmore, found⟩
  · exact Or.inl short
  · obtain ⟨m, rest, rfl, rfl, rfl⟩ := List.map_eq_cons_iff.1 hes
    rw [← encodeAll_eq] at hmore
    exact Or.inr ⟨m, rest, more, rfl, hbuffer, hmore, found⟩

/-- What is taken off a buffer that holds the beginning of a stream: the messages that stand in it
whole, and what is left is less than a message. -/
theorem drain_spec {ms : List Message} (small : ∀ m ∈ ms, m.encode.length ≤ maxMessageSize) :
    ∀ {buffer missing : Bytes}, buffer ++ missing = encodeAll ms →
      ∃ arrived later left, ms = arrived ++ later ∧ buffer = encodeAll arrived ++ left ∧
        Partial left later ∧ drain buffer = (takings arrived left, left) := by
  induction ms with
  | nil =>
    intro buffer missing h
    obtain ⟨rfl, -⟩ := List.append_eq_nil_iff.1 h
    exact ⟨[], [], [], rfl, rfl, short_nil [], drain_partial rfl⟩
  | cons m ms ih =>
    intro buffer missing h
    rcases decodeOne_messages small h with ⟨more, short⟩ | ⟨m, ms, buffer, hms, rfl, h', -⟩
    · exact ⟨[], m :: ms, buffer, rfl, rfl, short, drain_partial more⟩
    · cases hms
      obtain ⟨arrived, later, left, rfl, rfl, short, hdrain⟩ :=
        ih (fun m hm => small m (List.mem_cons_of_mem _ hm)) h'
      refine ⟨m :: arrived, later, left, rfl, by simp, short, ?_⟩
      rw [drain_message, hdrain]
      rfl

/-! ### Where messages end -/

@[simp] theorem placed_append (ms ns : List Message) : ∀ start : Nat,
    placed start (ms ++ ns) = placed start ms ++ placed (start + (encodeAll ms).length) ns := by
  induction ms with
  | nil => intro start; simp [placed]
  | cons m ms ih => intro start; simp [placed, ih, Nat.add_assoc]

/-- Messages end behind the place where the first begins, and not behind all their bytes. -/
theorem place_bounds {ms : List Message} {p : Nat × Message} : ∀ {start : Nat},
    p ∈ placed start ms → start < p.1 ∧ p.1 ≤ start + (encodeAll ms).length := by
  induction ms with
  | nil => intro start h; cases h
  | cons m ms ih =>
    intro start h
    have filled : 0 < m.encode.length := List.length_pos_iff.2 m.envelope.render_ne_nil
    rw [encodeAll_cons, List.length_append]
    rcases List.mem_cons.1 h with rfl | h
    · constructor <;> simp only <;> omega
    · have inside := ih h
      omega

/-- None of the messages ends before the first does. -/
theorem place_of_short {ms : List Message} {p : Nat × Message} {start : Nat} {buffer : Bytes}
    (short : Partial buffer ms) (h : p ∈ placed start ms) : start + buffer.length < p.1 := by
  cases ms with
  | nil => cases h
  | cons m ms =>
    have first : buffer.length < m.encode.length := short m.envelope rfl
    rcases List.mem_cons.1 h with rfl | h
    · simp only
      omega
    · have inside := place_bounds h
      omega

theorem map_placed (ms : List Message) : ∀ start : Nat, (placed start ms).map (·.2) = ms := by
  induction ms with
  | nil => intro start; rfl
  | cons m ms ih => intro start; simp [placed, ih]

/-- The messages between two places are those that are not complete at the first and complete at
the second. -/
theorem arrivals_eq {done arrived later : List Message} {kept left : Bytes} {lo hi : Nat}
    (hlo : lo = (encodeAll done).length + kept.length)
    (hhi : hi = (encodeAll (done ++ arrived)).length + left.length)
    (before : Partial kept (arrived ++ later)) (after : Partial left later) :
    arrivals (done ++ arrived ++ later) lo hi = arrived := by
  have none_done : ((placed 0 done).filter fun p => lo < p.1 ∧ p.1 ≤ hi) = [] := by
    refine List.filter_eq_nil_iff.2 fun p hp => ?_
    have inside := place_bounds hp
    simp only [decide_eq_true_eq]
    omega
  have all_arrived : ∀ p ∈ placed (0 + (encodeAll done).length) arrived, lo < p.1 ∧ p.1 ≤ hi := by
    intro p hp
    have inside := place_bounds hp
    have late : 0 + (encodeAll done).length + kept.length < p.1 := by
      refine place_of_short before ?_
      rw [placed_append]
      exact List.mem_append_left _ hp
    rw [encodeAll_append, List.length_append] at hhi
    omega
  have none_later : ((placed (0 + (encodeAll (done ++ arrived)).length) later).filter
      fun p => lo < p.1 ∧ p.1 ≤ hi) = [] := by
    refine List.filter_eq_nil_iff.2 fun p hp => ?_
    have late := place_of_short after hp
    simp only [decide_eq_true_eq]
    omega
  unfold arrivals
  rw [placed_append, placed_append, List.filter_append, List.filter_append, none_done, none_later,
    List.filter_eq_self.2 (by simpa using all_arrived)]
  simp [map_placed]

/-! ### Feeding a stream -/

/-- The messages that a record of attempts has taken off. -/
def delivered (log : List (List Trial)) : List Message := log.flatten.filterMap Trial.message?

theorem delivered_takings (ms : List Message) (left : Bytes) (log : List (List Trial)) :
    delivered (takings ms left :: log) = ms ++ delivered log := by
  unfold delivered
  rw [List.flatten_cons, List.filterMap_append]
  congr 1
  induction ms with
  | nil => rfl
  | cons m ms ih => simp [takings, Trial.message?, ih]

theorem feed_append (xs ys : List Bytes) : ∀ buffer : Bytes,
    feed buffer (xs ++ ys) =
      ((feed buffer xs).1 ++ (feed (feed buffer xs).2 ys).1, (feed (feed buffer xs).2 ys).2) := by
  induction xs with
  | nil => intro buffer; rfl
  | cons x xs ih =>
    intro buffer
    simp only [List.cons_append, feed, ih]

theorem length_feed (chunks : List Bytes) : ∀ buffer : Bytes,
    (feed buffer chunks).1.length = chunks.length := by
  induction chunks with
  | nil => intro buffer; rfl
  | cons chunk chunks ih =>
    intro buffer
    simp only [feed, List.length_cons, ih]

/-- What feeding a part of a stream comes to: the messages that are in it whole have been taken off,
and the buffer holds less than the next one. -/
theorem feed_spec {chunks : List Bytes} : ∀ {ms : List Message} {buffer missing : Bytes},
    (∀ m ∈ ms, m.encode.length ≤ maxMessageSize) → Partial buffer ms →
    buffer ++ chunks.flatten ++ missing = encodeAll ms →
      ∃ arrived later, ms = arrived ++ later ∧ Partial (feed buffer chunks).2 later ∧
        buffer ++ chunks.flatten = encodeAll arrived ++ (feed buffer chunks).2 ∧
        delivered (feed buffer chunks).1 = arrived := by
  induction chunks with
  | nil =>
    intro ms buffer missing small short h
    exact ⟨[], ms, rfl, short, by simp [feed], rfl⟩
  | cons chunk chunks ih =>
    intro ms buffer missing small short h
    rw [List.flatten_cons, ← List.append_assoc buffer, List.append_assoc (buffer ++ chunk)] at h
    obtain ⟨now, todo, left, rfl, hbuffer, short', hdrain⟩ := drain_spec small h
    rw [hbuffer, encodeAll_append, List.append_assoc, List.append_cancel_left_eq,
      ← List.append_assoc] at h
    obtain ⟨arrived, later, rfl, short'', hleft, hdelivered⟩ :=
      ih (fun m hm => small m (List.mem_append_right _ hm)) short' h
    refine ⟨now ++ arrived, later, (List.append_assoc _ _ _).symm, ?_, ?_, ?_⟩
    · simpa only [feed, hdrain] using short''
    · rw [List.flatten_cons, ← List.append_assoc, hbuffer, List.append_assoc, hleft,
        encodeAll_append, List.append_assoc]
      simp only [feed, hdrain]
    · simp only [feed, hdrain]
      rw [delivered_takings, hdelivered]

/-- **Every cut of a stream gives back its messages.**  However the bytes of messages are cut, the
attempts after an append take off just the messages whose last byte it brings, each with its own
bytes, and then ask for more; in the end all messages have been had in order and the buffer is
empty. -/
theorem feed_encoded {ms : List Message} {chunks : List Bytes}
    (small : ∀ m ∈ ms, m.encode.length ≤ maxMessageSize)
    (whole : chunks.flatten = encodeAll ms) :
    (∀ before chunk after, chunks = before ++ chunk :: after →
      ∃ left, (feed [] chunks).1[before.length]? =
          some (takings (arrivals ms before.flatten.length (before.flatten ++ chunk).length) left) ∧
        encodeAll (arrivals ms 0 (before.flatten ++ chunk).length) ++ left =
          before.flatten ++ chunk) ∧
    (feed [] chunks).1.length = chunks.length ∧
    delivered (feed [] chunks).1 = ms ∧
    (feed [] chunks).2 = [] := by
  refine ⟨?_, length_feed chunks [], ?_⟩
  · rintro before chunk after rfl
    rw [List.flatten_append, List.flatten_cons] at whole
    obtain ⟨done, todo, rfl, short, hbefore, -⟩ :=
      feed_spec small (short_nil _) whole
    rw [List.nil_append] at hbefore
    -- The append takes off what the part of the stream up to it holds beyond `done`.
    rw [hbefore, encodeAll_append, List.append_assoc, List.append_cancel_left_eq,
      ← List.append_assoc] at whole
    obtain ⟨arrived, later, left, rfl, hbuffer, short', hdrain⟩ :=
      drain_spec (fun m hm => small m (List.mem_append_right _ hm)) whole
    have reached : before.flatten ++ chunk = encodeAll (done ++ arrived) ++ left := by
      rw [hbefore, List.append_assoc, hbuffer, encodeAll_append, List.append_assoc]
    have lo : before.flatten.length = (encodeAll done).length + (feed [] before).2.length := by
      rw [← List.length_append, ← hbefore]
    have hi : (before.flatten ++ chunk).length =
        (encodeAll (done ++ arrived)).length + left.length := by
      rw [reached, List.length_append]
    refine ⟨left, ?_, ?_⟩
    · rw [feed_append, List.getElem?_append_right (Nat.le_of_eq (length_feed before [])),
        length_feed, Nat.sub_self, ← List.append_assoc, arrivals_eq lo hi short short']
      rw [feed, hdrain]
      exact List.getElem?_cons_zero
    · have all : arrivals ([] ++ (done ++ arrived) ++ later) 0 (before.flatten ++ chunk).length =
          done ++ arrived := arrivals_eq (by rfl) hi (short_nil _) short'
      rw [List.nil_append] at all
      rw [← List.append_assoc, all, reached]
  · have whole' : [] ++ chunks.flatten ++ [] = encodeAll ms := by simpa using whole
    obtain ⟨arrived, later, rfl, short, hall, hdelivered⟩ :=
      feed_spec small (short_nil _) whole'
    rw [List.nil_append, whole, encodeAll_append, List.append_cancel_left_eq] at hall
    -- What is left is less than the next message, so there is no next message.
    rw [← hall, encodeAll_eq] at short
    obtain rfl : later = [] := List.map_eq_nil_iff.1 short.eq_nil
    exact ⟨by rw [hdelivered, List.append_nil], hall.symm⟩

/-- A farewell with an escape and a character of two bytes, and addresses after it, one byte at a
time. -/
theorem delivered_byte_by_byte :
    let ms : List Message := [.disconnect .unknown "é\n", .discovery ["10.0.0.1:7000"]]
    delivered (feed [] ((encodeAll ms).map fun b => [b])).1 = ms := by
  intro ms
  have small : ∀ m ∈ ms, m.encode.length ≤ maxMessageSize := by decide +kernel
  have whole : ((encodeAll ms).map fun b => [b]).flatten = encodeAll ms := by
    rw [← List.flatMap_def, List.flatMap_singleton']
  exact (feed_encoded small whole).2.2.1

end GossipNode
