import GossipNode.Proofs.Reactor.Lockstep
import GossipNode.Proofs.Reactor.Promptness

/-!
# Coming to rest

Where one peer alone is heard a node need not go on for ever: at any point it can come to rest, with
nobody put back, no command waiting, and all read that the peer has sent.

What is left to do is counted in this order: bytes that are unread, envelopes that have been read
from those who were put back, and commands that wait.  Reading may put the peer back and acting upon
an envelope may give a command, but neither brings back what comes before it in this order.

## Main definitions

* `Reactor.toRead` — how much of what a peer has sent is unread, if it is still there.
* `ControlQueue.labour` — how many commands are yet to be obeyed.
* `Reactor.Eases` — less is left to do.
* `Reactor.Astir` — what is kept on the way to rest.

## Main results

* `Reactor.Astir.exists_turn` — there is a turn that leaves less to do.
* `Reactor.Astir.exists_rest` — **a run in which one peer alone is heard can come to rest.**
* `Reactor.Solo.astir` — it can do so however far it has come.
-/

namespace GossipNode

/-! ### Commands that are yet to be obeyed -/

/-- How many commands are obeyed because of a command: the node introduces itself on a connection
that it has taken over. -/
def Command.labour : Command → Nat
  | .adopt .. => 2
  | _ => 1

/-- How many commands are yet to be obeyed, with the news that none will come. -/
def ControlQueue.labour (queue : ControlQueue) : Nat :=
  queue.commands.foldr (fun c later => c.labour + later) (if queue.hasSenders then 0 else 1)

theorem ControlQueue.labour_send (queue : ControlQueue) (c : Command) :
    (queue.send c).labour = queue.labour + c.labour := by
  obtain ⟨commands, senders⟩ := queue
  unfold labour send
  induction commands with
  | nil => exact Nat.add_comm _ _
  | cons d commands ih =>
    rw [List.cons_append, List.foldr_cons, List.foldr_cons, ih, Nat.add_assoc]

/-- A command that is taken up was one of those that are yet to be obeyed. -/
theorem ControlQueue.labour_receive {queue rest : ControlQueue} {c : Command}
    (h : queue.receive = some (some c, rest)) : queue.labour = c.labour + rest.labour := by
  rcases Multiplexer.receive_cases h with ⟨c', same, commands, senders⟩ | ⟨impossible, -⟩
  · cases same
    unfold ControlQueue.labour
    rw [commands, senders, List.foldr_cons]
  · cases impossible

/-- So was the news that none will come. -/
theorem ControlQueue.labour_deserted {queue rest : ControlQueue}
    (h : queue.receive = some (none, rest)) : queue.labour = 1 := by
  rcases Multiplexer.receive_cases h with ⟨c, impossible, -⟩ | ⟨-, commands, senders, -⟩
  · cases impossible
  · unfold ControlQueue.labour
    rw [commands, senders]
    rfl

namespace Reactor

variable {id k : PeerId} {r s : Reactor} {p : Peer} {unread : Bytes}

/-- Sending, telling and letting go give no command. -/
theorem civil_queue : Civil fun r s => s.queue = r.queue where
  refl _ := rfl
  trans first second := second.trans first
  send _ _ _ := rfl
  notify _ _ := rfl
  close := queue_closePeer

/-- A command that is obeyed puts nobody back and leaves less to obey, where no peer is missing. -/
theorem obey_labour (keyed : r.Keyed) (aimless : r.config.target = 0) (c : Command)
    (means : Means) : (r.obey c means).mux.pending ⊆ r.mux.pending ∧
      (r.obey c means).queue.labour < c.labour + r.queue.labour := by
  have unasked {s : Reactor} (same : s.queue = r.queue) (costs : 0 < c.labour) :
      s.queue.labour < c.labour + r.queue.labour := by
    rw [same]
    exact Nat.lt_add_of_pos_left costs
  cases c with
  | shutdown => exact ⟨List.nil_subset _, Nat.lt_add_right _ Nat.one_pos⟩
  | sendHandshake id =>
    exact ⟨civil_pending.greet keyed id means.writes,
      unasked (civil_queue.greet keyed id means.writes) Nat.one_pos⟩
  | closePeer id =>
    exact ⟨civil_pending.dismiss keyed id means.writes,
      unasked (civil_queue.dismiss keyed id means.writes) Nat.one_pos⟩
  | tryConnect =>
    have told : r.obey .tryConnect means = r.notify .tryConnect :=
      tryConnect_full (aimless ▸ Nat.zero_le _) means.words
    rw [told]
    exact ⟨List.Subset.refl _, unasked rfl Nat.one_pos⟩
  | adopt socket remote dialed =>
    have taken : (r.obey (.adopt socket remote dialed) means).mux =
        r.mux.register r.nextId socket :=
      mux_insertPeer ..
    have queue : (r.obey (.adopt socket remote dialed) means).queue =
        r.queue.send (.sendHandshake r.nextId) := queue_insertPeer ..
    rw [taken, queue, ControlQueue.labour_send]
    refine ⟨List.Subset.refl _, ?_⟩
    show r.queue.labour + 1 < 2 + r.queue.labour
    omega

/-! ### What is unread -/

/-- How much of what a peer has sent is unread, if it is still there. -/
def toRead (id : PeerId) (unread : Bytes) (r : Reactor) : Nat :=
  if r.table.contains id then unread.length else 0

theorem toRead_there (there : r.table.get? id = some p) (unread : Bytes) :
    r.toRead id unread = unread.length := by
  unfold toRead IdMap.contains
  rw [there]
  rfl

theorem toRead_gone (gone : r.table.get? id = none) (unread : Bytes) :
    r.toRead id unread = 0 := by
  unfold toRead IdMap.contains
  rw [gone]
  rfl

/-- A peer of which no whole envelope has been read, and whose socket holds nothing, is left
alone. -/
theorem takeInput_vain (r : Reactor) (short : decodeOne p.session.inbound = .ok none)
    (writes : List WriteOutcome) : (r.takeInput p (.waiting []) writes).mux = r.mux := by
  have nothing := Session.nextEnvelope_none short
  have same : (p.perform (.fill (.waiting []))).session.nextEnvelope = (.ok none, p.session) :=
    nothing
  rw [takeInput_short r short, readOnce_eq]
  show (Reactor.actUpon _ _ (p.perform (.fill (.waiting []))).session.nextEnvelope.1 _).mux = _
  rw [same]
  rfl

/-- Less is unread when something has been read or the peer has been let go. -/
theorem toRead_lt (there : r.table.get? id = some p) (some_left : unread ≠ [])
    (reads : s.table.get? id = none ∨ 0 < readSince id r s) :
    s.toRead id (unread.drop (readSince id r s)) < r.toRead id unread := by
  have some_bytes : 0 < unread.length := List.length_pos_of_ne_nil some_left
  rw [toRead_there there]
  -- Of a peer that has gone nothing is left to be read.
  rcases reads with gone | read
  · rw [toRead_gone gone]
    exact some_bytes
  · have fewer : (unread.drop (readSince id r s)).length < unread.length := by
      rw [List.length_drop]
      exact Nat.sub_lt some_bytes read
    unfold toRead
    split
    · exact fewer
    · exact some_bytes

/-- If a socket is read that holds something, something is read or the peer is let go. -/
theorem takeInput_reads (r : Reactor) (short : decodeOne p.session.inbound = .ok none)
    {bytes : Bytes} (some_left : bytes ≠ []) (writes : List WriteOutcome) :
    (r.takeInput p (.waiting bytes) writes).table.get? p.id = none ∨
      0 < readSince p.id r (r.takeInput p (.waiting bytes) writes) := by
  have asked := takeInput_asked r p (.waiting bytes) writes
  generalize r.takeInput p (.waiting bytes) writes = s at asked ⊢
  cases there : s.table.get? p.id with
  | none => exact Or.inl rfl
  | some q =>
    obtain ⟨sound, -⟩ := asked.own there
    have chunk : 0 < (bytes.take readChunk).length := by
      have some_bytes : 0 < bytes.length := List.length_pos_of_ne_nil some_left
      rw [List.length_take]
      exact Nat.lt_min.mpr ⟨by decide, some_bytes⟩
    -- A chunk for which there is no room would have ended the conversation.
    have room : p.session.inbound.length + (bytes.take readChunk).length ≤ maxMessageSize := by
      by_contra large
      have failed := Session.intake_oversized (Session.nextEnvelope_none short)
        (List.length_take_le _ _) (List.ne_nil_of_length_pos chunk) (Nat.lt_of_not_le large)
      rw [Session.intake_take, failed] at sound
      cases sound
    have read : (p.session.fill (.waiting bytes)).1 = .ok (.data (bytes.take readChunk).length) := by
      rw [(Session.fill_waiting bytes room).resolve_left fun nothing => some_left nothing.1]
    refine Or.inr ?_
    rw [readSince, bytesRead_readings asked.read, Nat.add_sub_cancel_left, Session.draws,
      if_pos (Session.isShort_iff.mpr short), read, List.map_singleton, broughtBy, if_pos rfl]
    exact chunk

/-! ### What is left to do -/

theorem dues_nobody (nobody : r.mux.pending = []) : r.dues = 0 := by
  unfold dues
  rw [nobody]
  rfl

/-- Less is left to do, where what comes first counts most. -/
inductive Eases (id : PeerId) (unread left : Bytes) (r s : Reactor) : Prop
  | reads (less : s.toRead id left < r.toRead id unread)
  | serves (no_more : s.toRead id left ≤ r.toRead id unread) (less : s.dues < r.dues)
  | obeys (no_more : s.toRead id left ≤ r.toRead id unread) (none_due : s.dues ≤ r.dues)
    (less : s.queue.labour < r.queue.labour)

theorem Eases.lex {left : Bytes} (h : Eases id unread left r s) :
    Prod.Lex (· < ·) (Prod.Lex (· < ·) (· < ·)) (s.toRead id left, s.dues, s.queue.labour)
      (r.toRead id unread, r.dues, r.queue.labour) := by
  have later {a b : Nat × Nat} (no_more : s.toRead id left ≤ r.toRead id unread)
      (less : Prod.Lex (· < ·) (· < ·) a b) : Prod.Lex (· < ·) (Prod.Lex (· < ·) (· < ·))
        (s.toRead id left, a) (r.toRead id unread, b) := by
    rcases Nat.lt_or_eq_of_le no_more with fewer | same
    · exact .left _ _ fewer
    · exact same ▸ .right _ less
  cases h with
  | reads less => exact .left _ _ less
  | serves no_more less => exact later no_more (.left _ _ less)
  | obeys no_more none_due less =>
    refine later no_more ?_
    rcases Nat.lt_or_eq_of_le none_due with fewer | same
    · exact .left _ _ fewer
    · exact same ▸ .right _ less

/-! ### The way to rest -/

/-- What is kept on the way to rest. -/
structure Astir (id : PeerId) (r : Reactor) : Prop where
  consistent : r.Consistent
  /-- The peer is or was there. -/
  known : ∃ p, r.Known id p
  /-- What has been read from it does not wait for more. -/
  prompt : Prompt id r
  /-- Nobody is missing, so nobody is dialed. -/
  aimless : r.config.target = 0
  /-- When the run has ended no command waits. -/
  halted : r.running = false → r.queue.receive = none

theorem Astir.turn (h : Astir id r) (sight : Sight) (means : Means) :
    Astir id (r.turn sight means) where
  consistent := kept_consistent.turn h.consistent sight means
  known := known_react h.consistent h.known (.turn sight means)
  prompt := h.prompt.attends h.consistent (attends_turn h.consistent sight means id)
  aimless := ((kept_config r.config).turn ⟨h.consistent, rfl⟩ sight means).2.symm ▸ h.aimless
  halted ended := by
    cases running : r.running with
    | false =>
      rw [turn_ended running]
      exact h.halted running
    | true =>
      have onward {s : Reactor} (same : s.running = r.running) : s.running = true :=
        same.trans running
      rcases turn_cases running sight means (h.consistent.wait sight).keyed with
        ⟨-, same⟩ | ⟨w, -, ⟨-, same⟩ | ⟨-, moves⟩⟩
      · have still : (r.wait sight).2.running = true := onward rfl
        rw [same, still] at ended
        cases ended
      · rw [same]
        rfl
      · rw [onward moves.keeps.1] at ended
        cases ended

/-- No turn leaves more unread, since whoever is gone does not come back. -/
theorem Astir.toRead_turn (h : Astir id r) (unread : Bytes) (sight : Sight) (means : Means)
    (n : Nat) : (r.turn sight means).toRead id (unread.drop n) ≤ r.toRead id unread := by
  cases there : r.table.get? id with
  | none =>
    obtain ⟨p, known⟩ := h.known
    have gone : (r.turn sight means).table.get? id = none :=
      gone_react h.consistent known there (.turn sight means)
    rw [toRead_gone gone]
    exact Nat.zero_le _
  | some p =>
    rw [toRead_there there]
    unfold toRead
    split
    · rw [List.length_drop]
      exact Nat.sub_le _ _
    · exact Nat.zero_le _

/-- The socket of the peer reports that there is something to read. -/
def report (id : PeerId) : Sight := ⟨0, 0, .none, [(id, .ok .read)]⟩

/-- Some bytes are there to be read. -/
def offering (bytes : Bytes) : Means := ⟨0, .waiting bytes, [], []⟩

/-- If nothing comes before sockets the report is heard. -/
theorem wait_report (h : r.Consistent) (there : r.table.get? id = some p)
    (nobody : r.mux.pending = []) (idle : r.queue.receive = none) :
    (r.wait (report id)).1 = some (.peer id .read) := by
  have watched : r.mux.sockets.contains id = true := (h.isRegistered_iff id).mpr ⟨p, there⟩
  unfold wait Multiplexer.wait
  rw [nobody, Multiplexer.nextPending]
  simp only
  rw [idle]
  simp [report, Multiplexer.firstReport, Multiplexer.heed, Multiplexer.isRegistered, watched,
    Readiness.masked, Readiness.any, Readiness.read]

/-- A turn in which who was put back first is served, and finds only what the peer has sent. -/
theorem Astir.serves (h : Astir id r) (running : r.running = true) {rest : List PeerId}
    (pending : r.mux.pending = k :: rest) {bytes : Bytes}
    (own : bytes = if k = id then unread else []) :
    Eases id unread (unread.drop (readSince id r (r.turn (report id) (offering bytes)))) r
      (r.turn (report id) (offering bytes)) := by
  obtain ⟨p, there, same, attended⟩ :=
    attended_turn h.consistent running pending (report id) (offering bytes)
  obtain ⟨q, there', -, turned⟩ :=
    turn_head h.consistent running pending (report id) (offering bytes)
  rw [there] at there'
  cases there'
  subst same
  have no_more := h.toRead_turn unread (report id) (offering bytes)
  by_cases again : p.id ∈ (r.turn (report id) (offering bytes)).mux.pending ∧
      decodeOne p.session.inbound = .ok none
  · -- The peer was put back because of something that was read.
    obtain ⟨back, short⟩ := again
    have some_left : bytes ≠ [] := by
      intro nothing
      have nodup := h.consistent.pending_nodup
      rw [pending] at nodup
      rw [turned, nothing] at back
      rw [show (offering []).incoming = .waiting [] from rfl, takeInput_vain _ short] at back
      exact (List.nodup_cons.mp nodup).1 back
    have same : p.id = id := by
      by_contra other
      rw [if_neg other] at own
      exact some_left own
    subst same
    rw [if_pos rfl] at own
    subst own
    refine .reads (toRead_lt there some_left ?_)
    rw [turned]
    exact takeInput_reads { r with mux := { r.mux with pending := rest } } short some_left []
  · refine .serves (no_more _) (attended.dues h.consistent
      (h.turn (report id) (offering bytes)).consistent pending there fun back short => ?_)
    exact again ⟨back, short⟩

/-- A turn in which a command is obeyed, or the news is taken up that none will come. -/
theorem Astir.obeys (h : Astir id r) (running : r.running = true) (nobody : r.mux.pending = [])
    {command : Option Command} {queue : ControlQueue}
    (received : r.queue.receive = some (command, queue)) (sight : Sight) (means : Means) :
    Eases id unread (unread.drop (readSince id r (r.turn sight means))) r (r.turn sight means) := by
  have no_more := h.toRead_turn unread sight means
  have waited := wait_control nobody received sight
  have due : (r.wait sight).1 = some (.control command) := by rw [waited]
  have left : (r.wait sight).2.queue = queue := by rw [waited]
  have still : (r.wait sight).2.mux.pending = [] := by
    rw [waited]
    exact Multiplexer.pending_liftPause _ _
  have turned := turn_eq running due means
  rw [turned] at no_more ⊢
  cases command with
  | none =>
    refine .obeys (no_more _) (Nat.zero_le _) ?_
    rw [ControlQueue.labour_deserted received]
    exact Nat.one_pos
  | some c =>
    have lighter := obey_labour (h.consistent.wait sight).keyed h.aimless c means
    have none_left := List.subset_nil.mp (still ▸ lighter.1)
    refine .obeys (no_more _) ?_ ?_
    · exact (dues_nobody none_left).trans_le (Nat.zero_le _)
    · rw [ControlQueue.labour_receive received, ← left]
      exact lighter.2

/-- A turn in which the socket of the peer is read. -/
theorem Astir.reads (h : Astir id r) (running : r.running = true) (nobody : r.mux.pending = [])
    (idle : r.queue.receive = none) (there : r.table.get? id = some p) (some_left : unread ≠ []) :
    Eases id unread (unread.drop (readSince id r (r.turn (report id) (offering unread)))) r
      (r.turn (report id) (offering unread)) := by
  have number := h.consistent.keyed id p there
  subst number
  have due := wait_report h.consistent there nobody idle
  have short : decodeOne p.session.inbound = .ok none :=
    (h.prompt p there).resolve_right fun waiting => by
      rw [nobody] at waiting
      cases waiting
  have served : r.turn (report p.id) (offering unread) =
      (r.wait (report p.id)).2.takeInput p (.waiting unread) [] := by
    have held : (r.wait (report p.id)).2.table.get? p.id = some p := there
    rw [turn_eq running due, handle, serve, held]
    rfl
  refine .reads (toRead_lt there some_left ?_)
  rw [served]
  exact takeInput_reads (r.wait (report p.id)).2 short some_left []

/-- **As long as a run is not at rest there is a turn that leaves less to do.** -/
theorem Astir.exists_turn (h : Astir id r) (busy : ¬ AtRest id unread r) :
    ∃ sight means, Willing means.writes ∧
      (∀ w, (r.wait sight).1 = some w → w.IsSolo id unread r means) ∧
      Eases id unread (unread.drop (readSince id r (r.turn sight means))) r
        (r.turn sight means) := by
  cases running : r.running with
  | false =>
    have gone := h.consistent.ended running
    have nobody : r.mux.pending = [] :=
      List.eq_nil_iff_forall_not_mem.mpr fun k => h.consistent.not_pending (gone k)
    exact absurd ⟨nobody, h.halted running, Or.inl (gone id)⟩ busy
  | true =>
    cases pending : r.mux.pending with
    | cons k rest =>
      refine ⟨report id, offering (if k = id then unread else []), willing_nil, fun w due => ?_,
        h.serves running pending rfl⟩
      rw [wait_head h.consistent pending] at due
      cases due
      exact ⟨List.prefix_rfl, Or.inr (Or.inl (pending ▸ List.mem_cons_self))⟩
    | nil =>
      cases received : r.queue.receive with
      | some taken =>
        refine ⟨report id, offering [], willing_nil, fun w due => ?_,
          h.obeys running pending received (report id) (offering [])⟩
        rw [wait_control pending received] at due
        cases due
        exact trivial
      | none =>
        have unheard : ¬ (r.table.get? id = none ∨ unread = []) := fun heard =>
          busy ⟨pending, received, heard⟩
        obtain ⟨gone, some_left⟩ := not_or.mp unheard
        obtain ⟨p, there⟩ := Option.ne_none_iff_exists'.mp gone
        refine ⟨report id, offering unread, willing_nil, fun w due => ?_,
          h.reads running pending received there some_left⟩
        rw [wait_report h.consistent there pending received] at due
        cases due
        exact ⟨by rw [if_pos rfl]; exact List.prefix_rfl, Or.inl rfl⟩

/-- **A run in which one peer alone is heard can come to rest.** -/
theorem Astir.exists_rest {r : Reactor} (h : Astir id r) (unread : Bytes) :
    ∃ s left, Solo id r unread s left ∧ AtRest id left s := by
  by_cases rest : AtRest id unread r
  · exact ⟨r, unread, .rest r unread, rest⟩
  · obtain ⟨sight, means, willing, alone, eases⟩ := h.exists_turn rest
    obtain ⟨s, left, later, final⟩ := (h.turn sight means).exists_rest _
    exact ⟨s, left, .turn sight means willing alone later, final⟩
termination_by (r.toRead id unread, r.dues, r.queue.labour)
decreasing_by exact eases.lex

/-- A reactor on the way to rest stays on it while one peer alone is heard. -/
theorem Solo.astir {left : Bytes} (course : Solo id r unread s left) (h : Astir id r) :
    Astir id s := by
  induction course with
  | rest => exact h
  | turn sight means willing alone later ih => exact ih (h.turn sight means)

/-- A reactor in which the peer is there is on the way to rest, whatever it has been through. -/
theorem astir_run {config : ReactorConfig} {shared : Shared} {now : Nat} {stimuli : List Stimulus}
    (reached : (start config shared now).run stimuli = r) (aimless : config.target = 0)
    (there : r.table.get? id = some p) : Astir id r := by
  subst reached
  have started := consistent_start config shared now
  have consistent := kept_consistent.run started stimuli
  have prompt : Prompt id ((start config shared now).run stimuli) :=
    lasting_run (fun consistent h attends => h.attends consistent attends) started
      (prompt_gone rfl) stimuli
  refine ⟨consistent, ⟨p, Or.inl there⟩, prompt, ?_, fun ended => ?_⟩
  · rw [config_run config shared now stimuli]
    exact aimless
  · rw [consistent.running there] at ended
    cases ended

end Reactor

end GossipNode
