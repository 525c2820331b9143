import GossipNode.Proofs.Reactor.Frames
import GossipNode.Proofs.Reactor.Introductions

/-!
# The search for peers

A node that hears of addresses begins a round of dialing: it dials as many of them as it lacks peers
to its target.  A dial takes its time, and the rounds do not wait for one another: a dial that has
neither failed nor become a peer is no peer yet, so that the next round does not count it.  One
round by itself does not go beyond the target; rounds that overlap may.

## Main definitions

* `Reactor.picks`, `Reactor.begun` — the addresses that a round, or a turn, begins to dial.
* `Reactor.Search` — a run with the dials of its rounds that are still open and the peers that came
  of others.

## Main results

* `AddressPool.length_selectForDial` — a round dials no more than there are peers missing.
* `Reactor.search_bound` — **no round goes beyond the target**, and no search does whose rounds wait
  for the dials of those before.
* `Reactor.rounds_overlap` — **rounds that do not wait go beyond the target.**
-/

namespace GossipNode

/-! ### One round -/

theorem AddressPool.length_pickLoop (connected : List String) (wanted rounds : Nat) :
    ∀ (pool : AddressPool) (source : RandomWords) (picked : List String), picked.length ≤ wanted →
      (pickLoop connected wanted rounds pool source picked).1.length ≤ wanted := by
  induction rounds with
  | zero =>
    intro pool source picked few
    rw [pickLoop, List.length_reverse]
    exact few
  | succ rounds ih =>
    intro pool source picked few
    rw [pickLoop]
    split
    · rw [List.length_reverse]
      exact few
    · next missing =>
      split
      · rw [List.length_reverse]
        exact few
      · split
        · exact ih _ _ picked few
        · apply ih
          rw [List.length_cons]
          omega

/-- A round dials no more than there are peers missing. -/
theorem AddressPool.length_selectForDial (pool : AddressPool) (live target : Nat)
    (connected : List String) (source : RandomWords) :
    (pool.selectForDial live target connected source).1.length ≤ target - live :=
  length_pickLoop connected (target - live) pool.size pool source [] (Nat.zero_le _)

namespace Reactor

/-- The addresses that a round of dialing picks. -/
def picks (r : Reactor) (words : List UInt64) : List String :=
  (r.shared.pool.selectForDial r.table.size r.config.target r.table.connectedAddresses
    ⟨words, 0⟩).1

/-- The addresses that a turn begins to dial: those a round picks, if one is due. -/
def begun (r : Reactor) (sight : Sight) (means : Means) : List String :=
  if r.running ∧ (r.wait sight).1 = some (.control (some .tryConnect)) then
    (r.wait sight).2.picks means.words
  else []

/-- A round picks no more addresses than peers are missing. -/
theorem length_picks (r : Reactor) (words : List UInt64) :
    (r.picks words).length ≤ r.config.target - r.table.size :=
  AddressPool.length_selectForDial ..

/-- A round begins to dial what it picks. -/
theorem dialing_tryConnect (r : Reactor) (words : List UInt64) :
    (r.tryConnect words).dialing = r.dialing ++ r.picks words :=
  congrArg Reactor.dialing (foldl_dial _ _)

/-- What a turn that begins to dial comes to: a round of dialing, after which the peers and those
dialed are no more than the target. -/
theorem turn_begun {r : Reactor} {sight : Sight} {means : Means}
    (some_begun : r.begun sight means ≠ []) :
    (r.turn sight means).dialing = r.dialing ++ r.begun sight means ∧
      (r.turn sight means).table = r.table ∧
      r.table.size + (r.begun sight means).length ≤ r.config.target := by
  unfold begun at some_begun ⊢
  split at some_begun
  · next h =>
    obtain ⟨running, due⟩ := h
    have served : r.turn sight means = (r.wait sight).2.tryConnect means.words :=
      turn_eq running due means
    rw [if_pos ⟨running, due⟩, served]
    refine ⟨dialing_tryConnect _ _, (Move.seek means.words).idle.table, ?_⟩
    have few : ((r.wait sight).2.picks means.words).length ≤ r.config.target - r.table.size :=
      (r.wait sight).2.length_picks means.words
    have many := List.length_pos_iff.2 some_begun
    omega
  · exact absurd rfl some_begun

/-! ### Many rounds -/

section

variable (config : ReactorConfig) (shared : Shared) (now : Nat)

/-- A run of a reactor from its start, with the dials begun by its rounds that are still open and
the peers that came of others.  A dial is open until it fails, which may happen at any time, or a
connection to its address is taken over.  In a patient search no round begins while a dial of a
round is open. -/
inductive Search (patient : Prop) : Reactor → List String → List PeerId → Prop
  | start : Search patient (start config shared now) [] []
  /-- Anything happens but a round that begins to dial; some dials may have failed. -/
  | other {r : Reactor} {sought still : List String} {found : List PeerId} {stimulus : Stimulus}
      (earlier : Search patient r sought found)
      (no_round : ∀ sight means, stimulus = .turn sight means → r.begun sight means = [])
      (failed : still.Sublist sought) : Search patient (r.react stimulus) still found
  /-- A round begins to dial. -/
  | round {r : Reactor} {sought : List String} {found : List PeerId} {sight : Sight}
      {means : Means} (earlier : Search patient r sought found) (waited : patient → sought = []) :
      Search patient (r.turn sight means) (sought ++ r.begun sight means) found
  /-- A connection that a round sought is taken over. -/
  | adopt {r : Reactor} {sought : List String} {found : List PeerId} {sight : Sight}
      {means : Means} {socket : SocketId} {remote : SocketAddress} {address : String}
      (earlier : Search patient r sought found) (running : r.running = true)
      (due : (r.wait sight).1 = some (.control (some (.adopt socket remote address))))
      (open_still : address ∈ sought) :
      Search patient (r.turn sight means) (sought.erase address) (r.nextId :: found)

end

variable {config : ReactorConfig} {shared : Shared} {now : Nat} {patient : Prop} {r s : Reactor}
  {sought : List String} {found : List PeerId}

/-- How many of some peers are there. -/
def present (r : Reactor) (ids : List PeerId) : Nat := ids.countP fun id => r.table.contains id

theorem Search.exists_run (h : Search config shared now patient r sought found) :
    ∃ stimuli, r = (GossipNode.Reactor.start config shared now).run stimuli := by
  have onward {r : Reactor} (stimulus : Stimulus)
      (before : ∃ stimuli, r = (GossipNode.Reactor.start config shared now).run stimuli) :
      ∃ stimuli, r.react stimulus = (GossipNode.Reactor.start config shared now).run stimuli := by
    obtain ⟨stimuli, rfl⟩ := before
    exact ⟨stimuli ++ [stimulus], (run_append _ stimuli [stimulus]).symm⟩
  induction h with
  | start => exact ⟨[], rfl⟩
  | @other _ _ _ _ stimulus _ _ _ ih => exact onward stimulus ih
  | @round _ _ _ sight means _ _ ih => exact onward (.turn sight means) ih
  | @adopt _ _ _ sight means _ _ _ _ _ _ _ ih => exact onward (.turn sight means) ih

theorem Search.consistent (h : Search config shared now patient r sought found) :
    r.Consistent := by
  obtain ⟨stimuli, rfl⟩ := h.exists_run
  exact kept_consistent.run (consistent_start config shared now) stimuli

theorem Search.config_eq (h : Search config shared now patient r sought found) :
    r.config = config := by
  obtain ⟨stimuli, rfl⟩ := h.exists_run
  exact config_run config shared now stimuli

/-- Whoever is gone does not come back. -/
theorem gone_react (h : r.Consistent) {id : PeerId} {p : Peer} (known : r.Known id p)
    (gone : r.table.get? id = none) (stimulus : Stimulus) :
    (r.react stimulus).table.get? id = none := by
  have h' : (r.react stimulus).Consistent := kept_consistent.react h stimulus
  have closed : p.session.state = .closed := by
    rcases known with there | ⟨retired, -⟩
    · rw [gone] at there
      cases there
    · exact (h.accounted.gone p retired).2.1
  obtain ⟨q, calls, known', hq⟩ := (evolves_run h [stimulus]).onward id p known
  have closed' : q.session.state = .closed := hq ▸ Session.closed_after calls closed
  rcases known' with there | ⟨retired, same⟩
  · exact absurd closed' (h'.talking id q there)
  · exact same ▸ (h'.accounted.gone q retired).2.2

/-- No more of some peers are there later on. -/
theorem present_react (h : r.Consistent) {ids : List PeerId}
    (known : ∀ id ∈ ids, ∃ p, r.Known id p) (stimulus : Stimulus) :
    (r.react stimulus).present ids ≤ r.present ids := by
  refine List.countP_mono_left fun id hid there => ?_
  obtain ⟨p, hp⟩ := known id hid
  cases before : r.table.get? id with
  | some q => rw [IdMap.contains, before]; rfl
  | none =>
    rw [IdMap.contains, gone_react h hp before stimulus] at there
    cases there

theorem known_react (h : r.Consistent) {id : PeerId} (known : ∃ p, r.Known id p)
    (stimulus : Stimulus) : ∃ p, (r.react stimulus).Known id p := by
  obtain ⟨p, hp⟩ := known
  obtain ⟨q, -, hq, -⟩ := (evolves_run h [stimulus]).onward id p hp
  exact ⟨q, hq⟩

/-- Of some peers no more are there than there are peers. -/
theorem present_le_size {ids : List PeerId} (nodup : ids.Nodup) :
    r.present ids ≤ r.table.size := by
  have same : (ids.filter fun id => r.table.contains id).Perm
      (r.table.ids.filter fun id => id ∈ ids) := by
    refine (List.perm_ext_iff_of_nodup (nodup.filter _) (r.table.nodup_ids.filter _)).2 fun id => ?_
    simp [IdMap.mem_ids_iff, IdMap.contains, Option.isSome_iff_exists, and_comm]
  rw [present, List.countP_eq_length_filter, same.length_eq, ← IdMap.length_ids]
  exact List.length_filter_le ..

/-- Whoever is known came before the next connection. -/
theorem Known.lt_nextId (h : r.Consistent) {id : PeerId} {p : Peer} (known : r.Known id p) :
    id < r.nextId := by
  rcases known with there | ⟨retired, same⟩
  · exact h.numbered there
  · exact same ▸ h.accounted.joined_lt _ (h.accounted.gone p retired).1

/-- The number of the next connection is nobody's yet. -/
theorem Known.ne_nextId (h : r.Consistent) {id : PeerId} {p : Peer} (known : r.Known id p) :
    id ≠ r.nextId := fun same => Nat.lt_irrefl _ (same ▸ known.lt_nextId h)

/-- What is true of the peers that a search has found, and how many there are of them and of its
open dials. -/
structure Search.Bounded (config : ReactorConfig) (patient : Prop) (r : Reactor)
    (sought : List String) (found : List PeerId) : Prop where
  known : ∀ id ∈ found, ∃ p, r.Known id p
  nodup : found.Nodup
  few : patient → r.present found + sought.length ≤ config.target

/-- A patient search goes on within its bound when a round begins. -/
theorem Search.Bounded.round (h : Bounded config patient r sought found) (consistent : r.Consistent)
    (own : r.config = config) (waited : patient → sought = []) (sight : Sight) (means : Means) :
    Bounded config patient (r.turn sight means) (sought ++ r.begun sight means) found := by
  refine ⟨fun id hid => known_react consistent (h.known id hid) (.turn sight means), h.nodup, ?_⟩
  intro waits
  rw [waited waits, List.nil_append]
  have fewer : (r.turn sight means).present found ≤ r.present found :=
    present_react consistent h.known (.turn sight means)
  by_cases none_begun : r.begun sight means = []
  · have bound := h.few waits
    rw [none_begun]
    rw [List.length_nil]
    omega
  · -- The round counts everybody who is there, those found before among them.
    obtain ⟨-, -, within_target⟩ := turn_begun none_begun
    rw [own] at within_target
    have among := present_le_size (r := r) h.nodup
    omega

/-- A search goes on within its bound when a connection that was sought is taken over: there is a
peer more and an open dial less. -/
theorem Search.Bounded.adopt (h : Bounded config patient r sought found)
    (consistent : r.Consistent) {sight : Sight} {means : Means} {socket : SocketId}
    {remote : SocketAddress} {address : String} (running : r.running = true)
    (due : (r.wait sight).1 = some (.control (some (.adopt socket remote address))))
    (open_still : address ∈ sought) :
    Bounded config patient (r.turn sight means) (sought.erase address) (r.nextId :: found) := by
  have taken : r.turn sight means =
      (r.wait sight).2.insertPeer socket remote .outbound (some address) means.now :=
    turn_eq running due means
  have there : ∃ p, (r.turn sight means).table.get? r.nextId = some p := by
    rw [taken, get?_insertPeer]
    exact ⟨_, if_pos rfl⟩
  have new : r.nextId ∉ found := by
    intro old
    obtain ⟨p, hp⟩ := h.known _ old
    exact hp.ne_nextId consistent rfl
  constructor
  case known =>
    intro id hid
    rcases List.mem_cons.1 hid with rfl | hid
    · obtain ⟨p, hp⟩ := there
      exact ⟨p, Or.inl hp⟩
    · exact known_react consistent (h.known id hid) (.turn sight means)
  case nodup => exact List.nodup_cons.2 ⟨new, h.nodup⟩
  case few =>
    intro waits
    have fewer : (r.turn sight means).present found ≤ r.present found :=
      present_react consistent h.known (.turn sight means)
    have one_more : (r.turn sight means).present (r.nextId :: found) ≤
        (r.turn sight means).present found + 1 := by
      rw [present, present, List.countP_cons]
      split <;> omega
    have bound := h.few waits
    have positive := List.length_pos_of_mem open_still
    rw [List.length_erase_of_mem open_still]
    omega

theorem Search.bounded (h : Search config shared now patient r sought found) :
    Bounded config patient r sought found := by
  induction h with
  | start =>
    exact ⟨fun id hid => absurd hid List.not_mem_nil, List.nodup_nil, fun _ => Nat.zero_le _⟩
  | @other r sought still found stimulus earlier _ failed ih =>
    refine ⟨fun id hid => known_react earlier.consistent (ih.known id hid) stimulus, ih.nodup, ?_⟩
    intro waits
    have fewer := present_react earlier.consistent ih.known stimulus
    have bound := ih.few waits
    have shorter := failed.length_le
    omega
  | @round r sought found sight means earlier waited ih =>
    exact ih.round earlier.consistent earlier.config_eq waited sight means
  | adopt earlier running due open_still ih =>
    exact ih.adopt earlier.consistent running due open_still

/-- **No round goes beyond the target**, and no search does whose rounds wait for the dials of those
before.  When a round begins to dial, the peers that are there and the dials it begins are no more
than the target.  Dials of earlier rounds that are open come on top, so that the peers and all open
dials of rounds go beyond the target by no more than there were before.  If no round begins while a
dial of a round is open, the peers that came of such dials and the dials that are open are never
more than the target. -/
theorem search_bound (h : Search config shared now patient r sought found) :
    (∀ sight means, r.begun sight means ≠ [] →
      let s := r.turn sight means
      s.dialing = r.dialing ++ r.begun sight means ∧
        s.table.size + (r.begun sight means).length ≤ config.target ∧
        s.table.size + (sought ++ r.begun sight means).length ≤ config.target + sought.length) ∧
    (patient → r.present found + sought.length ≤ config.target) := by
  refine ⟨fun sight means some_begun => ?_, h.bounded.few⟩
  obtain ⟨dialing, table, few⟩ := turn_begun some_begun
  rw [h.config_eq] at few
  simp only [dialing, table, List.length_append, true_and]
  omega

/-- One peer is aimed at and two addresses are known: the first round dials one of them. -/
theorem search_bound_first_round :
    let config : ReactorConfig := { (default : ReactorConfig) with target := 1 }
    let shared : Shared := { Shared.empty with pool := ⟨["10.0.0.1:1", "10.0.0.2:2"]⟩ }
    let quiet : Sight := ⟨0, 0, .none, []⟩
    let idle : Means := ⟨0, .waiting [], [], []⟩
    let r := (start config shared 0).run [.request .tryConnect]
    r.begun quiet idle = ["10.0.0.1:1"] ∧
      (r.turn quiet idle).table.size + (r.begun quiet idle).length ≤ 1 ∧
      (r.turn quiet idle).present [] + (r.begun quiet idle).length ≤ 1 := by
  intro config shared quiet idle r
  have begun : r.begun quiet idle = ["10.0.0.1:1"] := by decide +kernel
  have before : Search config shared 0 True
      ((start config shared 0).react (.request .tryConnect)) [] [] :=
    .other .start (fun _ _ same => by cases same) (.refl _)
  have after : Search config shared 0 True (r.turn quiet idle) ([] ++ r.begun quiet idle) [] :=
    .round before fun _ => rfl
  have some_begun : r.begun quiet idle ≠ [] := by
    rw [begun]
    exact List.cons_ne_nil _ _
  have within_target := ((search_bound before).1 quiet idle some_begun).2.1
  have patient := (search_bound after).2 True.intro
  rw [List.nil_append] at patient
  exact ⟨begun, within_target, patient⟩

/-- **Rounds that do not wait go beyond the target.**  One peer is aimed at and two rounds are asked
for.  The second one begins while the dial of the first is open, does not count it, and dials as
well; both dials come to be peers. -/
theorem rounds_overlap :
    let config : ReactorConfig := { (default : ReactorConfig) with target := 1 }
    let shared : Shared := { Shared.empty with pool := ⟨["10.0.0.1:1", "10.0.0.2:2"]⟩ }
    let quiet : Sight := ⟨0, 0, .none, []⟩
    let idle : Means := ⟨0, .waiting [], [], []⟩
    let asked := (start config shared 0).run [.request .tryConnect, .request .tryConnect]
    let r := asked.turn quiet idle
    let s := r.turn quiet idle
    let half := s.react (.dialEnded "10.0.0.1:1" (some (⟨1⟩, default)))
    let connected := half.react (.dialEnded "10.0.0.2:2" (some (⟨2⟩, default)))
    let t := (connected.turn quiet idle).turn quiet idle
    Search config shared 0 False r ["10.0.0.1:1"] [] ∧ r.begun quiet idle = ["10.0.0.2:2"] ∧
      s.dialing = ["10.0.0.1:1", "10.0.0.2:2"] ∧
      ¬ s.table.size + (["10.0.0.1:1"] ++ r.begun quiet idle).length ≤ config.target ∧
      Search config shared 0 False t [] [⟨2⟩, ⟨1⟩] ∧ ¬ t.table.size ≤ config.target := by
  intro config shared quiet idle asked r s half connected t
  have between {r : Reactor} {sought : List String} {found : List PeerId}
      (h : Search config shared 0 False r sought found) (stimulus : Stimulus)
      (no_turn : ∀ sight means, stimulus ≠ .turn sight means) :
      Search config shared 0 False (r.react stimulus) sought found :=
    h.other (fun sight means same => absurd same (no_turn sight means)) (.refl sought)
  have once : Search config shared 0 False
      ((start config shared 0).react (.request .tryConnect)) [] [] :=
    between .start (.request .tryConnect) fun _ _ same => by cases same
  have twice : Search config shared 0 False asked [] [] :=
    between once (.request .tryConnect) fun _ _ same => by cases same
  have first : Search config shared 0 False r ["10.0.0.1:1"] [] := by
    have one : Search config shared 0 False r ([] ++ asked.begun quiet idle) [] :=
      twice.round False.elim
    rw [show asked.begun quiet idle = ["10.0.0.1:1"] by decide +kernel] at one
    exact one
  have begun : r.begun quiet idle = ["10.0.0.2:2"] := by decide +kernel
  have second : Search config shared 0 False s ["10.0.0.1:1", "10.0.0.2:2"] [] := by
    have both : Search config shared 0 False s (["10.0.0.1:1"] ++ r.begun quiet idle) [] :=
      first.round False.elim
    rw [begun] at both
    exact both
  have one_ended : Search config shared 0 False half ["10.0.0.1:1", "10.0.0.2:2"] [] :=
    between second (.dialEnded _ _) fun _ _ same => by cases same
  have both_ended : Search config shared 0 False connected ["10.0.0.1:1", "10.0.0.2:2"] [] :=
    between one_ended (.dialEnded _ _) fun _ _ same => by cases same
  have one_found : Search config shared 0 False (connected.turn quiet idle) ["10.0.0.2:2"]
      [⟨1⟩] := by
    have due : (connected.wait quiet).1 =
        some (.control (some (.adopt ⟨1⟩ default "10.0.0.1:1"))) := by decide +kernel
    have taken : Search config shared 0 False (connected.turn quiet idle)
        (["10.0.0.1:1", "10.0.0.2:2"].erase "10.0.0.1:1") [connected.nextId] :=
      both_ended.adopt (by decide +kernel) due List.mem_cons_self
    rw [show connected.nextId = ⟨1⟩ by decide +kernel, List.erase_cons_head] at taken
    exact taken
  have both_found : Search config shared 0 False t [] [⟨2⟩, ⟨1⟩] := by
    have due : ((connected.turn quiet idle).wait quiet).1 =
        some (.control (some (.adopt ⟨2⟩ default "10.0.0.2:2"))) := by decide +kernel
    have taken : Search config shared 0 False t (["10.0.0.2:2"].erase "10.0.0.2:2")
        [(connected.turn quiet idle).nextId, ⟨1⟩] :=
      one_found.adopt (by decide +kernel) due List.mem_cons_self
    rw [show (connected.turn quiet idle).nextId = ⟨2⟩ by decide +kernel,
      List.erase_cons_head] at taken
    exact taken
  exact ⟨first, begun, by decide +kernel, by decide +kernel, both_found, by decide +kernel⟩

end Reactor

end GossipNode
