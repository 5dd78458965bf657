import Warmth.CurrentResults
import Warmth.Settling
import Warmth.Whereabouts

namespace Warmth

open Codec Std

namespace Network

open Function

theorem Learned.grows {s t : Network} {c : ConnId} {a : UInt64 × UInt64 × UInt64} (h : s.Learned c a)
    (wire : ∃ more, t.threads.wire c = s.threads.wire c ++ more) : t.Learned c a := by
  obtain ⟨f, rest, ack, first, decoded, same⟩ := h
  obtain ⟨more, grown⟩ := wire
  exact ⟨f, rest ++ more, ack, by rw [grown, first]; rfl, decoded, same⟩

/-! A worker in `run` has been greeted. -/

/-- The first frame on the connection of a worker in `run` is a HELLO_ACK. -/
def Greeted (s : Network) : Prop :=
  ∀ i c, (s.peers i).conn = some c → (s.peers i).phase = .running →
    ∃ f rest, s.threads.wire c = f :: rest ∧ f.type = .helloAck

theorem connected_type {w : Worker} {f : Frame} (h : (w.receiveAck (some f)).2 = .connected) :
    f.type = .helloAck := by
  by_contra other
  simp only [Worker.receiveAck, if_pos other] at h
  cases h

section
variable {cfgs : Nat → WorkerConfig} {h : List Happening} {s : Network}

theorem greeted_init (cfgs : Nat → WorkerConfig) : (init cfgs).Greeted := by
  intro i c reader
  cases reader

theorem Greeted.setPeer (inv : s.Greeted) {i : Nat} {p : Peer}
    (own : ∀ c, p.conn = some c → p.phase = .running →
      ∃ f rest, s.threads.wire c = f :: rest ∧ f.type = .helloAck) : (s.setPeer i p).Greeted := by
  intro j c reader running
  by_cases hj : j = i
  · subst hj
    simp only [Network.setPeer, update_self] at reader running
    exact own c reader running
  · simp only [Network.setPeer, update_of_ne hj] at reader running
    exact inv j c reader running

theorem Greeted.step (inv : s.Greeted) (stamps : s.Stamps) (a : NetStep) : (s.step a).Greeted := by
  have grows {t : Threads} (wire : ∀ c, ∃ more, t.wire c = s.threads.wire c ++ more) :
      ∀ i c, (s.peers i).conn = some c → (s.peers i).phase = .running →
        ∃ f rest, t.wire c = f :: rest ∧ f.type = .helloAck := by
    intro i c reader running
    obtain ⟨f, rest, first, type⟩ := inv i c reader running
    obtain ⟨more, grown⟩ := wire c
    exact ⟨f, rest ++ more, by rw [grown, first]; rfl, type⟩
  have happened := s.happened_step a
  generalize s.step a = t, s.happens a = new at happened
  cases happened with
  | idle => exact inv
  | @connect i idle =>
    have fresh (phase : PeerPhase) (other : phase ≠ .running) :
        ((s.openFresh i).setPeer i { s.peers i with conn := some s.made, phase }).Greeted :=
      Greeted.setPeer (s := s.openFresh i) inv fun _ _ running => absurd running other
    simp only [Network.connect]
    split
    · exact fresh .awaiting fun same => by cases same
    · exact Greeted.setPeer (s := s.openFresh i) inv fun c _ running => by
        have waits : (s.peers i).phase = .running := running
        rw [idle] at waits
        cases waits
  | @acknowledge i hook now c f reader next awaiting =>
    refine Greeted.setPeer (s := s.take c) inv fun c' conn running => ?_
    have same : (s.peers i).conn = some c' := conn
    cases same.symm.trans reader
    have first := stamps.awaiting i c reader awaiting
    have connected : ((s.peers i).worker.receiveAck (some f)).2 = .connected := by
      by_contra other
      simp only [Peer.receiveAck, if_neg other] at running
      cases running
    rw [first] at next
    cases wire : s.threads.wire c with
    | nil =>
      rw [wire] at next
      cases next
    | cons g rest =>
      rw [wire] at next
      cases next
      exact ⟨f, rest, wire, connected_type connected⟩
  | @execute i hook now c f reader next running =>
    refine Greeted.setPeer (s := s.take c) inv fun c' conn _ => ?_
    exact inv i c' conn running
  | lose => exact inv.setPeer fun _ _ running => by cases running
  | @shutdown i c writer => exact Greeted.setPeer (s := s) inv fun c' conn running => inv i c' conn running
  | @flag i unconnected => exact inv.setPeer fun c' conn running => inv i c' conn running
  | deliver => exact grows (s.threads.step_wire _)
  | coordinator => exact grows (s.threads.step_wire _)

/-! A refusal has a reason. -/

/-- A result of an attempt issued under the authority as it is has been refused only where the
worker has learned another one. -/
def Unrefused (h : List Happening) (s : Network) : Prop :=
  ∀ r ∈ s.current, ∀ q ∈ readings h, q.attempt = r.attempt → q.accepted = false →
    ∃ a, s.Learned r.conn a ∧ a ≠ s.threads.sys.coord.authority

theorem unrefused_init (cfgs : Nat → WorkerConfig) : Unrefused [] (init cfgs) := by
  intro r current
  cases current

theorem Unrefused.unmoved (inv : Unrefused h s) {new : List Happening}
    (quiet : readings (h ++ new) = readings h) {t : Network} (threads : t.threads = s.threads)
    (current : t.current = s.current) : Unrefused (h ++ new) t := by
  intro r issued q read attempt refused
  rw [current] at issued
  rw [quiet] at read
  obtain ⟨a, learned, other⟩ := inv r issued q read attempt refused
  exact ⟨a, learned.grows ⟨[], by rw [threads, List.append_nil]⟩, by rw [threads]; exact other⟩

/-- What is still current after a step was so before, under the same authority. -/
theorem current_become {t : Threads} (issues : t.sys.issues = s.threads.sys.issues) {r : IssueRecord}
    (h : r ∈ (s.become t).current) :
    r ∈ s.current ∧ t.sys.coord.authority = s.threads.sys.coord.authority := by
  rw [become_current issues] at h
  split at h
  next same => exact ⟨h, same⟩
  next => cases h

theorem Unrefused.deliver (inv : Unrefused h s) (who : Senders cfgs s) (stamps : s.Stamps)
    (targets : Targets cfgs s) (lanes : s.Lanes) {c : ConnId} {letter : Letter} {rest : List Letter}
    (next : s.inbox c = letter :: rest) (now : Nat → Timestamp) :
    Unrefused (h ++ (s.reading c letter).map .read)
      { s.become (s.threads.step (.frame c letter.frame now)) with
        inbox := update s.inbox c rest } := by
  obtain ⟨-, issues, wire⟩ := s.threads.step_frame c letter.frame now
  intro r issued q read attempt refused
  obtain ⟨current, authority⟩ := current_become issues issued
  have found : ∃ a, s.Learned r.conn a ∧ a ≠ s.threads.sys.coord.authority := by
    rw [readings_append_read] at read
    rcases List.mem_append.mp read with old | new
    · exact inv r current q old attempt refused
    · obtain ⟨res, result, rfl⟩ := Option.map_eq_some_iff.mp (Option.mem_toList.mp new)
      obtain ⟨d, warmed, rfl⟩ := Option.map_eq_some_iff.mp result
      cases Letter.eq_of_warmed warmed
      have mem : .answer (.warmed d) ∈ s.inbox c := next ▸ List.mem_cons_self
      have carried : r.attempt ∈ s.lane c := by
        rw [← attempt]
        exact List.mem_append_right _ (List.mem_append_right _
          (List.mem_flatMap.mpr ⟨_, mem, List.mem_singleton_self _⟩))
      have conn := lanes.conn_eq (lanes.current current) carried
      refine ⟨d.result.authority, conn ▸ stamps.results c d mem, fun stamped => ?_⟩
      obtain ⟨accepted, -⟩ := lanes.acceptable who targets next current attempt.symm stamped
      have unaccepted : (s.threads.sys.coord.acceptedAttempt c d.result).isSome = false := refused
      rw [accepted] at unaccepted
      cases unaccepted
  obtain ⟨a, learned, other⟩ := found
  refine ⟨a, learned.grows ⟨[], ?_⟩, ?_⟩
  · rw [List.append_nil]
    exact congrFun wire r.conn
  · intro same
    exact other (same.trans authority)

theorem Unrefused.coordinator (inv : Unrefused h s) (ordered : Ordered h s)
    (commands : s.threads.Commands) {a : ThreadStep} (fresh : ¬ s.Reissues (.coordinator a)) :
    Unrefused h (s.become (s.threads.step a)) := by
  intro r issued q read attempt refused
  have still (old : r ∈ s.current)
      (authority : (s.threads.step a).sys.coord.authority = s.threads.sys.coord.authority) :
      ∃ x, (s.become (s.threads.step a)).Learned r.conn x ∧
        x ≠ (s.threads.step a).sys.coord.authority := by
    obtain ⟨x, learned, other⟩ := inv r old q read attempt refused
    exact ⟨x, learned.grows (s.threads.step_wire a r.conn), by rw [authority]; exact other⟩
  obtain issues | ⟨object, action, preferred, new, rfl, issues, number, -⟩ := s.threads.step_issues a
  · obtain ⟨old, authority⟩ := current_become issues issued
    exact still old authority
  · have current : (s.become (s.threads.step (.reserve object action preferred))).current =
        new :: (if (s.threads.step (.reserve object action preferred)).sys.coord.authority =
          s.threads.sys.coord.authority then s.current else []) := by
      simp [Network.become, issues]
    rw [current] at issued
    rcases List.mem_cons.mp issued with rfl | old
    · -- its number is new, so no result of it has been read
      obtain ⟨past, known, same⟩ := List.mem_map.mp (ordered.reading_issued commands read)
      exact absurd ⟨object, action, preferred, rfl, past, known,
        same.trans (attempt.trans number)⟩ fresh
    · split at old
      next authority => exact still old authority
      next => cases old

theorem Unrefused.step (inv : Unrefused h s) (ordered : Ordered h s) (who : Senders cfgs s)
    (stamps : s.Stamps) (targets : Targets cfgs s) (lanes : s.Lanes) {a : NetStep}
    (fresh : ¬ s.Reissues a) : Unrefused (h ++ s.happens a) (s.step a) := by
  have happened := s.happened_step a
  generalize s.step a = t, s.happens a = new at happened
  cases happened with
  | @connect i =>
    have still : (s.connect i).threads = s.threads ∧ (s.connect i).current = s.current := by
      simp only [Network.connect]
      split <;> exact ⟨rfl, rfl⟩
    exact inv.unmoved (congrArg readings (List.append_nil h)) still.1 still.2
  | idle | acknowledge | lose | shutdown | flag =>
    exact inv.unmoved (congrArg readings (List.append_nil h)) rfl rfl
  | execute => exact inv.unmoved (readings_append_executed h _) rfl rfl
  | deliver next => exact inv.deliver who stamps targets lanes next _
  | coordinator =>
    rw [List.append_nil]
    exact inv.coordinator ordered lanes.commands fresh

/-! Where nothing goes on by itself any more. -/

theorem quiet_free (last : ∀ a, ¬s.Drains a) : s.threads.rolling = none := by
  by_contra held
  exact last _ (.roll held)

theorem quiet_handlers (last : ∀ a, ¬s.Drains a) {c : ConnId} (known : c < s.made) :
    s.threads.handlers c = none := by
  cases pending : s.threads.handlers c with
  | none => rfl
  | some handler =>
    cases made : handler.outgoing with
    | some f => exact absurd (Drains.reply known pending made) (last (.coordinator (.reply c true)))
    | none =>
      cases handler with
      | replying f => cases made
      | acknowledging ack phase =>
        refine absurd (Drains.load known pending ?_) (last _)
        rintro rfl
        cases made

theorem quiet_calls (last : ∀ a, ¬s.Drains a) (commands : s.threads.Commands) :
    s.threads.sys.calls = [] := by
  cases calls : s.threads.sys.calls with
  | nil => rfl
  | cons w rest =>
    have first : s.threads.sys.calls[0]? = some w := by rw [calls]; rfl
    obtain ⟨topic, message, -⟩ := commands.calls 0 w first
    obtain ⟨attempt, conn, phase⟩ := w
    cases phase with
    | reserved =>
      have pending : s.threads.sending 0 = some (conn, topic) := by
        simp only [Threads.sending, first, message]
      exact absurd (Drains.send (s := s) pending) (last (.coordinator (.send 0 true)))
    | sendFailed => exact absurd (Drains.cleanup first rfl (quiet_free last)) (last _)

theorem quiet_inbox (last : ∀ a, ¬s.Drains a) {c : ConnId} (known : c < s.made)
    (up : s.threads.sys.closed c = false) : s.inbox c = [] := by
  cases next : s.inbox c with
  | nil => rfl
  | cons letter rest =>
    have ready : s.threads.ready c letter.frame.takesMutex = true :=
      Threads.ready_iff.mpr ⟨up, quiet_handlers last known, fun _ => quiet_free last⟩
    exact absurd (Drains.deliver known next ready) (last (.deliver c fun _ => 0))

theorem quiet_wire (last : ∀ a, ¬s.Drains a) {i : Nat} {c : ConnId} (known : c < s.made)
    (reader : (s.peers i).conn = some c) (attends : (s.peers i).phase ≠ .idle) :
    (s.threads.wire c).drop (s.taken c) = [] := by
  cases next : (s.threads.wire c)[s.taken c]? with
  | none => exact List.drop_eq_nil_of_le (List.getElem?_eq_none_iff.mp next)
  | some f =>
    exact absurd (Drains.read known reader attends next) (last (.read i (fun _ => {}) fun _ _ => 0))

/-- A current attempt of a worker that is there and knows the authority is not in flight any more. -/
theorem quiet_settled (last : ∀ a, ¬s.Drains a) (who : Senders cfgs s) (lanes : s.Lanes)
    (greeted : s.Greeted) (stamps : s.Stamps) (unrefused : Unrefused h s) (ordered : Ordered h s)
    (placed : Placed h s) {r : IssueRecord} (current : r ∈ s.current) {i : Nat}
    (reader : (s.peers i).conn = some r.conn) (running : (s.peers i).phase = .running)
    (knows : (s.peers i).worker.authority = s.threads.sys.coord.authority)
    (up : s.threads.sys.closed r.conn = false) :
    s.threads.sys.coord.inFlight[r.attempt]? = none := by
  by_contra flies
  obtain ⟨info, flying⟩ := Option.ne_none_iff_exists'.mp flies
  have known := (who.conn i r.conn reader).1
  obtain ⟨r', issued, attempt, -, sent⟩ := placed.dispatched r.attempt info flying
  cases List.inj_on_of_nodup_map lanes.distinct issued (lanes.current current) attempt
  cases placed.whereabouts ordered flying sent with
  | calling call =>
    rw [quiet_calls last lanes.commands] at call
    cases call
  | unread unread =>
    have attends : (s.peers i).phase ≠ .idle := by
      rw [running]
      exact fun same => by cases same
    rw [quiet_wire last known reader attends] at unread
    cases unread
  | @misread f rest first _ carried =>
    obtain ⟨g, rest', greeting, type⟩ := greeted i r.conn reader running
    cases first.symm.trans greeting
    rw [Frame.attempts_of_type (by rw [type]; exact fun same => by cases same)] at carried
    cases carried
  | returning waiting =>
    rw [quiet_inbox last known up] at waiting
    cases waiting
  | @refused q read attempt refused =>
    obtain ⟨a, learned, other⟩ :=
      unrefused r current q (List.mem_filter.mp read).1 attempt refused
    exact other ((learned.unique (stamps.running i r.conn reader running)).trans knows)

end

/-- Where nothing new begins, what goes on by itself comes to an end. -/
theorem drains_end {cfgs : Nat → WorkerConfig} {h : List Happening} {s : Network} (who : Senders cfgs s)
    (ordered : Ordered h s) :
    (∀ more, Runs.Along step Drains s more → more.length ≤ s.work) ∧
      ∃ more, Runs.Along step Drains s more ∧ ∀ a, ¬(Runs.run step s more).Drains a := by
  let I (t : Network) : Prop := Senders cfgs t ∧ ∃ h, Ordered h t
  have start : I s := ⟨who, h, ordered⟩
  have keep (t : Network) (a : NetStep) (inv : I t) : I (t.step a) := by
    obtain ⟨who, h, ordered⟩ := inv
    exact ⟨who.step a, _, ordered.step who a⟩
  have descends (t : Network) (a : NetStep) (m : I t ∧ t.Drains a) : (t.step a).work < t.work := by
    obtain ⟨⟨-, h, ordered⟩, drains⟩ := m
    exact drains.descends ordered.taken
  constructor
  · intro more along
    have both : Runs.Along step (fun t a => I t ∧ t.Drains a) s more :=
      Runs.along_of_invariant (fun t a inv _ => keep t a inv) (fun _ _ inv m => ⟨inv, m⟩) start along
    have few := both.length_le work descends
    omega
  · obtain ⟨more, along, last⟩ := Runs.exists_exhausted work descends s
    have reached : I (Runs.run step s more) :=
      Runs.invariant (fun t a inv _ => keep t a inv) start along
    exact ⟨more, along.imp fun _ _ m => m.2, fun a m => last a ⟨reached, m⟩⟩

/-- When nobody connects, leaves or issues and no authority is raised, the frames and threads that
are under way come to rest after a bounded number of steps, in whatever order they are taken; and
once they have, no attempt issued under the authority as it is is still in flight on an open
connection whose worker is in `run` and has learned that authority. -/
theorem network_settles {cfgs : Nat → WorkerConfig} {steps : List NetStep}
    (fresh : Runs.Along step (fun s a => ¬ s.Reissues a) (init cfgs) steps) :
    let s := Runs.run step (init cfgs) steps
    (∀ more, Runs.Along step Drains s more → more.length ≤ s.work) ∧
      (∃ more, Runs.Along step Drains s more ∧ ∀ a, ¬(Runs.run step s more).Drains a) ∧
      ((∀ a, ¬s.Drains a) → ∀ r ∈ s.current, ∀ i, (s.peers i).conn = some r.conn →
        (s.peers i).phase = .running →
        (s.peers i).worker.authority = s.threads.sys.coord.authority →
        s.threads.sys.closed r.conn = false → s.threads.sys.coord.inFlight[r.attempt]? = none) := by
  intro s
  let I (h : List Happening) (s : Network) : Prop :=
    (Ordered h s ∧ Senders cfgs s ∧ s.threads.Dispatched ∧ Placed h s) ∧
      (s.Lanes ∧ s.Stamps ∧ Targets cfgs s) ∧ s.Greeted ∧ Unrefused h s
  have keep (h : List Happening) (s : Network) (a : NetStep) (inv : I h s) (new : ¬ s.Reissues a) :
      I (h ++ s.happens a) (s.step a) := by
    obtain ⟨⟨ordered, who, dispatched, placed⟩, ⟨lanes, stamps, targets⟩, greeted, unrefused⟩ := inv
    exact ⟨⟨ordered.step who a, who.step a, dispatched_step dispatched new,
        placed.step ordered who dispatched new⟩,
      ⟨lanes.step who new, stamps.step who a, targets.step who a⟩, greeted.step stamps a,
      unrefused.step ordered who stamps targets lanes new⟩
  have start : I [] (init cfgs) :=
    ⟨⟨ordered_init cfgs, senders_init cfgs, Threads.dispatched_init, placed_init cfgs⟩,
      ⟨lanes_init cfgs, stamps_init cfgs, targets_init cfgs⟩, greeted_init cfgs, unrefused_init cfgs⟩
  obtain ⟨⟨ordered, who, -, placed⟩, ⟨lanes, stamps, -⟩, greeted, unrefused⟩ :=
    Runs.emitted_invariant keep start fresh
  obtain ⟨bounded, ends⟩ := drains_end who ordered
  refine ⟨bounded, ends, fun last r current i reader running knows up => ?_⟩
  exact quiet_settled last who lanes greeted stamps unrefused ordered placed current reader running
    knows up

/-- The worker's result has been read, and nothing goes on any more. -/
theorem network_settles_joined :
    let s := Runs.run step (init everyWorker) ((joined ++ warmedBy ⟨0, 9⟩) ++ [delivered])
    (∀ a, ¬s.Drains a) ∧ s.current.map IssueRecord.conn = [0] ∧
      ∀ r ∈ s.current, s.threads.sys.coord.inFlight[r.attempt]? = none := by
  intro s
  obtain ⟨bounded, -, settled⟩ := network_settles not_reissues_joined
  have done : s.work = 0 := by decide +kernel
  have quiet (a : NetStep) : ¬s.Drains a := by
    intro m
    have few : [a].length ≤ s.work := bounded [a] ⟨m, trivial⟩
    rw [done] at few
    cases few
  have issued : s.current.map IssueRecord.conn = [0] := by decide +kernel
  refine ⟨quiet, issued, fun r current => ?_⟩
  have conn : r.conn = 0 := by
    have mem := List.mem_map_of_mem (f := IssueRecord.conn) current
    rw [issued] at mem
    exact List.mem_singleton.mp mem
  have reader : (s.peers 0).conn = some r.conn := by
    rw [conn]
    decide +kernel
  have up : s.threads.sys.closed r.conn = false := by
    rw [conn]
    decide +kernel
  exact settled quiet r current 0 reader (by decide +kernel) (by decide +kernel) up

end Network

end Warmth
