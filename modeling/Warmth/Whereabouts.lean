import Warmth.Dispatches
import Warmth.JustifiedReadiness

namespace Warmth

open Codec Std TreeMaps

namespace Threads

open Function

section
variable {s t : Threads} {c : ConnId} {b : AttemptId}

theorem dispatches_mono (h : b ∈ s.dispatches c)
    (calls : b ∈ callAttempts s.sys.calls c → b ∈ t.dispatches c)
    (wire : s.wire c ⊆ t.wire c) : b ∈ t.dispatches c := by
  rcases List.mem_append.mp h with call | sent
  · exact calls call
  · obtain ⟨f, hf, carried⟩ := List.mem_flatMap.mp sent
    exact List.mem_append_right _ (List.mem_flatMap.mpr ⟨f, wire hf, carried⟩)

theorem wire_subset_put (s : Threads) (cs : ConnId) (f : Frame) (sent : Bool) (c : ConnId) :
    s.wire c ⊆ (s.put cs f sent).wire c := by
  unfold put
  split
  · by_cases hc : c = cs
    · subst hc
      simp only [update_self]
      exact List.subset_append_left _ _
    · simp only [update_of_ne hc]
      exact List.Subset.refl _
  · exact List.Subset.refl _

/-- A dispatched attempt stays dispatched until its failed send has been cleaned up or all attempts
are rolled back, and then it is not in flight any more. -/
theorem Acted.dispatched {a : ThreadStep} (acted : s.Acted a t)
    (unframed : ∀ cs f now, a ≠ .frame cs f now) (inv : s.Commands) (h : b ∈ s.dispatches c) :
    b ∈ t.dispatches c ∨ t.sys.coord.inFlight[b]? = none := by
  cases acted with
  | idle | load | storeEpoch | storeWarmth | bumpWarmth | bumpDependency => exact Or.inl h
  | receive => exact absurd rfl (unframed _ _ _)
  | @reply cs sent hd f =>
    refine Or.inl (dispatches_mono h (fun call => List.mem_append_left _ ?_)
      (s.wire_subset_put cs f _ c))
    unfold put
    split <;> exact call
  | @disconnect cs now =>
    have calls : (s.sys.step (.disconnect cs now)).calls = s.sys.calls := by
      simp only [System.step]
      split <;> rfl
    refine Or.inl (dispatches_mono h (fun call => List.mem_append_left _ ?_) (List.Subset.refl _))
    rw [calls]
    exact call
  | @refuse object action preferred free refused =>
    have calls : (s.sys.step (.reserve object action preferred)).calls = s.sys.calls := by
      simp only [System.step]
      rcases hi : s.sys.coord.issueWarm object action preferred with ⟨c', i⟩
      rw [hi] at refused
      cases refused
      rfl
    refine Or.inl (dispatches_mono h (fun call => List.mem_append_left _ ?_) (List.Subset.refl _))
    rw [calls]
    exact call
  | @issue object action preferred i free issued =>
    rcases hi : s.sys.coord.issueWarm object action preferred with ⟨c', i'⟩
    have calls : (s.sys.step (.reserve object action preferred)).calls =
        (s.sys.issue c' i).calls := by
      simp only [System.step]
      rw [hi] at issued ⊢
      cases issued
      rfl
    refine Or.inl (dispatches_mono h (fun call => List.mem_append_left _ ?_) (List.Subset.refl _))
    rw [calls]
    change b ∈ callAttempts (⟨i.attempt, i.target, .reserved⟩ :: s.sys.calls) c
    rw [callAttempts_cons]
    exact List.mem_append_right _ call
  | @send call sent conn topic pending =>
    obtain ⟨attempt, pending, message⟩ := sending_some pending
    refine Or.inl (dispatches_mono h (fun mem => ?_) (s.wire_subset_put conn _ _ c))
    have calls (out : Bool) : (s.sys.step (.send call out)).calls =
        if out then s.sys.calls.eraseIdx call else s.sys.calls.set call ⟨attempt, conn, .sendFailed⟩ := by
      simp only [System.step, pending]
    cases out : sent with
    | false =>
      refine List.mem_append_left _ ?_
      change b ∈ callAttempts (s.sys.step (.send call false)).calls c
      rw [calls, if_neg Bool.false_ne_true]
      exact (callAttempts_set pending c).mem_iff.mpr mem
    | true =>
      rcases List.mem_append.mp ((callAttempts_perm pending c).mem_iff.mp mem) with own | other
      · split at own
        next same =>
          cases List.mem_singleton.mp own
          subst same
          obtain ⟨topic', message', cmd, r, one, number, -⟩ := inv.calls call _ pending
          cases message.symm.trans message'
          have carried : attempt ∈ (topicFrame topic).attempts := by
            rw [topicFrame_attempts one, number]
            exact List.mem_singleton_self _
          refine List.mem_append_right _ (List.mem_flatMap.mpr ⟨topicFrame topic, ?_, carried⟩)
          simp [put]
        next => exact absurd own List.not_mem_nil
      · refine List.mem_append_left _ ?_
        change b ∈ callAttempts (s.sys.step (.send call true)).calls c
        rw [calls, if_pos rfl]
        exact other
  | @cleanup call w pending failed free =>
    obtain ⟨attempt, conn, phase⟩ := w
    cases failed
    have next : s.sys.step (.cleanup call) =
        { s.sys with calls := s.sys.calls.eraseIdx call }.after (s.sys.coord.cleanup attempt) := by
      simp only [System.step, pending]
    have gone : (s.sys.step (.cleanup call)).coord.inFlight[attempt]? = none := by
      simp only [next, System.after, Coordinator.cleanup]
      split
      next missing => exact missing
      next => exact ExtTreeMap.getElem?_erase_self
    by_cases same : b = attempt
    · subst same
      exact Or.inr gone
    · refine Or.inl (dispatches_mono h (fun mem => List.mem_append_left _ ?_) (List.Subset.refl _))
      have calls : (s.sys.step (.cleanup call)).calls = s.sys.calls.eraseIdx call := by
        rw [next]
        rfl
      rw [calls]
      rcases List.mem_append.mp ((callAttempts_perm pending c).mem_iff.mp mem) with own | other
      · split at own
        · exact absurd (List.mem_singleton.mp own) same
        · exact absurd own List.not_mem_nil
      · exact other
  | rollEpoch => exact Or.inr ExtTreeMap.getElem?_empty

theorem Commands.dispatched (inv : s.Commands) {a : ThreadStep}
    (unframed : ∀ cs f now, a ≠ .frame cs f now) (h : b ∈ s.dispatches c) :
    b ∈ (s.step a).dispatches c ∨ (s.step a).sys.coord.inFlight[b]? = none := by
  have kept := (acted_act s a).dispatched unframed inv h
  simp only [Threads.step, dispatches, note_sys, note_wire] at kept ⊢
  exact kept

/-- Attempts come in flight when they are issued and at no other time. -/
theorem step_inFlight (s : Threads) {a : ThreadStep} (unframed : ∀ cs f now, a ≠ .frame cs f now)
    {info : AttemptInfo} (h : (s.step a).sys.coord.inFlight[b]? = some info) :
    s.sys.coord.inFlight[b]? = some info ∨
      ∃ r, (s.step a).sys.issues = r :: s.sys.issues ∧ r.attempt = b ∧ r.info = info ∧
        b ∈ (s.step a).dispatches r.conn := by
  rcases s.step_sys unframed with same | ⟨b', -, -, same⟩
  · rw [same] at h
    exact Or.inl h
  · by_cases reserve : ∃ object action preferred, b' = .reserve object action preferred
    · obtain ⟨object, action, preferred, rfl⟩ := reserve
      rcases s.sys.step_reserve object action preferred with ⟨-, -, kept⟩ | ⟨r, -, -, -, -, issues, calls, added⟩
      · rw [same, kept] at h
        exact Or.inl h
      · by_cases new : b = r.attempt
        · subst new
          have entry : r.info = info := by
            rw [same, added, ExtTreeMap.getElem?_insert_self] at h
            exact Option.some.inj h
          refine Or.inr ⟨r, by rw [same, issues], rfl, entry, List.mem_append_left _ ?_⟩
          rw [same, calls, callAttempts_cons, if_pos rfl]
          exact List.mem_append_left _ (List.mem_singleton_self _)
        · rw [same, added, getElem?_insert_of_ne new] at h
          exact Or.inl h
    · have other : ∀ o act p, b' ≠ .reserve o act p := fun o act p hb => reserve ⟨o, act, p, hb⟩
      rw [same] at h
      exact Or.inl ((System.step_inFlight other).2 b info h)

end

end Threads

namespace Network

open Function

/-- Where the command of an attempt issued to the connection has got to, or what came of it. -/
inductive Whereabouts (h : List Happening) (s : Network) (c : ConnId) (a : AttemptId) : Prop
  | calling (call : a ∈ callAttempts s.threads.sys.calls c)
  | unread (sent : a ∈ ((s.threads.wire c).drop (s.taken c)).flatMap Frame.attempts)
  | misread {f : Frame} {rest : List Frame} (first : s.threads.wire c = f :: rest)
      (taken : 0 < s.taken c) (carried : a ∈ f.attempts)
  | returning {res : WarmResult} (waiting : res ∈ (s.inbox c).filterMap Letter.result?)
      (attempt : ⟨res.attempt⟩ = a)
  | refused {r : Reading} (read : r ∈ readingsOn h c) (attempt : r.attempt = a)
      (refused : r.accepted = false)

/-- The attempts in flight against what was dispatched and what was read. -/
structure Placed (h : List Happening) (s : Network) : Prop where
  dispatched : ∀ (a : AttemptId) info, s.threads.sys.coord.inFlight[a]? = some info →
    ∃ r ∈ s.threads.sys.issues, r.attempt = a ∧ r.info = info ∧ a ∈ s.threads.dispatches r.conn
  settled : ∀ r ∈ readings h, r.accepted = true → s.threads.sys.coord.inFlight[r.attempt]? = none

theorem placed_init (cfgs : Nat → WorkerConfig) : Placed [] (init cfgs) := by
  refine ⟨fun a info found => ?_, fun r read => absurd read List.not_mem_nil⟩
  have none : (init cfgs).threads.sys.coord.inFlight[a]? = none := ExtTreeMap.getElem?_empty
  cases none.symm.trans found

section
variable {cfgs : Nat → WorkerConfig} {h : List Happening} {s : Network}

theorem Ordered.reading_issued (inv : Ordered h s) (commands : s.threads.Commands) {r : Reading}
    (read : r ∈ readings h) : r.attempt ∈ s.threads.sys.issues.map IssueRecord.attempt := by
  have here : r ∈ readingsOn h r.conn := List.mem_filter.mpr ⟨read, beq_self_eq_true _⟩
  have mem := (inv.read_sublist r.conn).subset (List.mem_map_of_mem here)
  obtain ⟨e, he, same⟩ := List.mem_map.mp mem
  obtain ⟨i, known, -, attempt, -⟩ := inv.issued commands (List.mem_filter.mp he).1
  rw [← same, ← attempt]
  exact List.mem_map_of_mem known

/-- Once its result has been accepted an attempt is not in flight any more. -/
theorem deliver_settles {c : ConnId} {letter : Letter} {rest : List Letter} {res : WarmResult}
    (next : s.inbox c = letter :: rest)
    (ready : s.threads.ready c letter.frame.takesMutex = true) (type : letter.frame.type = .warmResult)
    (decoded : decodePayload decodeWarmResult letter.frame.payload = some res)
    (accepted : (s.threads.sys.coord.acceptedAttempt c res).isSome = true) (now : Nat → Timestamp) :
    (s.threads.step (.frame c letter.frame now)).sys.coord.inFlight[(⟨res.attempt⟩ : AttemptId)]? =
      none := by
  obtain ⟨info, taken⟩ := Option.isSome_iff_exists.mp accepted
  have mutex : letter.frame.takesMutex = true := by simp [Frame.takesMutex, type, decoded]
  have after := deliver_result next (mutex ▸ ready) type decoded now
  have moved : (s.step (.deliver c now)).threads = s.threads.step (.frame c letter.frame now) := by
    simp only [Network.step, next, ready, if_true]
    rfl
  rw [moved] at after
  rw [after]
  simp only [Coordinator.handleWarmResult, taken, Coordinator.acceptResult, Coordinator.settle]
  rw [Coordinator.applyResult_frame]
  exact ExtTreeMap.getElem?_erase_self

theorem Placed.deliver (inv : Placed h s) (who : Senders cfgs s) {c : ConnId} {letter : Letter}
    {rest : List Letter} (next : s.inbox c = letter :: rest)
    (ready : s.threads.ready c letter.frame.takesMutex = true) (now : Nat → Timestamp) :
    Placed (h ++ (s.reading c letter).map .read)
      { s.become (s.threads.step (.frame c letter.frame now)) with
        inbox := update s.inbox c rest } := by
  obtain ⟨calls, issues, wire⟩ := s.threads.step_frame c letter.frame now
  have fewer (a : AttemptId) (info : AttemptInfo)
      (found : (s.threads.step (.frame c letter.frame now)).sys.coord.inFlight[a]? = some info) :
      s.threads.sys.coord.inFlight[a]? = some info := by
    rcases s.threads.step_frame_inFlight c letter.frame now with same | ⟨res, -, -, same⟩
    · rw [same] at found
      exact found
    · rw [same] at found
      exact (getElem?_erase_some found).2
  refine ⟨fun a info found => ?_, fun r read accepted => ?_⟩
  · obtain ⟨r, known, attempt, entry, sent⟩ := inv.dispatched a info (fewer a info found)
    refine ⟨r, issues ▸ known, attempt, entry, ?_⟩
    simp only [Network.become, Threads.dispatches, calls, wire]
    exact sent
  · have gone {a : AttemptId} (before : s.threads.sys.coord.inFlight[a]? = none) :
        (s.threads.step (.frame c letter.frame now)).sys.coord.inFlight[a]? = none := by
      by_contra still
      obtain ⟨info, found⟩ := Option.ne_none_iff_exists'.mp still
      cases before.symm.trans (fewer a info found)
    rw [readings_append_read] at read
    rcases List.mem_append.mp read with old | new
    · exact gone (inv.settled r old accepted)
    · obtain ⟨res, result, rfl⟩ := Option.map_eq_some_iff.mp (Option.mem_toList.mp new)
      obtain ⟨d, warmed, rfl⟩ := Option.map_eq_some_iff.mp result
      cases Letter.eq_of_warmed warmed
      have mem : .answer (.warmed d) ∈ s.inbox c := next ▸ List.mem_cons_self
      exact deliver_settles next ready rfl (who.decoded mem) accepted now

theorem Placed.coordinator (inv : Placed h s) (ordered : Ordered h s) (dispatched : s.threads.Dispatched)
    {a : ThreadStep} (unframed : ∀ cs f now, a ≠ .frame cs f now)
    (fresh : ¬ s.Reissues (.coordinator a)) : Placed h (s.become (s.threads.step a)) := by
  have known {r : IssueRecord} (old : r ∈ s.threads.sys.issues) :
      r ∈ (s.threads.step a).sys.issues := (s.threads.step_ticketStep unframed).issues_subset old
  refine ⟨fun b info found => ?_, fun r read accepted => ?_⟩
  · rcases s.threads.step_inFlight unframed found with before | ⟨r, issues, attempt, entry, sent⟩
    · obtain ⟨r, issued, attempt, entry, sent⟩ := inv.dispatched b info before
      rcases dispatched.commands.dispatched unframed sent with still | gone
      · exact ⟨r, known issued, attempt, entry, still⟩
      · cases gone.symm.trans found
    · exact ⟨r, issues ▸ List.mem_cons_self, attempt, entry, sent⟩
  · by_contra still
    obtain ⟨info, found⟩ := Option.ne_none_iff_exists'.mp still
    rcases s.threads.step_inFlight unframed found with before | ⟨r', issues, attempt, -⟩
    · cases (inv.settled r read accepted).symm.trans before
    · obtain same | ⟨object, action, preferred, new, rfl, issues', number, -⟩ := s.threads.step_issues a
      · exact List.cons_ne_self _ _ (issues.symm.trans same)
      · cases issues.symm.trans issues'
        obtain ⟨old, past, same⟩ := List.mem_map.mp (ordered.reading_issued dispatched.commands read)
        exact fresh ⟨object, action, preferred, rfl, old, past, same.trans (attempt.symm.trans number)⟩

theorem Placed.unmoved (inv : Placed h s) {new : List Happening}
    (quiet : readings (h ++ new) = readings h) {t : Network} (threads : t.threads = s.threads) :
    Placed (h ++ new) t := by
  refine ⟨?_, ?_⟩
  · rw [threads]
    exact inv.dispatched
  · rw [threads, quiet]
    exact inv.settled

theorem Placed.step (inv : Placed h s) (ordered : Ordered h s) (who : Senders cfgs s)
    (dispatched : s.threads.Dispatched) {a : NetStep} (fresh : ¬ s.Reissues a) :
    Placed (h ++ s.happens a) (s.step a) := by
  have happened := s.happened_step a
  generalize s.step a = t, s.happens a = new at happened
  cases happened with
  | @connect i =>
    refine inv.unmoved (congrArg readings (List.append_nil h)) ?_
    simp only [Network.connect]
    split <;> rfl
  | idle | acknowledge | lose | shutdown | flag =>
    refine inv.unmoved (congrArg readings (List.append_nil h)) ?_
    rfl
  | execute =>
    refine inv.unmoved (readings_append_executed h _) ?_
    rfl
  | deliver next ready => exact inv.deliver who next ready _
  | coordinator unframed =>
    rw [List.append_nil]
    exact inv.coordinator ordered dispatched unframed fresh

/-- What has been run is on its way back, or has been read. -/
theorem Placed.ran (inv : Placed h s) (ordered : Ordered h s) {e : Execution} {info : AttemptInfo}
    (flying : s.threads.sys.coord.inFlight[e.attempt]? = some info) (mem : e ∈ executionsOn h e.conn) :
    Whereabouts h s e.conn e.attempt := by
  have result : e.result ∈ (executionsOn h e.conn).map Execution.result := List.mem_map_of_mem mem
  have attempt : (⟨e.result.attempt⟩ : AttemptId) = e.attempt := congrArg BasicGeneration.mk e.answers
  rw [ordered.results e.conn] at result
  rcases List.mem_append.mp result with read | waiting
  · obtain ⟨r, hr, same⟩ := List.mem_map.mp read
    have mine : r.attempt = e.attempt := by rw [← attempt, ← same, Reading.attempt]
    refine .refused hr mine (Bool.eq_false_iff.mpr fun accepted => ?_)
    have gone := inv.settled r (List.mem_filter.mp hr).1 accepted
    rw [mine] at gone
    cases gone.symm.trans flying
  · exact .returning waiting attempt

/-- What was dispatched on a connection is with its call, on the wire, or has come to the worker. -/
theorem Placed.whereabouts (inv : Placed h s) (ordered : Ordered h s) {c : ConnId} {a : AttemptId}
    {info : AttemptInfo} (flying : s.threads.sys.coord.inFlight[a]? = some info)
    (sent : a ∈ s.threads.dispatches c) : Whereabouts h s c a := by
  rcases List.mem_append.mp sent with call | written
  · exact .calling call
  · rw [← List.take_append_drop (s.taken c) (s.threads.wire c), List.flatMap_append] at written
    rcases List.mem_append.mp written with taken | unread
    · cases first : (s.threads.wire c).take (s.taken c) with
      | nil =>
        rw [first] at taken
        exact absurd taken List.not_mem_nil
      | cons f rest =>
        have ran := ordered.commands c
        rw [first, List.flatMap_cons] at taken
        rw [first, List.tail_cons] at ran
        rcases List.mem_append.mp taken with head | later
        · have whole := List.take_append_drop (s.taken c) (s.threads.wire c)
          rw [first, List.cons_append] at whole
          refine .misread whole.symm (Nat.pos_of_ne_zero fun none => ?_) head
          rw [none, List.take_zero] at first
          cases first
        · obtain ⟨g, hg, carried⟩ := List.mem_flatMap.mp later
          rw [g.attempts_eq] at carried
          obtain ⟨cmd, hc, rfl⟩ := List.mem_map.mp carried
          have command : cmd ∈ rest.flatMap Frame.commands := List.mem_flatMap.mpr ⟨g, hg, hc⟩
          rw [← ran] at command
          obtain ⟨e, he, rfl⟩ := List.mem_map.mp command
          cases beq_iff_eq.mp (List.mem_filter.mp he).2
          exact inv.ran ordered flying he
    · exact .unread unread

end

/-- No attempt is lost sight of: one that is in flight was issued, and its command is still with the
call that sends it, on the wire, or was read in place of an acknowledgement, or its result is on its
way back, or has been read and refused. -/
theorem attempts_accounted_for {cfgs : Nat → WorkerConfig} {steps : List NetStep}
    (fresh : Runs.Along step (fun s a => ¬ s.Reissues a) (init cfgs) steps) (a : AttemptId)
    (info : AttemptInfo) :
    let s := Runs.run step (init cfgs) steps
    s.threads.sys.coord.inFlight[a]? = some info →
      ∃ r ∈ s.threads.sys.issues, r.attempt = a ∧ r.info = info ∧
        Whereabouts (history cfgs steps) s r.conn a := by
  intro s flying
  let I (h : List Happening) (s : Network) : Prop :=
    Ordered h s ∧ Senders cfgs s ∧ s.threads.Dispatched ∧ Placed h s
  have keep (h : List Happening) (s : Network) (a : NetStep) (inv : I h s) (new : ¬ s.Reissues a) :
      I (h ++ s.happens a) (s.step a) := by
    obtain ⟨ordered, who, dispatched, placed⟩ := inv
    exact ⟨ordered.step who a, who.step a, dispatched_step dispatched new,
      placed.step ordered who dispatched new⟩
  have start : I [] (init cfgs) :=
    ⟨ordered_init cfgs, senders_init cfgs, Threads.dispatched_init, placed_init cfgs⟩
  obtain ⟨ordered, -, -, placed⟩ := Runs.emitted_invariant keep start fresh
  obtain ⟨r, known, attempt, entry, sent⟩ := placed.dispatched a info flying
  exact ⟨r, known, attempt, entry, placed.whereabouts ordered flying sent⟩

theorem attempts_accounted_for_joined :
    let s := Runs.run step (init everyWorker) (joined ++ warmedBy ⟨0, 9⟩)
    ∃ r ∈ s.threads.sys.issues, r.attempt = ⟨1⟩ ∧
      Whereabouts (history everyWorker (joined ++ warmedBy ⟨0, 9⟩)) s r.conn ⟨1⟩ := by
  intro s
  have flying : s.threads.sys.coord.inFlight[(⟨1⟩ : AttemptId)]?.isSome = true := by decide +kernel
  obtain ⟨info, found⟩ := Option.isSome_iff_exists.mp flying
  have fresh := ((Runs.along_append _ _).mp not_reissues_joined).1
  obtain ⟨r, known, attempt, -, place⟩ := attempts_accounted_for fresh ⟨1⟩ info found
  exact ⟨r, known, attempt, place⟩

end Network

end Warmth
