import Mathlib.Data.List.Flatten
import Warmth.CurrentResults
import Warmth.Executions

namespace Warmth

open Codec Std

/-- Entries that agree under `f` fall in one class, and in every class no two agree. -/
theorem nodup_map_of_classes {α β κ : Type} [DecidableEq κ] (f : α → β) (key : α → κ) (xs : List α)
    (each : ∀ k, ((xs.filter fun x => key x == k).map f).Nodup)
    (apart : ∀ x ∈ xs, ∀ y ∈ xs, f x = f y → key x = key y) : (xs.map f).Nodup := by
  induction xs with
  | nil => exact List.nodup_nil
  | cons x xs ih =>
    have rest (k : κ) : ((xs.filter fun y => key y == k).map f).Nodup :=
      (each k).sublist (((List.sublist_cons_self x xs).filter _).map f)
    have later := ih rest fun y hy z hz =>
      apart y (List.mem_cons_of_mem x hy) z (List.mem_cons_of_mem x hz)
    refine List.nodup_cons.mpr ⟨fun again => ?_, later⟩
    obtain ⟨y, hy, same⟩ := List.mem_map.mp again
    have class_eq := apart x List.mem_cons_self y (List.mem_cons_of_mem x hy) same.symm
    have own := each (key x)
    rw [List.filter_cons_of_pos (p := fun y => key y == key x) (beq_self_eq_true _), List.map_cons] at own
    refine (List.nodup_cons.mp own).1 (same ▸ List.mem_map_of_mem ?_)
    exact List.mem_filter.mpr ⟨hy, beq_iff_eq.mpr class_eq.symm⟩

namespace Threads

/-- The attempts whose commands are to be written on the connection or have been. -/
def dispatches (s : Threads) (c : ConnId) : List AttemptId :=
  callAttempts s.sys.calls c ++ (s.wire c).flatMap Frame.attempts

/-- No attempt is dispatched twice. -/
structure Dispatched (s : Threads) : Prop where
  commands : s.Commands
  once : ∀ c, (s.dispatches c).Nodup
  distinct : (s.sys.issues.map IssueRecord.attempt).Nodup

theorem dispatched_init : init.Dispatched :=
  ⟨commands_init, fun _ => List.nodup_nil, List.nodup_nil⟩

theorem Commands.issued {s : Threads} (inv : s.Commands) {c : ConnId} {a : AttemptId}
    (h : a ∈ s.dispatches c) : ∃ r ∈ s.sys.issues, r.conn = c ∧ r.attempt = a := by
  rcases List.mem_append.mp h with call | sent
  · obtain ⟨w, hw, rfl⟩ := List.mem_map.mp call
    obtain ⟨mem, conn⟩ := List.mem_filter.mp hw
    obtain ⟨k, hk⟩ := List.mem_iff_getElem?.mp mem
    obtain ⟨t, -, cmd, r, -, -, issued, own, attempt, -⟩ := inv.calls k w hk
    exact ⟨r, issued, own.trans (beq_iff_eq.mp conn), attempt⟩
  · obtain ⟨f, hf, ha⟩ := List.mem_flatMap.mp sent
    have type : f.type = .warmTopic := by
      by_contra other
      rw [Frame.attempts_of_type other] at ha
      cases ha
    obtain ⟨t, b, rfl, cmd, r, one, attempt, issued, own, same, -⟩ := inv.wire c f hf type
    rw [topicFrame_attempts one, List.mem_singleton] at ha
    exact ⟨r, issued, own, by rw [same, ha, attempt]⟩

section
variable {s t : Threads}

/-- What a step other than a frame does to the attempts dispatched on a connection. -/
theorem TicketStep.dispatches (step : s.TicketStep t) (inv : s.Commands) (c : ConnId) :
    (t.dispatches c).Subperm (s.dispatches c) ∨
      ∃ r, t.sys.issues = r :: s.sys.issues ∧ t.dispatches c =
        (if r.conn = c then [r.attempt] else []) ++ s.dispatches c := by
  cases step with
  | quiet calls topics issues inFlight authority wire =>
    refine Or.inl (List.Perm.of_eq ?_).subperm
    obtain same | ⟨f, same, h, pending, made⟩ := wire c
    · rw [Threads.dispatches, calls, same, Threads.dispatches]
    · have quiet : f.attempts = [] := Frame.attempts_of_type (inv.outgoing pending made)
      rw [Threads.dispatches, calls, same, List.flatMap_append, Threads.dispatches]
      simp [quiet]
  | raise calls topics issues wire =>
    refine Or.inl (List.Perm.of_eq ?_).subperm
    rw [Threads.dispatches, calls, wire, Threads.dispatches]
  | @issue r topic calls topics issues inFlight authority wire =>
    refine Or.inr ⟨r, issues, ?_⟩
    rw [Threads.dispatches, calls, wire, callAttempts_cons, List.append_assoc, Threads.dispatches]
  | @sent call attempt conn topic pending message calls topics issues inFlight authority wire =>
    refine Or.inl (List.Perm.symm ?_).subperm
    have before := (callAttempts_perm pending c).append_right ((s.wire c).flatMap Frame.attempts)
    refine before.trans ?_
    rw [Threads.dispatches, calls, wire]
    by_cases hc : c = conn
    · subst hc
      obtain ⟨topic', message', cmd, r, one, same, -⟩ := inv.calls call _ pending
      cases message.symm.trans message'
      have carried : (topicFrame topic).attempts = [attempt] := by
        rw [topicFrame_attempts one, same]
      rw [if_pos rfl, Function.update_self, List.flatMap_append, List.flatMap_singleton, carried,
        List.append_assoc, ← List.append_assoc (callAttempts _ _)]
      exact List.perm_append_comm
    · rw [if_neg (Ne.symm hc), Function.update_of_ne hc]
      exact List.Perm.refl _
  | @unsent call attempt conn pending calls topics issues inFlight authority wire =>
    refine Or.inl (List.Perm.subperm ?_)
    rw [Threads.dispatches, calls, wire]
    exact (callAttempts_set pending c).append_right _
  | @cleanup call w pending calls topics issues inFlight authority wire =>
    refine Or.inl ?_
    have before := (callAttempts_perm pending c).append_right ((s.wire c).flatMap Frame.attempts)
    have left : (t.dispatches c).Sublist
        ((if w.conn = c then [w.attempt] else []) ++ callAttempts (s.sys.calls.eraseIdx call) c ++
          (s.wire c).flatMap Frame.attempts) := by
      rw [Threads.dispatches, calls, wire, List.append_assoc]
      exact List.sublist_append_right _ _
    exact left.subperm.trans before.symm.subperm

theorem Dispatched.keep (inv : s.Dispatched) (commands : t.Commands)
    (same : t.sys.issues = s.sys.issues) (fewer : ∀ c, (t.dispatches c).Subperm (s.dispatches c)) :
    t.Dispatched := by
  refine ⟨commands, fun c => ?_, same ▸ inv.distinct⟩
  obtain ⟨l, perm, sub⟩ := fewer c
  exact perm.nodup_iff.mp ((inv.once c).sublist sub)

theorem Dispatched.step (inv : s.Dispatched) {a : ThreadStep}
    (fresh : ∀ r, (s.step a).sys.issues = r :: s.sys.issues →
      r.attempt ∉ s.sys.issues.map IssueRecord.attempt) : (s.step a).Dispatched := by
  have commands := inv.commands.step a
  by_cases framed : ∃ cs f now, a = .frame cs f now
  · obtain ⟨cs, f, now, rfl⟩ := framed
    obtain ⟨calls, issues, wire⟩ := s.step_frame cs f now
    refine inv.keep commands issues fun c => ?_
    rw [dispatches, calls, wire, ← dispatches]
  · have other : ∀ cs f now, a ≠ .frame cs f now := fun cs f now same => framed ⟨cs, f, now, same⟩
    have step := s.step_ticketStep other
    by_cases more : ∃ r, (s.step a).sys.issues = r :: s.sys.issues
    · obtain ⟨r, issues⟩ := more
      have unused := fresh r issues
      refine ⟨commands, fun c => ?_, ?_⟩
      · obtain ⟨l, perm, sub⟩ | ⟨r', issues', new⟩ := step.dispatches inv.commands c
        · exact perm.nodup_iff.mp ((inv.once c).sublist sub)
        · cases issues.symm.trans issues'
          rw [new]
          split
          · refine List.nodup_cons.mpr ⟨fun known => ?_, inv.once c⟩
            obtain ⟨old, issued, -, same⟩ := inv.commands.issued known
            exact unused (same ▸ List.mem_map_of_mem issued)
          · exact inv.once c
      · rw [issues]
        exact List.nodup_cons.mpr ⟨unused, inv.distinct⟩
    · have same : (s.step a).sys.issues = s.sys.issues := by
        obtain same | ⟨_, _, _, r, -, issues, -⟩ := s.step_issues a
        · exact same
        · exact absurd ⟨r, issues⟩ more
      refine inv.keep commands same fun c => ?_
      obtain fewer | ⟨r, issues, -⟩ := step.dispatches inv.commands c
      · exact fewer
      · exact absurd ⟨r, issues⟩ more

end

end Threads

namespace Network

theorem dispatched_step {s : Network} (inv : s.threads.Dispatched) {a : NetStep}
    (fresh : ¬ s.Reissues a) : (s.step a).threads.Dispatched := by
  have went := s.went_step a
  generalize s.step a = t at went
  cases went with
  | connect =>
    simp only [Network.connect]
    split <;> exact inv
  | read =>
    unfold Network.receive
    split <;> exact inv
  | idle | lose | shutdown | flag => exact inv
  | @deliver c now letter =>
    refine inv.step (a := .frame c letter.frame now) fun r issued => ?_
    have none := (s.threads.step_frame c letter.frame now).2.1
    exact absurd (issued.symm.trans none) (List.cons_ne_self _ _)
  | @coordinator a =>
    refine inv.step (a := a) fun r issued mem => ?_
    obtain same | ⟨object, action, preferred, r', rfl, issued', number, -⟩ := s.threads.step_issues a
    · exact List.cons_ne_self _ _ (issued.symm.trans same)
    · cases issued.symm.trans issued'
      obtain ⟨old, known, same⟩ := List.mem_map.mp mem
      exact fresh ⟨object, action, preferred, rfl, old, known, same.trans number⟩

section
variable {h : List Happening} {s : Network}

/-- What is run on a connection was issued to it. -/
theorem Ordered.issued (inv : Ordered h s) (commands : s.threads.Commands) {e : Execution}
    (ran : e ∈ executions h) : ∃ r ∈ s.threads.sys.issues, r.conn = e.conn ∧
      r.attempt = e.attempt ∧ r.info.object = e.cmd.object := by
  have here : e ∈ executionsOn h e.conn := List.mem_filter.mpr ⟨ran, beq_self_eq_true _⟩
  have sent : e.cmd ∈ ((s.threads.wire e.conn).take (s.taken e.conn)).tail.flatMap Frame.commands :=
    inv.commands e.conn ▸ List.mem_map_of_mem here
  obtain ⟨f, hf, carried⟩ := List.mem_flatMap.mp sent
  have written : f ∈ s.threads.wire e.conn := List.mem_of_mem_take (List.mem_of_mem_tail hf)
  have type : f.type = .warmTopic := by
    by_contra other
    rw [Frame.commands_of_type other] at carried
    cases carried
  obtain ⟨t, a, rfl, cmd, r, one, attempt, known, own, same, object⟩ :=
    commands.wire e.conn f written type
  have decoded := decodePayload_of_reads (reads_warmTopic (t := t) (by simp [one]))
  have only : (topicFrame t).commands = [cmd] := by
    simp [Frame.commands, topicFrame, decoded, one]
  rw [only, List.mem_singleton] at carried
  refine ⟨r, known, own, ?_, by rw [object, carried]⟩
  rw [same, Execution.attempt, carried, attempt]

theorem Ordered.executed_sublist (inv : Ordered h s) (c : ConnId) :
    ((executionsOn h c).map Execution.attempt).Sublist (s.threads.dispatches c) := by
  have attempts : (executionsOn h c).map Execution.attempt =
      ((executionsOn h c).map Execution.cmd).map fun cmd => ⟨cmd.attempt⟩ := by
    rw [List.map_map]
    rfl
  have carried (fs : List Frame) : (fs.flatMap Frame.commands).map (fun cmd => ⟨cmd.attempt⟩) =
      fs.flatMap Frame.attempts := by
    rw [List.map_flatMap]
    exact List.flatMap_congr fun f _ => f.attempts_eq.symm
  rw [attempts, inv.commands, carried]
  have part : ((s.threads.wire c).take (s.taken c)).tail.Sublist (s.threads.wire c) :=
    (List.tail_sublist _).trans (List.take_sublist _ _)
  exact (part.flatMap _).trans (List.sublist_append_right _ _)

theorem Ordered.read_sublist (inv : Ordered h s) (c : ConnId) :
    ((readingsOn h c).map Reading.attempt).Sublist ((executionsOn h c).map Execution.attempt) := by
  have results := congrArg (List.map fun res : WarmResult => (⟨res.attempt⟩ : AttemptId))
    (inv.results c)
  rw [List.map_append, List.map_map, List.map_map] at results
  have same : (executionsOn h c).map Execution.attempt =
      (executionsOn h c).map ((fun res : WarmResult => (⟨res.attempt⟩ : AttemptId)) ∘
        Execution.result) := by
    refine List.map_congr_left fun e _ => ?_
    exact congrArg BasicGeneration.mk e.answers.symm
  rw [same, results]
  exact List.sublist_append_left _ _

theorem Ordered.once (inv : Ordered h s) (dispatched : s.threads.Dispatched) :
    ((executions h).map Execution.attempt).Nodup := by
  refine nodup_map_of_classes Execution.attempt Execution.conn (executions h) (fun c => ?_) ?_
  · exact (dispatched.once c).sublist (inv.executed_sublist c)
  · intro e he e' he' same
    obtain ⟨r, known, own, attempt, -⟩ := inv.issued dispatched.commands he
    obtain ⟨r', known', own', attempt', -⟩ := inv.issued dispatched.commands he'
    have one := List.inj_on_of_nodup_map dispatched.distinct known known'
      (attempt.trans (same.trans attempt'.symm))
    rw [← own, ← own', one]

theorem Ordered.read_once (inv : Ordered h s) (dispatched : s.threads.Dispatched) :
    ((readings h).map Reading.attempt).Nodup := by
  have ran {r : Reading} (hr : r ∈ readings h) :
      ∃ e ∈ executions h, e.attempt = r.attempt ∧ e.conn = r.conn := by
    have here : r ∈ readingsOn h r.conn := List.mem_filter.mpr ⟨hr, beq_self_eq_true _⟩
    have mem := (inv.read_sublist r.conn).subset (List.mem_map_of_mem here)
    obtain ⟨e, he, same⟩ := List.mem_map.mp mem
    obtain ⟨all, conn⟩ := List.mem_filter.mp he
    exact ⟨e, all, same, beq_iff_eq.mp conn⟩
  refine nodup_map_of_classes Reading.attempt Reading.conn (readings h) (fun c => ?_) ?_
  · exact (dispatched.once c).sublist ((inv.read_sublist c).trans (inv.executed_sublist c))
  · intro r hr r' hr' same
    obtain ⟨e, he, attempt, conn⟩ := ran hr
    obtain ⟨e', he', attempt', conn'⟩ := ran hr'
    have one := List.inj_on_of_nodup_map (inv.once dispatched) he he'
      (attempt.trans (same.trans attempt'.symm))
    rw [← conn, ← conn', one]

end

/-- Without reused attempt numbers no attempt is run by any worker twice, no result of one is read
twice, and whatever a worker runs was issued to its connection for that object. -/
theorem attempts_run_once {cfgs : Nat → WorkerConfig} {steps : List NetStep}
    (fresh : Runs.Along step (fun s a => ¬ s.Reissues a) (init cfgs) steps) :
    ((executions (history cfgs steps)).map Execution.attempt).Nodup ∧
    ((readings (history cfgs steps)).map Reading.attempt).Nodup ∧
    ∀ e ∈ executions (history cfgs steps),
      ∃ r ∈ (Runs.run step (init cfgs) steps).threads.sys.issues,
        r.conn = e.conn ∧ r.attempt = e.attempt ∧ r.info.object = e.cmd.object := by
  have keep (h : List Happening) (s : Network) (a : NetStep)
      (inv : Ordered h s ∧ Senders cfgs s ∧ s.threads.Dispatched) (new : ¬ s.Reissues a) :
      Ordered (h ++ s.happens a) (s.step a) ∧ Senders cfgs (s.step a) ∧
        (s.step a).threads.Dispatched :=
    ⟨inv.1.step inv.2.1 a, inv.2.1.step a, dispatched_step inv.2.2 new⟩
  obtain ⟨ordered, -, dispatched⟩ := Runs.emitted_invariant keep
    ⟨ordered_init cfgs, senders_init cfgs, Threads.dispatched_init⟩ fresh
  exact ⟨ordered.once dispatched, ordered.read_once dispatched,
    fun e => ordered.issued dispatched.commands⟩

theorem attempts_run_once_joined :
    (executions (history everyWorker ((joined ++ warmedBy ⟨0, 9⟩) ++ [delivered]))).map
        Execution.attempt = [⟨1⟩] ∧
      ∀ e ∈ executions (history everyWorker ((joined ++ warmedBy ⟨0, 9⟩) ++ [delivered])),
        ∃ r ∈ (Runs.run step (init everyWorker)
            ((joined ++ warmedBy ⟨0, 9⟩) ++ [delivered])).threads.sys.issues,
          r.conn = e.conn ∧ r.attempt = e.attempt ∧ r.info.object = e.cmd.object := by
  refine ⟨by decide +kernel, ?_⟩
  exact (attempts_run_once not_reissues_joined).2.2

end Network

end Warmth
