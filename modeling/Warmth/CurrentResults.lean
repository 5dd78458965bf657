import Warmth.Lanes
import Warmth.Readiness
import Warmth.Runs

namespace Warmth

open Codec Std TreeMaps

namespace Coordinator

theorem zero_not_mem_held {info : AttemptInfo} (h : info.reservationId ≠ 0) :
    (0 : UInt64) ∉ info.held := by
  unfold AttemptInfo.held
  split
  next op =>
    simp only [bne_iff_ne] at op
    simp [Ne.symm h, Ne.symm op]
  next => simp [Ne.symm h]

/-- What an accepted result leaves behind of its attempt. -/
theorem acceptResult_settled {info : AttemptInfo} (reserved : info.reservationId ≠ 0)
    (c : Coordinator) (cs : ConnId) (res : WarmResult) (now : Nat → Timestamp) :
    (c.acceptResult cs res info now).1.inFlight[(⟨res.attempt⟩ : AttemptId)]? = none ∧
      ∀ id ∈ info.held, id ∉ (c.acceptResult cs res info now).1.budget.ids := by
  simp only [acceptResult, settle]
  rw [applyResult_frame]
  refine ⟨ExtTreeMap.getElem?_erase_self, fun id held outstanding => ?_⟩
  exact ((BudgetTracker.mem_ids_releaseAll (zero_not_mem_held reserved)).mp outstanding).2 held

end Coordinator

theorem Threads.step_registered (s : Threads) (a : ThreadStep) {c : ConnId}
    (h : (s.sys.coord.conns c).registered = true) :
    ((s.step a).sys.coord.conns c).registered = true := by
  obtain same | ⟨cs, f, now, g, -, -, -, same⟩ := s.step_conns a
  · rw [same]
    exact h
  · rw [same]
    by_cases hc : c = cs
    · subst hc
      rw [System.register_conns_self]
    · rw [System.register_conns_of_ne hc]
      exact h

namespace Network

open Function

/-- A step leaves the coordinator alone or is one of its own, and connections keep their owners. -/
theorem step_threads (s : Network) (a : NetStep) :
    ((s.step a).threads = s.threads ∨ ∃ b, (s.step a).threads = s.threads.step b) ∧
      ∀ c < s.made, (s.step a).owner c = s.owner c := by
  have went := s.went_step a
  generalize s.step a = t at went
  cases went with
  | connect =>
    have opened (i : Nat) (c : ConnId) (known : c < s.made) :
        (s.openFresh i).owner c = s.owner c := by
      simp only [Network.openFresh, update_of_ne (Nat.ne_of_lt known)]
    simp only [Network.connect]
    split <;> exact ⟨Or.inl rfl, opened _⟩
  | read =>
    unfold Network.receive
    split <;> exact ⟨Or.inl rfl, fun _ _ => rfl⟩
  | idle | lose | shutdown | flag => exact ⟨Or.inl rfl, fun _ _ => rfl⟩
  | deliver | coordinator => exact ⟨Or.inr ⟨_, rfl⟩, fun _ _ => rfl⟩

/-- Every attempt was issued to a registered connection, for the worker at its other end. -/
def Targets (cfgs : Nat → WorkerConfig) (s : Network) : Prop :=
  ∀ r ∈ s.threads.sys.issues, (s.threads.sys.coord.conns r.conn).registered = true ∧
    r.info.worker = (cfgs (s.owner r.conn)).workerId ∧ r.info.reservationId ≠ 0

/-- The coordinator reads the result `res` of the attempt `r`, which it has issued under the
authority it still has. -/
inductive Returns (s : Network) : NetStep → ConnId → IssueRecord → WarmResult → Prop
  | mk {c : ConnId} {now : Nat → Timestamp} {letter : Letter} {rest : List Letter} {r : IssueRecord}
      {res : WarmResult} (next : s.inbox c = letter :: rest)
      (ready : s.threads.ready c true = true) (type : letter.frame.type = .warmResult)
      (decoded : decodePayload decodeWarmResult letter.frame.payload = some res)
      (issued : r ∈ s.current) (attempt : r.attempt = ⟨res.attempt⟩) :
      Returns s (.deliver c now) c r res

/-- Between the two states the result is accepted. -/
structure Settled (s t : Network) (c : ConnId) (r : IssueRecord) (res : WarmResult) : Prop where
  accepted : s.threads.sys.coord.acceptedAttempt c res = some r.info
  inFlight : t.threads.sys.coord.inFlight[r.attempt]? = none
  released : ∀ id ∈ r.info.held, id ∉ t.threads.sys.coord.budget.ids
  ready : res.success = true → t.threads.sys.coord.readyAt r.info.object = true

def Answered (s : Network) (a : NetStep) : Prop :=
  ∀ c r res, s.Returns a c r res → s.Settled (s.step a) c r res

/-- The worker that sends the result has learned the authority when it connected. -/
def LearnedCurrent (s : Network) (a : NetStep) : Prop :=
  ∀ c r res, s.Returns a c r res → s.Learned c s.threads.sys.coord.authority

section
variable {cfgs : Nat → WorkerConfig} {s : Network}

theorem Senders.known (who : Senders cfgs s) {c : ConnId}
    (h : (s.threads.sys.coord.conns c).registered = true) : c < s.made := by
  by_contra unmade
  have unregistered := (who.fresh c (Nat.le_of_not_lt unmade)).2.1
  cases h.symm.trans unregistered

theorem targets_init (cfgs : Nat → WorkerConfig) : Targets cfgs (init cfgs) :=
  fun _ h => (nomatch h)

theorem Targets.step (inv : Targets cfgs s) (who : Senders cfgs s) (a : NetStep) :
    Targets cfgs (s.step a) := by
  obtain ⟨threads, owner⟩ := s.step_threads a
  have same_owner {c : ConnId} (reg : (s.threads.sys.coord.conns c).registered = true) :
      (s.step a).owner c = s.owner c := owner c (who.known reg)
  intro r hr
  rcases threads with same | ⟨b, same⟩
  · rw [same] at hr ⊢
    obtain ⟨reg, worker, reserved⟩ := inv r hr
    exact ⟨reg, by rw [same_owner reg, worker], reserved⟩
  · rw [same] at hr ⊢
    have old (known : r ∈ s.threads.sys.issues) :
        ((s.threads.step b).sys.coord.conns r.conn).registered = true ∧
          r.info.worker = (cfgs ((s.step a).owner r.conn)).workerId ∧ r.info.reservationId ≠ 0 := by
      obtain ⟨reg, worker, reserved⟩ := inv r known
      exact ⟨s.threads.step_registered b reg, by rw [same_owner reg, worker], reserved⟩
    obtain issues | ⟨object, action, preferred, r', rfl, issues, -, reg, worker, reserved⟩ :=
      s.threads.step_issues b
    · exact old (issues ▸ hr)
    · rcases List.mem_cons.mp (issues ▸ hr) with rfl | known
      · refine ⟨s.threads.step_registered _ reg, ?_, reserved⟩
        rw [same_owner reg, worker, (who.registered r.conn reg).1]
      · exact old known

theorem deliver_result {c : ConnId} {letter : Letter} {rest : List Letter} {res : WarmResult}
    (next : s.inbox c = letter :: rest) (ready : s.threads.ready c true = true)
    (type : letter.frame.type = .warmResult)
    (decoded : decodePayload decodeWarmResult letter.frame.payload = some res)
    (now : Nat → Timestamp) :
    (s.step (.deliver c now)).threads.sys.coord =
      (s.threads.sys.coord.handleWarmResult c res now).1 := by
  have mutex : letter.frame.takesMutex = true := by simp [Frame.takesMutex, type, decoded]
  have delivered : (s.step (.deliver c now)).threads =
      s.threads.step (.frame c letter.frame now) := by
    simp only [Network.step, next, mutex, ready, if_true]
    rfl
  have received : (s.threads.step (.frame c letter.frame now)).sys =
      s.threads.sys.step (.frame c letter.frame now) := by
    rw [Threads.step, Threads.note_sys, Threads.act, if_pos (by rw [mutex]; exact ready)]
    rfl
  rw [delivered, received, System.step_frame_up (Threads.ready_iff.mp ready).1]
  simp only [System.after, Coordinator.handleFrame, type, decoded]

/-- Everything but the authority is as the coordinator expects it of a result. -/
theorem Lanes.acceptable (inv : s.Lanes) (who : Senders cfgs s) (targets : Targets cfgs s)
    {c : ConnId} {d : Warmed} {rest : List Letter} (next : s.inbox c = .answer (.warmed d) :: rest)
    {r : IssueRecord} (issued : r ∈ s.current) (attempt : r.attempt = ⟨d.result.attempt⟩)
    (stamped : d.result.authority = s.threads.sys.coord.authority) :
    s.threads.sys.coord.acceptedAttempt c d.result = some r.info ∧
      r.info.object = d.result.object ∧ r.info.reservationId ≠ 0 := by
  have mem : .answer (.warmed d) ∈ s.inbox c := next ▸ List.mem_cons_self
  have carried : r.attempt ∈ s.lane c := by
    rw [attempt]
    exact List.mem_append_right _ (List.mem_append_right _
      (List.mem_flatMap.mpr ⟨_, mem, List.mem_singleton_self _⟩))
  have conn := inv.conn_eq (inv.current issued) carried
  have object : r.info.object = d.result.object := by
    obtain ⟨r', issued', -, same, object⟩ := inv.answers c d mem
    rwa [List.inj_on_of_nodup_map inv.distinct issued' (inv.current issued)
      (same.trans attempt.symm)] at object
  subst conn
  have entry := inv.inFlight r issued carried
  obtain ⟨reg, worker, reserved⟩ := targets r (inv.current issued)
  obtain ⟨id, boot⟩ := who.registered r.conn reg
  simp only [WarmResult.authority, Coordinator.authority, Prod.mk.injEq] at stamped
  have current : s.threads.sys.coord.resultCurrent r.conn d.result = true := by
    simp [Coordinator.resultCurrent, reg, boot, (who.results r.conn d mem).1, stamped]
  refine ⟨?_, object, reserved⟩
  rw [Coordinator.acceptedAttempt, if_pos current, ← attempt, entry]
  simp only [worker, id, object, beq_self_eq_true, Bool.and_self, if_true]

/-- One result is answered exactly if its worker has learned the authority. -/
theorem answered_iff (inv : s.Lanes) (who : Senders cfgs s) (stamps : s.Stamps)
    (targets : Targets cfgs s) (a : NetStep) : s.Answered a ↔ s.LearnedCurrent a := by
  constructor
  · intro answered c r res returns
    have accepted := (answered c r res returns).accepted
    cases returns with
    | mk next ready type decoded =>
      obtain ⟨d, rfl⟩ := Letter.warmed_of_type type
      have mem : .answer (.warmed d) ∈ s.inbox c := next ▸ List.mem_cons_self
      cases (who.decoded mem).symm.trans decoded
      have current := (Coordinator.acceptedAttempt_some accepted).1
      have stamped : d.result.authority = s.threads.sys.coord.authority := by
        simp only [Coordinator.resultCurrent, Bool.and_eq_true, beq_iff_eq] at current
        simp [WarmResult.authority, Coordinator.authority, current]
      exact stamped ▸ stamps.results c d mem
  · intro learned c r res returns
    have current := learned c r res returns
    cases returns with
    | @mk _ now _ _ _ _ next ready type decoded issued attempt =>
      have after := deliver_result next ready type decoded now
      obtain ⟨d, rfl⟩ := Letter.warmed_of_type type
      have mem : .answer (.warmed d) ∈ s.inbox c := next ▸ List.mem_cons_self
      cases (who.decoded mem).symm.trans decoded
      obtain ⟨accepted, object, reserved⟩ := inv.acceptable who targets next issued attempt
        ((stamps.results c d mem).unique current)
      simp only [Coordinator.handleWarmResult, accepted] at after
      obtain ⟨left, released⟩ := s.threads.sys.coord.acceptResult_settled reserved c d.result now
      refine ⟨accepted, ?_, ?_, fun success => ?_⟩
      · rw [after, attempt]
        exact left
      · rw [after]
        exact released
      · rw [after, object]
        exact Coordinator.acceptResult_ready success c r.info now

end

/-- Along a run without reused attempt numbers, every result that comes back under the authority of
its issue is accepted exactly if every one of them comes from a worker that has learned this
authority when it connected. -/
theorem current_results_answered {cfgs : Nat → WorkerConfig} {steps : List NetStep}
    (fresh : Runs.Along step (fun s a => ¬ s.Reissues a) (init cfgs) steps) :
    Runs.Along step Answered (init cfgs) steps ↔
      Runs.Along step LearnedCurrent (init cfgs) steps := by
  let Inv (s : Network) : Prop := Senders cfgs s ∧ s.Stamps ∧ Targets cfgs s ∧ s.Lanes
  have start : Inv (init cfgs) :=
    ⟨senders_init cfgs, stamps_init cfgs, targets_init cfgs, lanes_init cfgs⟩
  have keep (s : Network) (a : NetStep) (inv : Inv s) (new : ¬ s.Reissues a) : Inv (s.step a) := by
    obtain ⟨who, stamps, targets, lanes⟩ := inv
    exact ⟨who.step a, stamps.step who a, targets.step who a, lanes.step who new⟩
  have agree : Runs.Along step (fun s a => s.Answered a ↔ s.LearnedCurrent a) (init cfgs) steps := by
    refine Runs.along_of_invariant (I := Inv) keep (fun s a inv _ => ?_) start fresh
    obtain ⟨who, stamps, targets, lanes⟩ := inv
    exact answered_iff lanes who stamps targets a
  constructor
  · exact fun h => (agree.and h).imp fun _ _ both => both.1.mp both.2
  · exact fun h => (agree.and h).imp fun _ _ both => both.1.mpr both.2

def delivered : NetStep := .deliver 0 fun _ => 0

theorem not_reissues_joined : Runs.Along step (fun s a => ¬ s.Reissues a) (init everyWorker)
    ((joined ++ warmedBy ⟨0, 9⟩) ++ [delivered]) := by
  have others {s : Network} {steps : List NetStep}
      (h : ∀ a ∈ steps, ∀ object action preferred, a ≠ .coordinator (.reserve object action preferred)) :
      Runs.Along step (fun s a => ¬ s.Reissues a) s steps := by
    refine (Runs.along_of_forall h).imp fun s a other reissues => ?_
    obtain ⟨object, action, preferred, same, -⟩ := reissues
    exact other object action preferred same
  have unissued : (Runs.run step (init everyWorker) joined).threads.sys.issues.length = 0 := by
    decide +kernel
  rw [List.append_assoc, Runs.along_append]
  refine ⟨others (by simp [joined]), ?_, others (by simp [delivered])⟩
  rintro ⟨object, action, preferred, -, r, known, -⟩
  rw [List.length_eq_zero_iff.mp unissued] at known
  cases known

theorem learned_of_heard {s : Network} {c : ConnId} {a : UInt64 × UInt64 × UInt64}
    (h : ((s.threads.wire c).head?.bind fun f => decodePayload decodeHelloAck f.payload).map
      HelloAck.authority = some a) : s.Learned c a := by
  obtain ⟨ack, heard, same⟩ := Option.map_eq_some_iff.mp h
  obtain ⟨f, first, decoded⟩ := Option.bind_eq_some_iff.mp heard
  obtain ⟨rest, wire⟩ := List.head?_eq_some_iff.mp first
  exact ⟨f, rest, ack, wire, decoded, same⟩

theorem current_results_answered_joined :
    Runs.Along step Answered (init everyWorker) ((joined ++ warmedBy ⟨0, 9⟩) ++ [delivered]) := by
  refine (current_results_answered not_reissues_joined).mpr ?_
  have others {s : Network} {steps : List NetStep}
      (h : ∀ a ∈ steps, ∀ c now, a ≠ .deliver c now) : Runs.Along step LearnedCurrent s steps := by
    refine (Runs.along_of_forall h).imp fun s a other c r res returns => ?_
    cases returns
    exact absurd rfl (other _ _)
  have hello : LearnedCurrent (step (init everyWorker) (.connect 0)) delivered := by
    have none : (step (init everyWorker) (.connect 0)).current.length = 0 := by decide +kernel
    intro c r res returns
    cases returns with
    | mk _ _ _ _ issued =>
      rw [List.length_eq_zero_iff.mp none] at issued
      cases issued
  have heard : Learned (Runs.run step (init everyWorker) (joined ++ warmedBy ⟨0, 9⟩)) 0
      (Runs.run step (init everyWorker)
        (joined ++ warmedBy ⟨0, 9⟩)).threads.sys.coord.authority :=
    learned_of_heard (by decide +kernel)
  have before : Runs.Along step LearnedCurrent (init everyWorker) (joined ++ warmedBy ⟨0, 9⟩) := by
    have parts : joined ++ warmedBy ⟨0, 9⟩ =
        .connect 0 :: delivered :: (joined.drop 2 ++ warmedBy ⟨0, 9⟩) := rfl
    rw [parts]
    exact ⟨fun _ _ _ returns => (nomatch returns), hello, others (by simp [joined, warmedBy])⟩
  refine (Runs.along_append _ _).mpr ⟨before, ?_, trivial⟩
  generalize Runs.run step (init everyWorker) (joined ++ warmedBy ⟨0, 9⟩) = s at heard
  intro c r res returns
  cases returns
  exact heard

/-- The warmth generation is raised between the connect and the command. -/
theorem bumped_not_answered : ¬ ∀ cfgs steps, Runs.Along step Answered (init cfgs) steps := by
  intro h
  have answered := h everyWorker
    ((joined ++ .coordinator .bumpWarmthGeneration :: warmedBy ⟨0, 9⟩) ++ [delivered])
  rw [Runs.along_append] at answered
  let res : WarmResult :=
    { boot := ⟨0, 1⟩, object := ⟨0, 9⟩, action := .loadModel, attempt := 1, success := true }
  have waiting : ((Runs.run step (init everyWorker)
      (joined ++ .coordinator .bumpWarmthGeneration :: warmedBy ⟨0, 9⟩)).inbox 0).map
      (fun l => l.warmed?.map Warmed.result) = [some res] := by decide +kernel
  have ready : (Runs.run step (init everyWorker)
      (joined ++ .coordinator .bumpWarmthGeneration :: warmedBy ⟨0, 9⟩)).threads.ready 0 true =
      true := by decide +kernel
  have issued : (Runs.run step (init everyWorker)
      (joined ++ .coordinator .bumpWarmthGeneration :: warmedBy ⟨0, 9⟩)).current.map
      IssueRecord.attempt = [⟨1⟩] := by decide +kernel
  have rejected : (Runs.run step (init everyWorker) (joined ++ .coordinator .bumpWarmthGeneration ::
      warmedBy ⟨0, 9⟩)).threads.sys.coord.acceptedAttempt 0 res = none := by decide +kernel
  generalize Runs.run step (init everyWorker)
    (joined ++ .coordinator .bumpWarmthGeneration :: warmedBy ⟨0, 9⟩) = s
    at answered waiting ready issued rejected
  obtain ⟨d, inbox, result⟩ := inbox_of_results waiting
  obtain ⟨r, current, attempt⟩ := List.map_eq_singleton_iff.mp issued
  have decoded := decodePayload_of_reads (reads_warmResult (r := d.result) (by rw [result]; decide))
  rw [← result] at rejected
  have returns : s.Returns delivered 0 r d.result :=
    .mk inbox ready rfl decoded (current ▸ List.mem_singleton_self r) (by rw [attempt, result])
  have accepted := (answered.2.1 0 r d.result returns).accepted
  rw [rejected] at accepted
  cases accepted

end Network

end Warmth
