import Warmth.Boots
import Warmth.StaleAuthority

namespace Warmth

open Codec Std TreeMaps

namespace System

/-- The latest issue of an attempt id. -/
def lastIssue (s : System) (a : AttemptId) : Option IssueRecord :=
  s.issues.find? fun r => r.attempt == a

theorem lastIssue_congr {s t : System} (h : t.issues = s.issues) (a : AttemptId) :
    t.lastIssue a = s.lastIssue a := by
  rw [lastIssue, h]
  rfl

/-- Every step but the reserving section takes attempts out of flight at most. -/
theorem step_inFlight {s : System} {a : Step} (h : ∀ o act p, a ≠ .reserve o act p) :
    (s.step a).issues = s.issues ∧
      ∀ (b : AttemptId) info, (s.step a).coord.inFlight[b]? = some info →
        s.coord.inFlight[b]? = some info := by
  have stepped := stepped_step s a
  generalize s.step a = t at stepped
  cases stepped with
  | idle | send | bumpWarmth | bumpDependency => exact ⟨rfl, fun _ _ hb => hb⟩
  | hello =>
    rw [Coordinator.acceptHello_frame]
    exact ⟨rfl, fun _ _ hb => hb⟩
  | report =>
    rw [Coordinator.acceptReport_frame]
    exact ⟨rfl, fun _ _ hb => hb⟩
  | result =>
    refine ⟨issues_after s _, fun b info hb => ?_⟩
    simp only [after, Coordinator.acceptResult] at hb
    rw [Coordinator.applyResult_frame] at hb
    exact (getElem?_erase_some hb).2
  | disconnect =>
    rw [Coordinator.onDisconnect_frame]
    exact ⟨rfl, fun _ _ hb => hb⟩
  | refuse | issue => exact absurd rfl (h _ _ _)
  | cleanup =>
    refine ⟨issues_after _ _, fun b info hb => ?_⟩
    simp only [after, Coordinator.cleanup] at hb
    split at hb
    · exact hb
    · exact (getElem?_erase_some hb).2
  | rollEpoch =>
    refine ⟨issues_after s _, fun b info hb => ?_⟩
    cases hb

theorem step_reserve (s : System) (object : WarmthObjectId) (action : WarmthAction)
    (preferred : Option WorkerId) :
    ((s.step (.reserve object action preferred)).issues = s.issues ∧
      (s.step (.reserve object action preferred)).calls = s.calls ∧
      (s.step (.reserve object action preferred)).coord.inFlight = s.coord.inFlight) ∨
    ∃ r : IssueRecord, s.coord.eligible preferred = some r.conn ∧
      r.info.worker = (s.coord.conns r.conn).id ∧ r.boot = (s.coord.conns r.conn).boot ∧
      r.authority = s.coord.authority ∧
      (s.step (.reserve object action preferred)).issues = r :: s.issues ∧
      (s.step (.reserve object action preferred)).calls =
        ⟨r.attempt, r.conn, .reserved⟩ :: s.calls ∧
      (s.step (.reserve object action preferred)).coord.inFlight =
        s.coord.inFlight.insert r.attempt r.info := by
  simp only [step]
  cases hi : s.coord.issueWarm object action preferred with
  | mk c i =>
    cases i with
    | none =>
      refine Or.inl ?_
      obtain rfl | ⟨e, b, _, rfl⟩ := Coordinator.issueWarm_none hi <;> exact ⟨rfl, rfl, rfl⟩
    | some i =>
      obtain ⟨he, _, _, hw, b, e₁, b', e₂, _, _, _, rfl⟩ := Coordinator.issueWarm_some hi
      exact Or.inr ⟨_, he, hw, rfl, rfl, rfl, rfl, rfl⟩

/-- An accepted result is for an attempt that was last issued for the same object to the same
worker, in the boot that the result comes from and under the authority it is accepted under. -/
def CompletesAsIssued (s : System) (a : Step) : Prop :=
  ∀ cs f now res info, a = .frame cs f now → s.closed cs = false → f.type = .warmResult →
    decodePayload decodeWarmResult f.payload = some res →
    s.coord.acceptedAttempt cs res = some info →
    ∃ r, s.lastIssue ⟨res.attempt⟩ = some r ∧ r.info.object = res.object ∧
      r.info.worker = (s.coord.conns cs).id ∧ r.boot = res.boot ∧
      r.authority = s.coord.authority

/-- Each attempt in flight was issued in the boot last accepted for its worker and under the
present authority. -/
def AttemptsCurrent (s : System) : Prop :=
  ∀ (a : AttemptId) info, s.coord.inFlight[a]? = some info →
    ∃ r, s.lastIssue a = some r ∧ r.info = info ∧
      s.coord.lastBoot[info.worker]? = some r.boot ∧ r.authority = s.coord.authority

/-- The step leaves an attempt in flight behind that its worker or the coordinator has moved on
from, or puts one in flight for a boot that is not the worker's last. -/
inductive Outdates (s : System) : Step → Prop
  | bumpWarmth (busy : s.coord.inFlight.isEmpty = false) : Outdates s .bumpWarmthGeneration
  | bumpDependency (busy : s.coord.inFlight.isEmpty = false) : Outdates s .bumpDependencyGeneration
  | rival {a : Step} (h : s.BringsRivalBoot a) : Outdates s a
  | newBoot {a : Step} {cs : ConnId} {h : Hello} (r : s.Registers a cs h)
      (changes : s.coord.lastBoot[h.worker]? ≠ some h.boot) {b : AttemptId} {info : AttemptInfo}
      (inFlight : s.coord.inFlight[b]? = some info) (worker : info.worker = h.worker) : Outdates s a
  | oldTarget {object : WarmthObjectId} {action : WarmthAction} {preferred : Option WorkerId}
      {t : ConnId} (target : s.coord.eligible preferred = some t)
      (outdated : s.coord.lastBoot[(s.coord.conns t).id]? ≠ some (s.coord.conns t).boot) :
      Outdates s (.reserve object action preferred)

theorem AttemptsCurrent.step {s : System} {a : Step} (inv : s.AttemptsCurrent) (h : ¬ s.Outdates a) :
    (s.step a).AttemptsCurrent := by
  intro b info hb
  by_cases hres : ∃ o act p, a = .reserve o act p
  · obtain ⟨object, action, preferred, rfl⟩ := hres
    have registry := (step_registry (s := s) (a := .reserve object action preferred) (by
      intro cs hello r
      cases r)).2
    have authority := step_authority (s := s) (a := .reserve object action preferred) rfl
    rw [registry, authority]
    obtain ⟨issues, _, same⟩ | ⟨r, target, worker, boot, current, issues, _, inserted⟩ :=
      step_reserve s object action preferred
    · rw [same] at hb
      rw [lastIssue_congr issues]
      exact inv b info hb
    · rw [inserted] at hb
      rw [lastIssue, issues, List.find?_cons]
      rcases getElem?_insert_some hb with ⟨rfl, rfl⟩ | ⟨hne, hb⟩
      · refine ⟨r, by rw [beq_self_eq_true], rfl, ?_, current⟩
        by_contra outdated
        rw [worker, boot] at outdated
        exact h (.oldTarget target outdated)
      · rw [beq_false_of_ne (Ne.symm hne)]
        exact inv b info hb
  · obtain ⟨issues, fewer⟩ := step_inFlight (s := s) (a := a) fun o act p he => hres ⟨o, act, p, he⟩
    obtain ⟨r, last, hinfo, boot, authority⟩ := inv b info (fewer b info hb)
    have busy : s.coord.inFlight.isEmpty = false := by
      by_contra he
      have none := isEmpty_iff_getElem?.mp (Bool.eq_true_of_not_eq_false he) b
      rw [fewer b info hb] at none
      cases none
    refine ⟨r, by rw [lastIssue_congr issues]; exact last, hinfo, ?_, ?_⟩
    · by_cases hr : ∃ cs hello, s.Registers a cs hello
      · obtain ⟨cs, hello, reg⟩ := hr
        rw [(registers_registry reg).2]
        by_cases hw : info.worker = hello.worker
        · have same : s.coord.lastBoot[hello.worker]? = some hello.boot := by
            by_contra changes
            exact h (.newBoot reg changes (fewer b info hb) hw)
          rw [← boot, hw, same]
          exact ExtTreeMap.getElem?_insert_self
        · rw [getElem?_insert_of_ne hw]
          exact boot
      · rw [(step_registry fun cs hello reg => hr ⟨cs, hello, reg⟩).2]
        exact boot
    · cases hc : a.changesAuthority with
      | false => rw [step_authority hc]; exact authority
      | true =>
        cases a with
        | rollEpoch => cases hb
        | bumpWarmthGeneration => exact absurd (.bumpWarmth busy) h
        | bumpDependencyGeneration => exact absurd (.bumpDependency busy) h
        | _ => cases hc

theorem AttemptsCurrent.completes {s : System} (boots : s.BootsCurrent) (inv : s.AttemptsCurrent)
    (a : Step) : s.CompletesAsIssued a := by
  rintro cs f now res info rfl up _ _ accepted
  obtain ⟨current, inFlight, worker, object⟩ := Coordinator.acceptedAttempt_some accepted
  obtain ⟨r, last, hinfo, boot, authority⟩ := inv _ info inFlight
  simp only [Coordinator.resultCurrent, Bool.and_eq_true, beq_iff_eq] at current
  refine ⟨r, last, by rw [hinfo, object], by rw [hinfo, worker], ?_, authority⟩
  have serves := boots cs info.worker ⟨up, current.1.1.1.1, worker.symm⟩
  rw [boot, current.1.1.1.2] at serves
  exact Option.some.inj serves

/-- A step that is no HELLO and no bump, and whose target, if it issues, is up to date. -/
theorem not_outdates_of_type {s : System} {cs : ConnId} {f : Frame} {now : Nat → Timestamp}
    (h : f.type ≠ .hello) : ¬ s.Outdates (.frame cs f now) := by
  intro o
  cases o with
  | rival hr =>
    obtain ⟨_, _, _, r, _⟩ := hr
    obtain ⟨_, _, he, type⟩ := r.frame
    cases he
    exact h type
  | newBoot r =>
    obtain ⟨_, _, he, type⟩ := r.frame
    cases he
    exact h type

/-- No obsolete completion in every run in which no step outdates an attempt in flight. -/
theorem no_obsolete_completion {steps : List Step}
    (h : Runs.Along step (fun s a => ¬ s.Outdates a) init steps) :
    Runs.Along step CompletesAsIssued init steps := by
  refine Runs.along_of_invariant (I := fun s => s.BootsCurrent ∧ s.AttemptsCurrent) ?_
    (fun _ a inv _ => inv.2.completes inv.1 a) ⟨bootsCurrent_init, ?_⟩ h
  · intro s a inv ha
    exact ⟨inv.1.step fun hr => ha (.rival hr), inv.2.step ha⟩
  · intro a info ha
    cases ha

def reserveOf (object : WarmthObjectId) : Step := .reserve object .loadModel none

def resultOf (cs : ConnId) (res : WarmResult) : Step := .frame cs (resultFrame res) fun _ => 0

def warmed : List Step :=
  [helloOf 0 ⟨0, 1⟩ ⟨0, 1⟩, reserveOf ⟨0, 9⟩, .send 0 true,
    resultOf 0 { boot := ⟨0, 1⟩, object := ⟨0, 9⟩, attempt := 1, success := true }]

theorem no_obsolete_completion_warmed : Runs.Along step CompletesAsIssued init warmed := by
  apply no_obsolete_completion
  refine ⟨?_, ?_, ?_, not_outdates_of_type (by decide), trivial⟩
  · intro o
    cases o with
    | rival hr =>
      obtain ⟨_, _, _, _, _, ⟨_, registered, _⟩, _⟩ := hr
      cases registered
    | newBoot _ _ inFlight => cases inFlight
  · intro o
    cases o with
    | rival hr =>
      obtain ⟨_, _, _, r, _⟩ := hr
      cases r
    | newBoot r => cases r
    | oldTarget target outdated =>
      cases target
      exact outdated (by decide)
  · intro o
    cases o with
    | rival hr =>
      obtain ⟨_, _, _, r, _⟩ := hr
      cases r
    | newBoot r => cases r

def bumpInFlight : List Step :=
  [helloOf 0 ⟨0, 1⟩ ⟨0, 1⟩, reserveOf ⟨0, 9⟩, .send 0 true, .bumpWarmthGeneration]

def bumpedResult : WarmResult :=
  { boot := ⟨0, 1⟩, warmthGen := 1, object := ⟨0, 9⟩, attempt := 1, success := true }

/-- The result is accepted under the new authority for an attempt issued under the old one. -/
theorem bumpInFlight_obsolete_completion : ¬ ∀ s, Reached s → ∀ a, s.CompletesAsIssued a := by
  intro h
  obtain ⟨r, last, _, _, _, authority⟩ := h _ (Runs.reachable_run bumpInFlight)
    (resultOf 0 bumpedResult) 0 _ _ bumpedResult _ rfl (by decide) rfl (by decide) rfl
  have issued : ((Runs.run step init bumpInFlight).lastIssue ⟨1⟩).map IssueRecord.authority =
      some (0, 0, 0) := by decide
  have last : (Runs.run step init bumpInFlight).lastIssue ⟨1⟩ = some r := last
  rw [last, Option.map_some, authority] at issued
  revert issued
  decide

/-- When no `issue_warm` call is between its reserving section and its send, every attempt in
flight was last issued on a connection that `on_disconnect` has not processed. -/
def NoneStranded (s : System) : Prop :=
  (∀ call ∈ s.calls, call.phase ≠ .reserved) →
    ∀ (a : AttemptId) info, s.coord.inFlight[a]? = some info →
      ∃ r, s.lastIssue a = some r ∧ r.info = info ∧ s.closed r.conn = false

/-- An `issue_warm` call for the attempt has yet to send on the connection. -/
def Unsent (s : System) (a : AttemptId) (c : ConnId) : Prop := ⟨a, c, .reserved⟩ ∈ s.calls

/-- The step loses the connection of an attempt in flight whose frame has been sent, or sends
the frame of an attempt in flight on a connection that is lost already. -/
inductive Strands (s : System) : Step → Prop
  | disconnect {c : ConnId} {now : WarmthObjectId → Timestamp} {a : AttemptId} {info : AttemptInfo}
      {r : IssueRecord} (inFlight : s.coord.inFlight[a]? = some info)
      (issued : s.lastIssue a = some r) (conn : r.conn = c) (sent : ¬ s.Unsent a c) :
      Strands s (.disconnect c now)
  | send {k : Nat} {sent : Bool} {a : AttemptId} {c : ConnId} {info : AttemptInfo}
      (call : s.calls[k]? = some ⟨a, c, .reserved⟩) (lost : s.closed c = true)
      (inFlight : s.coord.inFlight[a]? = some info) : Strands s (.send k sent)

/-- Each attempt in flight was issued on a connection that is up, or has yet to be sent. -/
def Attended (s : System) : Prop :=
  ∀ (a : AttemptId) info, s.coord.inFlight[a]? = some info →
    ∃ r, s.lastIssue a = some r ∧ r.info = info ∧ (s.closed r.conn = false ∨ s.Unsent a r.conn)

theorem step_closed_of_ne {s : System} {a : Step} {c : ConnId} (h : ∀ now, a ≠ .disconnect c now) :
    (s.step a).closed c = s.closed c := by
  have stepped := stepped_step s a
  generalize s.step a = t at stepped
  cases stepped with
  | disconnect => exact if_neg fun same => h _ (by rw [same])
  | _ => rfl

/-- A call that has yet to send stays so until its own send. -/
theorem step_unsent {s : System} {a : Step} {b : AttemptId} {c : ConnId} (h : s.Unsent b c) :
    (s.step a).Unsent b c ∨
      ∃ k sent, a = .send k sent ∧ s.calls[k]? = some ⟨b, c, .reserved⟩ := by
  obtain ⟨i, hi⟩ := List.mem_iff_getElem?.mp h
  have stepped := stepped_step s a
  generalize s.step a = t at stepped
  cases stepped with
  | @send k sent w pending =>
    by_cases hk : i = k
    · exact Or.inr ⟨k, sent, rfl, hk ▸ hi⟩
    · refine Or.inl ?_
      cases sent with
      | true => exact List.mem_eraseIdx_iff_getElem?.mpr ⟨i, hk, hi⟩
      | false =>
        refine List.mem_iff_getElem?.mpr ⟨i, ?_⟩
        simp only [Bool.false_eq_true, if_false]
        rw [List.getElem?_set_ne (Ne.symm hk)]
        exact hi
  | @cleanup k w pending failed =>
    have hk : i ≠ k := by
      rintro rfl
      cases hi.symm.trans pending
      cases failed
    exact Or.inl (List.mem_eraseIdx_iff_getElem?.mpr ⟨i, hk, hi⟩)
  | issue => exact Or.inl (List.mem_cons_of_mem _ h)
  | _ => exact Or.inl h

theorem Attended.step {s : System} {a : Step} (inv : s.Attended) (h : ¬ s.Strands a) :
    (s.step a).Attended := by
  -- an attempt that was in flight before the step is still attended after it
  have keep : ∀ (b : AttemptId) info r, s.coord.inFlight[b]? = some info → s.lastIssue b = some r →
      (s.closed r.conn = false ∨ s.Unsent b r.conn) →
      (s.step a).closed r.conn = false ∨ (s.step a).Unsent b r.conn := by
    intro b info r hb last attended
    by_cases lost : ∃ now, a = .disconnect r.conn now
    · obtain ⟨now, rfl⟩ := lost
      have unsent : s.Unsent b r.conn := by
        by_contra sent
        exact h (.disconnect hb last rfl sent)
      obtain unsent | ⟨_, _, he, _⟩ := step_unsent (a := .disconnect r.conn now) unsent
      · exact Or.inr unsent
      · cases he
    · have same := step_closed_of_ne (s := s) (a := a) fun now he => lost ⟨now, he⟩
      rw [same]
      rcases attended with up | unsent
      · exact Or.inl up
      · obtain unsent | ⟨k, sent, rfl, call⟩ := step_unsent (a := a) unsent
        · exact Or.inr unsent
        · refine Or.inl ?_
          by_contra down
          exact h (.send call (Bool.eq_true_of_not_eq_false down) hb)
  intro b info hb
  by_cases hres : ∃ o act p, a = .reserve o act p
  · obtain ⟨object, action, preferred, rfl⟩ := hres
    obtain ⟨issues, _, same⟩ | ⟨r, _, _, _, _, issues, calls, inserted⟩ :=
      step_reserve s object action preferred
    · rw [same] at hb
      rw [lastIssue_congr issues]
      obtain ⟨r, last, hinfo, attended⟩ := inv b info hb
      exact ⟨r, last, hinfo, keep b info r hb last attended⟩
    · rw [inserted] at hb
      rw [lastIssue, issues, List.find?_cons]
      rcases getElem?_insert_some hb with ⟨rfl, rfl⟩ | ⟨hne, hb⟩
      · refine ⟨r, by rw [beq_self_eq_true], rfl, Or.inr ?_⟩
        rw [Unsent, calls]
        exact List.mem_cons_self
      · rw [beq_false_of_ne (Ne.symm hne)]
        obtain ⟨r', last, hinfo, attended⟩ := inv b info hb
        exact ⟨r', last, hinfo, keep b info r' hb last attended⟩
  · obtain ⟨issues, fewer⟩ := step_inFlight (s := s) (a := a) fun o act p he => hres ⟨o, act, p, he⟩
    have hb := fewer b info hb
    obtain ⟨r, last, hinfo, attended⟩ := inv b info hb
    rw [lastIssue_congr issues]
    exact ⟨r, last, hinfo, keep b info r hb last attended⟩

theorem Attended.noneStranded {s : System} (inv : s.Attended) : s.NoneStranded := by
  intro sent a info ha
  obtain ⟨r, last, hinfo, up | unsent⟩ := inv a info ha
  · exact ⟨r, last, hinfo, up⟩
  · exact absurd rfl (sent _ unsent)

/-- No attempt is stranded in a run in which no step strands one. -/
theorem no_stranded_attempt {steps : List Step}
    (h : Runs.Along step (fun s a => ¬ s.Strands a) init steps) :
    (Runs.run step init steps).NoneStranded := by
  refine (Runs.invariant (I := Attended) (fun s a inv ha => inv.step ha) ?_ h).noneStranded
  intro a info ha
  cases ha

theorem no_stranded_attempt_warmed :
    (Runs.run step init (warmed ++ [.disconnect 0 fun _ => 0])).NoneStranded := by
  apply no_stranded_attempt
  refine ⟨nofun, nofun, ?_, nofun, ?_, trivial⟩
  · intro h
    cases h with
    | send call lost => cases call; cases lost
  · intro h
    cases h with
    | @disconnect _ _ a info _ inFlight =>
      have settled : (Runs.run step init warmed).coord.inFlight.isEmpty = true := by decide
      have inFlight : (Runs.run step init warmed).coord.inFlight[a]? = some info := inFlight
      rw [isEmpty_iff_getElem?.mp settled a] at inFlight
      cases inFlight

def lostInFlight : List Step :=
  [helloOf 0 ⟨0, 1⟩ ⟨0, 1⟩, reserveOf ⟨0, 9⟩, .send 0 true, .disconnect 0 fun _ => 0]

/-- Nothing settles the attempt of the lost worker. -/
theorem lostInFlight_stranded : ¬ ∀ s, Reached s → s.NoneStranded := by
  intro h
  obtain ⟨r, last, _, up⟩ := h _ (Runs.reachable_run lostInFlight) (by decide) ⟨1⟩ _ rfl
  have conn : ((Runs.run step init lostInFlight).lastIssue ⟨1⟩).map IssueRecord.conn = some 0 := by
    decide
  rw [last, Option.map_some] at conn
  rw [Option.some.inj conn] at up
  revert up
  decide

end System

end Warmth
