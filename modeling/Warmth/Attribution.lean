import Warmth.Readiness
import Warmth.Attempts
import Warmth.Registry

namespace Warmth

open Codec Std TreeMaps

theorem decayObject_processRestart {o : WarmthObject} {policy : DecayPolicy} (now : Timestamp)
    (h : policy.decayOnProcessRestart = true) (ready : isExecutionReady o.state = true) :
    decayObject o policy now false false false true = ⟨true, .stale, .processRestart⟩ := by
  simp only [decayObject, h]
  cases hs : o.state <;> simp_all [isExecutionReady, staleDecay]

namespace Coordinator

/-- A policy that decays on process restart demotes every ready object of a lost worker. -/
theorem disconnectedObject_unready {policy : DecayPolicy}
    (h : policy.decayOnProcessRestart = true) (now : Timestamp) (o : WarmthObject) :
    isExecutionReady (disconnectedObject policy now o).state = false := by
  cases ready : isExecutionReady o.state with
  | false =>
    cases after : isExecutionReady (disconnectedObject policy now o).state with
    | false => rfl
    | true => exact (disconnectedObject_ready after).symm.trans ready
  | true =>
    unfold disconnectedObject
    rw [decayObject_processRestart now h ready]
    simp only [if_true, WarmthObject.dropEphemeral_state, WarmthObject.moveTo_state]
    cases hs : o.state <;> simp_all [isExecutionReady, transitionAllowed]

/-- The object is in the attribution set of the worker. -/
def Owns (c : Coordinator) (w : WorkerId) (id : WarmthObjectId) : Prop :=
  ∃ ids, c.workerObjects[w]? = some ids ∧ id ∈ ids

/-- Every execution-ready object is in the attribution set of a worker that is `live`. -/
def AttributedTo (c : Coordinator) (live : WorkerId → Prop) : Prop :=
  ∀ id, c.readyAt id = true → ∃ w, live w ∧ c.Owns w id

variable {c c' : Coordinator} {live : WorkerId → Prop}

theorem noteObject_owns_self (c : Coordinator) (w : WorkerId) (id : WarmthObjectId) :
    (c.noteObject w id).Owns w id :=
  ⟨_, ExtTreeMap.getElem?_insert_self, ExtTreeSet.mem_insert_self⟩

theorem Owns.noteObject {w : WorkerId} {id : WarmthObjectId} (h : c.Owns w id) (w' : WorkerId)
    (id' : WarmthObjectId) : (c.noteObject w' id').Owns w id := by
  obtain ⟨ids, hw, hm⟩ := h
  by_cases same : w = w'
  · subst same
    refine ⟨_, ExtTreeMap.getElem?_insert_self, ?_⟩
    rw [ExtTreeMap.getD_eq_getD_getElem?, hw]
    exact ExtTreeSet.mem_insert.mpr (Or.inr hm)
  · exact ⟨ids, (getElem?_insert_of_ne same).trans hw, hm⟩

/-- A turn that notes its object for a live worker keeps the attribution. -/
theorem AttributedTo.turn {o : WarmthObject} {w : WorkerId} (inv : c.AttributedTo live)
    (hw : live w) (t : Turn c c' o)
    (noted : c'.workerObjects = (c.noteObject w o.id).workerObjects) : c'.AttributedTo live := by
  intro id ready
  by_cases hid : id = o.id
  · subst hid
    obtain ⟨ids, entry, hm⟩ := c.noteObject_owns_self w o.id
    exact ⟨w, hw, ids, by rw [noted]; exact entry, hm⟩
  · rw [readyAt, t.others id hid] at ready
    obtain ⟨v, hv, owned⟩ := inv id ready
    obtain ⟨ids, entry, hm⟩ := owned.noteObject w o.id
    exact ⟨v, hv, ids, by rw [noted]; exact entry, hm⟩

theorem AttributedTo.observe {w : WorkerId} (inv : c.AttributedTo live) (hw : live w)
    (o : WarmthObject) : (observe w c o).AttributedTo live := by
  refine inv.turn hw (observe_turn w c o) ?_
  unfold Coordinator.observe
  cases c.objects[o.id]? <;> rfl

theorem AttributedTo.report {w : WorkerId} (inv : c.AttributedTo live) (hw : live w)
    (o : WarmthObject) (now : Timestamp) : (c.report w o now).AttributedTo live := by
  refine inv.turn hw (report_turn w c o now) ?_
  unfold Coordinator.report
  cases c.objects[o.id]? <;> rfl

theorem AttributedTo.imp {live' : WorkerId → Prop} (inv : c.AttributedTo live)
    (h : ∀ w, live w → live' w) : c.AttributedTo live' := by
  intro id ready
  obtain ⟨w, hw, owned⟩ := inv id ready
  exact ⟨w, h w hw, owned⟩

theorem AttributedTo.of_notReadier (inv : c.AttributedTo live) (down : NotReadier c c')
    (same : c'.workerObjects = c.workerObjects) : c'.AttributedTo live := by
  intro id ready
  obtain ⟨w, hw, owned⟩ := inv id (down id ready)
  exact ⟨w, hw, by rwa [Owns, same]⟩

/-- Demoting the whole attribution set of a worker leaves no ready object to that worker alone. -/
theorem AttributedTo.demoted {w : WorkerId} {f : WarmthObjectId → WarmthObject → WarmthObject}
    (inv : c.AttributedTo live) (unready : ∀ id o, isExecutionReady (f id o).state = false)
    {ids : ExtTreeSet WarmthObjectId} (set : c.workerObjects[w]? = some ids)
    (objects : c'.objects = modifyEach c.objects ids.toList f)
    (others : ∀ v, v ≠ w → c'.workerObjects[v]? = c.workerObjects[v]?) :
    c'.AttributedTo fun v => live v ∧ v ≠ w := by
  intro id ready
  by_cases hm : id ∈ ids.toList
  · rw [readyAt, objects, getElem?_modifyEach_of_mem (nodup_set_toList ids) hm] at ready
    cases ho : c.objects[id]? with
    | none => simp [ho] at ready
    | some o => simp [ho, unready] at ready
  · rw [readyAt, objects, getElem?_modifyEach_of_notMem hm] at ready
    obtain ⟨v, hv, own, entry, mem⟩ := inv id ready
    have hne : v ≠ w := by
      rintro rfl
      rw [set] at entry
      cases entry
      exact hm (ExtTreeSet.mem_toList.mpr mem)
    exact ⟨v, ⟨hv, hne⟩, own, (others v hne).trans entry, mem⟩

theorem AttributedTo.invalidate (inv : c.AttributedTo live) (w : WorkerId) :
    (c.invalidateWorkerObjectsLocked w).AttributedTo live := by
  unfold invalidateWorkerObjectsLocked
  split
  next => exact inv
  next ids set =>
    have demoted : AttributedTo { c with
        objects := modifyEach c.objects ids.toList fun _ o =>
          fenced o (text "worker_boot_changed") (text "worker_boot_changed")
        workerObjects := c.workerObjects.insert w ∅ } fun v => live v ∧ v ≠ w :=
      inv.demoted (fun _ o => fenced_ready o _ _) set rfl fun v hne => getElem?_insert_of_ne hne
    exact demoted.imp fun v hv => hv.1

/-- An accepted HELLO keeps the attribution among live workers that include its own. -/
theorem AttributedTo.acceptHello {h : Hello} (inv : c.AttributedTo live) (hw : live h.worker)
    (cs : ConnId) : (c.acceptHello cs h).AttributedTo live := by
  let fencedFirst := if c.bootChanges h then c.invalidateWorkerObjectsLocked h.worker else c
  have start : fencedFirst.AttributedTo live := by
    unfold fencedFirst
    split
    · exact inv.invalidate h.worker
    · exact inv
  exact List.foldlRecOn (motive := fun d : Coordinator => d.AttributedTo live) h.observed
    (Coordinator.observe h.worker) (b := fencedFirst.register cs h) start
    fun d hd o _ => hd.observe hw o

theorem AttributedTo.acceptReport {cs : ConnId} {p : ReportPayload} (inv : c.AttributedTo live)
    (hw : live (c.conns cs).id) (now : Nat → Timestamp) :
    (c.acceptReport cs p now).AttributedTo live := by
  have kept : (c.acceptReport cs p now).AttributedTo live ∧
      (c.acceptReport cs p now).conns = c.conns := by
    unfold Coordinator.acceptReport
    refine List.foldlRecOn _ _ (motive := fun d : Coordinator => d.AttributedTo live ∧ d.conns = c.conns)
      ⟨inv, rfl⟩ fun d hd oi _ => ⟨hd.1.report (by rw [hd.2]; exact hw) oi.1 _, ?_⟩
    rw [report_frame]
    exact hd.2
  exact kept.1

theorem AttributedTo.acceptResult {cs : ConnId} {res : WarmResult} {info : AttemptInfo}
    (inv : c.AttributedTo live) (hw : live (c.conns cs).id) (now : Nat → Timestamp) :
    (c.acceptResult cs res info now).1.AttributedTo live := by
  intro id ready
  cases hs : res.success with
  | false =>
    have same : (c.acceptResult cs res info now).1.workerObjects = c.workerObjects := by
      simp only [Coordinator.acceptResult, settle, applyResult, hs]
      rfl
    rcases acceptResult_readyAt ready with before | ⟨success, _⟩
    · obtain ⟨w, hv, owned⟩ := inv id before
      exact ⟨w, hv, by rwa [Owns, same]⟩
    · rw [hs] at success
      cases success
  | true =>
    have noted : (c.acceptResult cs res info now).1.workerObjects =
        (c.noteObject (c.conns cs).id res.object).workerObjects := by
      simp only [Coordinator.acceptResult, settle, applyResult, hs]
      rfl
    rcases acceptResult_readyAt ready with before | ⟨_, rfl⟩
    · obtain ⟨w, hv, owned⟩ := inv id before
      refine ⟨w, hv, ?_⟩
      rw [Owns, noted]
      exact owned.noteObject _ _
    · refine ⟨_, hw, ?_⟩
      rw [Owns, noted]
      exact c.noteObject_owns_self _ _

theorem AttributedTo.onDisconnect {cs : ConnId} (inv : c.AttributedTo live)
    (policy : c.policy.decay.decayOnProcessRestart = true)
    (registered : (c.conns cs).registered = true) (now : WarmthObjectId → Timestamp) :
    (c.onDisconnect cs now).AttributedTo fun v => live v ∧ v ≠ (c.conns cs).id := by
  have set : (c.onDisconnect cs now).workerObjects = c.workerObjects := by
    rw [onDisconnect_frame]
  cases entry : c.workerObjects[(c.conns cs).id]? with
  | some ids =>
    refine inv.demoted (f := fun id o => disconnectedObject c.policy.decay (now id) o)
      (fun id o => disconnectedObject_unready policy (now id) o) entry ?_ fun v _ => by rw [set]
    simp [Coordinator.onDisconnect, registered, entry]
  | none =>
    intro id ready
    obtain ⟨w, hv, owned⟩ := inv id (notReadier_onDisconnect c cs now id ready)
    refine ⟨w, ⟨hv, ?_⟩, by rwa [Owns, set]⟩
    rintro rfl
    obtain ⟨ids, some, _⟩ := owned
    rw [entry] at some
    cases some

end Coordinator

namespace System

def Live (s : System) (w : WorkerId) : Prop := ∃ c, s.Serves c w

/-- Every execution-ready object belongs to the attribution set of a registered connection that
`on_disconnect` has not processed. -/
def Attributed (s : System) : Prop :=
  ∀ id, s.coord.readyAt id = true → ∃ c, (s.coord.conns c).registered = true ∧
    s.closed c = false ∧ s.coord.Owns (s.coord.conns c).id id

theorem attributed_iff {s : System} : s.Attributed ↔ s.coord.AttributedTo s.Live := by
  constructor
  · intro inv id ready
    obtain ⟨c, registered, up, owned⟩ := inv id ready
    exact ⟨_, ⟨c, up, registered, rfl⟩, owned⟩
  · intro inv id ready
    obtain ⟨w, ⟨c, up, registered, hw⟩, owned⟩ := inv id ready
    exact ⟨c, registered, up, hw ▸ owned⟩

def sendsHello (cs : ConnId) : Step → Bool
  | .frame c f _ => c == cs && f.type == .hello
  | _ => false

/-- Each connection carries at most one HELLO. -/
def HelloOnce (steps : List Step) : Prop := ∀ cs, steps.countP (sendsHello cs) ≤ 1

theorem Registers.sendsHello {s : System} {a : Step} {cs : ConnId} {h : Hello}
    (r : s.Registers a cs h) : System.sendsHello cs a = true := by
  obtain ⟨f, now, rfl, type⟩ := r.frame
  simp [System.sendsHello, type]

/-- A registered connection has carried a HELLO. -/
theorem registered_sendsHello {steps : List Step} {cs : ConnId}
    (h : ((Runs.run step init steps).coord.conns cs).registered = true) :
    0 < steps.countP (sendsHello cs) := by
  induction steps using List.reverseRecOn with
  | nil => cases h
  | append_singleton steps a ih =>
    rw [Runs.run_concat] at h
    rw [List.countP_append]
    by_cases hr : ∃ hello, (Runs.run step init steps).Registers a cs hello
    · obtain ⟨hello, r⟩ := hr
      simp [r.sendsHello]
    · have before : ((Runs.run step init steps).coord.conns cs).registered = true := by
        by_cases other : ∃ c hello, (Runs.run step init steps).Registers a c hello
        · obtain ⟨c, hello, r⟩ := other
          have hne : cs ≠ c := by
            rintro rfl
            exact hr ⟨hello, r⟩
          rwa [(registers_registry r).1, register_conns_of_ne hne] at h
        · rwa [(step_registry fun c hello r => other ⟨c, hello, r⟩).1] at h
      have := ih before
      omega

/-- The HELLO is the first accepted on its connection. -/
def RegistersFresh (s : System) (a : Step) : Prop :=
  ∀ cs h, s.Registers a cs h → (s.coord.conns cs).registered = false

theorem HelloOnce.registersFresh {steps : List Step} (h : HelloOnce steps) :
    Runs.Along step RegistersFresh init steps := by
  induction steps using List.reverseRecOn with
  | nil => trivial
  | append_singleton steps a ih =>
    have count (cs : ConnId) : steps.countP (sendsHello cs) + [a].countP (sendsHello cs) ≤ 1 := by
      rw [← List.countP_append]
      exact h cs
    refine (Runs.along_append steps [a]).mpr
      ⟨ih fun cs => Nat.le_trans (Nat.le_add_right _ _) (count cs), fun cs hello r => ?_, trivial⟩
    by_contra registered
    have before := registered_sendsHello (Bool.eq_true_of_not_eq_false registered)
    have now := count cs
    simp only [List.countP_singleton, r.sendsHello, if_true] at now
    omega

theorem stepped_policy {s t : System} {a : Step} (moved : Stepped s a t) :
    t.coord.policy = s.coord.policy := by
  cases moved with
  | hello => rw [Coordinator.acceptHello_frame]; rfl
  | report => rw [Coordinator.acceptReport_frame]
  | result =>
    rw [Coordinator.acceptResult, Coordinator.applyResult_frame]
    rfl
  | disconnect => rw [Coordinator.onDisconnect_frame]
  | issue issued =>
    rw [Coordinator.issueWarm_frame issued]
    rfl
  | cleanup =>
    unfold after Coordinator.cleanup
    split <;> rfl
  | idle | refuse | send | rollEpoch | bumpWarmth | bumpDependency => rfl

theorem live_congr {s t : System} (conns : t.coord.conns = s.coord.conns)
    (closed : t.closed = s.closed) : t.Live = s.Live := by
  funext w
  simp only [Live, Serves, conns, closed]

theorem attributed_init : init.Attributed := by
  intro id ready
  simp [init, Coordinator.readyAt] at ready

theorem Attributed.acceptHello {s : System} (inv : s.Attributed) {cs : ConnId}
    (up : s.closed cs = false) (fresh : (s.coord.conns cs).registered = false) (h : Hello) :
    Attributed { s with coord := s.coord.acceptHello cs h } := by
  rw [attributed_iff] at inv ⊢
  have conns : (s.coord.acceptHello cs h).conns = (s.coord.register cs h).conns := by
    rw [Coordinator.acceptHello_frame]
  refine Coordinator.AttributedTo.acceptHello (inv.imp ?_) ?_ cs
  · rintro w ⟨c, open_c, registered, id⟩
    have hne : c ≠ cs := by
      rintro rfl
      rw [fresh] at registered
      cases registered
    refine ⟨c, open_c, ?_⟩
    simp only [conns, register_conns_of_ne hne]
    exact ⟨registered, id⟩
  · refine ⟨cs, up, ?_⟩
    simp only [conns, register_conns_self]
    exact ⟨trivial, trivial⟩

theorem Attributed.onDisconnect {s : System} (inv : s.Attributed)
    (policy : s.coord.policy.decay.decayOnProcessRestart = true) (cs : ConnId)
    (now : WarmthObjectId → Timestamp) :
    Attributed { s with
      coord := s.coord.onDisconnect cs now
      closed := fun i => if i = cs then true else s.closed i } := by
  rw [attributed_iff] at inv ⊢
  have kept (c : ConnId) (w : WorkerId) (hc : c ≠ cs) (h : s.Serves c w) :
      Serves { s with
        coord := s.coord.onDisconnect cs now
        closed := fun i => if i = cs then true else s.closed i } c w := by
    rw [Serves, Coordinator.onDisconnect_frame]
    exact ⟨(if_neg hc).trans h.1, h.2⟩
  cases registered : (s.coord.conns cs).registered with
  | true =>
    refine (inv.onDisconnect policy registered now).imp ?_
    rintro w ⟨⟨c, serves⟩, hne⟩
    refine ⟨c, kept c w ?_ serves⟩
    rintro rfl
    exact hne serves.2.2.symm
  | false =>
    have same : s.coord.onDisconnect cs now = s.coord := by
      simp [Coordinator.onDisconnect, registered]
    rw [same] at kept ⊢
    refine inv.imp ?_
    rintro w ⟨c, serves⟩
    refine ⟨c, kept c w ?_ serves⟩
    rintro rfl
    cases registered.symm.trans serves.2.1

theorem Attributed.step {s : System} {a : Step} (inv : s.Attributed)
    (policy : s.coord.policy.decay.decayOnProcessRestart = true) (fresh : s.RegistersFresh a) :
    (s.step a).Attributed := by
  generalize ht : s.step a = t
  have moved : Stepped s a t := ht ▸ stepped_step s a
  cases moved with
  | @hello cs f now h up type decoded version noClash =>
    exact inv.acceptHello up (fresh cs h (.hello up type decoded version noClash)) h
  | @disconnect cs now => exact inv.onDisconnect policy cs now
  | @report cs f now p up type decoded current =>
    rw [attributed_iff] at inv ⊢
    have registered : (s.coord.conns cs).registered = true := by
      simp only [Coordinator.reportRejected, Bool.or_eq_false_iff] at current
      simpa using current.1.1.1.1
    have live := live_congr (t := { s with coord := s.coord.acceptReport cs p now })
      (by rw [Coordinator.acceptReport_frame]) (by rfl)
    rw [live]
    exact inv.acceptReport ⟨cs, up, registered, rfl⟩ now
  | @result cs f now res info up type decoded accepted =>
    rw [attributed_iff] at inv ⊢
    have current := (Coordinator.acceptedAttempt_some accepted).1
    have registered : (s.coord.conns cs).registered = true := by
      simp only [Coordinator.resultCurrent, Bool.and_eq_true] at current
      exact current.1.1.1.1
    have live := live_congr (t := s.after (s.coord.acceptResult cs res info now)) (by
      rw [after, Coordinator.acceptResult, Coordinator.applyResult_frame]) (by rfl)
    rw [live]
    exact inv.acceptResult ⟨cs, up, registered, rfl⟩ now
  | issue issued =>
    rw [Coordinator.issueWarm_frame issued]
    exact inv
  | @cleanup call w =>
    unfold after Coordinator.cleanup
    split <;> exact inv
  | rollEpoch =>
    rw [attributed_iff] at inv ⊢
    exact inv.of_notReadier (Coordinator.notReadier_rollEpoch s.coord) rfl
  | idle | refuse | send | bumpWarmth | bumpDependency => exact inv

/-- No orphan readiness: in every run in which each connection carries at most one HELLO, each
execution-ready object belongs to a connection that is still registered and open. -/
theorem no_orphan_readiness {steps : List Step} (h : HelloOnce steps) :
    (Runs.run step init steps).Attributed := by
  have inv := Runs.invariant (P := RegistersFresh)
    (I := fun s : System => s.coord.policy = .defaults ⟨1⟩ ∧ s.Attributed)
    (fun s a inv fresh => ⟨(stepped_policy (stepped_step s a)).trans inv.1,
      inv.2.step (by rw [inv.1]; rfl) fresh⟩)
    ⟨rfl, attributed_init⟩ h.registersFresh
  exact inv.2

theorem no_orphan_readiness_warmed :
    (Runs.run step init warmed).coord.readyAt ⟨0, 9⟩ = true ∧
      (Runs.run step init warmed).Attributed := by
  refine ⟨by decide +kernel, no_orphan_readiness fun cs => ?_⟩
  by_cases hc : 0 = cs
  · subst hc
    decide +kernel
  · have none : warmed.countP (sendsHello cs) = 0 := by
      simp [warmed, helloOf, reserveOf, resultOf, sendsHello, hc]
    omega

end System

end Warmth
