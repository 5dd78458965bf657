import Warmth.Entries

namespace Warmth

open Codec Std TreeMaps

namespace Coordinator

def readyAt (c : Coordinator) (id : WarmthObjectId) : Bool :=
  match c.objects[id]? with
  | some o => isExecutionReady o.state
  | none => false

theorem readyAt_some {c : Coordinator} {id : WarmthObjectId} {o : WarmthObject}
    (h : c.objects[id]? = some o) : c.readyAt id = isExecutionReady o.state := by
  simp [readyAt, h]

theorem readyAt_none {c : Coordinator} {id : WarmthObjectId} (h : c.objects[id]? = none) :
    c.readyAt id = false := by
  simp [readyAt, h]

/-- The list that a peer sends makes an object of this id ready: the first entry for it is HOT. -/
def arrivesHot (os : List WarmthObject) (id : WarmthObjectId) : Bool :=
  match os.find? (fun o => o.id == id) with
  | some o => o.state == .hot
  | none => false

theorem observedCopy_ready (o : WarmthObject) :
    isExecutionReady (observedCopy o).state = (o.state == .hot) := by
  unfold observedCopy
  cases hs : o.state <;>
    simp [hs, isExecutionReady, WarmthObject.moveTo, WarmthObject.transition, transitionAllowed]
  rfl

theorem reachWarm_ready (o : WarmthObject) (why : CString) :
    isExecutionReady (reachWarm o why).state = true := by
  unfold reachWarm
  cases hs : o.state <;>
    simp [hs, isExecutionReady, WarmthObject.moveTo, WarmthObject.transition, transitionAllowed]

theorem reportedUpdate_ready (cur o : WarmthObject) (now : Timestamp) :
    isExecutionReady (reportedUpdate cur o now).state = isExecutionReady cur.state := by
  unfold reportedUpdate
  simp only
  split
  next h =>
    simp only [Bool.and_eq_true, Bool.not_eq_true'] at h
    rw [h.2]
    cases hr : isExecutionReady (WarmthObject.moveTo _ .discovered (text "observed-not-live")).state
    · rfl
    · rcases WarmthObject.moveTo_ready hr with hc | hd
      · exact absurd (h.2.symm.trans hc) Bool.false_ne_true
      · cases hd
  next => rfl

theorem fenced_ready (o : WarmthObject) (why reason : CString) :
    isExecutionReady (fenced o why reason).state = false := by
  unfold fenced
  simp only [WarmthObject.dropEphemeral_state]
  cases hs : o.state <;>
    simp [hs, isLiveWarmState, isExecutionReady, WarmthObject.moveTo, WarmthObject.transition,
      transitionAllowed]

theorem disconnectedObject_ready {policy : DecayPolicy} {now : Timestamp} {o : WarmthObject}
    (h : isExecutionReady (disconnectedObject policy now o).state = true) :
    isExecutionReady o.state = true := by
  unfold disconnectedObject at h
  simp only [WarmthObject.dropEphemeral_state] at h
  split at h
  next =>
    rcases WarmthObject.moveTo_ready h with h | h
    · exact h
    · exact decayObject_ready h
  next => exact h

/-- One turn of a loop over a peer's objects: an object of a new id is copied in, a known one
stays as ready as it was, and the others are left alone. -/
structure Turn (c c' : Coordinator) (o : WarmthObject) : Prop where
  new : c.objects[o.id]? = none → c'.objects[o.id]? = some (observedCopy o)
  known : ∀ cur, c.objects[o.id]? = some cur →
    ∃ next, c'.objects[o.id]? = some next ∧ isExecutionReady next.state = isExecutionReady cur.state
  others : ∀ id, id ≠ o.id → c'.objects[id]? = c.objects[id]?

theorem Visit.turn {c c' : Coordinator} {o : WarmthObject} (h : Visit c c' o) : Turn c c' o := by
  refine ⟨h.new, fun cur hc => ?_, h.others⟩
  obtain ⟨next, hn, rfl | ⟨now, rfl⟩⟩ := h.known cur hc
  · exact ⟨next, hn, rfl⟩
  · exact ⟨_, hn, reportedUpdate_ready cur o now⟩

theorem observe_turn (w : WorkerId) (c : Coordinator) (o : WarmthObject) :
    Turn c (observe w c o) o := (observe_visit w c o).turn

theorem report_turn (w : WorkerId) (c : Coordinator) (o : WarmthObject) (now : Timestamp) :
    Turn c (c.report w o now) o := (report_visit w c o now).turn

theorem foldl_readyAt {β : Type} {f : Coordinator → β → Coordinator} {g : β → WarmthObject}
    (turn : ∀ c b, Turn c (f c b) (g b)) (bs : List β) (c : Coordinator)
    (id : WarmthObjectId) :
    (bs.foldl f c).readyAt id =
      if (c.objects[id]?).isSome then c.readyAt id else arrivesHot (bs.map g) id := by
  induction bs generalizing c with
  | nil =>
    cases h : c.objects[id]? with
    | none => simp [readyAt_none h, arrivesHot]
    | some o => simp
  | cons b bs ih =>
    have t := turn c b
    rw [List.foldl_cons, ih (f c b)]
    by_cases hid : id = (g b).id
    · subst hid
      cases h : c.objects[(g b).id]? with
      | none =>
        simp [t.new h, readyAt_some (t.new h), observedCopy_ready, arrivesHot]
      | some cur =>
        obtain ⟨next, hn, hr⟩ := t.known cur h
        simp [hn, readyAt_some hn, readyAt_some h, hr]
    · have same := t.others id hid
      have skip : arrivesHot ((b :: bs).map g) id = arrivesHot (bs.map g) id := by
        have hb : ((g b).id == id) = false := beq_false_of_ne (Ne.symm hid)
        simp [arrivesHot, hb]
      rw [skip, readyAt, readyAt, same]

def NotReadier (c c' : Coordinator) : Prop := ∀ id, c'.readyAt id = true → c.readyAt id = true

theorem notReadier_of_objects {c c' : Coordinator} (h : c'.objects = c.objects) :
    NotReadier c c' := by
  intro id hr
  rwa [readyAt, h] at hr

theorem notReadier_of_map {c c' : Coordinator}
    (h : ∀ id : WarmthObjectId, c'.objects[id]? = c.objects[id]? ∨
      ∃ f : WarmthObject → WarmthObject, c'.objects[id]? = c.objects[id]?.map f ∧
        ∀ o, isExecutionReady (f o).state = true → isExecutionReady o.state = true) :
    NotReadier c c' := by
  intro id hr
  rcases h id with same | ⟨f, mapped, down⟩
  · rwa [readyAt, same] at hr
  · cases hc : c.objects[id]? with
    | none =>
      rw [hc] at mapped
      rw [readyAt_none mapped] at hr
      cases hr
    | some o =>
      rw [hc] at mapped
      rw [readyAt_some mapped] at hr
      rw [readyAt_some hc]
      exact down o hr

theorem notReadier_modifyEach {c c' : Coordinator} (ids : ExtTreeSet WarmthObjectId)
    {f : WarmthObjectId → WarmthObject → WarmthObject}
    (h : c'.objects = modifyEach c.objects ids.toList f)
    (down : ∀ id o, isExecutionReady (f id o).state = true → isExecutionReady o.state = true) :
    NotReadier c c' := by
  refine notReadier_of_map fun id => ?_
  by_cases hm : id ∈ ids.toList
  · exact Or.inr ⟨f id, by rw [h, getElem?_modifyEach_of_mem (nodup_set_toList ids) hm], down id⟩
  · exact Or.inl (by rw [h, getElem?_modifyEach_of_notMem hm])

theorem notReadier_failed (c : Coordinator) (id : WarmthObjectId) (why : CString) :
    NotReadier c { c with objects := c.objects.modify id fun o => o.moveTo .failed why } := by
  refine notReadier_of_map fun j => ?_
  by_cases hj : j = id
  · subst hj
    refine Or.inr ⟨_, ExtTreeMap.getElem?_modify_self, fun o ho => ?_⟩
    rcases WarmthObject.moveTo_ready ho with ho | ho
    · exact ho
    · cases ho
  · exact Or.inl (getElem?_modify_of_ne hj)

theorem not_fenced_ready {why reason : CString} {o : WarmthObject}
    (h : isExecutionReady (fenced o why reason).state = true) : isExecutionReady o.state = true := by
  rw [fenced_ready] at h
  cases h

theorem notReadier_invalidate (c : Coordinator) (w : WorkerId) :
    NotReadier c (c.invalidateWorkerObjectsLocked w) := by
  unfold invalidateWorkerObjectsLocked
  split
  next => exact notReadier_of_objects rfl
  next ids _ => exact notReadier_modifyEach ids rfl fun _ _ => not_fenced_ready

theorem notReadier_onDisconnect (c : Coordinator) (cs : ConnId) (now : WarmthObjectId → Timestamp) :
    NotReadier c (c.onDisconnect cs now) := by
  unfold onDisconnect
  split
  next => exact notReadier_of_objects rfl
  next =>
    cases hw : c.workerObjects[(c.conns cs).id]? with
    | none =>
      apply notReadier_of_objects
      simp only [hw]
    | some ids =>
      refine notReadier_modifyEach ids
        (f := fun id o => disconnectedObject c.policy.decay (now id) o) ?_
        fun _ _ => disconnectedObject_ready
      simp only [hw]

theorem notReadier_rollEpoch (c : Coordinator) : NotReadier c c.rollEpoch.1 := by
  refine notReadier_of_map fun id => Or.inr
    ⟨fun o => fenced o (text "authority roll") (text "coordinator_epoch_rolled"), ?_,
      fun _ => not_fenced_ready⟩
  exact ExtTreeMap.getElem?_map

theorem isSome_invalidate (c : Coordinator) (w : WorkerId) (id : WarmthObjectId) :
    ((c.invalidateWorkerObjectsLocked w).objects[id]?).isSome = (c.objects[id]?).isSome := by
  unfold invalidateWorkerObjectsLocked
  split
  next => rfl
  next ids _ =>
    by_cases hm : id ∈ ids.toList
    · rw [getElem?_modifyEach_of_mem (nodup_set_toList ids) hm, Option.isSome_map]
    · rw [getElem?_modifyEach_of_notMem hm]

/-- After an accepted HELLO an unknown id is ready exactly if the first entry for it is HOT, and a
known one is not readier than before. -/
theorem acceptHello_readyAt (c : Coordinator) (cs : ConnId) (h : Hello) (id : WarmthObjectId) :
    (c.objects[id]? = none → (c.acceptHello cs h).readyAt id = arrivesHot h.observed id) ∧
    ((c.objects[id]?).isSome → (c.acceptHello cs h).readyAt id = true → c.readyAt id = true) := by
  let fencedFirst := if c.bootChanges h then c.invalidateWorkerObjectsLocked h.worker else c
  have known : (fencedFirst.objects[id]?).isSome = (c.objects[id]?).isSome := by
    unfold fencedFirst
    split
    · exact isSome_invalidate c h.worker id
    · rfl
  have down : NotReadier c fencedFirst := by
    unfold fencedFirst
    split
    · exact notReadier_invalidate c h.worker
    · exact notReadier_of_objects rfl
  have fold : (c.acceptHello cs h).readyAt id =
      if (fencedFirst.objects[id]?).isSome then fencedFirst.readyAt id
      else arrivesHot h.observed id := by
    have := foldl_readyAt (g := fun o : WarmthObject => o) (observe_turn h.worker) h.observed
      (fencedFirst.register cs h) id
    rwa [List.map_id'] at this
  rw [fold, known]
  constructor
  · intro hn
    rw [hn]
    rfl
  · intro hs hr
    rw [if_pos hs] at hr
    exact down id hr

theorem acceptReport_readyAt (c : Coordinator) (cs : ConnId) (p : ReportPayload)
    (now : Nat → Timestamp) (id : WarmthObjectId) :
    (c.acceptReport cs p now).readyAt id =
      if (c.objects[id]?).isSome then c.readyAt id else arrivesHot p.objects id := by
  unfold acceptReport
  rw [foldl_readyAt (g := Prod.fst) (fun c oi => by exact report_turn _ c oi.1 _),
    List.zipIdx_map_fst]

theorem acceptResult_readyAt {c : Coordinator} {cs : ConnId} {res : WarmResult} {info : AttemptInfo}
    {now : Nat → Timestamp} {id : WarmthObjectId}
    (h : (c.acceptResult cs res info now).1.readyAt id = true) :
    c.readyAt id = true ∨ (res.success = true ∧ res.object = id) := by
  have objects : (c.acceptResult cs res info now).1.objects = (c.applyResult cs res now).objects :=
    rfl
  rw [readyAt, objects, applyResult] at h
  cases hs : res.success with
  | true =>
    by_cases hid : res.object = id
    · exact Or.inr ⟨rfl, hid⟩
    · rw [hs] at h
      refine Or.inl ?_
      rw [readyAt, ← getElem?_insert_of_ne (v := c.completeObject res now) (Ne.symm hid)]
      exact h
  | false =>
    rw [hs] at h
    exact Or.inl (notReadier_failed c res.object res.error id h)

theorem completeObject_ready (c : Coordinator) (res : WarmResult) (now : Nat → Timestamp) :
    isExecutionReady (c.completeObject res now).state = true := by
  unfold completeObject
  split
  · exact reachWarm_ready _ _
  · exact reachWarm_ready _ _

/-- A successful result that is accepted leaves its object ready. -/
theorem acceptResult_ready {c : Coordinator} {res : WarmResult} (success : res.success = true)
    (cs : ConnId) (info : AttemptInfo) (now : Nat → Timestamp) :
    (c.acceptResult cs res info now).1.readyAt res.object = true := by
  have objects : (c.acceptResult cs res info now).1.objects = (c.applyResult cs res now).objects :=
    rfl
  have entry : (c.acceptResult cs res info now).1.objects[res.object]? =
      some (c.completeObject res now) := by
    rw [objects, applyResult, if_pos success]
    exact ExtTreeMap.getElem?_insert_self
  rw [readyAt_some entry]
  exact completeObject_ready c res now

end Coordinator

namespace System

/-- The step is the acceptance of a successful WARM_RESULT for the object, its attempt being in
flight. -/
def Completes (s : System) (a : Step) (id : WarmthObjectId) : Prop :=
  ∃ cs f now res info, a = .frame cs f now ∧ s.closed cs = false ∧ f.type = .warmResult ∧
    decodePayload decodeWarmResult f.payload = some res ∧
    s.coord.acceptedAttempt cs res = some info ∧
    s.coord.inFlight[(⟨res.attempt⟩ : AttemptId)]? = some info ∧
    res.success = true ∧ res.object = id

/-- Whatever the step makes execution-ready, it completes. -/
def ReadyByCompletion (s : System) (a : Step) : Prop :=
  ∀ id, (s.step a).coord.readyAt id = true → s.coord.readyAt id = false → s.Completes a id

/-- The object list of an accepted HELLO or REPORT. -/
inductive Carries (s : System) : Step → List WarmthObject → Prop
  | hello {cs : ConnId} {f : Frame} {now : Nat → Timestamp} {h : Hello} (up : s.closed cs = false)
      (type : f.type = .hello) (decoded : decodePayload decodeHello f.payload = some h)
      (version : h.protocolVersion = kProtocolVersion) (noClash : s.coord.bootClash h = false) :
      Carries s (.frame cs f now) h.observed
  | report {cs : ConnId} {f : Frame} {now : Nat → Timestamp} {p : ReportPayload}
      (up : s.closed cs = false) (type : f.type = .report)
      (decoded : decodePayload decodeReport f.payload = some p)
      (current : s.coord.reportRejected cs p = false) : Carries s (.frame cs f now) p.objects

/-- The step is an accepted HELLO or REPORT in which the first entry for an id that the
coordinator does not know is HOT. -/
def BringsHot (s : System) (a : Step) : Prop :=
  ∃ os id, s.Carries a os ∧ s.coord.objects[id]? = none ∧ Coordinator.arrivesHot os id = true

theorem bringsHot_ready {s : System} {a : Step} (h : s.BringsHot a) : ¬ s.ReadyByCompletion a := by
  obtain ⟨os, id, carries, unknown, hot⟩ := h
  intro hp
  cases carries with
  | @hello cs f now h up type decoded version noClash =>
    obtain ⟨_, _, _, _, _, he, _, ht, _⟩ := hp id (by
      rw [step_frame_up up, after, Coordinator.handleFrame_hello type decoded version noClash,
        (Coordinator.acceptHello_readyAt _ cs h id).1 unknown, hot])
      (Coordinator.readyAt_none unknown)
    cases he
    rw [type] at ht
    cases ht
  | @report cs f now p up type decoded current =>
    obtain ⟨_, _, _, _, _, he, _, ht, _⟩ := hp id (by
      rw [step_frame_up up, after, Coordinator.handleFrame_report type decoded current,
        Coordinator.acceptReport_readyAt, unknown]
      exact hot)
      (Coordinator.readyAt_none unknown)
    cases he
    rw [type] at ht
    cases ht

theorem readyByCompletion_of_cold {s : System} {a : Step} (cold : ¬ s.BringsHot a) :
    s.ReadyByCompletion a := by
  intro id ready unready
  have stepped := stepped_step s a
  generalize s.step a = t at stepped ready
  have unmoved (h : s.coord.NotReadier t.coord) : s.Completes a id := by
    rw [h id ready] at unready
    cases unready
  cases stepped with
  | idle | refuse | send | bumpWarmth | bumpDependency =>
    exact unmoved (Coordinator.notReadier_of_objects rfl)
  | @hello cs f now h up type decoded version noClash =>
    obtain ⟨new, known⟩ := Coordinator.acceptHello_readyAt s.coord cs h id
    cases hc : s.coord.objects[id]? with
    | none =>
      exact absurd ⟨_, id, .hello up type decoded version noClash, hc, (new hc).symm.trans ready⟩
        cold
    | some o =>
      rw [known (by rw [hc]; rfl) ready] at unready
      cases unready
  | @report cs f now p up type decoded current =>
    have reported := Coordinator.acceptReport_readyAt s.coord cs p now id
    rw [ready] at reported
    cases hc : s.coord.objects[id]? with
    | none =>
      rw [hc] at reported
      exact absurd ⟨_, id, .report up type decoded current, hc, reported.symm⟩ cold
    | some o =>
      rw [hc, Option.isSome_some, if_pos rfl, unready] at reported
      cases reported
  | @result cs f now res info up type decoded accepted =>
    rcases Coordinator.acceptResult_readyAt ready with before | ⟨success, object⟩
    · rw [unready] at before
      cases before
    · exact ⟨cs, f, now, res, info, rfl, up, type, decoded, accepted,
        Coordinator.acceptedAttempt_inFlight accepted, success, object⟩
  | disconnect => exact unmoved (Coordinator.notReadier_onDisconnect _ _ _)
  | issue issued =>
    refine unmoved (Coordinator.notReadier_of_objects ?_)
    rw [Coordinator.issueWarm_frame issued]
    rfl
  | cleanup =>
    refine unmoved (Coordinator.notReadier_of_objects ?_)
    simp only [after, Coordinator.cleanup]
    split <;> rfl
  | rollEpoch => exact unmoved (Coordinator.notReadier_rollEpoch s.coord)

theorem readyByCompletion_iff (s : System) (a : Step) :
    s.ReadyByCompletion a ↔ ¬ s.BringsHot a :=
  ⟨fun h hb => bringsHot_ready hb h, readyByCompletion_of_cold⟩

/-- Readiness comes from completions alone in exactly the runs in which no accepted HELLO or
REPORT brings a HOT object of a new id. -/
theorem readiness_by_completion (steps : List Step) :
    Runs.Along step ReadyByCompletion init steps ↔
      Runs.Along step (fun s a => ¬ s.BringsHot a) init steps :=
  ⟨fun h => h.imp fun s a => (readyByCompletion_iff s a).mp,
    fun h => h.imp fun s a => (readyByCompletion_iff s a).mpr⟩

def hotHello : Step :=
  .frame 0 (helloFrame { worker := ⟨0, 1⟩, boot := ⟨0, 1⟩, observed := [{ id := ⟨0, 9⟩, state := .hot }] })
    fun _ => 0

/-- The table has no edge from HOT to DISCOVERED, so the demotion is refused. -/
theorem hotHello_creates_ready : ¬ ∀ s, Reached s → ∀ a, s.ReadyByCompletion a := by
  intro h
  obtain ⟨_, _, _, _, _, he, _, ht, _⟩ :=
    h init Runs.Reachable.start hotHello ⟨0, 9⟩ (by decide +kernel) (by decide)
  cases he
  cases ht

end System

end Warmth
