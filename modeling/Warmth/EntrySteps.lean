import Warmth.Readiness

namespace Warmth

open Codec Std TreeMaps

namespace Coordinator

theorem acceptReport_known {c : Coordinator} {id : WarmthObjectId} {cur : WarmthObject}
    (h : c.objects[id]? = some cur) (cs : ConnId) (p : ReportPayload) (now : Nat → Timestamp) :
    ∃ next, (c.acceptReport cs p now).objects[id]? = some next ∧ Updated cur next :=
  foldl_visit_known (fun c oi => report_visit _ c oi.1 _) h

theorem acceptReport_new {c : Coordinator} {id : WarmthObjectId} (h : c.objects[id]? = none)
    (cs : ConnId) (p : ReportPayload) (now : Nat → Timestamp) :
    (p.objects.find? (fun o => o.id == id) = none ∧
      (c.acceptReport cs p now).objects[id]? = none) ∨
    ∃ o next, p.objects.find? (fun o => o.id == id) = some o ∧
      (c.acceptReport cs p now).objects[id]? = some next ∧ Updated (observedCopy o) next := by
  have := foldl_visit_new (fun c oi => report_visit (c.conns cs).id c oi.1 (now oi.2))
    (l := p.objects.zipIdx) h
  rwa [List.zipIdx_map_fst] at this

/-- The state in which the HELLO handler starts its loop has every object as it was, or fenced. -/
theorem beforeObserve_entry (c : Coordinator) (cs : ConnId) (h : Hello) (id : WarmthObjectId) :
    ((if c.bootChanges h then c.invalidateWorkerObjectsLocked h.worker else c).register
        cs h).objects[id]? = c.objects[id]? ∨
      ∃ cur, c.objects[id]? = some cur ∧
        ((if c.bootChanges h then c.invalidateWorkerObjectsLocked h.worker else c).register
          cs h).objects[id]? =
          some (fenced cur (text "worker_boot_changed") (text "worker_boot_changed")) := by
  simp only [register]
  split
  next =>
    unfold invalidateWorkerObjectsLocked
    split
    next => exact Or.inl rfl
    next ids _ =>
      by_cases hm : id ∈ ids.toList
      · rw [getElem?_modifyEach_of_mem (nodup_set_toList ids) hm]
        cases hc : c.objects[id]? with
        | none => exact Or.inl rfl
        | some cur => exact Or.inr ⟨cur, rfl, rfl⟩
      · exact Or.inl (getElem?_modifyEach_of_notMem hm _)
  next => exact Or.inl rfl

theorem acceptHello_known {c : Coordinator} {id : WarmthObjectId} {cur : WarmthObject}
    (h : c.objects[id]? = some cur) (cs : ConnId) (hello : Hello) :
    ∃ start next, (start = cur ∨
        start = fenced cur (text "worker_boot_changed") (text "worker_boot_changed")) ∧
      (c.acceptHello cs hello).objects[id]? = some next ∧ Updated start next := by
  rcases beforeObserve_entry c cs hello id with same | ⟨cur', hc, entry⟩
  · obtain ⟨next, hn, updated⟩ :=
      foldl_visit_known (g := fun o => o) (observe_visit hello.worker) (l := hello.observed)
        (same.trans h)
    exact ⟨cur, next, Or.inl rfl, hn, updated⟩
  · rw [h] at hc
    cases hc
    obtain ⟨next, hn, updated⟩ :=
      foldl_visit_known (g := fun o => o) (observe_visit hello.worker) (l := hello.observed) entry
    exact ⟨_, next, Or.inr rfl, hn, updated⟩

theorem acceptHello_new {c : Coordinator} {id : WarmthObjectId} (h : c.objects[id]? = none)
    (cs : ConnId) (hello : Hello) :
    (hello.observed.find? (fun o => o.id == id) = none ∧
      (c.acceptHello cs hello).objects[id]? = none) ∨
    ∃ o next, hello.observed.find? (fun o => o.id == id) = some o ∧
      (c.acceptHello cs hello).objects[id]? = some next ∧ Updated (observedCopy o) next := by
  rcases beforeObserve_entry c cs hello id with same | ⟨cur, hc, _⟩
  · have := foldl_visit_new (g := fun o => o) (observe_visit hello.worker)
      (l := hello.observed) (same.trans h)
    rwa [List.map_id'] at this
  · rw [h] at hc
    cases hc

theorem applyResult_entry (c : Coordinator) (cs : ConnId) (res : WarmResult)
    (now : Nat → Timestamp) (id : WarmthObjectId) :
    (c.applyResult cs res now).objects[id]? =
      if res.object = id then
        if res.success then some (c.completeObject res now)
        else c.objects[id]?.map fun o => o.moveTo .failed res.error
      else c.objects[id]? := by
  unfold applyResult
  by_cases hid : res.object = id
  · subst hid
    rw [if_pos rfl]
    split
    · exact ExtTreeMap.getElem?_insert_self
    · exact ExtTreeMap.getElem?_modify_self
  · rw [if_neg hid]
    split
    · exact getElem?_insert_of_ne (Ne.symm hid)
    · exact getElem?_modify_of_ne (Ne.symm hid)

end Coordinator

namespace System

open Coordinator (Updated)

/-- What a step can do to the object stored under an id. -/
inductive Touched (s : System) (a : Step) (id : WarmthObjectId) : Option WarmthObject → Prop
  | same : Touched s a id s.coord.objects[id]?
  | copied {os : List WarmthObject} {o next : WarmthObject} (carries : s.Carries a os)
      (unknown : s.coord.objects[id]? = none)
      (first : os.find? (fun o => o.id == id) = some o) (updated : Updated (observedCopy o) next) :
      Touched s a id (some next)
  | updated {cur next : WarmthObject} (known : s.coord.objects[id]? = some cur)
      (updated : Updated cur next) : Touched s a id (some next)
  | fenced {cur next : WarmthObject} {why reason : CString}
      (known : s.coord.objects[id]? = some cur) (updated : Updated (fenced cur why reason) next) :
      Touched s a id (some next)
  | disconnected {cur : WarmthObject} {policy : DecayPolicy} {now : Timestamp}
      (known : s.coord.objects[id]? = some cur) :
      Touched s a id (some (disconnectedObject policy now cur))
  | completed {res : WarmResult} {now : Nat → Timestamp} (completes : s.Completes a id)
      (object : res.object = id) : Touched s a id (some (s.coord.completeObject res now))
  | failed {cur : WarmthObject} {why : CString} (known : s.coord.objects[id]? = some cur) :
      Touched s a id (some (cur.moveTo .failed why))

theorem touched_hello {s : System} {cs : ConnId} {f : Frame} {now : Nat → Timestamp} {h : Hello}
    (carries : s.Carries (.frame cs f now) h.observed) (id : WarmthObjectId) :
    Touched s (.frame cs f now) id (s.coord.acceptHello cs h).objects[id]? := by
  cases hc : s.coord.objects[id]? with
  | none =>
    rcases Coordinator.acceptHello_new hc cs h with ⟨_, absent⟩ | ⟨o, next, first, entry, updated⟩
    · rw [absent, ← hc]
      exact .same
    · rw [entry]
      exact .copied carries hc first updated
  | some cur =>
    obtain ⟨start, next, rfl | rfl, entry, updated⟩ := Coordinator.acceptHello_known hc cs h
    · rw [entry]
      exact .updated hc updated
    · rw [entry]
      exact .fenced hc updated

theorem touched_report {s : System} {cs : ConnId} {f : Frame} {now : Nat → Timestamp}
    {p : ReportPayload} (carries : s.Carries (.frame cs f now) p.objects) (id : WarmthObjectId) :
    Touched s (.frame cs f now) id (s.coord.acceptReport cs p now).objects[id]? := by
  cases hc : s.coord.objects[id]? with
  | none =>
    rcases Coordinator.acceptReport_new hc cs p now with
      ⟨_, absent⟩ | ⟨o, next, first, entry, updated⟩
    · rw [absent, ← hc]
      exact .same
    · rw [entry]
      exact .copied carries hc first updated
  | some cur =>
    obtain ⟨next, entry, updated⟩ := Coordinator.acceptReport_known hc cs p now
    rw [entry]
    exact .updated hc updated

theorem touched_of_map {s : System} {a : Step} {id : WarmthObjectId} {f : WarmthObject → WarmthObject}
    (h : ∀ cur, s.coord.objects[id]? = some cur → Touched s a id (some (f cur))) :
    Touched s a id (s.coord.objects[id]?.map f) := by
  cases hc : s.coord.objects[id]? with
  | none =>
    have unchanged : Touched s a id s.coord.objects[id]? := Touched.same
    rw [hc] at unchanged
    exact unchanged
  | some cur => exact h cur hc

theorem touched_disconnect (s : System) (cs : ConnId) (now : WarmthObjectId → Timestamp)
    (id : WarmthObjectId) :
    Touched s (.disconnect cs now) id (s.coord.onDisconnect cs now).objects[id]? := by
  unfold Coordinator.onDisconnect
  split
  next => exact .same
  next =>
    cases hw : s.coord.workerObjects[(s.coord.conns cs).id]? with
    | none =>
      simp only [hw]
      exact .same
    | some ids =>
      simp only [hw]
      by_cases hm : id ∈ ids.toList
      · rw [getElem?_modifyEach_of_mem (nodup_set_toList ids) hm]
        exact touched_of_map fun cur hc => .disconnected hc
      · rw [getElem?_modifyEach_of_notMem hm]
        exact .same

theorem touched_result {s : System} {cs : ConnId} {f : Frame} {now : Nat → Timestamp}
    {res : WarmResult} {info : AttemptInfo} (up : s.closed cs = false) (type : f.type = .warmResult)
    (decoded : decodePayload decodeWarmResult f.payload = some res)
    (accepted : s.coord.acceptedAttempt cs res = some info) (id : WarmthObjectId) :
    Touched s (.frame cs f now) id (s.coord.acceptResult cs res info now).1.objects[id]? := by
  have entry : (s.coord.acceptResult cs res info now).1.objects[id]? =
      (s.coord.applyResult cs res now).objects[id]? := rfl
  rw [entry, Coordinator.applyResult_entry]
  split
  next object =>
    split
    next success =>
      exact .completed ⟨cs, f, now, res, info, rfl, up, type, decoded, accepted,
        Coordinator.acceptedAttempt_inFlight accepted, success, object⟩ object
    next => exact touched_of_map fun cur hc => .failed hc
  next => exact .same

theorem touched_step (s : System) (a : Step) (id : WarmthObjectId) :
    Touched s a id (s.step a).coord.objects[id]? := by
  have stepped := stepped_step s a
  generalize s.step a = t at stepped
  cases stepped with
  | idle | refuse | send | bumpWarmth | bumpDependency => exact .same
  | hello up type decoded version noClash =>
    exact touched_hello (.hello up type decoded version noClash) id
  | report up type decoded current => exact touched_report (.report up type decoded current) id
  | result up type decoded accepted => exact touched_result up type decoded accepted id
  | disconnect => exact touched_disconnect s _ _ id
  | @issue _ _ _ c i issued =>
    have same : (s.issue c i).coord.objects = s.coord.objects := by
      rw [issue, Coordinator.issueWarm_frame issued]
    rw [same]
    exact .same
  | @cleanup k w =>
    have same : (s.coord.cleanup w.attempt).1.objects = s.coord.objects := by
      unfold Coordinator.cleanup
      split <;> rfl
    simp only [after, same]
    exact .same
  | rollEpoch =>
    have entry : s.coord.rollEpoch.1.objects[id]? = s.coord.objects[id]?.map fun o =>
        fenced o (text "authority roll") (text "coordinator_epoch_rolled") :=
      ExtTreeMap.getElem?_map
    simp only [after, entry]
    exact touched_of_map fun cur hc => .fenced hc (.refl _)

/-- An object of a new id that an accepted HELLO or REPORT carries first is stored, later entries
of the same list having updated it. -/
theorem Carries.stored {s : System} {a : Step} {os : List WarmthObject} {id : WarmthObjectId}
    {o : WarmthObject} (h : s.Carries a os) (unknown : s.coord.objects[id]? = none)
    (first : os.find? (fun o => o.id == id) = some o) :
    ∃ next, (s.step a).coord.objects[id]? = some next ∧ Updated (observedCopy o) next := by
  cases h with
  | @hello cs f now h up type decoded version noClash =>
    rw [step_frame_up up, after, Coordinator.handleFrame_hello type decoded version noClash]
    rcases Coordinator.acceptHello_new unknown cs h with ⟨missing, _⟩ | ⟨o', next, found, stored⟩
    · rw [first] at missing
      cases missing
    · rw [first] at found
      cases found
      exact ⟨next, stored⟩
  | @report cs f now p up type decoded current =>
    rw [step_frame_up up, after, Coordinator.handleFrame_report type decoded current]
    rcases Coordinator.acceptReport_new unknown cs p now with
      ⟨missing, _⟩ | ⟨o', next, found, stored⟩
    · rw [first] at missing
      cases missing
    · rw [first] at found
      cases found
      exact ⟨next, stored⟩

theorem Completes.stored {s : System} {a : Step} {id : WarmthObjectId} (h : s.Completes a id) :
    ∃ res now, res.object = id ∧
      (s.step a).coord.objects[id]? = some (s.coord.completeObject res now) := by
  obtain ⟨cs, f, now, res, info, rfl, up, type, decoded, accepted, _, success, object⟩ := h
  refine ⟨res, now, object, ?_⟩
  have handled : (s.coord.handleFrame cs f now).1 = (s.coord.acceptResult cs res info now).1 := by
    simp [Coordinator.handleFrame, type, decoded, Coordinator.handleWarmResult, accepted]
  have entry : (s.coord.acceptResult cs res info now).1.objects[id]? =
      (s.coord.applyResult cs res now).objects[id]? := rfl
  rw [step_frame_up up, after, handled, entry, Coordinator.applyResult_entry, if_pos object,
    if_pos success]

end System

end Warmth
