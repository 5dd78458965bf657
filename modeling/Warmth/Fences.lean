import Warmth.AttemptWindow
import Warmth.Attribution
import Warmth.EntrySteps

namespace Warmth

open Codec Std TreeMaps

/-- What an authority fence makes of an object. -/
structure FencedOff (o o' : WarmthObject) : Prop where
  unlive : o'.state ≠ .partiallyWarm ∧ o'.state ≠ .warm ∧ o'.state ≠ .hot ∧ o'.state ≠ .stale
  cold : ∀ i ∈ ephemeralDimensions, o'.dimension i = .cold
  invalid : o'.invalidationReason ≠ none
  state : isLiveWarmState o.state = false → o.state ≠ .stale → o'.state = o.state
  durable : ∀ i, i ∉ ephemeralDimensions → o'.dimension i = o.dimension i
  frame : o' = { o with
    state := o'.state
    stateChangeReason := o'.stateChangeReason
    dims := o'.dims
    invalidationReason := o'.invalidationReason }

theorem fenced_state (o : WarmthObject) (why reason : CString) :
    (fenced o why reason).state =
      if isLiveWarmState o.state || o.state == .stale then .invalidated else o.state := by
  unfold fenced
  simp only [WarmthObject.dropEphemeral_state]
  cases ends : isLiveWarmState o.state || o.state == .stale with
  | false => rfl
  | true =>
    have allowed : transitionAllowed o.state .invalidated = true := by
      revert ends
      cases o.state <;> decide
    rw [if_pos rfl, if_pos rfl, WarmthObject.moveTo_state, if_pos allowed]

/-- The table lets every live or STALE object into INVALIDATED, so the fence holds. -/
theorem fenced_off (o : WarmthObject) (why reason : CString) :
    FencedOff o (fenced o why reason) := by
  have state := fenced_state o why reason
  have frame : fenced o why reason = { o with
      state := (fenced o why reason).state
      stateChangeReason := (fenced o why reason).stateChangeReason
      dims := (fenced o why reason).dims
      invalidationReason := (fenced o why reason).invalidationReason } := by
    unfold fenced
    rw [WarmthObject.dropEphemeral_frame]
    split
    · rw [WarmthObject.moveTo_frame]
    · rfl
  have dimension (i : DimensionIndex) : (fenced o why reason).dimension i =
      if i ∈ ephemeralDimensions then .cold else o.dimension i := by
    unfold fenced
    simp only [WarmthObject.dropEphemeral_dimension]
    split
    · rfl
    · split
      · rw [WarmthObject.moveTo_frame]
        cases i <;> rfl
      · cases i <;> rfl
  refine ⟨?_, fun i hi => ?_, ?_, fun dead fresh => ?_, fun i hi => ?_, frame⟩
  · rw [state]
    cases o.state <;> decide
  · rw [dimension, if_pos hi]
  · unfold fenced
    rw [WarmthObject.dropEphemeral_invalidationReason]
    exact nofun
  · rw [state, dead, beq_false_of_ne fresh]
    rfl
  · rw [dimension, if_neg hi]

namespace Coordinator

variable {c : Coordinator}

theorem getElem?_rollEpoch (c : Coordinator) (id : WarmthObjectId) :
    c.rollEpoch.1.objects[id]? = c.objects[id]?.map fun o =>
      fenced o (text "authority roll") (text "coordinator_epoch_rolled") := ExtTreeMap.getElem?_map

/-- The HELLO handler's loop leaves the objects that are there before it alone. -/
theorem foldl_observe_known {w : WorkerId} {id : WarmthObjectId} {o : WarmthObject}
    (h : c.objects[id]? = some o) (observed : List WarmthObject) :
    (observed.foldl (observe w) c).objects[id]? = some o := by
  induction observed generalizing c with
  | nil => exact h
  | cons p rest ih =>
    apply ih
    by_cases same : p.id = id
    · subst same
      simp only [observe, h]
      exact h
    · exact ((observe_visit w c p).others id (Ne.symm same)).trans h

theorem invalidate_owned {w : WorkerId} {id : WarmthObjectId} (owned : c.Owns w id) :
    (c.invalidateWorkerObjectsLocked w).objects[id]? = c.objects[id]?.map fun o =>
      fenced o (text "worker_boot_changed") (text "worker_boot_changed") := by
  obtain ⟨ids, set, mem⟩ := owned
  simp only [invalidateWorkerObjectsLocked, set]
  exact getElem?_modifyEach_of_mem (nodup_set_toList ids) (ExtTreeSet.mem_toList.mpr mem) _

theorem invalidate_unowned {w : WorkerId} {id : WarmthObjectId} (free : ¬c.Owns w id) :
    (c.invalidateWorkerObjectsLocked w).objects[id]? = c.objects[id]? := by
  unfold invalidateWorkerObjectsLocked
  split
  next => rfl
  next ids set =>
    exact getElem?_modifyEach_of_notMem (fun mem => free ⟨ids, set, ExtTreeSet.mem_toList.mp mem⟩) _

/-- Every object a worker is credited with exists. -/
def OwnedKnown (c : Coordinator) : Prop := ∀ w id, c.Owns w id → c.objects[id]? ≠ none

theorem Owns.of_noteObject {w w' : WorkerId} {id id' : WarmthObjectId}
    (h : (c.noteObject w' id').Owns w id) : c.Owns w id ∨ id = id' := by
  obtain ⟨ids, set, mem⟩ := h
  rcases getElem?_insert_some set with ⟨rfl, rfl⟩ | ⟨_, old⟩
  · rw [ExtTreeSet.mem_insert, Std.compare_eq_iff_eq] at mem
    rcases mem with rfl | mem
    · exact Or.inr rfl
    · rw [ExtTreeMap.getD_eq_getD_getElem?] at mem
      cases before : c.workerObjects[w]? with
      | none =>
        rw [before] at mem
        exact absurd mem ExtTreeSet.not_mem_empty
      | some held =>
        rw [before] at mem
        exact Or.inl ⟨held, before, mem⟩
  · exact Or.inl ⟨ids, old, mem⟩

/-- A turn that notes its object keeps every credited object in place. -/
theorem OwnedKnown.turn {c' : Coordinator} {w : WorkerId} {o : WarmthObject} (inv : c.OwnedKnown)
    (visit : Visit c c' o) (noted : c'.workerObjects = (c.noteObject w o.id).workerObjects) :
    c'.OwnedKnown := by
  have present : c'.objects[o.id]? ≠ none := by
    cases known : c.objects[o.id]? with
    | none =>
      rw [visit.new known]
      exact nofun
    | some cur =>
      obtain ⟨next, entry, _⟩ := visit.known cur known
      rw [entry]
      exact nofun
  intro v id owned
  by_cases same : id = o.id
  · rw [same]
    exact present
  · rw [visit.others id same]
    obtain ⟨ids, set, mem⟩ := owned
    rw [noted] at set
    rcases Owns.of_noteObject ⟨ids, set, mem⟩ with old | new
    · exact inv v id old
    · exact absurd new same

theorem OwnedKnown.foldl {β : Type} {f : Coordinator → β → Coordinator} {g : β → WarmthObject}
    {w : Coordinator → WorkerId} (visit : ∀ c b, Visit c (f c b) (g b))
    (noted : ∀ c b, (f c b).workerObjects = (noteObject c (w c) (g b).id).workerObjects)
    (inv : c.OwnedKnown) (l : List β) : (l.foldl f c).OwnedKnown := by
  induction l generalizing c with
  | nil => exact inv
  | cons b rest ih => exact ih (inv.turn (visit c b) (noted c b))

/-- Changing stored objects in place, with no new credit given. -/
theorem OwnedKnown.mapped {c' : Coordinator} (inv : c.OwnedKnown)
    (kept : ∀ id : WarmthObjectId, c.objects[id]? ≠ none → c'.objects[id]? ≠ none)
    (fewer : ∀ w id, c'.Owns w id → c.Owns w id) : c'.OwnedKnown :=
  fun w id owned => kept id (inv w id (fewer w id owned))

theorem getElem?_modifyEach_ne_none {m : ExtTreeMap WarmthObjectId WarmthObject}
    {ids : ExtTreeSet WarmthObjectId} {f : WarmthObjectId → WarmthObject → WarmthObject}
    {id : WarmthObjectId} (h : m[id]? ≠ none) : (modifyEach m ids.toList f)[id]? ≠ none := by
  by_cases mem : id ∈ ids.toList
  · rw [getElem?_modifyEach_of_mem (nodup_set_toList ids) mem]
    simpa using h
  · rwa [getElem?_modifyEach_of_notMem mem]

theorem OwnedKnown.invalidate (inv : c.OwnedKnown) (w : WorkerId) :
    (c.invalidateWorkerObjectsLocked w).OwnedKnown := by
  unfold invalidateWorkerObjectsLocked
  split
  next => exact inv
  next ids set =>
    refine inv.mapped (fun id => getElem?_modifyEach_ne_none) fun v id owned => ?_
    obtain ⟨own, entry, mem⟩ := owned
    rcases getElem?_insert_some entry with ⟨rfl, rfl⟩ | ⟨_, old⟩
    · exact absurd mem ExtTreeSet.not_mem_empty
    · exact ⟨own, old, mem⟩

theorem observe_noted (w : WorkerId) (c : Coordinator) (o : WarmthObject) :
    (observe w c o).workerObjects = (c.noteObject w o.id).workerObjects := by
  unfold observe
  cases c.objects[o.id]? <;> rfl

theorem report_noted (w : WorkerId) (c : Coordinator) (o : WarmthObject) (now : Timestamp) :
    (c.report w o now).workerObjects = (c.noteObject w o.id).workerObjects := by
  unfold report
  cases c.objects[o.id]? <;> rfl

theorem OwnedKnown.acceptHello (inv : c.OwnedKnown) (cs : ConnId) (h : Hello) :
    (c.acceptHello cs h).OwnedKnown := by
  unfold Coordinator.acceptHello
  refine OwnedKnown.foldl (g := fun o => o) (w := fun _ => h.worker) (observe_visit h.worker)
    (observe_noted h.worker) ?_ _
  have start : (if c.bootChanges h then c.invalidateWorkerObjectsLocked h.worker
      else c).OwnedKnown := by
    split
    · exact inv.invalidate h.worker
    · exact inv
  exact start

theorem OwnedKnown.applyResult (inv : c.OwnedKnown) (cs : ConnId) (res : WarmResult)
    (now : Nat → Timestamp) : (c.applyResult cs res now).OwnedKnown := by
  intro w id owned
  rw [applyResult_entry]
  unfold Coordinator.applyResult at owned
  split at owned
  next success =>
    by_cases same : res.object = id
    · rw [if_pos same, if_pos success]
      exact nofun
    · rw [if_neg same]
      rcases owned.of_noteObject with old | new
      · exact inv w id old
      · exact absurd new.symm same
  next failure =>
    have known := inv w id owned
    split
    · simpa using known
    · exact known

end Coordinator

namespace System

theorem ownedKnown_step {s : System} (inv : s.coord.OwnedKnown) (a : Step) :
    (s.step a).coord.OwnedKnown := by
  have stepped := stepped_step s a
  generalize s.step a = t at stepped
  cases stepped with
  | idle | refuse | send | bumpWarmth | bumpDependency => exact inv
  | hello => exact inv.acceptHello _ _
  | @report cs f now p up type decoded current =>
    change (s.coord.acceptReport cs p now).OwnedKnown
    unfold Coordinator.acceptReport
    exact Coordinator.OwnedKnown.foldl (g := fun oi : WarmthObject × Nat => oi.1)
      (w := fun c => (c.conns cs).id) (fun c oi => Coordinator.report_visit _ c oi.1 _)
      (fun c oi => Coordinator.report_noted _ c oi.1 _) inv _
  | @result cs f now res info up type decoded accepted => exact inv.applyResult cs res now
  | @disconnect cs now up =>
    refine inv.mapped (fun id known => ?_) fun w id owned => ?_
    · change (s.coord.onDisconnect cs now).objects[id]? ≠ none
      unfold Coordinator.onDisconnect
      split
      next => exact known
      next =>
        cases set : s.coord.workerObjects[(s.coord.conns cs).id]? with
        | none => simpa only [set] using known
        | some ids =>
          simp only [set]
          exact Coordinator.getElem?_modifyEach_ne_none known
    · have same : (s.coord.onDisconnect cs now).workerObjects = s.coord.workerObjects := by
        rw [Coordinator.onDisconnect_frame]
      obtain ⟨ids, set, mem⟩ := owned
      exact ⟨ids, same ▸ set, mem⟩
  | @issue object action preferred c i issued =>
    change c.OwnedKnown
    rw [Coordinator.issueWarm_frame issued]
    exact inv
  | @cleanup call w =>
    change (s.coord.cleanup w.attempt).1.OwnedKnown
    unfold Coordinator.cleanup
    split <;> exact inv
  | rollEpoch =>
    refine inv.mapped (fun id known => ?_) fun w id owned => owned
    change s.coord.rollEpoch.1.objects[id]? ≠ none
    rw [Coordinator.getElem?_rollEpoch]
    simpa using known

theorem ownedKnown_run (steps : List Step) : (Runs.run step init steps).coord.OwnedKnown := by
  refine Runs.reachable_invariant (I := fun s : System => s.coord.OwnedKnown)
    (fun w id owned => ?_) (fun _ a inv => ownedKnown_step inv a) (Runs.reachable_run steps)
  obtain ⟨ids, set, _⟩ := owned
  cases set

/-- What the HELLO of a changed boot does to the objects that are there: those credited to the
worker are fenced off, whatever the HELLO goes on to report, and the others stay as they are. -/
theorem hello_fences {c : Coordinator} (known : c.OwnedKnown) {cs : ConnId} {h : Hello}
    {boot : WorkerBootId} (last : c.lastBoot[h.worker]? = some boot) (changed : boot ≠ h.boot) :
    (∀ id, c.Owns h.worker id → ∃ o o', c.objects[id]? = some o ∧
      (c.acceptHello cs h).objects[id]? = some o' ∧ FencedOff o o') ∧
    ∀ (id : WarmthObjectId) (o : WarmthObject), c.objects[id]? = some o → ¬c.Owns h.worker id →
      (c.acceptHello cs h).objects[id]? = some o := by
  have changes : c.bootChanges h = true := by
    simpa [Coordinator.bootChanges, last] using changed
  have kept {id : WarmthObjectId} {o : WarmthObject}
      (entry : (c.invalidateWorkerObjectsLocked h.worker).objects[id]? = some o) :
      (c.acceptHello cs h).objects[id]? = some o := by
    unfold Coordinator.acceptHello
    rw [changes]
    exact Coordinator.foldl_observe_known
      (c := (c.invalidateWorkerObjectsLocked h.worker).register cs h) entry h.observed
  constructor
  · intro id owned
    obtain ⟨o, entry⟩ := Option.ne_none_iff_exists'.mp (known h.worker id owned)
    have inside := Coordinator.invalidate_owned owned
    rw [entry, Option.map_some] at inside
    exact ⟨o, _, entry, kept inside, fenced_off o _ _⟩
  · intro id o entry free
    apply kept
    rw [Coordinator.invalidate_unowned free]
    exact entry

/-- Authority fences. In every state a run reaches, a roll of the epoch fences off every object,
empties the attempts in flight and leaves nothing outstanding, and an accepted HELLO of a changed
boot fences off the objects credited to its worker and leaves the others alone. The counter of
attempts in flight comes to zero with the roll unless an attempt was issued under the id of one
still in flight. -/
theorem authority_fences (steps : List Step) :
    (∀ (id : WarmthObjectId) (o : WarmthObject),
      (Runs.run step init steps).coord.objects[id]? = some o →
      ∃ o', ((Runs.run step init steps).step .rollEpoch).coord.objects[id]? = some o' ∧
        FencedOff o o') ∧
    (∀ (id : WarmthObjectId) (o' : WarmthObject),
      ((Runs.run step init steps).step .rollEpoch).coord.objects[id]? = some o' →
      ∃ o, (Runs.run step init steps).coord.objects[id]? = some o ∧ FencedOff o o') ∧
    ((Runs.run step init steps).step .rollEpoch).coord.inFlight = ∅ ∧
    ((Runs.run step init steps).step .rollEpoch).coord.outstandingBudget = 0 ∧
    (Runs.Along step (fun s a => ¬s.Reissues a) init steps →
      ((Runs.run step init steps).step .rollEpoch).coord.inFlightCount = 0) ∧
    ∀ (cs : ConnId) (h : Hello) (boot : WorkerBootId),
      (Runs.run step init steps).coord.lastBoot[h.worker]? = some boot → boot ≠ h.boot →
      ((Runs.run step init steps).coord.handleHello cs h).2.accepted = true →
      (∀ id, (Runs.run step init steps).coord.Owns h.worker id →
        ∃ o o', (Runs.run step init steps).coord.objects[id]? = some o ∧
          ((Runs.run step init steps).coord.handleHello cs h).1.objects[id]? = some o' ∧
          FencedOff o o') ∧
      ∀ (id : WarmthObjectId) (o : WarmthObject),
        (Runs.run step init steps).coord.objects[id]? = some o →
        ¬(Runs.run step init steps).coord.Owns h.worker id →
        ((Runs.run step init steps).coord.handleHello cs h).1.objects[id]? = some o := by
  have rolled (id : WarmthObjectId) :=
    (Runs.run step init steps).coord.getElem?_rollEpoch id
  refine ⟨fun id o entry => ?_, fun id o' entry => ?_, rfl,
    (recent_of_reached (Runs.reachable_run steps)).rolled_outstanding,
    fun new => (countBounded_run new).rollEpoch, fun cs h boot last changed accepted => ?_⟩
  · refine ⟨_, (rolled id).trans (by rw [entry]; rfl), fenced_off o _ _⟩
  · obtain ⟨o, before, rfl⟩ := Option.map_eq_some_iff.mp ((rolled id).symm.trans entry)
    exact ⟨o, before, fenced_off o _ _⟩
  · have handled : ((Runs.run step init steps).coord.handleHello cs h).1 =
        (Runs.run step init steps).coord.acceptHello cs h := by
      unfold Coordinator.handleHello at accepted ⊢
      split at accepted
      next => cases accepted
      next noClash => rw [if_neg noClash]
    rw [handled]
    exact hello_fences (ownedKnown_run steps) last changed

/-- An `issue_warm` call whose send fails, from its reservations to its cleanup. -/
def failedCall : List Step := [reserveOf ⟨0, 9⟩, .send 0 false, .cleanup 0]

/-- One attempt, the first, stays in flight, and the counter of attempts stands at `next`. -/
structure FirstParked (s : System) (next : UInt64) : Prop where
  eligible : s.coord.eligible none = some 0
  unlimited : s.coord.budget.limits = {}
  idle : s.calls = []
  parked : ∃ info, s.coord.inFlight = (∅ : ExtTreeMap AttemptId AttemptInfo).insert ⟨1⟩ info
  count : s.coord.inFlightCount = 1
  counter : s.coord.attemptCounter = next

theorem issueWarm_eligible {c : Coordinator} {target : ConnId} (found : c.eligible none = some target)
    (unlimited : c.budget.limits = {}) (object : WarmthObjectId) (action : WarmthAction) :
    ∃ c' i, c.issueWarm object action none = (c', some i) ∧ c'.budget.limits = {} := by
  have fits : c.budget.fits .deviceMemory kDefaultWarmBytes = true :=
    BudgetTracker.fits_unlimited (by rw [unlimited]; rfl) _
  have granted : (c.budget.reserve .deviceMemory kDefaultWarmBytes (text "warm")).1 ≠ 0 := by
    rw [BudgetTracker.reserve_eq _ _ (by decide), fits]
    exact c.budget.takeId_ne_zero
  rcases outcome : c.issueWarm object action none with ⟨c', none | i⟩
  · simp only [Coordinator.issueWarm, found] at outcome
    split at outcome
    next refused => exact absurd (eq_of_beq refused) granted
    next => cases outcome
  · obtain ⟨-, -, -, -, b, e₁, b', e₂, first, -, second, rfl⟩ := Coordinator.issueWarm_some outcome
    have limits₁ := c.budget.reserve_limits .deviceMemory kDefaultWarmBytes (text "warm")
    have limits₂ := b.reserve_limits .concurrentWarmingOps 1 (text "warm")
    rw [first] at limits₁
    rw [second] at limits₂
    exact ⟨_, i, rfl, limits₂.trans (limits₁.trans unlimited)⟩

/-- A failed call leaves the books as they were, but for an entry it found under its own id. -/
theorem FirstParked.failedCall {s : System} {next : UInt64} (h : s.FirstParked next) :
    ∃ info : AttemptInfo,
      (Runs.run step s failedCall).coord.inFlight =
        (s.coord.inFlight.insert ⟨next⟩ info).erase ⟨next⟩ ∧
      (Runs.run step s failedCall).coord.eligible none = some 0 ∧
      (Runs.run step s failedCall).coord.budget.limits = {} ∧
      (Runs.run step s failedCall).calls = [] ∧
      (Runs.run step s failedCall).coord.inFlightCount = 1 ∧
      (Runs.run step s failedCall).coord.attemptCounter = next + 1 := by
  obtain ⟨c, i, issued, unlimited⟩ := issueWarm_eligible h.eligible h.unlimited ⟨0, 9⟩ .loadModel
  obtain ⟨found, number, -⟩ := Coordinator.issueWarm_some issued
  have frame := Coordinator.issueWarm_frame issued
  rw [h.counter] at number
  have target : i.target = 0 := Option.some.inj (found.symm.trans h.eligible)
  have one : s.step (reserveOf ⟨0, 9⟩) = s.issue c i := by
    simp only [reserveOf, System.step, issued]
  have calls : (s.issue c i).calls = [⟨i.attempt, i.target, .reserved⟩] := by
    simp [System.issue, h.idle]
  have two : (s.issue c i).step (.send 0 false) =
      { s.issue c i with calls := [⟨i.attempt, i.target, .sendFailed⟩] } := by
    simp only [System.step, calls, List.getElem?_cons_zero, Bool.false_eq_true, if_false,
      List.set_cons_zero]
  have entry : c.inFlight[i.attempt]? = some i.info := by
    rw [frame]
    exact ExtTreeMap.getElem?_insert_self
  have three : ({ s.issue c i with calls := [⟨i.attempt, i.target, .sendFailed⟩] } : System).step
      (.cleanup 0) = ({ s.issue c i with calls := [] } : System).after (c.cleanup i.attempt) := rfl
  have run : Runs.run step s Warmth.System.failedCall =
      ({ s.issue c i with calls := [] } : System).after (c.cleanup i.attempt) := by
    rw [Warmth.System.failedCall, Runs.run_cons, Runs.run_cons, Runs.run_cons, one, two, three]
    rfl
  have cleaned : (c.cleanup i.attempt).1 = (c.settle i.attempt i.info).1 := by
    simp only [Coordinator.cleanup, entry]
  have frame' : c.inFlight = s.coord.inFlight.insert ⟨next⟩ i.info ∧ c.inFlightCount = 2 ∧
      c.attemptCounter = next + 1 := by
    rw [frame, number, h.count, h.counter]
    exact ⟨rfl, rfl, rfl⟩
  rw [run]
  refine ⟨i.info, ?_, ?_, ?_, rfl, ?_, ?_⟩
  · change (c.cleanup i.attempt).1.inFlight = _
    rw [cleaned, ← frame'.1, number]
    rfl
  · have same : (c.cleanup i.attempt).1.eligible none = s.coord.eligible none := by
      rw [cleaned, frame]
      rfl
    exact same.trans h.eligible
  · change (c.cleanup i.attempt).1.budget.limits = {}
    rw [cleaned]
    change (c.budget.releaseAll i.info.held).2.limits = {}
    rw [BudgetTracker.releaseAll_frame, unlimited]
  · change (c.cleanup i.attempt).1.inFlightCount = 1
    rw [cleaned]
    change (if 0 < c.inFlightCount then c.inFlightCount - 1 else c.inFlightCount) = 1
    rw [frame'.2.1]
    rfl
  · change (c.cleanup i.attempt).1.attemptCounter = next + 1
    rw [cleaned]
    exact frame'.2.2

theorem FirstParked.next {s : System} {next : UInt64} (h : s.FirstParked next) (fresh : next ≠ 1) :
    (Runs.run step s Warmth.System.failedCall).FirstParked (next + 1) := by
  obtain ⟨info, inFlight, eligible, unlimited, idle, count, counter⟩ := h.failedCall
  obtain ⟨first, parked⟩ := h.parked
  refine ⟨eligible, unlimited, idle, ⟨first, ?_⟩, count, counter⟩
  rw [inFlight, parked]
  apply ExtTreeMap.ext_getElem?
  intro a
  by_cases ha : a = ⟨next⟩
  · subst ha
    have other : (⟨next⟩ : AttemptId) ≠ ⟨1⟩ := fun same => fresh (congrArg (·.value) same)
    rw [ExtTreeMap.getElem?_erase_self, getElem?_insert_of_ne other]
    exact ExtTreeMap.getElem?_empty.symm
  · rw [getElem?_erase_of_ne ha, getElem?_insert_of_ne ha]

theorem firstParked_calls {s : System} (h : s.FirstParked 2) {k : Nat} (room : k < 2 ^ 64) :
    (Runs.run step s (List.replicate k failedCall).flatten).FirstParked (UInt64.ofNat (k + 2)) := by
  induction k with
  | zero => exact h
  | succ k ih =>
    have before := ih (by omega)
    have fresh : UInt64.ofNat (k + 2) ≠ 1 := by
      intro same
      have value := congrArg UInt64.toNat same
      rw [UInt64.toNat_ofNat', UInt64.toNat_one] at value
      omega
    have after := before.next fresh
    rw [← Runs.run_append] at after
    have split : (List.replicate (k + 1) failedCall).flatten =
        (List.replicate k failedCall).flatten ++ failedCall := by
      rw [List.replicate_succ', List.flatten_append, List.flatten_singleton]
    rw [split, show k + 1 + 2 = k + 2 + 1 by omega, UInt64.ofNat_add (k + 2) 1]
    exact after

def firstAttempt : List Step := [helloOf 0 ⟨0, 1⟩ ⟨0, 1⟩, reserveOf ⟨0, 9⟩, .send 0 true]

/-- One attempt is sent and stays in flight while `k + 1` more fail. -/
def wrappedAttempts (k : Nat) : List Step :=
  firstAttempt ++ ((List.replicate k failedCall).flatten ++ failedCall)

theorem firstAttempt_parked : (Runs.run step init firstAttempt).FirstParked 2 := by
  refine ⟨by decide +kernel, by decide +kernel, by decide +kernel,
    ⟨⟨⟨0, 9⟩, ⟨0, 1⟩, 1, 2⟩, ?_⟩, by decide +kernel, by decide +kernel⟩
  have entry : (Runs.run step init firstAttempt).coord.inFlight[(⟨1⟩ : AttemptId)]? =
      some ⟨⟨0, 9⟩, ⟨0, 1⟩, 1, 2⟩ := by decide +kernel
  have size : (Runs.run step init firstAttempt).coord.inFlight.size = 1 := by decide +kernel
  have erased : ((Runs.run step init firstAttempt).coord.inFlight.erase ⟨1⟩).isEmpty = true := by
    have sizes := size_erase_of_some entry
    rw [ExtTreeMap.isEmpty_eq_size_beq_zero, beq_iff_eq]
    omega
  apply ExtTreeMap.ext_getElem?
  intro a
  by_cases ha : a = ⟨1⟩
  · rw [ha, entry, ExtTreeMap.getElem?_insert_self]
  · rw [getElem?_insert_of_ne ha, ← getElem?_erase_of_ne ha, isEmpty_iff_getElem?.mp erased a]
    exact ExtTreeMap.getElem?_empty.symm

/-- After 2^64 failed calls the id of the first attempt has come up again. The last call takes
that attempt out of flight along with its own but counts down for one only, so the roll finds
nothing in flight and leaves the counter at one. -/
theorem wrappedAttempts_count {k : Nat} (last : k + 1 = 2 ^ 64) :
    ((Runs.run step init (wrappedAttempts k)).step .rollEpoch).coord.inFlightCount = 1 := by
  have parked := firstParked_calls firstAttempt_parked (k := k) (by omega)
  obtain ⟨info, inFlight, -, -, -, count, -⟩ := parked.failedCall
  obtain ⟨first, only⟩ := parked.parked
  have again : UInt64.ofNat (k + 2) = 1 := by
    apply UInt64.toNat_inj.mp
    rw [UInt64.toNat_ofNat', UInt64.toNat_one]
    omega
  have whole : Runs.run step init (wrappedAttempts k) =
      Runs.run step (Runs.run step (Runs.run step init firstAttempt)
        (List.replicate k failedCall).flatten) failedCall := by
    rw [wrappedAttempts, Runs.run_append, Runs.run_append]
  have empty : (Runs.run step init (wrappedAttempts k)).coord.inFlight.isEmpty = true := by
    rw [whole, inFlight, only, again, isEmpty_iff_getElem?]
    intro a
    by_cases ha : a = ⟨1⟩
    · rw [ha]
      exact ExtTreeMap.getElem?_erase_self
    · rw [getElem?_erase_of_ne ha, getElem?_insert_of_ne ha, getElem?_insert_of_ne ha]
      exact ExtTreeMap.getElem?_empty
  change (if (Runs.run step init (wrappedAttempts k)).coord.inFlight.isEmpty then
    (Runs.run step init (wrappedAttempts k)).coord.inFlightCount else 0) = 1
  rw [if_pos empty, whole]
  exact count

theorem roll_leaves_count :
    ((Runs.run step init (wrappedAttempts (2 ^ 64 - 1))).step .rollEpoch).coord.inFlightCount ≠ 0 := by
  rw [wrappedAttempts_count (by decide)]
  decide

end System

end Warmth
