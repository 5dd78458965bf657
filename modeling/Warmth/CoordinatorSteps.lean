import Warmth.Coordinator

namespace Warmth

open Codec Std TreeMaps

namespace Coordinator

inductive Handled (c : Coordinator) (cs : ConnId) (now : Nat → Timestamp) :
    Frame → Coordinator × Effects → Prop
  | ignored {f : Frame} {e : Effects} (nothing : e.released = []) : Handled c cs now f (c, e)
  | hello {f : Frame} {h : Hello} {e : Effects} (type : f.type = .hello)
      (decoded : decodePayload decodeHello f.payload = some h)
      (version : h.protocolVersion = kProtocolVersion)
      (noClash : c.bootClash h = false) (nothing : e.released = []) :
      Handled c cs now f (c.acceptHello cs h, e)
  | report {f : Frame} {p : ReportPayload} {e : Effects} (type : f.type = .report)
      (decoded : decodePayload decodeReport f.payload = some p)
      (current : c.reportRejected cs p = false) (nothing : e.released = []) :
      Handled c cs now f (c.acceptReport cs p now, e)
  | result {f : Frame} {res : WarmResult} {info : AttemptInfo} (type : f.type = .warmResult)
      (decoded : decodePayload decodeWarmResult f.payload = some res)
      (accepted : c.acceptedAttempt cs res = some info) :
      Handled c cs now f (c.acceptResult cs res info now)

theorem handleFrame_handled (c : Coordinator) (cs : ConnId) (f : Frame) (now : Nat → Timestamp) :
    Handled c cs now f (c.handleFrame cs f now) := by
  unfold handleFrame
  split
  next ht =>
    split
    next => exact .ignored rfl
    next h hd =>
      split
      next => exact .ignored rfl
      next hv =>
        simp only [handleHello]
        split
        next => exact .ignored rfl
        next hc => exact .hello ht hd (Decidable.not_not.mp hv) (Bool.eq_false_of_not_eq_true hc) rfl
  next ht =>
    split
    next => exact .ignored rfl
    next p hd =>
      simp only [handleReport]
      split
      next => exact .ignored rfl
      next hr => exact .report ht hd (Bool.eq_false_of_not_eq_true hr) rfl
  next ht =>
    split
    next => exact .ignored rfl
    next res hd =>
      unfold handleWarmResult
      split
      next => exact .ignored rfl
      next info ha => exact .result ht hd ha
  next => exact .ignored rfl
  next => exact .ignored rfl

theorem handleFrame_hello {c : Coordinator} {f : Frame} {h : Hello} (type : f.type = .hello)
    (decoded : decodePayload decodeHello f.payload = some h)
    (version : h.protocolVersion = kProtocolVersion) (noClash : c.bootClash h = false)
    (cs : ConnId) (now : Nat → Timestamp) : (c.handleFrame cs f now).1 = c.acceptHello cs h := by
  simp [handleFrame, type, decoded, version, handleHello, noClash]

theorem handleFrame_report {c : Coordinator} {cs : ConnId} {f : Frame} {p : ReportPayload}
    (type : f.type = .report) (decoded : decodePayload decodeReport f.payload = some p)
    (current : c.reportRejected cs p = false) (now : Nat → Timestamp) :
    (c.handleFrame cs f now).1 = c.acceptReport cs p now := by
  simp [handleFrame, type, decoded, handleReport, current]

theorem acceptedAttempt_some {c : Coordinator} {cs : ConnId} {res : WarmResult} {info : AttemptInfo}
    (h : c.acceptedAttempt cs res = some info) :
    c.resultCurrent cs res = true ∧ c.inFlight[(⟨res.attempt⟩ : AttemptId)]? = some info ∧
      info.worker = (c.conns cs).id ∧ info.object = res.object := by
  unfold acceptedAttempt at h
  split at h
  next hc =>
    split at h
    next hi =>
      split at h
      next hm =>
        cases h
        simp only [Bool.and_eq_true, beq_iff_eq] at hm
        exact ⟨hc, hi, hm.1, hm.2⟩
      next => cases h
    next => cases h
  next => cases h

theorem acceptedAttempt_inFlight {c : Coordinator} {cs : ConnId} {res : WarmResult}
    {info : AttemptInfo} (h : c.acceptedAttempt cs res = some info) :
    c.inFlight[(⟨res.attempt⟩ : AttemptId)]? = some info := (acceptedAttempt_some h).2.1

/-- An `issue_warm` call that goes on to send has its device reservation and is in flight. -/
theorem issueWarm_some {c c' : Coordinator} {object : WarmthObjectId} {action : WarmthAction}
    {preferred : Option WorkerId} {i : Issue}
    (h : c.issueWarm object action preferred = (c', some i)) :
    c.eligible preferred = some i.target ∧ i.attempt = ⟨c.attemptCounter⟩ ∧
    i.info.object = object ∧ i.info.worker = (c.conns i.target).id ∧
    ∃ b e₁ b' e₂,
      c.budget.reserve .deviceMemory kDefaultWarmBytes (text "warm") =
        (i.info.reservationId, e₁, b) ∧
      i.info.reservationId ≠ 0 ∧
      b.reserve .concurrentWarmingOps 1 (text "warm") = (i.info.opReservationId, e₂, b') ∧
      c' = { c with
        budget := b'
        attemptCounter := c.attemptCounter + 1
        inFlight := c.inFlight.insert i.attempt i.info
        inFlightCount := c.inFlightCount + 1 } := by
  unfold issueWarm at h
  cases he : c.eligible preferred with
  | none => rw [he] at h; cases h
  | some target =>
    rw [he] at h
    rcases h1 : c.budget.reserve .deviceMemory kDefaultWarmBytes (text "warm") with ⟨id₁, e₁, b⟩
    rcases h2 : b.reserve .concurrentWarmingOps 1 (text "warm") with ⟨id₂, e₂, b'⟩
    simp only [h1, h2] at h
    split at h
    next => cases h
    next hz =>
      cases h
      exact ⟨rfl, rfl, rfl, rfl, b, e₁, b', e₂, rfl, by simpa using hz, h2, rfl⟩

theorem issueWarm_frame {c c' : Coordinator} {object : WarmthObjectId} {action : WarmthAction}
    {preferred : Option WorkerId} {i : Issue}
    (h : c.issueWarm object action preferred = (c', some i)) :
    c' = { c with
      budget := c'.budget
      attemptCounter := c.attemptCounter + 1
      inFlight := c.inFlight.insert i.attempt i.info
      inFlightCount := c.inFlightCount + 1 } := by
  obtain ⟨-, -, -, -, b, e₁, b', e₂, -, -, -, rfl⟩ := issueWarm_some h
  rfl

/-- An `issue_warm` call that gives up early leaves at most a refused reservation behind. -/
theorem issueWarm_none {c c' : Coordinator} {object : WarmthObjectId} {action : WarmthAction}
    {preferred : Option WorkerId} (h : c.issueWarm object action preferred = (c', none)) :
    c' = c ∨ ∃ e b, c.budget.reserve .deviceMemory kDefaultWarmBytes (text "warm") = (0, e, b) ∧
      c' = { c with budget := b } := by
  unfold issueWarm at h
  cases he : c.eligible preferred with
  | none =>
    rw [he] at h
    cases h
    exact Or.inl rfl
  | some target =>
    rw [he] at h
    rcases h1 : c.budget.reserve .deviceMemory kDefaultWarmBytes (text "warm") with ⟨id₁, e₁, b⟩
    simp only [h1] at h
    split at h
    next hz =>
      cases h
      cases eq_of_beq hz
      exact Or.inr ⟨e₁, b, rfl, rfl⟩
    next => cases h

theorem observe_frame (w : WorkerId) (c : Coordinator) (o : WarmthObject) :
    observe w c o = { c with
      objects := (observe w c o).objects
      workerObjects := (observe w c o).workerObjects } := by
  unfold observe
  cases c.objects[o.id]? <;> rfl

theorem report_frame (w : WorkerId) (c : Coordinator) (o : WarmthObject) (now : Timestamp) :
    c.report w o now = { c with
      objects := (c.report w o now).objects
      workerObjects := (c.report w o now).workerObjects } := by
  unfold report
  cases c.objects[o.id]? <;> rfl

/-- A loop whose turns change the objects and their owners changes nothing else. -/
theorem foldl_frame {β : Type} (f : Coordinator → β → Coordinator)
    (frame : ∀ c b, f c b = { c with
      objects := (f c b).objects, workerObjects := (f c b).workerObjects })
    (bs : List β) (c : Coordinator) :
    bs.foldl f c = { c with
      objects := (bs.foldl f c).objects, workerObjects := (bs.foldl f c).workerObjects } := by
  induction bs generalizing c with
  | nil => rfl
  | cons b bs ih =>
    rw [List.foldl_cons, ih (f c b), frame c b]

theorem invalidateWorkerObjectsLocked_frame (c : Coordinator) (w : WorkerId) :
    c.invalidateWorkerObjectsLocked w = { c with
      objects := (c.invalidateWorkerObjectsLocked w).objects
      workerObjects := (c.invalidateWorkerObjectsLocked w).workerObjects } := by
  unfold invalidateWorkerObjectsLocked
  cases c.workerObjects[w]? <;> rfl

theorem acceptHello_frame (c : Coordinator) (cs : ConnId) (h : Hello) :
    c.acceptHello cs h = { c.register cs h with
      objects := (c.acceptHello cs h).objects
      workerObjects := (c.acceptHello cs h).workerObjects } := by
  unfold acceptHello
  rw [foldl_frame (observe h.worker) (observe_frame h.worker)]
  cases c.bootChanges h
  · rfl
  · simp only [if_true]
    rw [invalidateWorkerObjectsLocked_frame]
    rfl

theorem acceptReport_frame (c : Coordinator) (cs : ConnId) (p : ReportPayload)
    (now : Nat → Timestamp) :
    c.acceptReport cs p now = { c with
      objects := (c.acceptReport cs p now).objects
      workerObjects := (c.acceptReport cs p now).workerObjects } := by
  unfold acceptReport
  exact foldl_frame _ (fun c oi => report_frame _ c oi.1 _) _ c

theorem applyResult_frame (c : Coordinator) (cs : ConnId) (res : WarmResult)
    (now : Nat → Timestamp) :
    c.applyResult cs res now = { c with
      objects := (c.applyResult cs res now).objects
      workerObjects := (c.applyResult cs res now).workerObjects } := by
  unfold applyResult
  cases res.success <;> rfl

theorem onDisconnect_frame (c : Coordinator) (cs : ConnId) (now : WarmthObjectId → Timestamp) :
    c.onDisconnect cs now = { c with
      workers := (c.onDisconnect cs now).workers
      objects := (c.onDisconnect cs now).objects } := by
  unfold onDisconnect
  split <;> rfl

end Coordinator

end Warmth
