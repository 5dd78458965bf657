import Warmth.System

namespace Warmth

open Codec Std TreeMaps

namespace System

/-- What a step can do: it leaves everything as it is, or it is one of the steps below with its
guard met. -/
inductive Stepped (s : System) : Step → System → Prop
  | idle {a : Step} : Stepped s a s
  | hello {cs : ConnId} {f : Frame} {now : Nat → Timestamp} {h : Hello} (up : s.closed cs = false)
      (type : f.type = .hello) (decoded : decodePayload decodeHello f.payload = some h)
      (version : h.protocolVersion = kProtocolVersion) (noClash : s.coord.bootClash h = false) :
      Stepped s (.frame cs f now) { s with coord := s.coord.acceptHello cs h }
  | report {cs : ConnId} {f : Frame} {now : Nat → Timestamp} {p : ReportPayload}
      (up : s.closed cs = false) (type : f.type = .report)
      (decoded : decodePayload decodeReport f.payload = some p)
      (current : s.coord.reportRejected cs p = false) :
      Stepped s (.frame cs f now) { s with coord := s.coord.acceptReport cs p now }
  | result {cs : ConnId} {f : Frame} {now : Nat → Timestamp} {res : WarmResult} {info : AttemptInfo}
      (up : s.closed cs = false) (type : f.type = .warmResult)
      (decoded : decodePayload decodeWarmResult f.payload = some res)
      (accepted : s.coord.acceptedAttempt cs res = some info) :
      Stepped s (.frame cs f now) (s.after (s.coord.acceptResult cs res info now))
  | disconnect {cs : ConnId} {now : WarmthObjectId → Timestamp} (up : s.closed cs = false) :
      Stepped s (.disconnect cs now)
        { s with
          coord := s.coord.onDisconnect cs now
          closed := fun i => if i = cs then true else s.closed i }
  | refuse {object : WarmthObjectId} {action : WarmthAction} {preferred : Option WorkerId}
      {e : BudgetError} {b : BudgetTracker}
      (refused : s.coord.budget.reserve .deviceMemory kDefaultWarmBytes (text "warm") = (0, e, b)) :
      Stepped s (.reserve object action preferred) { s with coord := { s.coord with budget := b } }
  | issue {object : WarmthObjectId} {action : WarmthAction} {preferred : Option WorkerId}
      {c : Coordinator} {i : Coordinator.Issue}
      (issued : s.coord.issueWarm object action preferred = (c, some i)) :
      Stepped s (.reserve object action preferred) (s.issue c i)
  | send {call : Nat} {sent : Bool} {w : WarmCall} (pending : s.calls[call]? = some w)
      (reserved : w.phase = .reserved) :
      Stepped s (.send call sent)
        { s with
          calls := if sent then s.calls.eraseIdx call
            else s.calls.set call { w with phase := .sendFailed } }
  | cleanup {call : Nat} {w : WarmCall} (pending : s.calls[call]? = some w)
      (failed : w.phase = .sendFailed) :
      Stepped s (.cleanup call)
        ({ s with calls := s.calls.eraseIdx call }.after (s.coord.cleanup w.attempt))
  | rollEpoch : Stepped s .rollEpoch (s.after s.coord.rollEpoch)
  | bumpWarmth : Stepped s .bumpWarmthGeneration { s with coord := s.coord.bumpWarmthGeneration }
  | bumpDependency :
      Stepped s .bumpDependencyGeneration { s with coord := s.coord.bumpDependencyGeneration }

theorem after_nothing (s : System) {c : Coordinator} {e : Effects} (h : e.released = []) :
    s.after (c, e) = { s with coord := c } := by
  simp [after, record, h]

theorem step_frame_up {s : System} {cs : ConnId} (up : s.closed cs = false) (f : Frame)
    (now : Nat → Timestamp) :
    s.step (.frame cs f now) = s.after (s.coord.handleFrame cs f now) := by
  rw [step, if_neg (by rw [up]; exact Bool.false_ne_true)]

theorem step_frame_closed {s : System} {cs : ConnId} (gone : s.closed cs = true) (f : Frame)
    (now : Nat → Timestamp) : s.step (.frame cs f now) = s := by
  rw [step, if_pos gone]

theorem stepped_frame (s : System) (cs : ConnId) (f : Frame) (now : Nat → Timestamp) :
    Stepped s (.frame cs f now) (s.step (.frame cs f now)) := by
  cases up : s.closed cs with
  | true =>
    rw [step_frame_closed up]
    exact .idle
  | false =>
    rw [step_frame_up up]
    have handled := Coordinator.handleFrame_handled s.coord cs f now
    generalize s.coord.handleFrame cs f now = p at handled
    cases handled with
    | ignored nothing =>
      rw [after_nothing s nothing]
      exact .idle
    | hello type decoded version noClash nothing =>
      rw [after_nothing s nothing]
      exact .hello up type decoded version noClash
    | report type decoded current nothing =>
      rw [after_nothing s nothing]
      exact .report up type decoded current
    | result type decoded accepted => exact .result up type decoded accepted

theorem stepped_reserve (s : System) (object : WarmthObjectId) (action : WarmthAction)
    (preferred : Option WorkerId) :
    Stepped s (.reserve object action preferred) (s.step (.reserve object action preferred)) := by
  rcases h : s.coord.issueWarm object action preferred with ⟨c, _ | i⟩
  · simp only [step, h]
    obtain rfl | ⟨e, b, refused, rfl⟩ := Coordinator.issueWarm_none h
    · exact .idle
    · exact .refuse refused
  · simp only [step, h]
    exact .issue h

theorem stepped_step (s : System) (a : Step) : Stepped s a (s.step a) := by
  cases a with
  | frame cs f now => exact stepped_frame s cs f now
  | disconnect cs now =>
    simp only [step]
    split
    next => exact .idle
    next up => exact .disconnect (Bool.eq_false_of_not_eq_true up)
  | reserve object action preferred => exact stepped_reserve s object action preferred
  | send call sent =>
    simp only [step]
    split
    next pending => exact .send pending rfl
    next => exact .idle
  | cleanup call =>
    simp only [step]
    split
    next pending => exact .cleanup pending rfl
    next => exact .idle
  | rollEpoch => exact .rollEpoch
  | bumpWarmthGeneration => exact .bumpWarmth
  | bumpDependencyGeneration => exact .bumpDependency

end System

end Warmth
