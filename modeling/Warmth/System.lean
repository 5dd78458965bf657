import Warmth.CoordinatorSteps
import Warmth.Runs

namespace Warmth

open Codec Std

/-- What `issue_warm` knew when it put an attempt in flight. -/
structure IssueRecord where
  attempt : AttemptId
  info : AttemptInfo
  conn : ConnId
  boot : WorkerBootId
  authority : UInt64 × UInt64 × UInt64

inductive Event
  | issued (r : IssueRecord)
  | released (r : Release)

def Event.issue? : Event → Option IssueRecord
  | .issued r => some r
  | .released _ => none

def Event.release? : Event → Option Release
  | .issued _ => none
  | .released r => some r

inductive CallPhase
  | reserved | sendFailed
deriving DecidableEq, Repr

/-- An `issue_warm` call between its reserving section and its return. -/
structure WarmCall where
  attempt : AttemptId
  conn : ConnId
  phase : CallPhase := .reserved
deriving DecidableEq, Repr

/-- The coordinator with everything that runs against it: the connections whose threads have
ended, the `issue_warm` calls in progress, and the history of the books, newest first. -/
structure System where
  coord : Coordinator := {}
  closed : ConnId → Bool := fun _ => false
  calls : List WarmCall := []
  log : List Event := []

inductive Step
  | frame (cs : ConnId) (f : Frame) (now : Nat → Timestamp)
  | disconnect (cs : ConnId) (now : WarmthObjectId → Timestamp)
  | reserve (object : WarmthObjectId) (action : WarmthAction) (preferred : Option WorkerId)
  | send (call : Nat) (sent : Bool)
  | cleanup (call : Nat)
  | rollEpoch
  | bumpWarmthGeneration
  | bumpDependencyGeneration

def helloFrame (h : Hello) : Frame := { type := .hello, payload := encodeHello h }
def reportFrame (p : ReportPayload) : Frame := { type := .report, payload := encodeReport p }
def resultFrame (r : WarmResult) : Frame := { type := .warmResult, payload := encodeWarmResult r }

namespace System

def record (s : System) (released : List Release) : List Event :=
  (released.map .released).reverse ++ s.log

/-- A locked section that ends in the coordinator `p.1` with the effects `p.2`. -/
def after (s : System) (p : Coordinator × Effects) : System :=
  { s with coord := p.1, log := s.record p.2.released }

/-- The reserving section of an `issue_warm` call that goes on to send. -/
def issue (s : System) (c : Coordinator) (i : Coordinator.Issue) : System :=
  { s with
    coord := c
    calls := ⟨i.attempt, i.target, .reserved⟩ :: s.calls
    log := .issued ⟨i.attempt, i.info, i.target, (c.conns i.target).boot, c.authority⟩ :: s.log }

/-- One mutex-protected step, or one send between two of them. A connection whose thread has
ended takes no further part, and a step that is not enabled changes nothing. -/
def step (s : System) : Step → System
  | .frame cs f now => if s.closed cs then s else s.after (s.coord.handleFrame cs f now)
  | .disconnect cs now =>
    if s.closed cs then s else
      { s with
        coord := s.coord.onDisconnect cs now
        closed := fun i => if i = cs then true else s.closed i }
  | .reserve object action preferred =>
    match s.coord.issueWarm object action preferred with
    | (c, none) => { s with coord := c }
    | (c, some i) => s.issue c i
  | .send call sent =>
    match s.calls[call]? with
    | some ⟨attempt, conn, .reserved⟩ =>
      { s with
        calls := if sent then s.calls.eraseIdx call
          else s.calls.set call ⟨attempt, conn, .sendFailed⟩ }
    | _ => s
  | .cleanup call =>
    match s.calls[call]? with
    | some ⟨attempt, _, .sendFailed⟩ =>
      { s with calls := s.calls.eraseIdx call }.after (s.coord.cleanup attempt)
    | _ => s
  | .rollEpoch => s.after s.coord.rollEpoch
  | .bumpWarmthGeneration => { s with coord := s.coord.bumpWarmthGeneration }
  | .bumpDependencyGeneration => { s with coord := s.coord.bumpDependencyGeneration }

def init : System := {}

abbrev Reached (s : System) : Prop := Runs.Reachable step init s

def issues (s : System) : List IssueRecord := s.log.filterMap Event.issue?

def releases (s : System) : List Release := s.log.filterMap Event.release?

@[simp] theorem issues_after (s : System) (p : Coordinator × Effects) :
    (s.after p).issues = s.issues := by
  have none_issued : ((p.2.released.map Event.released).reverse).filterMap Event.issue? = [] := by
    simp [List.filterMap_eq_nil_iff, Event.issue?]
  rw [issues, after, record, List.filterMap_append, none_issued]
  rfl

@[simp] theorem releases_after (s : System) (p : Coordinator × Effects) :
    (s.after p).releases = p.2.released.reverse ++ s.releases := by
  rw [releases, after, record, List.filterMap_append, ← List.map_reverse, List.filterMap_map]
  congr 1
  exact List.filterMap_some

theorem issues_issue (s : System) (c : Coordinator) (i : Coordinator.Issue) :
    (s.issue c i).issues =
      ⟨i.attempt, i.info, i.target, (c.conns i.target).boot, c.authority⟩ :: s.issues := rfl

theorem releases_issue (s : System) (c : Coordinator) (i : Coordinator.Issue) :
    (s.issue c i).releases = s.releases := rfl

end System

end Warmth
