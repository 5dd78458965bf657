import Warmth.Budget
import Warmth.Decay
import Warmth.Messages

namespace Warmth

open Codec Std TreeMaps

/-- The identity of a connection: which `ConnState` a shared pointer points to. -/
abbrev ConnId := Nat

structure ConnState where
  id : WorkerId := {}
  boot : WorkerBootId := {}
  node : NodeId := {}
  registered : Bool := false
  backend : CString := []
deriving DecidableEq, Repr

structure AttemptInfo where
  object : WarmthObjectId
  worker : WorkerId
  reservationId : UInt64 := 0
  opReservationId : UInt64 := 0
deriving DecidableEq, Repr

/-- The coordinator's metadata and the connection states its threads share. -/
structure Coordinator where
  epoch : CoordinatorEpoch := .initial
  warmthGenValue : UInt64 := 0
  depGenValue : UInt64 := 0
  policyGen : PolicyGeneration := ⟨1⟩
  policy : WarmthPolicy := .defaults ⟨1⟩
  objects : ExtTreeMap WarmthObjectId WarmthObject := ∅
  workers : ExtTreeMap WorkerId ConnId := ∅
  lastBoot : ExtTreeMap WorkerId WorkerBootId := ∅
  workerObjects : ExtTreeMap WorkerId (ExtTreeSet WarmthObjectId) := ∅
  budget : BudgetTracker := {}
  inFlight : ExtTreeMap AttemptId AttemptInfo := ∅
  inFlightCount : UInt64 := 0
  attemptCounter : UInt64 := 1
  conns : ConnId → ConnState := fun _ => {}

/-- `reach_warm`: WARM through PREPARING, falling back through COLD. -/
def reachWarm (o : WarmthObject) (why : CString) : WarmthObject :=
  if o.state == .warm || o.state == .hot then o else
  let o := match o.transition .preparing why with
    | (prepared, true) => prepared
    | (_, false) => (o.moveTo .cold why).moveTo .preparing why
  o.moveTo .warm why

def observedCopy (o : WarmthObject) : WarmthObject :=
  let copy := if isExecutionReady o.state then o.moveTo .discovered (text "observed-not-live") else o
  { copy with provenance := .reported }

def reportedUpdate (cur o : WarmthObject) (now : Timestamp) : WarmthObject :=
  let cur := { cur with dims := o.dims, lastUsed := now, observedTtrMs := o.observedTtrMs }
  let cur := { cur with residency := o.residency, provenance := .reported }
  if isExecutionReady o.state && !isExecutionReady cur.state then
    cur.moveTo .discovered (text "observed-not-live")
  else cur

/-- The body of the authority fences: `roll_epoch` and a changed boot. -/
def fenced (o : WarmthObject) (why reason : CString) : WarmthObject :=
  let o := if isLiveWarmState o.state || o.state == .stale then o.moveTo .invalidated why else o
  { o with invalidationReason := some reason }.dropEphemeral .cold

def disconnectedObject (policy : DecayPolicy) (now : Timestamp) (o : WarmthObject) : WarmthObject :=
  let next := decayObject o policy now false false false true
  let o := if next.changed then o.moveTo next.state (text "worker_disconnect") else o
  o.dropEphemeral .suspect

def AttemptInfo.held (info : AttemptInfo) : List UInt64 :=
  info.reservationId :: if info.opReservationId != 0 then [info.opReservationId] else []

structure Effects where
  reply : Option Frame := none
  released : List Release := []
  notify : Bool := false

namespace Coordinator

/-- The authority every REPORT and WARM_RESULT must be stamped with. -/
def authority (c : Coordinator) : UInt64 × UInt64 × UInt64 :=
  (c.epoch.value, c.warmthGenValue, c.depGenValue)

def held (c : Coordinator) : List UInt64 := c.inFlight.toList.flatMap fun kv => kv.2.held

def bumpDependencyGeneration (c : Coordinator) : Coordinator :=
  { c with depGenValue := c.depGenValue + 1 }

def bumpWarmthGeneration (c : Coordinator) : Coordinator :=
  { c with warmthGenValue := c.warmthGenValue + 1 }

def rollEpoch (c : Coordinator) : Coordinator × Effects :=
  let objects := c.objects.map fun _ o =>
    fenced o (text "authority roll") (text "coordinator_epoch_rolled")
  let (released, budget) := c.budget.releaseAll c.held
  let inFlightCount := if c.inFlight.isEmpty then c.inFlightCount else 0
  ({ c with
      epoch := c.epoch.next
      warmthGenValue := c.warmthGenValue + 1
      depGenValue := c.depGenValue + 1
      objects, budget, inFlightCount, inFlight := ∅ },
    { released, notify := true })

def noteObject (c : Coordinator) (worker : WorkerId) (object : WarmthObjectId) : Coordinator :=
  { c with
    workerObjects := c.workerObjects.insert worker ((c.workerObjects.getD worker ∅).insert object) }

/-- One turn of the HELLO handler's loop over the observed objects. -/
def observe (worker : WorkerId) (c : Coordinator) (o : WarmthObject) : Coordinator :=
  let c := match c.objects[o.id]? with
    | none => { c with objects := c.objects.insert o.id (observedCopy o) }
    | some _ => c
  c.noteObject worker o.id

/-- One turn of the REPORT handler's loop over the reported objects. -/
def report (worker : WorkerId) (c : Coordinator) (o : WarmthObject) (now : Timestamp) : Coordinator :=
  let c := match c.objects[o.id]? with
    | none => { c with objects := c.objects.insert o.id (observedCopy o) }
    | some cur => { c with objects := c.objects.insert o.id (reportedUpdate cur o now) }
  c.noteObject worker o.id

def invalidateWorkerObjectsLocked (c : Coordinator) (worker : WorkerId) : Coordinator :=
  match c.workerObjects[worker]? with
  | none => c
  | some ids =>
    let objects := modifyEach c.objects ids.toList fun _ o =>
      fenced o (text "worker_boot_changed") (text "worker_boot_changed")
    { c with objects, workerObjects := c.workerObjects.insert worker ∅ }

def bootClash (c : Coordinator) (h : Hello) : Bool :=
  match c.workers[h.worker]? with
  | some wit => (c.conns wit).boot != h.boot
  | none => false

def bootChanges (c : Coordinator) (h : Hello) : Bool :=
  match c.lastBoot[h.worker]? with
  | some boot => boot != h.boot
  | none => false

def register (c : Coordinator) (cs : ConnId) (h : Hello) : Coordinator :=
  let state : ConnState := ⟨h.worker, h.boot, h.node, true, h.backend⟩
  { c with
    lastBoot := c.lastBoot.insert h.worker h.boot
    conns := fun i => if i = cs then state else c.conns i
    workers := c.workers.insert h.worker cs }

/-- The accepting branch of the HELLO handler. -/
def acceptHello (c : Coordinator) (cs : ConnId) (h : Hello) : Coordinator :=
  let c := if c.bootChanges h then c.invalidateWorkerObjectsLocked h.worker else c
  h.observed.foldl (observe h.worker) (c.register cs h)

/-- The HELLO handler's locked section. -/
def handleHello (c : Coordinator) (cs : ConnId) (h : Hello) : Coordinator × HelloAck :=
  if c.bootClash h then
    (c, { accepted := false, reason := text "stale boot (worker already registered)" })
  else (c.acceptHello cs h, { accepted := true })

/-- The authority that the HELLO handler puts into its answer. -/
def stampAck (c : Coordinator) (ack : HelloAck) : HelloAck :=
  { ack with
    epoch := c.epoch.value, warmthGen := c.warmthGenValue, depGen := c.depGenValue
    policyGen := c.policyGen.value }

def reportRejected (c : Coordinator) (cs : ConnId) (p : ReportPayload) : Bool :=
  !(c.conns cs).registered || (c.conns cs).boot != p.boot ||
    p.epoch != c.epoch.value || p.warmthGen != c.warmthGenValue || p.depGen != c.depGenValue

/-- The accepting branch of the REPORT handler. -/
def acceptReport (c : Coordinator) (cs : ConnId) (p : ReportPayload) (now : Nat → Timestamp) :
    Coordinator :=
  p.objects.zipIdx.foldl (fun c oi => c.report (c.conns cs).id oi.1 (now oi.2)) c

/-- The REPORT handler's locked section and whether the report is rejected. -/
def handleReport (c : Coordinator) (cs : ConnId) (p : ReportPayload) (now : Nat → Timestamp) :
    Coordinator × Bool :=
  if c.reportRejected cs p then (c, true) else (c.acceptReport cs p now, false)

def resultCurrent (c : Coordinator) (cs : ConnId) (res : WarmResult) : Bool :=
  (c.conns cs).registered && (c.conns cs).boot == res.boot &&
    res.epoch == c.epoch.value && res.warmthGen == c.warmthGenValue && res.depGen == c.depGenValue

/-- The in-flight attempt a result belongs to, if the result is accepted. -/
def acceptedAttempt (c : Coordinator) (cs : ConnId) (res : WarmResult) : Option AttemptInfo :=
  if c.resultCurrent cs res then
    match c.inFlight[(⟨res.attempt⟩ : AttemptId)]? with
    | some info =>
      if info.worker == (c.conns cs).id && info.object == res.object then some info else none
    | none => none
  else none

def completed (c : Coordinator) (o : WarmthObject) (res : WarmResult) (now : Nat → Timestamp) :
    WarmthObject :=
  let o := reachWarm o (text "warm_completed")
  { o with
    warmthGen := ⟨c.warmthGenValue⟩
    measuredCostBytes := res.bytes
    observedTtrMs := res.durationMs
    lastPrepared := now 0
    lastUsed := now 1
    provenance := .measured
    residency := .deviceResident }

def completeObject (c : Coordinator) (res : WarmResult) (now : Nat → Timestamp) : WarmthObject :=
  match c.objects[res.object]? with
  | none =>
    let o : WarmthObject :=
      { id := res.object, category := .applicationDefined, device := text "cuda:0"
        backend := text "cuda" }
    c.completed o res now
  | some o =>
    let o := if o.state == .invalidated then
      { o.moveTo .discovered (text "invalidated") with invalidationReason := none } else o
    c.completed o res now

/-- An attempt leaves the books: its reservations are released and it is in flight no more. -/
def settle (c : Coordinator) (attempt : AttemptId) (info : AttemptInfo) :
    Coordinator × List Release :=
  let (released, budget) := c.budget.releaseAll info.held
  let inFlightCount := if 0 < c.inFlightCount then c.inFlightCount - 1 else c.inFlightCount
  ({ c with budget, inFlightCount, inFlight := c.inFlight.erase attempt }, released)

def applyResult (c : Coordinator) (cs : ConnId) (res : WarmResult) (now : Nat → Timestamp) :
    Coordinator :=
  if res.success then
    { c with objects := c.objects.insert res.object (c.completeObject res now) }.noteObject
      (c.conns cs).id res.object
  else
    { c with objects := c.objects.modify res.object fun o => o.moveTo .failed res.error }

/-- The accepting branch of the WARM_RESULT handler. -/
def acceptResult (c : Coordinator) (cs : ConnId) (res : WarmResult) (info : AttemptInfo)
    (now : Nat → Timestamp) : Coordinator × Effects :=
  let (c', released) := (c.applyResult cs res now).settle ⟨res.attempt⟩ info
  (c', { released, notify := true })

/-- The WARM_RESULT handler's locked section. -/
def handleWarmResult (c : Coordinator) (cs : ConnId) (res : WarmResult) (now : Nat → Timestamp) :
    Coordinator × Effects :=
  match c.acceptedAttempt cs res with
  | none => (c, {})
  | some info => c.acceptResult cs res info now

def helloAckFrame (ack : HelloAck) : Frame := { type := .helloAck, payload := encodeHelloAck ack }

def handleFrame (c : Coordinator) (cs : ConnId) (frame : Frame) (now : Nat → Timestamp) :
    Coordinator × Effects :=
  match frame.type with
  | .hello =>
    match decodePayload decodeHello frame.payload with
    | none => (c, { reply := some { type := .error } })
    | some h =>
      if h.protocolVersion ≠ kProtocolVersion then
        (c, { reply := some (helloAckFrame { reason := text "protocol version mismatch" }) })
      else
        let (c', ack) := c.handleHello cs h
        (c', { reply := some (helloAckFrame (c'.stampAck ack)) })
  | .report =>
    match decodePayload decodeReport frame.payload with
    | none => (c, {})
    | some p =>
      let (c', reject) := c.handleReport cs p now
      (c', { reply := if reject then some { type := .error } else none })
  | .warmResult =>
    match decodePayload decodeWarmResult frame.payload with
    | none => (c, {})
    | some res => c.handleWarmResult cs res now
  | .ping => (c, { reply := some { type := .pong } })
  | _ => (c, {})

/-- `on_disconnect`; `now` is the clock reading taken for each object. -/
def onDisconnect (c : Coordinator) (cs : ConnId) (now : WarmthObjectId → Timestamp) : Coordinator :=
  if !(c.conns cs).registered then c else
  let worker := (c.conns cs).id
  let workers := if c.workers[worker]? = some cs then c.workers.erase worker else c.workers
  let objects := match c.workerObjects[worker]? with
    | none => c.objects
    | some ids => modifyEach c.objects ids.toList fun id o =>
        disconnectedObject c.policy.decay (now id) o
  { c with workers, objects }

structure Issue where
  attempt : AttemptId
  target : ConnId
  info : AttemptInfo
  topic : WarmTopic

/-- The worker connection `issue_warm` picks, which must be registered. -/
def eligible (c : Coordinator) (preferred : Option WorkerId) : Option ConnId :=
  let target := match preferred with
    | some w => c.workers[w]?
    | none => c.workers.toList.head?.map Prod.snd
  target.filter fun cs => (c.conns cs).registered

/-- The reserving section of `issue_warm`. -/
def issueWarm (c : Coordinator) (object : WarmthObjectId) (action : WarmthAction)
    (preferred : Option WorkerId) : Coordinator × Option Issue :=
  match c.eligible preferred with
  | none => (c, none)
  | some target =>
    let (reservation, _, budget) := c.budget.reserve .deviceMemory kDefaultWarmBytes (text "warm")
    if reservation == 0 then ({ c with budget }, none) else
    let (opReservation, _, budget) := budget.reserve .concurrentWarmingOps 1 (text "warm")
    let attempt : AttemptId := ⟨c.attemptCounter⟩
    let info : AttemptInfo := ⟨object, (c.conns target).id, reservation, opReservation⟩
    let topic : WarmTopic :=
      { epoch := c.epoch.value, warmthGen := c.warmthGenValue
        cmds := [{ object, action, attempt := attempt.value }] }
    ({ c with
        budget
        attemptCounter := c.attemptCounter + 1
        inFlight := c.inFlight.insert attempt info
        inFlightCount := c.inFlightCount + 1 },
      some { attempt, target, info, topic })

/-- The cleanup section of `issue_warm` after a failed send. -/
def cleanup (c : Coordinator) (attempt : AttemptId) : Coordinator × Effects :=
  match c.inFlight[attempt]? with
  | none => (c, { notify := true })
  | some info =>
    let (c', released) := c.settle attempt info
    (c', { released, notify := true })

def outstandingBudget (c : Coordinator) : Nat := c.budget.outstanding

end Coordinator

end Warmth
