import Warmth.System

namespace Warmth

open Codec Std

structure WorkerConfig where
  workerId : WorkerId := {}
  boot : WorkerBootId := {}
  node : NodeId := {}
  workload : WorkloadId := {}
  backend : CString := text "cuda"
  devices : List CString := []
  actions : List UInt8 := []

structure Worker where
  cfg : WorkerConfig := {}
  observed : ExtTreeMap WarmthObjectId WarmthObject := ∅
  epoch : UInt64 := 0
  warmthGen : UInt64 := 0
  depGen : UInt64 := 0
  policyGen : UInt64 := 0
  shutdownRequested : Bool := false

/-- What the hook reports of one execution. -/
structure HookOutcome where
  success : Bool := false
  durationMs : Double := .zero
  bytes : UInt64 := 0
deriving DecidableEq, Repr

/-- How `connect` ends once the HELLO is on its way. -/
inductive ConnectResult
  | connected | noReply | wrongType | badAck | rejected
deriving DecidableEq, Repr

/-- A WARM_RESULT with the record that its command left in `observed_`. -/
structure Warmed where
  result : WarmResult
  left : Option WarmthObject

namespace Worker

def hello (w : Worker) : Hello :=
  { worker := w.cfg.workerId, boot := w.cfg.boot, node := w.cfg.node, epochGuess := 0
    backend := w.cfg.backend, devices := w.cfg.devices, actions := w.cfg.actions
    observed := w.observed.toList.map Prod.snd }

/-- The first half of `connect`: the HELLO, unless it is too large for a frame. -/
def connectFrame (w : Worker) : Option Frame :=
  if (encodeHello w.hello).length ≤ kMaxPayload then some (helloFrame w.hello) else none

/-- The second half of `connect`, with the frame that was read. -/
def receiveAck (w : Worker) (reply : Option Frame) : Worker × ConnectResult :=
  match reply with
  | none => (w, .noReply)
  | some f =>
    if f.type ≠ .helloAck then (w, .wrongType) else
    match decodePayload decodeHelloAck f.payload with
    | none => (w, .badAck)
    | some ack =>
      if ack.accepted then
        ({ w with
            epoch := ack.epoch, warmthGen := ack.warmthGen, depGen := ack.depGen
            policyGen := ack.policyGen }, .connected)
      else (w, .rejected)

def resultOf (w : Worker) (cmd : WarmCmd) (r : HookOutcome) : WarmResult :=
  { boot := w.cfg.boot, epoch := w.epoch, warmthGen := w.warmthGen, depGen := w.depGen
    object := cmd.object, action := cmd.action, attempt := cmd.attempt, success := r.success
    durationMs := r.durationMs, bytes := r.bytes
    error := if r.success then [] else text "warming_hook_failed" }

/-- What a successful command records of its object. -/
def warmedObject (w : Worker) (cmd : WarmCmd) (r : HookOutcome) (now : Nat → Timestamp) :
    WarmthObject :=
  match w.observed[cmd.object]? with
  | none =>
    let o : WarmthObject :=
      { id := cmd.object, category := .applicationDefined, workload := w.cfg.workload
        node := w.cfg.node, device := text "cuda:0", backend := w.cfg.backend }
    { o.moveTo .warm (text "warm_completed") with
      warmthGen := ⟨w.warmthGen⟩, measuredCostBytes := r.bytes, observedTtrMs := r.durationMs
      lastPrepared := now 0, lastUsed := now 1, provenance := .measured
      residency := .deviceResident }
  | some o =>
    { o.moveTo .warm (text "warm_completed") with
      measuredCostBytes := r.bytes, observedTtrMs := r.durationMs, lastUsed := now 0
      provenance := .measured }

/-- One turn of the WARM_TOPIC loop. -/
def warm (w : Worker) (cmd : WarmCmd) (r : HookOutcome) (now : Nat → Timestamp) : Worker × Warmed :=
  let observed :=
    if r.success then w.observed.insert cmd.object (w.warmedObject cmd r now) else w.observed
  ({ w with observed }, ⟨w.resultOf cmd r, observed[cmd.object]?⟩)

/-- The WARM_TOPIC loop; `hook k` and `now k` belong to its `k`-th turn. -/
def warmAll (w : Worker) (hook : Nat → HookOutcome) (now : Nat → Nat → Timestamp) :
    Nat → List WarmCmd → Worker × List Warmed
  | _, [] => (w, [])
  | k, cmd :: cmds =>
    let (w, warmed) := w.warm cmd (hook k) (now k)
    let (w, rest) := w.warmAll hook now (k + 1) cmds
    (w, warmed :: rest)

inductive Answer
  | warmed (d : Warmed)
  | pong

def Answer.frame : Answer → Frame
  | .warmed d => resultFrame d.result
  | .pong => { type := .pong }

def Answer.warmed? : Answer → Option Warmed
  | .warmed d => some d
  | .pong => none

/-- `handle_frame` with the answers it writes. -/
def handleFrame (w : Worker) (f : Frame) (hook : Nat → HookOutcome)
    (now : Nat → Nat → Timestamp) : Worker × List Answer :=
  match f.type with
  | .warmTopic =>
    match decodePayload decodeWarmTopic f.payload with
    | none => (w, [])
    | some topic =>
      let (w, warmed) := w.warmAll hook now 0 topic.cmds
      (w, warmed.map .warmed)
  | .ping => (w, [.pong])
  | .shutdown => ({ w with shutdownRequested := true }, [])
  | _ => (w, [])

end Worker

end Warmth
