import Warmth.Fields

namespace Warmth

open Codec

/-- A warming action; any byte can be cast to one, and these fourteen are named. -/
structure WarmthAction where
  value : UInt8
deriving DecidableEq, Repr

namespace WarmthAction

def validateArtifact : WarmthAction := ⟨0⟩
def loadModel : WarmthAction := ⟨1⟩
def transferHostDevice : WarmthAction := ⟨2⟩
def activateAdapter : WarmthAction := ⟨3⟩
def initTokenizer : WarmthAction := ⟨4⟩
def initCudaContext : WarmthAction := ⟨5⟩
def loadModule : WarmthAction := ⟨6⟩
def prepareKernel : WarmthAction := ⟨7⟩
def captureGraph : WarmthAction := ⟨8⟩
def instantiateGraph : WarmthAction := ⟨9⟩
def prepareAllocator : WarmthAction := ⟨10⟩
def warmupExecution : WarmthAction := ⟨11⟩
def acquirePrefixKv : WarmthAction := ⟨12⟩
def initEngine : WarmthAction := ⟨13⟩

end WarmthAction

inductive MessageType
  | hello | helloAck | report | warmTopic | warmResult | ping | pong | shutdown | error | ready
deriving DecidableEq, Repr

def kMaxPayload : Nat := 16 * 1024 * 1024

structure Frame where
  type : MessageType := .ping
  flags : UInt8 := 0
  payload : Bytes := []
deriving DecidableEq, Repr

def kProtocolVersion : Nat := 1

structure Hello where
  protocolVersion : Nat := kProtocolVersion
  worker : WorkerId := {}
  boot : WorkerBootId := {}
  node : NodeId := {}
  epochGuess : UInt64 := 0
  backend : CString := []
  devices : List CString := []
  actions : List UInt8 := []
  observed : List WarmthObject := []

structure HelloAck where
  accepted : Bool := false
  reason : CString := []
  epoch : UInt64 := 0
  warmthGen : UInt64 := 0
  depGen : UInt64 := 0
  policyGen : UInt64 := 0
deriving DecidableEq, Repr

structure ReportPayload where
  boot : WorkerBootId := {}
  epoch : UInt64 := 0
  warmthGen : UInt64 := 0
  depGen : UInt64 := 0
  objects : List WarmthObject := []

structure WarmCmd where
  object : WarmthObjectId := {}
  action : WarmthAction := .initEngine
  attempt : UInt64 := 0
deriving DecidableEq, Repr

structure WarmTopic where
  epoch : UInt64 := 0
  warmthGen : UInt64 := 0
  cmds : List WarmCmd := []
deriving DecidableEq, Repr

structure WarmResult where
  boot : WorkerBootId := {}
  epoch : UInt64 := 0
  warmthGen : UInt64 := 0
  depGen : UInt64 := 0
  object : WarmthObjectId := {}
  action : WarmthAction := .initEngine
  attempt : UInt64 := 0
  success : Bool := false
  durationMs : Double := .zero
  bytes : UInt64 := 0
  error : CString := []
deriving DecidableEq, Repr

def encodeObject (o : WarmthObject) : Bytes :=
  o.id.toBytes ++ [toByte o.category] ++ o.workload.toBytes ++ o.node.toBytes ++
  str o.device ++ str o.backend ++ str o.logicalOwner ++
  optionalId o.model ++ optionalId o.artifact ++ optionalId o.replica ++ optionalId o.engine ++
  [toByte o.state] ++ str o.stateChangeReason ++ o.dimensionBytes ++
  u64 o.lastPrepared.toUInt64 ++ u64 o.lastUsed.toUInt64 ++
  u64 o.estimatedCostBytes ++ u64 o.measuredCostBytes ++
  u64 o.estimatedTtrMs.bits ++ u64 o.observedTtrMs.bits ++
  [toByte o.residency] ++ [toByte o.lifecycle] ++ u64 o.confidence.bits ++ u64 o.freshness.bits ++
  u64 o.warmthGen.value ++ u32 o.dependencies.length ++ o.dependencies.flatMap dependencyBytes ++
  optionalReason o.invalidationReason ++ [toByte o.provenance]

/-- A double of the wire protocol: any 64-bit pattern, NaN included. -/
def wireF64 : Decoder Unit Double := do
  let bits ← readU64 ()
  return ⟨bits⟩

/-- A 32-bit count that must not exceed `limit`. -/
def wireCount (limit : Nat) : Decoder Unit Nat := do
  let n ← number () 4
  ensure () (decide (n ≤ limit))
  return n

def decodeObject : Decoder Unit WarmthObject := do
  let id ← readId ()
  let cat ← u8 ()
  let workload ← readId ()
  let node ← readId ()
  -- the category is checked only once the two ids behind it have been read
  let category ← known () cat
  let device ← readStr ()
  let backend ← readStr ()
  let owner ← readStr ()
  let model ← readOpt () () ()
  let artifact ← readOpt () () ()
  let replica ← readOpt () () ()
  let engine ← readOpt () () ()
  let state ← enumerator () ()
  let reason ← readStr ()
  let obj : WarmthObject := { id, category, workload, node, device, backend }
  let obj := { obj with logicalOwner := owner, model, artifact, replica, engine }
  let obj := obj.restoreState state reason
  let obj ← readDimensions () () DimensionIndex.values obj
  let lp ← readU64 ()
  let lu ← readU64 ()
  let obj := { obj with lastPrepared := lp.toInt64, lastUsed := lu.toInt64 }
  let ecb ← readU64 ()
  let mcb ← readU64 ()
  let ettr ← wireF64
  let ottr ← wireF64
  let obj := { obj with estimatedCostBytes := ecb, measuredCostBytes := mcb }
  let obj := { obj with estimatedTtrMs := ettr, observedTtrMs := ottr }
  let residency ← enumerator () ()
  let lifecycle ← enumerator () ()
  let conf ← wireF64
  let fresh ← wireF64
  let obj := { obj with residency, lifecycle }
  let obj := (obj.setConfidence conf).setFreshness fresh
  let wg ← readU64 ()
  let obj := { obj with warmthGen := ⟨wg⟩ }
  let nd ← wireCount 64
  let obj ← readDependencies () () () () nd [] obj
  let invalidationReason ← readInvalidation () () ()
  let provenance ← enumerator () ()
  return { obj with invalidationReason, provenance }

def encodeHello (h : Hello) : Bytes :=
  u32 h.protocolVersion ++ h.worker.toBytes ++ h.boot.toBytes ++ h.node.toBytes ++
  u64 h.epochGuess ++ str h.backend ++
  u32 h.devices.length ++ h.devices.flatMap str ++
  u32 h.actions.length ++ h.actions ++
  u32 h.observed.length ++ h.observed.flatMap encodeObject

def encodeHelloAck (a : HelloAck) : Bytes :=
  [if a.accepted then 1 else 0] ++ str a.reason ++
  u64 a.epoch ++ u64 a.warmthGen ++ u64 a.depGen ++ u64 a.policyGen

def encodeReport (p : ReportPayload) : Bytes :=
  p.boot.toBytes ++ u64 p.epoch ++ u64 p.warmthGen ++ u64 p.depGen ++
  u32 p.objects.length ++ p.objects.flatMap encodeObject

def encodeWarmCmd (c : WarmCmd) : Bytes := c.object.toBytes ++ [c.action.value] ++ u64 c.attempt

def encodeWarmTopic (t : WarmTopic) : Bytes :=
  u64 t.epoch ++ u64 t.warmthGen ++ u32 t.cmds.length ++ t.cmds.flatMap encodeWarmCmd

def encodeWarmResult (r : WarmResult) : Bytes :=
  r.boot.toBytes ++ u64 r.epoch ++ u64 r.warmthGen ++ u64 r.depGen ++
  r.object.toBytes ++ [r.action.value] ++ u64 r.attempt ++
  [if r.success then 1 else 0] ++ u64 r.durationMs.bits ++ u64 r.bytes ++ str r.error

def decodeHello : Decoder Unit Hello := do
  let protocolVersion ← number () 4
  let worker ← readId ()
  let boot ← readId ()
  let node ← readId ()
  let epochGuess ← readU64 ()
  let backend ← readStr ()
  let devices ← times (readStr ()) (← wireCount 4096)
  let actions ← times (u8 ()) (← wireCount 64)
  let observed ← times decodeObject (← wireCount 4096)
  return { protocolVersion, worker, boot, node, epochGuess, backend, devices, actions, observed }

def decodeHelloAck : Decoder Unit HelloAck := do
  let acc ← u8 ()
  let reason ← readStr ()
  let epoch ← readU64 ()
  let warmthGen ← readU64 ()
  let depGen ← readU64 ()
  let policyGen ← readU64 ()
  return { accepted := acc != 0, reason, epoch, warmthGen, depGen, policyGen }

def decodeReport : Decoder Unit ReportPayload := do
  let boot ← readId ()
  let epoch ← readU64 ()
  let warmthGen ← readU64 ()
  let depGen ← readU64 ()
  let objects ← times decodeObject (← wireCount 8192)
  return { boot, epoch, warmthGen, depGen, objects }

def decodeWarmCmd : Decoder Unit WarmCmd := do
  let object ← readId ()
  let act ← u8 ()
  let attempt ← readU64 ()
  return { object, action := ⟨act⟩, attempt }

def decodeWarmTopic : Decoder Unit WarmTopic := do
  let epoch ← readU64 ()
  let warmthGen ← readU64 ()
  let cmds ← times decodeWarmCmd (← wireCount 4096)
  return { epoch, warmthGen, cmds }

def decodeWarmResult : Decoder Unit WarmResult := do
  let boot ← readId ()
  let epoch ← readU64 ()
  let warmthGen ← readU64 ()
  let depGen ← readU64 ()
  let object ← readId ()
  let act ← u8 ()
  let attempt ← readU64 ()
  let ok ← u8 ()
  let durationMs ← wireF64
  let bytes ← readU64 ()
  let error ← readStr ()
  return {
    boot, epoch, warmthGen, depGen, object, action := ⟨act⟩, attempt, success := ok != 0
    durationMs, bytes, error }

/-- Decode a frame's payload. What follows the last field is not looked at. -/
def decodePayload {α : Type} (d : Decoder Unit α) (payload : Bytes) : Option α :=
  match d payload with
  | .ok (a, _) => some a
  | .error _ => none

end Warmth
