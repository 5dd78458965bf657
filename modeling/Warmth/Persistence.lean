import Warmth.Fields
import Warmth.Policy

namespace Warmth

open Codec

def kMagic : Nat := 0x57465442
def kVersion : Nat := 1

/-- The durable warmth knowledge. Live handles are never persisted. -/
structure Snapshot where
  formatVersion : UInt32 := 1
  epoch : CoordinatorEpoch := {}
  warmthGeneration : WarmthGeneration := {}
  dependencyGeneration : DependencyGeneration := {}
  policyGeneration : PolicyGeneration := {}
  policy : WarmthPolicy := {}
  objects : List WarmthObject := []

/-- `ByteWriter::f64`, which throws on NaN and infinities. -/
def f64 (d : Double) : Except String Bytes :=
  if d.isNan || d.isInf then .error "persist: NaN/Inf not allowed" else .ok (u64 d.bits)

/-- `ByteReader::f64`, which rejects NaN and infinities. -/
def readF64 (e : String) : Decoder String Double := do
  let bits ← readU64 e
  let d : Double := ⟨bits⟩
  ensure e (!d.isNan && !d.isInf)
  return d

def writeObject (o : WarmthObject) : Except String Bytes := pieces [
  .ok o.id.toBytes,
  .ok [toByte o.category],
  .ok o.workload.toBytes,
  .ok o.node.toBytes,
  .ok (str o.device),
  .ok (str o.backend),
  .ok (str o.logicalOwner),
  .ok (optionalId o.model),
  .ok (optionalId o.artifact),
  .ok (optionalId o.replica),
  .ok (optionalId o.engine),
  .ok [toByte o.state],
  .ok (str o.stateChangeReason),
  .ok o.dimensionBytes,
  .ok (u64 o.lastPrepared.toUInt64),
  .ok (u64 o.lastUsed.toUInt64),
  .ok (u64 o.estimatedCostBytes),
  .ok (u64 o.measuredCostBytes),
  f64 o.estimatedTtrMs,
  f64 o.observedTtrMs,
  .ok [toByte o.residency],
  .ok [toByte o.lifecycle],
  f64 o.confidence,
  f64 o.freshness,
  .ok (u64 o.warmthGen.value),
  .ok (u32 o.dependencies.length),
  .ok (o.dependencies.flatMap dependencyBytes),
  .ok (optionalReason o.invalidationReason),
  .ok [toByte o.provenance]]

def flag (b : Bool) : Bytes := [if b then 1 else 0]

def DecayPolicy.flags (d : DecayPolicy) : List Bool :=
  [d.decayOnMemoryPressure, d.decayOnProcessRestart, d.decayOnDeviceReset,
    d.decayOnDependencyChange, d.decayOnPolicyChange]

def BudgetLimits.amounts (b : BudgetLimits) : List UInt64 :=
  [b.deviceMemoryBytes, b.pinnedHostMemoryBytes, b.hostMemoryBytes, b.storageFootprintBytes,
    b.concurrentWarmingOps, b.transferBandwidthBps, b.activeEngines, b.warmReplicas]

def writePolicy (p : WarmthPolicy) : Except String Bytes := pieces (
  [.ok (u64 p.generation.value)] ++
  p.decay.thresholds.map f64 ++
  p.decay.flags.map (fun b => .ok (flag b)) ++
  p.budgets.amounts.map (fun x => .ok (u64 x)) ++
  (policyWeights p).map f64)

def writeObjects (objects : List WarmthObject) : Except String Bytes :=
  pieces (objects.map writeObject)

/-- The payload that `encode_snapshot` puts behind its header. -/
def snapshotPayload (s : Snapshot) : Except String Bytes := pieces [
  .ok (u64 s.epoch.value),
  .ok (u64 s.warmthGeneration.value),
  .ok (u64 s.dependencyGeneration.value),
  .ok (u64 s.policyGeneration.value),
  writePolicy s.policy,
  .ok (u32 s.objects.length),
  writeObjects s.objects]

def encodeSnapshot (s : Snapshot) : Except String Bytes := do
  let payload ← snapshotPayload s
  return u32 kMagic ++ u32 kVersion ++ u32 payload.length ++ u32 (crc32 payload).toNat ++ payload

/-- `read_object`; of the snapshot it uses the authoritative warmth generation. -/
def readObject (generation : WarmthGeneration) : Decoder String WarmthObject := do
  let id ← readId "truncated object id"
  let category ← enumerator "truncated category" "invalid category enum"
  let workload ← readId "truncated workload"
  let node ← readId "truncated node"
  let device ← readStr "truncated string"
  let backend ← readStr "truncated string"
  let owner ← readStr "truncated string"
  let readOpt := readOpt "truncated optional" "invalid optional flag" "truncated optional id"
  let model ← readOpt
  let artifact ← readOpt
  let replica ← readOpt
  let engine ← readOpt
  let state ← enumerator "truncated state" "invalid state enum"
  let reason ← readStr "truncated state reason"
  let obj : WarmthObject := { id, category, workload, node, device, backend }
  let obj := { obj with logicalOwner := owner, model, artifact, replica, engine }
  let obj := obj.restoreState state reason
  let obj ← readDimensions "truncated dimension" "invalid dimension enum" DimensionIndex.values obj
  let lp ← readU64 "truncated last_prepared"
  let lu ← readU64 "truncated last_used"
  let ecb ← readU64 "truncated cost"
  let mcb ← readU64 "truncated cost"
  let ettr ← readF64 "truncated cost"
  let ottr ← readF64 "truncated cost"
  let obj := { obj with lastPrepared := lp.toInt64, lastUsed := lu.toInt64 }
  let obj := { obj with estimatedCostBytes := ecb, measuredCostBytes := mcb }
  let obj := { obj with estimatedTtrMs := ettr, observedTtrMs := ottr }
  let residency ← enumerator "truncated residency" "invalid residency enum"
  let lifecycle ← enumerator "truncated lifecycle" "invalid lifecycle enum"
  let conf ← readF64 "truncated confidence"
  let fresh ← readF64 "truncated confidence"
  let obj := { obj with residency, lifecycle }
  let obj := (obj.setConfidence conf).setFreshness fresh
  let wgen ← readU64 "truncated warmth generation"
  let obj := { obj with warmthGen := ⟨wgen⟩ }
  let nd ← number "truncated dependency count" 4
  ensure "dependency count too large" (decide (nd ≤ 64))
  let obj ← readDependencies "truncated dep kind" "invalid dependency kind"
    "duplicate dependency kind" "truncated dep generation" nd [] obj
  let invalidationReason ← readInvalidation "truncated invalidation flag" "truncated invalidation"
    "invalid invalidation flag"
  let provenance ← enumerator "truncated provenance" "invalid provenance enum"
  ensure "invalid generation relation" (decide (wgen ≤ generation.value))
  return { obj with invalidationReason, provenance }

/-- One policy flag; when it is missing the source leaves its error text empty. -/
def readFlag : Decoder String Bool := do
  let b ← u8 ""
  ensure "invalid policy flag" (decide (b ≤ 1))
  return b != 0

def readPolicy : Decoder String WarmthPolicy := do
  let gen ← readU64 "truncated policy gen"
  let v0 ← readF64 "truncated decay"
  let v1 ← readF64 "truncated decay"
  let v2 ← readF64 "truncated decay"
  let v3 ← readF64 "truncated decay"
  let v4 ← readF64 "truncated decay"
  let f0 ← readFlag
  let f1 ← readFlag
  let f2 ← readFlag
  let f3 ← readFlag
  let f4 ← readFlag
  let b0 ← readU64 "truncated budgets"
  let b1 ← readU64 "truncated budgets"
  let b2 ← readU64 "truncated budgets"
  let b3 ← readU64 "truncated budgets"
  let b4 ← readU64 "truncated budgets"
  let b5 ← readU64 "truncated budgets"
  let b6 ← readU64 "truncated budgets"
  let b7 ← readU64 "truncated budgets"
  let w0 ← readF64 "truncated weights"
  let w1 ← readF64 "truncated weights"
  let w2 ← readF64 "truncated weights"
  let w3 ← readF64 "truncated weights"
  let w4 ← readF64 "truncated weights"
  let w5 ← readF64 "truncated weights"
  let w6 ← readF64 "truncated weights"
  let w7 ← readF64 "truncated weights"
  let w8 ← readF64 "truncated weights"
  let w9 ← readF64 "truncated weights"
  let w10 ← readF64 "truncated weights"
  let w11 ← readF64 "truncated weights"
  return {
    generation := ⟨gen⟩
    decay := {
      hotToWarmIdleSeconds := v0, warmToStaleIdleSeconds := v1, staleToInvalidatedSeconds := v2
      warmToPartialIdleSeconds := v3, partialToColdIdleSeconds := v4
      decayOnMemoryPressure := f0, decayOnProcessRestart := f1, decayOnDeviceReset := f2
      decayOnDependencyChange := f3, decayOnPolicyChange := f4 }
    budgets := {
      deviceMemoryBytes := b0, pinnedHostMemoryBytes := b1, hostMemoryBytes := b2
      storageFootprintBytes := b3, concurrentWarmingOps := b4, transferBandwidthBps := b5
      activeEngines := b6, warmReplicas := b7 }
    weightPredictedReuse := w0, weightArrivalProbability := w1, weightLatencyClass := w2
    weightPriority := w3, weightTenantFairness := w4, weightWarmingCost := w5
    weightMemoryCost := w6, weightTransferCost := w7, weightEvictionRisk := w8
    weightDependencyAvailability := w9, weightCurrentPartialWarmth := w10
    weightExpectedBenefit := w11 }

/-- The loop over the objects: `i` counts them and `ids` holds the printed ids seen so far. -/
def readObjects (generation : WarmthGeneration) :
    Nat → Nat → List CString → Decoder String (List WarmthObject)
  | 0, _, _ => return []
  | n + 1, i, ids => do
    let o ← relabel (fun err => "object " ++ toString i ++ ": " ++ err) (readObject generation)
    let idstr := o.id.toString
    ensure "duplicate object id" (!ids.contains idstr)
    let rest ← readObjects generation n (i + 1) (idstr :: ids)
    return o :: rest

def readHeader : Decoder String (Nat × Nat) := do
  let magic ← number "bad magic" 4
  ensure "bad magic" (magic == kMagic)
  let version ← number "incompatible version" 4
  ensure "incompatible version" (version == kVersion)
  let payloadSize ← number "truncated payload size" 4
  let checksum ← number "truncated checksum" 4
  return (payloadSize, checksum)

def readBody : Decoder String Snapshot := do
  let epoch ← readU64 "truncated authority"
  let wgen ← readU64 "truncated authority"
  let dgen ← readU64 "truncated authority"
  let pgen ← readU64 "truncated authority"
  let policy ← relabel ("policy: " ++ ·) readPolicy
  ensure "invalid generation relation (policy)" (decide (policy.generation = ⟨pgen⟩))
  let n ← number "truncated object count" 4
  ensure "object count too large" (decide (n ≤ 1000000))
  let objects ← readObjects ⟨wgen⟩ n 0 []
  return {
    epoch := ⟨epoch⟩, warmthGeneration := ⟨wgen⟩, dependencyGeneration := ⟨dgen⟩
    policyGeneration := ⟨pgen⟩, policy, objects }

def readPayload : Decoder String Snapshot := do
  let snap ← readBody
  let left ← remaining
  ensure "trailing garbage" (left == 0)
  return snap

def decodeSnapshot (bytes : Bytes) : Except String Snapshot :=
  if bytes.length < 16 then .error "truncated header" else do
  let ((payloadSize, checksum), payload) ← readHeader bytes
  if payloadSize ≠ bytes.length - 16 then
    throw (if bytes.length - 16 < payloadSize then "truncated payload" else "trailing garbage")
  if (crc32 payload).toNat ≠ checksum then throw "checksum mismatch"
  let (snap, _) ← readPayload payload
  return snap

end Warmth
