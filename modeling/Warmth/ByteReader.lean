import Warmth.ByteCursor
import Warmth.Persistence

namespace Warmth

open Codec

/-! The snapshot's decoder as it works on its input: a `ByteReader` that holds the whole byte
string and an index. -/

namespace ByteReader

open Reader

variable {ε : Type}

def u64 (e : ε) : Reader ε UInt64 := do
  let v ← number e 8
  return UInt64.ofNat v

/-- `f64`, which rejects NaN and infinities. -/
def f64 (e : String) : Reader String Double := do
  let bits ← u64 e
  let d : Double := ⟨bits⟩
  ensure e (!d.isNan && !d.isInf)
  return d

def id (e : ε) : Reader ε Id128 := do
  let b ← take e 16
  return Id128.fromBytes b

/-- `str`: the length is held against what is left before any byte is copied. -/
def str (e : ε) : Reader ε CString := do
  let len ← number e 4
  let left ← remaining
  ensure e (decide (len ≤ left))
  take e len

def readOpt (truncated invalid truncatedId : ε) : Reader ε (Option Id128) := do
  let present ← u8 truncated
  if present == 0 then return none
  ensure invalid (present == 1)
  let v ← id truncatedId
  return some v

def readDimensions (truncated invalid : ε) :
    List DimensionIndex → WarmthObject → Reader ε WarmthObject
  | [], o => return o
  | i :: rest, o => do
    let d ← enumerator truncated invalid
    readDimensions truncated invalid rest (o.setDimension i d)

def readDependencies (truncated invalid duplicate truncatedGen : ε) :
    Nat → List DependencyKind → WarmthObject → Reader ε WarmthObject
  | 0, _, o => return o
  | n + 1, seen, o => do
    let kind ← enumerator truncated invalid
    ensure duplicate (!seen.contains kind)
    let g ← u64 truncatedGen
    readDependencies truncated invalid duplicate truncatedGen n (kind :: seen)
      (o.setDependencyGeneration kind ⟨g⟩)

def readInvalidation (truncated truncatedReason invalid : ε) : Reader ε (Option CString) := do
  let hasInv ← u8 truncated
  if hasInv == 1 then
    let inv ← str truncatedReason
    return some inv
  ensure invalid (hasInv == 0)
  return none

def readObject (generation : WarmthGeneration) : Reader String WarmthObject := do
  let id ← ByteReader.id "truncated object id"
  let category ← enumerator "truncated category" "invalid category enum"
  let workload ← ByteReader.id "truncated workload"
  let node ← ByteReader.id "truncated node"
  let device ← str "truncated string"
  let backend ← str "truncated string"
  let owner ← str "truncated string"
  let readOpt := readOpt "truncated optional" "invalid optional flag" "truncated optional id"
  let model ← readOpt
  let artifact ← readOpt
  let replica ← readOpt
  let engine ← readOpt
  let state ← enumerator "truncated state" "invalid state enum"
  let reason ← str "truncated state reason"
  let obj : WarmthObject := { id, category, workload, node, device, backend }
  let obj := { obj with logicalOwner := owner, model, artifact, replica, engine }
  let obj := obj.restoreState state reason
  let obj ← readDimensions "truncated dimension" "invalid dimension enum" DimensionIndex.values obj
  let lp ← u64 "truncated last_prepared"
  let lu ← u64 "truncated last_used"
  let ecb ← u64 "truncated cost"
  let mcb ← u64 "truncated cost"
  let ettr ← f64 "truncated cost"
  let ottr ← f64 "truncated cost"
  let obj := { obj with lastPrepared := lp.toInt64, lastUsed := lu.toInt64 }
  let obj := { obj with estimatedCostBytes := ecb, measuredCostBytes := mcb }
  let obj := { obj with estimatedTtrMs := ettr, observedTtrMs := ottr }
  let residency ← enumerator "truncated residency" "invalid residency enum"
  let lifecycle ← enumerator "truncated lifecycle" "invalid lifecycle enum"
  let conf ← f64 "truncated confidence"
  let fresh ← f64 "truncated confidence"
  let obj := { obj with residency, lifecycle }
  let obj := (obj.setConfidence conf).setFreshness fresh
  let wgen ← u64 "truncated warmth generation"
  let obj := { obj with warmthGen := ⟨wgen⟩ }
  let nd ← number "truncated dependency count" 4
  ensure "dependency count too large" (decide (nd ≤ 64))
  let obj ← readDependencies "truncated dep kind" "invalid dependency kind"
    "duplicate dependency kind" "truncated dep generation" nd [] obj
  let invalidationReason ← readInvalidation "truncated invalidation flag" "truncated invalidation"
    "invalid invalidation flag"
  let provenance ← enumerator "truncated provenance" "invalid provenance enum"
  ensure "invalid generation relation" (decide (wgen ≤ generation.value))
  return { obj with invalidationReason, provenance }

def readFlag : Reader String Bool := do
  let b ← u8 ""
  ensure "invalid policy flag" (decide (b ≤ 1))
  return b != 0

def readPolicy : Reader String WarmthPolicy := do
  let gen ← u64 "truncated policy gen"
  let v0 ← f64 "truncated decay"
  let v1 ← f64 "truncated decay"
  let v2 ← f64 "truncated decay"
  let v3 ← f64 "truncated decay"
  let v4 ← f64 "truncated decay"
  let f0 ← readFlag
  let f1 ← readFlag
  let f2 ← readFlag
  let f3 ← readFlag
  let f4 ← readFlag
  let b0 ← u64 "truncated budgets"
  let b1 ← u64 "truncated budgets"
  let b2 ← u64 "truncated budgets"
  let b3 ← u64 "truncated budgets"
  let b4 ← u64 "truncated budgets"
  let b5 ← u64 "truncated budgets"
  let b6 ← u64 "truncated budgets"
  let b7 ← u64 "truncated budgets"
  let w0 ← f64 "truncated weights"
  let w1 ← f64 "truncated weights"
  let w2 ← f64 "truncated weights"
  let w3 ← f64 "truncated weights"
  let w4 ← f64 "truncated weights"
  let w5 ← f64 "truncated weights"
  let w6 ← f64 "truncated weights"
  let w7 ← f64 "truncated weights"
  let w8 ← f64 "truncated weights"
  let w9 ← f64 "truncated weights"
  let w10 ← f64 "truncated weights"
  let w11 ← f64 "truncated weights"
  return {
    generation := ⟨gen⟩
    decay := {
      hotToWarmIdleSeconds := v0, warmToStaleIdleSeconds := v1, staleToInvalidatedSeconds := v2
      warmToPartialIdleSeconds := v3, partialToColdIdleSeconds := v4
      decayOnMemoryPressure := f0, decayOnProcessRestart := f1, decayOnDeviceReset := f2
      decayOnDependencyChange := f3, decayOnPolicyChange := f4 }
    budgets := {
      deviceMemoryBytes := b0, pinnedHostMemoryBytes := b1, hostMemoryBytes := b2
      storageFootprintBytes := b3, concurrentWarmingOps := b4, transferBandwidthBps := b5
      activeEngines := b6, warmReplicas := b7 }
    weightPredictedReuse := w0, weightArrivalProbability := w1, weightLatencyClass := w2
    weightPriority := w3, weightTenantFairness := w4, weightWarmingCost := w5
    weightMemoryCost := w6, weightTransferCost := w7, weightEvictionRisk := w8
    weightDependencyAvailability := w9, weightCurrentPartialWarmth := w10
    weightExpectedBenefit := w11 }

def readObjects (generation : WarmthGeneration) :
    Nat → Nat → List CString → Reader String (List WarmthObject)
  | 0, _, _ => return []
  | n + 1, i, ids => do
    let o ← relabel (fun err => "object " ++ toString i ++ ": " ++ err) (readObject generation)
    let idstr := o.id.toString
    ensure "duplicate object id" (!ids.contains idstr)
    let rest ← readObjects generation n (i + 1) (idstr :: ids)
    return o :: rest

def readHeader : Reader String (Nat × Nat) := do
  let magic ← number "bad magic" 4
  ensure "bad magic" (magic == kMagic)
  let version ← number "incompatible version" 4
  ensure "incompatible version" (version == kVersion)
  let payloadSize ← number "truncated payload size" 4
  let checksum ← number "truncated checksum" 4
  return (payloadSize, checksum)

def readBody : Reader String Snapshot := do
  let epoch ← u64 "truncated authority"
  let wgen ← u64 "truncated authority"
  let dgen ← u64 "truncated authority"
  let pgen ← u64 "truncated authority"
  let policy ← relabel ("policy: " ++ ·) readPolicy
  ensure "invalid generation relation (policy)" (decide (policy.generation = ⟨pgen⟩))
  let n ← number "truncated object count" 4
  ensure "object count too large" (decide (n ≤ 1000000))
  let objects ← readObjects ⟨wgen⟩ n 0 []
  return {
    epoch := ⟨epoch⟩, warmthGeneration := ⟨wgen⟩, dependencyGeneration := ⟨dgen⟩
    policyGeneration := ⟨pgen⟩, policy, objects }

def readPayload : Reader String Snapshot := do
  let snap ← readBody
  let left ← remaining
  ensure "trailing garbage" (left == 0)
  return snap

/-- `bytes.size() - n`. -/
def sizeLess (bytes : Bytes) (n : Nat) : Except (Stop String) Nat :=
  if n ≤ bytes.length then .ok (bytes.length - n) else .error .underflow

/-- `bytes.subspan(n)`, which is defined only up to the end of the bytes. -/
def subspan (bytes : Bytes) (n : Nat) : Except (Stop String) Bytes :=
  if n ≤ bytes.length then .ok (bytes.drop n) else .error .outOfRange

def decodeSnapshot (bytes : Bytes) : Except (Stop String) Snapshot :=
  if bytes.length < 16 then .error (.rejected "truncated header") else do
  let ((payloadSize, checksum), _) ← readHeader { bytes }
  let left ← sizeLess bytes 16
  if payloadSize ≠ left then
    throw (.rejected (if left < payloadSize then "truncated payload" else "trailing garbage"))
  let payload ← subspan bytes 16
  if (crc32 payload).toNat ≠ checksum then throw (.rejected "checksum mismatch")
  let (snap, _) ← readPayload { bytes := payload }
  return snap

/-! Each part reads what the decoder on lists of bytes reads. -/

theorem implements_u64 (e : ε) : Implements (u64 e) (readU64 e) :=
  (implements_number e 8).bind fun _ => Implements.pure _

theorem implements_f64 (e : String) : Implements (f64 e) (readF64 e) :=
  (implements_u64 e).bind fun _ => (implements_ensure e _).bind fun _ => Implements.pure _

theorem implements_id (e : ε) : Implements (id e) (readId e) :=
  (implements_take e 16).bind fun _ => Implements.pure _

/-- Holding the length against what is left first is what taking that many bytes does. -/
theorem implements_str (e : ε) : Implements (str e) (readStr e) := by
  refine (implements_number e 4).bind fun len => ?_
  have same : (take e len : Decoder ε Bytes) = (do
      let left ← Codec.remaining
      Codec.ensure e (decide (len ≤ left))
      take e len) := by
    funext s
    have step : (Codec.remaining : Decoder ε Nat) s = .ok (s.length, s) := rfl
    rw [Codec.bind_apply, step]
    by_cases h : len ≤ s.length
    · simp [Codec.ensure, h]
    · simp [Codec.ensure, h, Codec.bind_apply, Codec.fail, Codec.take]
  rw [same]
  refine implements_remaining.bind fun left => (implements_ensure e _).bind fun _ => ?_
  exact implements_take e len

theorem implements_opt (t i d : ε) : Implements (readOpt t i d) (Warmth.readOpt t i d) := by
  refine (implements_u8 t).bind fun present => ?_
  split
  · exact Implements.pure none
  · refine (implements_ensure i _).bind fun _ => ?_
    exact (implements_id d).bind fun _ => Implements.pure _

theorem implements_dimensions (t i : ε) (is : List DimensionIndex) (o : WarmthObject) :
    Implements (readDimensions t i is o) (Warmth.readDimensions t i is o) := by
  induction is generalizing o with
  | nil => exact Implements.pure o
  | cons j is ih => exact (implements_enumerator t i).bind fun _ => ih _

theorem implements_dependencies (t i d g : ε) (n : Nat) (seen : List DependencyKind)
    (o : WarmthObject) :
    Implements (readDependencies t i d g n seen o) (Warmth.readDependencies t i d g n seen o) := by
  induction n generalizing seen o with
  | zero => exact Implements.pure o
  | succ n ih =>
    refine (implements_enumerator t i).bind fun kind => (implements_ensure d _).bind fun _ => ?_
    exact (implements_u64 g).bind fun _ => ih (kind :: seen) _

theorem implements_invalidation (t r i : ε) :
    Implements (readInvalidation t r i) (Warmth.readInvalidation t r i) := by
  refine (implements_u8 t).bind fun hasInv => ?_
  split
  · exact (implements_str r).bind fun _ => Implements.pure _
  · exact (implements_ensure i _).bind fun _ => Implements.pure none

theorem implements_object (g : WarmthGeneration) :
    Implements (readObject g) (Warmth.readObject g) := by
  refine (implements_id _).bind fun id => (implements_enumerator _ _).bind fun category => ?_
  refine (implements_id _).bind fun workload => (implements_id _).bind fun node => ?_
  refine (implements_str _).bind fun device => (implements_str _).bind fun backend => ?_
  refine (implements_str _).bind fun owner => (implements_opt _ _ _).bind fun model => ?_
  refine (implements_opt _ _ _).bind fun artifact => (implements_opt _ _ _).bind fun replica => ?_
  refine (implements_opt _ _ _).bind fun engine => (implements_enumerator _ _).bind fun state => ?_
  refine (implements_str _).bind fun reason => (implements_dimensions _ _ _ _).bind fun obj => ?_
  refine (implements_u64 _).bind fun lp => (implements_u64 _).bind fun lu => ?_
  refine (implements_u64 _).bind fun ecb => (implements_u64 _).bind fun mcb => ?_
  refine (implements_f64 _).bind fun ettr => (implements_f64 _).bind fun ottr => ?_
  refine (implements_enumerator _ _).bind fun residency => ?_
  refine (implements_enumerator _ _).bind fun lifecycle => ?_
  refine (implements_f64 _).bind fun conf => (implements_f64 _).bind fun fresh => ?_
  refine (implements_u64 _).bind fun wgen => (implements_number _ 4).bind fun nd => ?_
  refine (implements_ensure _ _).bind fun _ => ?_
  refine (implements_dependencies _ _ _ _ nd [] _).bind fun obj => ?_
  refine (implements_invalidation _ _ _).bind fun invalidation => ?_
  refine (implements_enumerator _ _).bind fun provenance => ?_
  exact (implements_ensure _ _).bind fun _ => Implements.pure _

theorem implements_flag : Implements readFlag Warmth.readFlag :=
  (implements_u8 _).bind fun _ => (implements_ensure _ _).bind fun _ => Implements.pure _

theorem implements_policy : Implements readPolicy Warmth.readPolicy := by
  refine (implements_u64 _).bind fun gen => ?_
  refine (implements_f64 _).bind fun v0 => (implements_f64 _).bind fun v1 => ?_
  refine (implements_f64 _).bind fun v2 => (implements_f64 _).bind fun v3 => ?_
  refine (implements_f64 _).bind fun v4 => implements_flag.bind fun f0 => ?_
  refine implements_flag.bind fun f1 => implements_flag.bind fun f2 => ?_
  refine implements_flag.bind fun f3 => implements_flag.bind fun f4 => ?_
  refine (implements_u64 _).bind fun b0 => (implements_u64 _).bind fun b1 => ?_
  refine (implements_u64 _).bind fun b2 => (implements_u64 _).bind fun b3 => ?_
  refine (implements_u64 _).bind fun b4 => (implements_u64 _).bind fun b5 => ?_
  refine (implements_u64 _).bind fun b6 => (implements_u64 _).bind fun b7 => ?_
  refine (implements_f64 _).bind fun w0 => (implements_f64 _).bind fun w1 => ?_
  refine (implements_f64 _).bind fun w2 => (implements_f64 _).bind fun w3 => ?_
  refine (implements_f64 _).bind fun w4 => (implements_f64 _).bind fun w5 => ?_
  refine (implements_f64 _).bind fun w6 => (implements_f64 _).bind fun w7 => ?_
  refine (implements_f64 _).bind fun w8 => (implements_f64 _).bind fun w9 => ?_
  refine (implements_f64 _).bind fun w10 => (implements_f64 _).bind fun w11 => ?_
  exact Implements.pure _

theorem implements_objects (g : WarmthGeneration) (n i : Nat) (ids : List CString) :
    Implements (readObjects g n i ids) (Warmth.readObjects g n i ids) := by
  induction n generalizing i ids with
  | zero => exact Implements.pure []
  | succ n ih =>
    refine ((implements_object g).relabel _).bind fun o => (implements_ensure _ _).bind fun _ => ?_
    exact (ih (i + 1) (o.id.toString :: ids)).bind fun _ => Implements.pure _

theorem implements_header : Implements readHeader Warmth.readHeader := by
  refine (implements_number _ 4).bind fun magic => (implements_ensure _ _).bind fun _ => ?_
  refine (implements_number _ 4).bind fun version => (implements_ensure _ _).bind fun _ => ?_
  refine (implements_number _ 4).bind fun payloadSize => ?_
  exact (implements_number _ 4).bind fun checksum => Implements.pure _

theorem implements_payload : Implements readPayload Warmth.readPayload := by
  refine Implements.bind ?_ fun snap => implements_remaining.bind fun left =>
    (implements_ensure _ _).bind fun _ => Implements.pure snap
  refine (implements_u64 _).bind fun epoch => (implements_u64 _).bind fun wgen => ?_
  refine (implements_u64 _).bind fun dgen => (implements_u64 _).bind fun pgen => ?_
  refine (implements_policy.relabel _).bind fun policy => (implements_ensure _ _).bind fun _ => ?_
  refine (implements_number _ 4).bind fun n => (implements_ensure _ _).bind fun _ => ?_
  exact (implements_objects ⟨wgen⟩ n 0 []).bind fun objects => Implements.pure _

end ByteReader

end Warmth
