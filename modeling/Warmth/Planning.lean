import Warmth.Fabric

/-- The rational number that a finite double stands for. -/
def Double.toRat (d : Double) : Rat :=
  let e : Nat := d.magnitude / 2 ^ 52
  let m : Nat := d.magnitude % 2 ^ 52
  let significand : Nat := if e = 0 then m else m + 2 ^ 52
  let r : Rat := (significand * 2 ^ (e - 1) : Nat) / (2 ^ 1074 : Nat)
  if d.negative then -r else r

namespace Warmth

open Codec Std

def dimensionScore : DimensionStatus → Nat
  | .cold => 0
  | .discovered => 1
  | .partialStatus => 2
  | .ready => 3
  | .valid => 4
  | .suspect => 1

inductive CompositeLevel
  | cold | discovered | partialLevel | ready | hot
deriving DecidableEq, Repr

namespace WarmthDimensions

def all (d : WarmthDimensions) : List DimensionStatus :=
  [d.artifactAvailability, d.artifactValidation, d.modelResidency, d.adapterResidency,
    d.tokenizerReadiness, d.cudaContextReadiness, d.kernelReadiness, d.graphReadiness,
    d.allocatorReadiness, d.prefixKvReuse, d.engineReadiness, d.localDependencyReadiness]

def readyCount (d : WarmthDimensions) : Nat := d.all.countP fun s => 3 ≤ dimensionScore s
def validCount (d : WarmthDimensions) : Nat := d.all.countP fun s => s == .valid
def componentCount : Nat := 12
def rawScore (d : WarmthDimensions) : Nat := (d.all.map dimensionScore).sum

def compositeLevel (d : WarmthDimensions) : CompositeLevel :=
  if d.validCount = componentCount then .hot
  else if d.readyCount = componentCount then .ready
  else if d.readyCount = 0 then
    if 12 ≤ d.rawScore then .partialLevel else if 0 < d.rawScore then .discovered else .cold
  else if componentCount ≤ d.readyCount * 2 then .partialLevel
  else .discovered

def allReady (d : WarmthDimensions) : Bool := d.readyCount == componentCount
def anySuspect (d : WarmthDimensions) : Bool := d.all.any fun s => s == .suspect

end WarmthDimensions

inductive CostKind
  | unknown | estimated | measured | reported | derived
deriving DecidableEq, Repr

structure CostBreakdown where
  bytesToTransfer : UInt64 := 0
  bytesResident : UInt64 := 0
  artifactsToValidate : UInt64 := 0
  kernelsToPrepare : UInt64 := 0
  graphsToPrepare : UInt64 := 0
  contextInitSteps : UInt64 := 0
  adapterActivationBytes : UInt64 := 0
  tokenizerInitSteps : UInt64 := 0
  prefixKvBytes : UInt64 := 0
  allocatorInitSteps : UInt64 := 0
  engineStartupMs : UInt64 := 0
  syncCostMs : UInt64 := 0
  dependencyChecks : UInt64 := 0
deriving DecidableEq, Repr

structure ReadinessCost where
  kind : CostKind := .estimated
  estimated : CostBreakdown := {}
  measured : CostBreakdown := {}
  expectedTtfuMs : Rat := 0
  observedTtfuMs : Rat := 0
deriving DecidableEq, Repr

namespace CostModel

def unprepared (s : DimensionStatus) : Bool := s == .cold || s == .discovered

def breakdown (obj : WarmthObject) (modelBytes : UInt64) : CostBreakdown :=
  let d := obj.dims
  let cold := obj.state == .cold || obj.state == .discovered || obj.state == .evicted ||
    obj.state == .invalidated
  let bytes := if modelBytes == 0 then (1 : UInt64) <<< (30 : UInt64) else modelBytes
  let checks : UInt64 := (if d.allReady then 0 else 1) + (if d.anySuspect then 1 else 0)
  { bytesToTransfer := (if unprepared d.artifactAvailability then bytes else 0) +
      (if d.modelResidency == .cold then bytes else 0)
    artifactsToValidate :=
      if unprepared d.artifactValidation || d.artifactValidation == .partialStatus then 1 else 0
    kernelsToPrepare := if unprepared d.kernelReadiness then 1 else 0
    graphsToPrepare := if unprepared d.graphReadiness then 1 else 0
    contextInitSteps := if unprepared d.cudaContextReadiness then 1 else 0
    adapterActivationBytes :=
      if unprepared d.adapterResidency then (1 : UInt64) <<< (28 : UInt64) else 0
    tokenizerInitSteps := if d.tokenizerReadiness == .cold then 1 else 0
    prefixKvBytes := if d.prefixKvReuse == .partialStatus then (1 : UInt64) <<< (26 : UInt64) else 0
    allocatorInitSteps := if d.allocatorReadiness == .cold then 1 else 0
    engineStartupMs := if unprepared d.engineReadiness then (if cold then 900 else 200) else 0
    dependencyChecks := checks
    syncCostMs := if 0 < checks then
      (if isExecutionReady obj.state then 2 else if obj.state == .partiallyWarm then 60 else 250)
      else 0 }

/-- `cost_model::estimate`, with the time to first useful work in exact arithmetic. -/
def estimate (obj : WarmthObject) (modelBytes : UInt64) : ReadinessCost :=
  let c := breakdown obj modelBytes
  let cold := obj.state == .cold || obj.state == .discovered || obj.state == .evicted ||
    obj.state == .invalidated
  let whenPositive (n : UInt64) (ms : Rat) : Rat := if 0 < n then ms else 0
  { estimated := c
    expectedTtfuMs :=
      whenPositive c.bytesToTransfer ((c.bytesToTransfer.toNat : Rat) / 36000000000) +
      whenPositive c.contextInitSteps 1200 + whenPositive c.kernelsToPrepare 600 +
      whenPositive c.graphsToPrepare 400 + whenPositive c.adapterActivationBytes 300 +
      whenPositive c.tokenizerInitSteps 30 + whenPositive c.allocatorInitSteps 150 +
      whenPositive c.prefixKvBytes 200 + (c.engineStartupMs.toNat : Rat) +
      (c.syncCostMs.toNat : Rat) + if cold then 3000 else 0 }

end CostModel

/-- The components of a warming preference, in exact arithmetic. -/
structure WarmthPreference where
  predictedReuse : Rat := 0
  arrivalProbability : Rat := 0
  latencyClass : Rat := 0
  priority : Rat := 0
  tenantFairness : Rat := 0
  warmingCostNormalized : Rat := 1 / 2
  memoryCostNormalized : Rat := 1 / 2
  transferCostNormalized : Rat := 1 / 2
  evictionRisk : Rat := 0
  dependencyAvailability : Rat := 1
  currentPartialWarmth : Rat := 0
  expectedBenefit : Rat := 0

def WarmthPreference.components (p : WarmthPreference) : List Rat :=
  [p.predictedReuse, p.arrivalProbability, p.latencyClass, p.priority, p.tenantFairness,
    p.warmingCostNormalized, p.memoryCostNormalized, p.transferCostNormalized, p.evictionRisk,
    p.dependencyAvailability, p.currentPartialWarmth, p.expectedBenefit]

def clamp01 (v : Rat) : Rat := if v < 0 then 0 else if 1 < v then 1 else v

def preferenceScore (p : WarmthPreference) (w : List Rat) : Rat :=
  (List.zipWith (fun w c => w * clamp01 c) w p.components).sum

structure Candidate where
  id : WarmthObjectId
  preference : WarmthPreference
  estimatedCostMs : Rat
  suggestedAction : WarmthAction

structure PlanStep where
  object : WarmthObjectId
  action : WarmthAction
  score : Rat
  estimatedCostMs : Rat
  rationale : CString

structure WarmthPlan where
  workload : WorkloadId
  replica : ReplicaId
  steps : List PlanStep
  policyGeneration : PolicyGeneration
  tieBreak : CString

/-- `std::to_string` of a double: six decimals, halves to even. -/
def toString6 (q : Rat) : CString :=
  let n := Double.roundDiv (q.num.natAbs * 1000000) q.den
  let sign := if q < 0 then "-" else ""
  let decimals := toString (n % 1000000)
  text (sign ++ toString (n / 1000000) ++ "." ++
    String.ofList (List.replicate (6 - decimals.length) '0') ++ decimals)

example : toString6 (1 / 128) = text "0.007812" := by decide +kernel
example : toString6 (-3 / 2) = text "-1.500000" := by decide +kernel

namespace PlanBuilder

/-- Descending score, then ascending id. -/
def before (w : List Rat) (a b : Candidate) : Bool :=
  let sa := preferenceScore a.preference w
  let sb := preferenceScore b.preference w
  if sa ≠ sb then sb < sa else compare a.id b.id == .lt

def sort (policy : WarmthPolicy) (candidates : List Candidate) : List Candidate :=
  candidates.mergeSort fun a b => !before ((policyWeights policy).map Double.toRat) b a

def rationale (p : WarmthPreference) : CString :=
  text "reuse=" ++ toString6 p.predictedReuse ++ text " prob=" ++ toString6 p.arrivalProbability ++
    text " priority=" ++ toString6 p.priority ++ text " benefit=" ++ toString6 p.expectedBenefit

def build (policy : WarmthPolicy) (workload : WorkloadId) (replica : ReplicaId)
    (candidates : List Candidate) : WarmthPlan where
  workload
  replica
  policyGeneration := policy.generation
  tieBreak := text "score_desc_then_id_asc"
  steps := (sort policy candidates).map fun c =>
    { object := c.id
      action := c.suggestedAction
      score := preferenceScore c.preference ((policyWeights policy).map Double.toRat)
      estimatedCostMs := c.estimatedCostMs
      rationale := rationale c.preference }

end PlanBuilder

def residencyName : ResidencyState → CString
  | .none => text "NONE"
  | .storageOnly => text "STORAGE_ONLY"
  | .hostOnly => text "HOST_ONLY"
  | .deviceResident => text "DEVICE_RESIDENT"
  | .mirrored => text "MIRRORED"

def actionNames : List String :=
  ["VALIDATE_ARTIFACT", "LOAD_MODEL", "TRANSFER_HOST_DEVICE", "ACTIVATE_ADAPTER", "INIT_TOKENIZER",
    "INIT_CUDA_CONTEXT", "LOAD_MODULE", "PREPARE_KERNEL", "CAPTURE_GRAPH", "INSTANTIATE_GRAPH",
    "PREPARE_ALLOCATOR", "WARMUP_EXECUTION", "ACQUIRE_PREFIX_KV", "INIT_ENGINE"]

def actionName (a : WarmthAction) : CString := text (actionNames.getD a.value.toNat "UNKNOWN")

structure ReadinessExplanation where
  object : WarmthObjectId
  category : WarmthCategory
  state : WarmthState
  composite : CompositeLevel
  dimensions : List (DimensionIndex × DimensionStatus)
  cost : ReadinessCost
  executionReady : Bool
  invalidationReason : CString
  policyGeneration : PolicyGeneration
  residency : CString
  chosenAction : CString
  tieBreak : CString
  missingPreparation : CString
  measuredWarmStartMs : Double

namespace WarmthFabric

def defaultActionFor (o : WarmthObject) (cost : ReadinessCost) : WarmthAction :=
  if o.dims.modelResidency == .cold && decide (0 < cost.estimated.bytesToTransfer) then
    .transferHostDevice
  else if o.dims.kernelReadiness == .cold then .prepareKernel
  else if o.dims.graphReadiness == .cold then .instantiateGraph
  else if o.dims.cudaContextReadiness == .cold then .initCudaContext
  else if o.dims.engineReadiness == .cold then .initEngine
  else if o.dims.allocatorReadiness == .cold then .prepareAllocator
  else .initEngine

/-- The preference that `plan` gives an object. -/
def preferenceOf (o : WarmthObject) : WarmthPreference where
  predictedReuse := 1 / 2
  arrivalProbability := if o.executionReady then 4 / 5 else 3 / 10
  latencyClass := if o.category == .executionGraphs then 9 / 10 else 1 / 2
  priority := if o.category == .modelWeights then 4 / 5 else 1 / 2
  tenantFairness := 1 / 2
  transferCostNormalized := if o.dims.modelResidency == .cold then 7 / 10 else 1 / 5
  evictionRisk := if o.state == .partiallyWarm then 2 / 5 else 1 / 5
  dependencyAvailability := if o.dims.localDependencyReadiness == .valid then 1 else 1 / 2
  currentPartialWarmth := if toLevel o.state == .partialLevel then 3 / 5 else 0
  expectedBenefit :=
    if o.executionReady then 9 / 10 else if o.state == .partiallyWarm then 1 / 2 else 3 / 10

def candidateOf (modelBytes : UInt64) (o : WarmthObject) : Candidate :=
  let cost := CostModel.estimate o modelBytes
  ⟨o.id, preferenceOf o, cost.expectedTtfuMs, defaultActionFor o cost⟩

/-- The plan that `plan` returns; `modelBytes` is the configured `default_model_bytes`. -/
def planOf (f : WarmthFabric) (modelBytes : UInt64) : WarmthPlan :=
  PlanBuilder.build f.cfg.policy f.cfg.workload {}
    (f.objects.toList.map fun kv => candidateOf modelBytes kv.2)

def missingText (o : WarmthObject) : CString :=
  let missing (s : DimensionStatus) (name : String) : CString := if s == .valid then [] else text name
  let s := missing o.dims.modelResidency " model_weights" ++ missing o.dims.kernelReadiness " kernels" ++
    missing o.dims.graphReadiness " graphs" ++ missing o.dims.cudaContextReadiness " cuda_context" ++
    missing o.dims.allocatorReadiness " allocator" ++ missing o.dims.engineReadiness " engine"
  if s.isEmpty then text "none" else s

/-- What `explain` says of a stored object. For a missing one it returns an explanation that was
never filled in. -/
def explanationOf (f : WarmthFabric) (modelBytes : UInt64) (o : WarmthObject) :
    ReadinessExplanation :=
  let cost := CostModel.estimate o modelBytes
  { object := o.id
    category := o.category
    state := o.state
    composite := o.dims.compositeLevel
    dimensions := DimensionIndex.values.map fun i => (i, o.dimension i)
    cost
    executionReady := o.executionReady
    invalidationReason := o.invalidationReason.getD []
    policyGeneration := f.gen.policy
    residency := residencyName o.residency
    chosenAction := actionName (defaultActionFor o cost)
    tieBreak := text "score_desc_then_id_asc"
    missingPreparation := missingText o
    measuredWarmStartMs := o.observedTtrMs }

end WarmthFabric

end Warmth
