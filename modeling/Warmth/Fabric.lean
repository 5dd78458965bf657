import Warmth.Budget
import Warmth.Decay
import Warmth.Messages
import Warmth.Persistence

namespace Warmth

open Codec Std TreeMaps

inductive InvalidationReason
  | modelRevisionChange | adapterSetChange | tokenizerChange | kernelGenerationChange
  | graphGenerationChange | runtimeCompilerChange | computeCapabilityChange
  | cudaDriverRuntimeChange | deviceChange | policyGenerationChange | replicaGenerationChange
  | processBootChange | dependencyCorruption | integrityFailure
deriving DecidableEq, Repr

def invalidationReasonText : InvalidationReason → CString
  | .modelRevisionChange => text "MODEL_REVISION_CHANGE"
  | .adapterSetChange => text "ADAPTER_SET_CHANGE"
  | .tokenizerChange => text "TOKENIZER_CHANGE"
  | .kernelGenerationChange => text "KERNEL_GENERATION_CHANGE"
  | .graphGenerationChange => text "GRAPH_GENERATION_CHANGE"
  | .runtimeCompilerChange => text "RUNTIME_COMPILER_CHANGE"
  | .computeCapabilityChange => text "COMPUTE_CAPABILITY_CHANGE"
  | .cudaDriverRuntimeChange => text "CUDA_DRIVER_RUNTIME_CHANGE"
  | .deviceChange => text "DEVICE_CHANGE"
  | .policyGenerationChange => text "POLICY_GENERATION_CHANGE"
  | .replicaGenerationChange => text "REPLICA_GENERATION_CHANGE"
  | .processBootChange => text "PROCESS_BOOT_CHANGE"
  | .dependencyCorruption => text "DEPENDENCY_CORRUPTION"
  | .integrityFailure => text "INTEGRITY_FAILURE"

structure FabricConfig where
  workload : WorkloadId := {}
  node : NodeId := {}
  device : CString := text "cuda:0"
  backend : CString := text "cuda"
  policy : WarmthPolicy := .defaults ⟨1⟩

structure Generations where
  warmth : WarmthGeneration := ⟨1⟩
  dependency : DependencyGeneration := ⟨1⟩
  policy : PolicyGeneration := ⟨1⟩
deriving DecidableEq

structure WarmOutcome where
  success : Bool
  durationMs : Double := .zero
  bytes : UInt64 := 0
deriving DecidableEq, Repr

abbrev WarmOperation := WarmthAction → WarmOutcome

/-- `synthetic_warm`: `0.5 + 0.25 * action` milliseconds. -/
def syntheticWarm (action : WarmthAction) : WarmOutcome :=
  { success := true, durationMs := .ofNatDiv (action.value.toNat + 2) 4, bytes := (1 : UInt64) <<< (28 : UInt64) }

structure WarmthFabric where
  cfg : FabricConfig
  objects : ExtTreeMap WarmthObjectId WarmthObject := ∅
  budget : BudgetTracker
  gen : Generations
  op : Option WarmOperation := none

def makeWarm (o : WarmthObject) (why : CString) : WarmthObject :=
  if o.state == .warm || o.state == .hot then o else
  let o := match o.transition .preparing why with
    | (prepared, true) => prepared
    | (_, false) => (o.moveTo .cold why).moveTo .preparing why
  { o.moveTo .warm why with invalidationReason := none }

def allValid : WarmthDimensions where
  artifactAvailability := .valid
  artifactValidation := .valid
  modelResidency := .valid
  adapterResidency := .valid
  tokenizerReadiness := .valid
  cudaContextReadiness := .valid
  kernelReadiness := .valid
  graphReadiness := .valid
  allocatorReadiness := .valid
  prefixKvReuse := .valid
  engineReadiness := .valid
  localDependencyReadiness := .valid

/-- The reservations a `warm` call holds between its first and its last section. -/
structure WarmReservations where
  reservation : UInt64
  opReservation : UInt64
deriving DecidableEq, Repr

/-- `budget_.release(reservation); if (op_reservation) budget_.release(op_reservation);`. -/
def BudgetTracker.releasePair (t : BudgetTracker) (r : WarmReservations) : BudgetTracker :=
  let t := (t.release r.reservation).2
  if r.opReservation != 0 then (t.release r.opReservation).2 else t

/-- What `load_snapshot_file` gets to read: the bytes of the file, or why it cannot. -/
abbrev FileContents := Except String Bytes

def loadSnapshotFile (file : FileContents) : Except String Snapshot := file.bind decodeSnapshot

def revalidated (o : WarmthObject) : WarmthObject :=
  if isExecutionReady o.state || o.state == .hot then
    o.moveTo .discovered (text "restart_revalidation")
  else o

/-- One turn of the loop over the recovered objects. -/
def recovered (o : WarmthObject) : WarmthObject :=
  let o := { revalidated o with
    invalidationReason := some (text "restart_revalidation_required") }
  { o.dropEphemeral .cold with provenance := .reported }

namespace WarmthFabric

def new (cfg : FabricConfig) : WarmthFabric where
  cfg
  budget := { limits := cfg.policy.budgets }
  gen := { policy := cfg.policy.generation }

/-- `register_object`; the id is derived from the owner and the category's name. -/
def registerObject (f : WarmthFabric) (category : WarmthCategory) (logicalOwner : CString)
    (model : Option ModelId) (artifact : Option ArtifactId) (replica : Option ReplicaId)
    (engine : Option EngineId) : WarmthFabric × WarmthObjectId :=
  let id := Id128.derive (logicalOwner ++ text "|" ++ categoryName category)
  let o : WarmthObject :=
    { id, category, workload := f.cfg.workload, node := f.cfg.node, device := f.cfg.device
      backend := f.cfg.backend, logicalOwner, model, artifact, replica, engine
      warmthGen := f.gen.warmth }
  ({ f with objects := f.objects.insert id o }, id)

def upsert (f : WarmthFabric) (o : WarmthObject) : WarmthFabric :=
  { f with objects := f.objects.insert o.id o }

/-- The objects after an operation that looks one up and returns false when it is missing. -/
def onObject (f : WarmthFabric) (id : WarmthObjectId) (g : WarmthObject → WarmthObject × Bool) :
    WarmthFabric × Bool :=
  match f.objects[id]? with
  | none => (f, false)
  | some o => ({ f with objects := f.objects.insert id (g o).1 }, (g o).2)

def transition (f : WarmthFabric) (id : WarmthObjectId) (target : WarmthState) (reason : CString) :
    WarmthFabric × Bool :=
  f.onObject id fun o => o.transition target reason

def setDimension (f : WarmthFabric) (id : WarmthObjectId) (idx : DimensionIndex)
    (status : DimensionStatus) : WarmthFabric × Bool :=
  f.onObject id fun o => (o.setDimension idx status, true)

def setDimensions (f : WarmthFabric) (id : WarmthObjectId) (dims : WarmthDimensions) :
    WarmthFabric × Bool :=
  f.onObject id fun o => ({ o with dims }, true)

def markUsed (f : WarmthFabric) (id : WarmthObjectId) (now : Timestamp) : WarmthFabric × Bool :=
  f.onObject id fun o => ({ o with lastUsed := now }, true)

def invalidate (f : WarmthFabric) (id : WarmthObjectId) (reason : InvalidationReason) :
    WarmthFabric × Bool :=
  f.onObject id fun o =>
    if !transitionAllowed o.state .invalidated then (o, false) else
    let o := { o with invalidationReason := some (invalidationReasonText reason) }
    let o := o.moveTo .invalidated (text "invalidation")
    -- the allocator dimension stays
    (o.setAll [.cudaContextReadiness, .kernelReadiness, .graphReadiness] .cold, true)

def demote (f : WarmthFabric) (id : WarmthObjectId) : WarmthFabric × Bool :=
  f.onObject id fun o =>
    match o.state with
    | .hot => o.transition .warm (text "demote")
    | .warm => o.transition .partiallyWarm (text "demote")
    | .partiallyWarm => o.transition .cold (text "demote")
    | _ => (o, false)

def evict (f : WarmthFabric) (id : WarmthObjectId) : WarmthFabric × Bool :=
  f.onObject id fun o =>
    match o.transition .evicted (text "evict") with
    | (o, false) => (o, false)
    | (o, true) =>
      let o := if o.residency == .deviceResident || o.residency == .mirrored then
        { o with residency := .hostOnly } else o
      (o.dropEphemeral .cold, true)

/-- Phase 1 of `warm`: reserve and mark PREPARING. Without a result the call returns false. -/
def warmBegin (f : WarmthFabric) (id : WarmthObjectId) : WarmthFabric × Option WarmReservations :=
  match f.objects[id]? with
  | none => (f, none)
  | some o =>
    let (reservation, _, budget) := f.budget.reserve .deviceMemory kDefaultWarmBytes (text "warm")
    if reservation == 0 then ({ f with budget }, none) else
    let (opReservation, _, budget) := budget.reserve .concurrentWarmingOps 1 (text "warm")
    if !transitionAllowed o.state .preparing then
      ({ f with budget := budget.releasePair ⟨reservation, opReservation⟩ }, none)
    else
      let o := o.moveTo .preparing (text "warming")
      ({ f with budget, objects := f.objects.insert id o }, some ⟨reservation, opReservation⟩)

/-- What phase 3 does to the object when the warming operation succeeded. -/
def warmed (o : WarmthObject) (outcome : WarmOutcome) (now : Nat → Timestamp) : WarmthObject :=
  { o.moveTo .warm (text "warm_completed") with
    invalidationReason := none
    measuredCostBytes := outcome.bytes
    observedTtrMs := outcome.durationMs
    lastPrepared := now 0
    lastUsed := now 1
    provenance := .measured
    residency := .deviceResident }

/-- Phase 3 of `warm`: release, apply the outcome, and return. On true the caller's
`measured_ms` and `measured_bytes` are set to those of the outcome. -/
def warmFinish (f : WarmthFabric) (id : WarmthObjectId) (held : WarmReservations)
    (outcome : WarmOutcome) (now : Nat → Timestamp) : WarmthFabric × Bool :=
  { f with budget := f.budget.releasePair held }.onObject id fun o =>
    if outcome.success then (warmed o outcome now, true)
    else (o.moveTo .failed (text "warming_hook_failed"), false)

/-- Phase 2: the warming operation, the synthetic one when none is set. -/
def warmOperation (f : WarmthFabric) : WarmOperation := f.op.getD syntheticWarm

def warm (f : WarmthFabric) (id : WarmthObjectId) (action : WarmthAction) (now : Nat → Timestamp) :
    WarmthFabric × Bool :=
  match f.warmBegin id with
  | (f, none) => (f, false)
  | (f, some held) => f.warmFinish id held (f.warmOperation action) now

def warmToReady (f : WarmthFabric) (id : WarmthObjectId) : WarmthFabric × Bool :=
  f.onObject id fun o =>
    let o := makeWarm { o with dims := allValid } (text "warm_to_ready")
    let o := { o with residency := .deviceResident, provenance := .measured }
    (o, o.executionReady)

def bumpDependencyGeneration (f : WarmthFabric) : WarmthFabric :=
  { f with gen.dependency := f.gen.dependency.next }

def bumpWarmthGeneration (f : WarmthFabric) : WarmthFabric :=
  { f with gen.warmth := f.gen.warmth.next }

def decayed (policy : DecayPolicy) (now : Timestamp)
    (memoryPressure dependencyChanged deviceReset processRestart : Bool) (o : WarmthObject) :
    WarmthObject :=
  let res := decayObject o policy now memoryPressure dependencyChanged deviceReset processRestart
  if res.changed then o.moveTo res.state (decayReasonName res.reason) else o

def decay (f : WarmthFabric) (now : Timestamp)
    (memoryPressure dependencyChanged deviceReset processRestart : Bool) : WarmthFabric :=
  { f with objects := f.objects.map fun _ o =>
      decayed f.cfg.policy.decay now memoryPressure dependencyChanged deviceReset processRestart o }

/-- The value `snapshot` builds; that it takes the lock a second time is left aside. -/
def snapshot (f : WarmthFabric) : Snapshot where
  epoch := ⟨1⟩
  warmthGeneration := f.gen.warmth
  dependencyGeneration := f.gen.dependency
  policyGeneration := f.gen.policy
  policy := f.cfg.policy
  objects := f.objects.toList.map Prod.snd

def restore (f : WarmthFabric) (snap : Snapshot) : WarmthFabric :=
  { f with
    gen := ⟨snap.warmthGeneration.next, snap.dependencyGeneration.next, snap.policyGeneration.next⟩
    objects := snap.objects.foldl (fun m o => m.insert (recovered o).id (recovered o)) ∅
    cfg.policy := snap.policy
    budget := { limits := snap.policy.budgets } }

/-- `recover`: the error when the file cannot be loaded, in which case nothing changes. -/
def recover (f : WarmthFabric) (file : FileContents) : WarmthFabric × Option String :=
  match loadSnapshotFile file with
  | .error e => (f, some e)
  | .ok snap => (f.restore snap, none)

/-- What phase 1 of `warm` can do: give up, touching the budget alone, or take a reservation and
an object with an edge to PREPARING there. -/
theorem warmBegin_cases (f : WarmthFabric) (id : WarmthObjectId) :
    (∃ budget, f.warmBegin id = ({ f with budget }, none)) ∨
    ∃ o budget held, f.objects[id]? = some o ∧ transitionAllowed o.state .preparing = true ∧
      f.warmBegin id =
        ({ f with budget, objects := f.objects.insert id (o.moveTo .preparing (text "warming")) },
          some held) := by
  unfold warmBegin
  cases ho : f.objects[id]? with
  | none => exact Or.inl ⟨f.budget, rfl⟩
  | some o =>
    simp only
    split
    next => exact Or.inl ⟨_, rfl⟩
    next =>
      split
      next => exact Or.inl ⟨_, rfl⟩
      next h =>
        refine Or.inr ⟨o, _, _, rfl, ?_, rfl⟩
        simpa using h

end WarmthFabric

/-- The public operations that are one locked section and do not replace the fabric's objects
wholesale; `upsert`, `warm` and `recover` are apart. -/
inductive FabricOp
  | registerObject (category : WarmthCategory) (logicalOwner : CString) (model : Option ModelId)
      (artifact : Option ArtifactId) (replica : Option ReplicaId) (engine : Option EngineId)
  | transition (id : WarmthObjectId) (target : WarmthState) (reason : CString)
  | setDimension (id : WarmthObjectId) (idx : DimensionIndex) (status : DimensionStatus)
  | setDimensions (id : WarmthObjectId) (dims : WarmthDimensions)
  | markUsed (id : WarmthObjectId) (now : Timestamp)
  | invalidate (id : WarmthObjectId) (reason : InvalidationReason)
  | demote (id : WarmthObjectId)
  | evict (id : WarmthObjectId)
  | warmToReady (id : WarmthObjectId)
  | decay (now : Timestamp) (memoryPressure dependencyChanged deviceReset processRestart : Bool)
  | bumpDependencyGeneration
  | bumpWarmthGeneration

def FabricOp.apply (f : WarmthFabric) : FabricOp → WarmthFabric
  | .registerObject category owner model artifact replica engine =>
    (f.registerObject category owner model artifact replica engine).1
  | .transition id target reason => (f.transition id target reason).1
  | .setDimension id idx status => (f.setDimension id idx status).1
  | .setDimensions id dims => (f.setDimensions id dims).1
  | .markUsed id now => (f.markUsed id now).1
  | .invalidate id reason => (f.invalidate id reason).1
  | .demote id => (f.demote id).1
  | .evict id => (f.evict id).1
  | .warmToReady id => (f.warmToReady id).1
  | .decay now memoryPressure dependencyChanged deviceReset processRestart =>
    f.decay now memoryPressure dependencyChanged deviceReset processRestart
  | .bumpDependencyGeneration => f.bumpDependencyGeneration
  | .bumpWarmthGeneration => f.bumpWarmthGeneration

end Warmth
