import Warmth.Binary64
import Warmth.Identity
import Warmth.WarmthState

namespace Warmth

open Codec

inductive DimensionStatus
  | cold | discovered | partialStatus | ready | valid | suspect
deriving DecidableEq, Repr

instance : ByteEnum DimensionStatus where
  values := [.cold, .discovered, .partialStatus, .ready, .valid, .suspect]
  toByte
    | .cold => 0 | .discovered => 1 | .partialStatus => 2 | .ready => 3 | .valid => 4
    | .suspect => 5
  get_toByte := by intro s; cases s <;> rfl

structure WarmthDimensions where
  artifactAvailability : DimensionStatus := .cold
  artifactValidation : DimensionStatus := .cold
  modelResidency : DimensionStatus := .cold
  adapterResidency : DimensionStatus := .cold
  tokenizerReadiness : DimensionStatus := .cold
  cudaContextReadiness : DimensionStatus := .cold
  kernelReadiness : DimensionStatus := .cold
  graphReadiness : DimensionStatus := .cold
  allocatorReadiness : DimensionStatus := .cold
  prefixKvReuse : DimensionStatus := .cold
  engineReadiness : DimensionStatus := .cold
  localDependencyReadiness : DimensionStatus := .cold
deriving DecidableEq, Repr

inductive WarmthCategory
  | modelWeights | adapters | tokenizerRuntime | kvPrefixState | kernelArtifacts
  | loadedKernelModules | executionGraphs | allocatorPools | cudaContextDevice
  | engineRuntimeProcess | persistentRuntimeCache | applicationDefined
deriving DecidableEq, Repr

instance : ByteEnum WarmthCategory where
  values := [.modelWeights, .adapters, .tokenizerRuntime, .kvPrefixState, .kernelArtifacts,
    .loadedKernelModules, .executionGraphs, .allocatorPools, .cudaContextDevice,
    .engineRuntimeProcess, .persistentRuntimeCache, .applicationDefined]
  toByte
    | .modelWeights => 0 | .adapters => 1 | .tokenizerRuntime => 2 | .kvPrefixState => 3
    | .kernelArtifacts => 4 | .loadedKernelModules => 5 | .executionGraphs => 6
    | .allocatorPools => 7 | .cudaContextDevice => 8 | .engineRuntimeProcess => 9
    | .persistentRuntimeCache => 10 | .applicationDefined => 11
  get_toByte := by intro c; cases c <;> rfl

def categoryName : WarmthCategory → CString
  | .modelWeights => text "MODEL_WEIGHTS"
  | .adapters => text "ADAPTERS"
  | .tokenizerRuntime => text "TOKENIZER_RUNTIME"
  | .kvPrefixState => text "KV_PREFIX_STATE"
  | .kernelArtifacts => text "KERNEL_ARTIFACTS"
  | .loadedKernelModules => text "LOADED_KERNEL_MODULES"
  | .executionGraphs => text "EXECUTION_GRAPHS"
  | .allocatorPools => text "ALLOCATOR_POOLS"
  | .cudaContextDevice => text "CUDA_CONTEXT_DEVICE"
  | .engineRuntimeProcess => text "ENGINE_RUNTIME_PROCESS"
  | .persistentRuntimeCache => text "PERSISTENT_RUNTIME_CACHE"
  | .applicationDefined => text "APPLICATION_DEFINED"

inductive ResidencyState
  | none | storageOnly | hostOnly | deviceResident | mirrored
deriving DecidableEq, Repr

instance : ByteEnum ResidencyState where
  values := [.none, .storageOnly, .hostOnly, .deviceResident, .mirrored]
  toByte
    | .none => 0 | .storageOnly => 1 | .hostOnly => 2 | .deviceResident => 3 | .mirrored => 4
  get_toByte := by intro r; cases r <;> rfl

inductive Lifecycle
  | notStarted | admitted | preparing | ready | cooling | evicting | terminated
deriving DecidableEq, Repr

instance : ByteEnum Lifecycle where
  values := [.notStarted, .admitted, .preparing, .ready, .cooling, .evicting, .terminated]
  toByte
    | .notStarted => 0 | .admitted => 1 | .preparing => 2 | .ready => 3 | .cooling => 4
    | .evicting => 5 | .terminated => 6
  get_toByte := by intro l; cases l <;> rfl

inductive DimensionIndex
  | artifactAvailability | artifactValidation | modelResidency | adapterResidency
  | tokenizerReadiness | cudaContextReadiness | kernelReadiness | graphReadiness
  | allocatorReadiness | prefixKvReuse | engineReadiness | localDependencyReadiness
deriving DecidableEq, Repr

/-- `static_cast<DimensionIndex>(i)` for `i` from 0 to 11. -/
def DimensionIndex.values : List DimensionIndex :=
  [.artifactAvailability, .artifactValidation, .modelResidency, .adapterResidency,
    .tokenizerReadiness, .cudaContextReadiness, .kernelReadiness, .graphReadiness,
    .allocatorReadiness, .prefixKvReuse, .engineReadiness, .localDependencyReadiness]

/-- The device-local dimensions, which do not outlive a process. -/
def ephemeralDimensions : List DimensionIndex :=
  [.cudaContextReadiness, .kernelReadiness, .graphReadiness, .allocatorReadiness]

inductive Provenance
  | localObserved | coordinator | derived | reported | measured
deriving DecidableEq, Repr

instance : ByteEnum Provenance where
  values := [.localObserved, .coordinator, .derived, .reported, .measured]
  toByte
    | .localObserved => 0 | .coordinator => 1 | .derived => 2 | .reported => 3 | .measured => 4
  get_toByte := by intro p; cases p <;> rfl

inductive DependencyKind
  | model | adapterSet | maskTokenizer | kernelSet | graphSet | runtime | compiler
  | computeCapability | device | policy | replica | workerBoot
deriving DecidableEq, Repr

instance : ByteEnum DependencyKind where
  values := [.model, .adapterSet, .maskTokenizer, .kernelSet, .graphSet, .runtime, .compiler,
    .computeCapability, .device, .policy, .replica, .workerBoot]
  toByte
    | .model => 0 | .adapterSet => 1 | .maskTokenizer => 2 | .kernelSet => 3 | .graphSet => 4
    | .runtime => 5 | .compiler => 6 | .computeCapability => 7 | .device => 8 | .policy => 9
    | .replica => 10 | .workerBoot => 11
  get_toByte := by intro k; cases k <;> rfl

/-- Wall-clock milliseconds since the epoch. -/
abbrev Timestamp := Int64

structure WarmthObject where
  id : WarmthObjectId := {}
  category : WarmthCategory := .applicationDefined
  workload : WorkloadId := {}
  node : NodeId := {}
  device : CString := []
  backend : CString := []
  logicalOwner : CString := []
  model : Option ModelId := none
  artifact : Option ArtifactId := none
  replica : Option ReplicaId := none
  engine : Option EngineId := none
  state : WarmthState := .cold
  stateChangeReason : CString := []
  dims : WarmthDimensions := {}
  lastPrepared : Timestamp := 0
  lastUsed : Timestamp := 0
  estimatedCostBytes : UInt64 := 0
  measuredCostBytes : UInt64 := 0
  estimatedTtrMs : Double := .zero
  observedTtrMs : Double := .zero
  residency : ResidencyState := .none
  lifecycle : Lifecycle := .notStarted
  confidence : Double := .zero
  freshness : Double := .zero
  warmthGen : WarmthGeneration := {}
  /-- The map from dependency kinds to generations; an absent kind has no entry. -/
  depGens : DependencyKind → Option DependencyGeneration := fun _ => none
  invalidationReason : Option CString := none
  provenance : Provenance := .localObserved

namespace WarmthObject

/-- The guarded transition: the new object and whether the edge is in the table. -/
def transition (o : WarmthObject) (target : WarmthState) (reason : CString) : WarmthObject × Bool :=
  if transitionAllowed o.state target then
    ({ o with state := target, stateChangeReason := reason }, true)
  else (o, false)

def moveTo (o : WarmthObject) (target : WarmthState) (reason : CString) : WarmthObject :=
  (o.transition target reason).1

def restoreState (o : WarmthObject) (target : WarmthState) (reason : CString) : WarmthObject :=
  { o with state := target, stateChangeReason := reason }

def setDimension (o : WarmthObject) (idx : DimensionIndex) (status : DimensionStatus) :
    WarmthObject :=
  match idx with
  | .artifactAvailability => { o with dims.artifactAvailability := status }
  | .artifactValidation => { o with dims.artifactValidation := status }
  | .modelResidency => { o with dims.modelResidency := status }
  | .adapterResidency => { o with dims.adapterResidency := status }
  | .tokenizerReadiness => { o with dims.tokenizerReadiness := status }
  | .cudaContextReadiness => { o with dims.cudaContextReadiness := status }
  | .kernelReadiness => { o with dims.kernelReadiness := status }
  | .graphReadiness => { o with dims.graphReadiness := status }
  | .allocatorReadiness => { o with dims.allocatorReadiness := status }
  | .prefixKvReuse => { o with dims.prefixKvReuse := status }
  | .engineReadiness => { o with dims.engineReadiness := status }
  | .localDependencyReadiness => { o with dims.localDependencyReadiness := status }

def dimension (o : WarmthObject) : DimensionIndex → DimensionStatus
  | .artifactAvailability => o.dims.artifactAvailability
  | .artifactValidation => o.dims.artifactValidation
  | .modelResidency => o.dims.modelResidency
  | .adapterResidency => o.dims.adapterResidency
  | .tokenizerReadiness => o.dims.tokenizerReadiness
  | .cudaContextReadiness => o.dims.cudaContextReadiness
  | .kernelReadiness => o.dims.kernelReadiness
  | .graphReadiness => o.dims.graphReadiness
  | .allocatorReadiness => o.dims.allocatorReadiness
  | .prefixKvReuse => o.dims.prefixKvReuse
  | .engineReadiness => o.dims.engineReadiness
  | .localDependencyReadiness => o.dims.localDependencyReadiness

def setConfidence (o : WarmthObject) (c : Double) : WarmthObject :=
  { o with confidence := c.clampUnit }

def setFreshness (o : WarmthObject) (f : Double) : WarmthObject :=
  { o with freshness := f.clampUnit }

def setDependencyGeneration (o : WarmthObject) (kind : DependencyKind) (g : DependencyGeneration) :
    WarmthObject :=
  { o with depGens := fun k => if k = kind then some g else o.depGens k }

def setAll (o : WarmthObject) (is : List DimensionIndex) (status : DimensionStatus) : WarmthObject :=
  is.foldl (fun o i => o.setDimension i status) o

def dropEphemeral (o : WarmthObject) (status : DimensionStatus) : WarmthObject :=
  o.setAll ephemeralDimensions status

def executionReady (o : WarmthObject) : Bool := isExecutionReady o.state

/-- An object that is execution-ready carries no invalidation reason. -/
def ReadyValid (o : WarmthObject) : Prop :=
  isExecutionReady o.state = true → o.invalidationReason = none

theorem moveTo_state (o : WarmthObject) (target : WarmthState) (reason : CString) :
    (o.moveTo target reason).state =
      if transitionAllowed o.state target then target else o.state := by
  unfold moveTo transition
  split <;> rfl

theorem moveTo_ready {o : WarmthObject} {target : WarmthState} {reason : CString}
    (h : isExecutionReady (o.moveTo target reason).state = true) :
    isExecutionReady o.state = true ∨ isExecutionReady target = true := by
  rw [moveTo_state] at h
  split at h
  · exact Or.inr h
  · exact Or.inl h

theorem moveTo_frame (o : WarmthObject) (target : WarmthState) (reason : CString) :
    o.moveTo target reason = { o with
      state := (o.moveTo target reason).state
      stateChangeReason := (o.moveTo target reason).stateChangeReason } := by
  unfold moveTo transition
  split <;> rfl

theorem setDependencyGeneration_depGens (o : WarmthObject) (kind k : DependencyKind)
    (g : DependencyGeneration) :
    (o.setDependencyGeneration kind g).depGens k = if k = kind then some g else o.depGens k := rfl

theorem setDimension_frame (o : WarmthObject) (idx : DimensionIndex) (s : DimensionStatus) :
    o.setDimension idx s = { o with dims := (o.setDimension idx s).dims } := by
  cases idx <;> rfl

theorem setAll_frame (o : WarmthObject) (is : List DimensionIndex) (s : DimensionStatus) :
    o.setAll is s = { o with dims := (o.setAll is s).dims } := by
  unfold setAll
  induction is generalizing o with
  | nil => rfl
  | cons i is ih =>
    rw [List.foldl_cons, ih (o.setDimension i s), setDimension_frame o i s]

theorem setDimension_dimension (o : WarmthObject) (i j : DimensionIndex) (s : DimensionStatus) :
    (o.setDimension i s).dimension j = if j = i then s else o.dimension j := by
  cases i <;> cases j <;> rfl

theorem setAll_dimension (o : WarmthObject) (is : List DimensionIndex) (s : DimensionStatus)
    (j : DimensionIndex) :
    (o.setAll is s).dimension j = if j ∈ is then s else o.dimension j := by
  unfold setAll
  induction is generalizing o with
  | nil => rfl
  | cons i is ih =>
    rw [List.foldl_cons, ih, setDimension_dimension]
    by_cases hj : j ∈ is
    · rw [if_pos hj, if_pos (List.mem_cons_of_mem i hj)]
    · rw [if_neg hj]
      by_cases same : j = i
      · rw [if_pos same, if_pos (same ▸ List.mem_cons_self)]
      · rw [if_neg same, if_neg (List.not_mem_cons_of_ne_of_not_mem same hj)]

theorem dims_ext {o o' : WarmthObject} (h : ∀ i, o.dimension i = o'.dimension i) :
    o.dims = o'.dims := by
  have listed (t : WarmthObject) : t.dims =
      ⟨t.dimension .artifactAvailability, t.dimension .artifactValidation,
        t.dimension .modelResidency, t.dimension .adapterResidency,
        t.dimension .tokenizerReadiness, t.dimension .cudaContextReadiness,
        t.dimension .kernelReadiness, t.dimension .graphReadiness,
        t.dimension .allocatorReadiness, t.dimension .prefixKvReuse,
        t.dimension .engineReadiness, t.dimension .localDependencyReadiness⟩ := rfl
  rw [listed o, listed o']
  simp only [h]

theorem dropEphemeral_dimension (o : WarmthObject) (s : DimensionStatus) (i : DimensionIndex) :
    (o.dropEphemeral s).dimension i = if i ∈ ephemeralDimensions then s else o.dimension i :=
  setAll_dimension o ephemeralDimensions s i

theorem dropEphemeral_frame (o : WarmthObject) (s : DimensionStatus) :
    o.dropEphemeral s = { o with dims := (o.dropEphemeral s).dims } :=
  setAll_frame o ephemeralDimensions s

/-- Setting the device-local dimensions changes nothing just where they have the status already. -/
theorem dropEphemeral_eq_self_iff {o : WarmthObject} {s : DimensionStatus} :
    o.dropEphemeral s = o ↔ ∀ i ∈ ephemeralDimensions, o.dimension i = s := by
  constructor
  · intro same i hi
    rw [← same, dropEphemeral_dimension, if_pos hi]
  · intro all
    have dims : (o.dropEphemeral s).dims = o.dims := by
      apply dims_ext
      intro i
      rw [dropEphemeral_dimension]
      split
      next hi => exact (all i hi).symm
      next => rfl
    rw [dropEphemeral_frame, dims]

@[simp] theorem moveTo_warmthGen (o : WarmthObject) (target : WarmthState) (reason : CString) :
    (o.moveTo target reason).warmthGen = o.warmthGen := by
  rw [moveTo_frame]

@[simp] theorem moveTo_invalidationReason (o : WarmthObject) (target : WarmthState)
    (reason : CString) : (o.moveTo target reason).invalidationReason = o.invalidationReason := by
  rw [moveTo_frame]

@[simp] theorem setDimension_state (o : WarmthObject) (idx : DimensionIndex) (s : DimensionStatus) :
    (o.setDimension idx s).state = o.state := by
  rw [setDimension_frame]

@[simp] theorem setDimension_invalidationReason (o : WarmthObject) (idx : DimensionIndex)
    (s : DimensionStatus) :
    (o.setDimension idx s).invalidationReason = o.invalidationReason := by
  rw [setDimension_frame]

@[simp] theorem setAll_state (o : WarmthObject) (is : List DimensionIndex) (s : DimensionStatus) :
    (o.setAll is s).state = o.state := by
  rw [setAll_frame]

@[simp] theorem setAll_invalidationReason (o : WarmthObject) (is : List DimensionIndex)
    (s : DimensionStatus) : (o.setAll is s).invalidationReason = o.invalidationReason := by
  rw [setAll_frame]

@[simp] theorem dropEphemeral_warmthGen (o : WarmthObject) (s : DimensionStatus) :
    (o.dropEphemeral s).warmthGen = o.warmthGen := by
  rw [dropEphemeral, setAll_frame]

@[simp] theorem dropEphemeral_invalidationReason (o : WarmthObject) (s : DimensionStatus) :
    (o.dropEphemeral s).invalidationReason = o.invalidationReason :=
  setAll_invalidationReason o ephemeralDimensions s

@[simp] theorem dropEphemeral_state (o : WarmthObject) (s : DimensionStatus) :
    (o.dropEphemeral s).state = o.state := setAll_state o ephemeralDimensions s

theorem readyValid_of_unready {o : WarmthObject} (h : isExecutionReady o.state = false) :
    o.ReadyValid := by
  intro ready
  rw [h] at ready
  cases ready

theorem readyValid_of_valid {o : WarmthObject} (h : o.invalidationReason = none) : o.ReadyValid :=
  fun _ => h

/-- A change that makes no object ready and leaves its reason alone. -/
theorem ReadyValid.of_down {o o' : WarmthObject} (h : o.ReadyValid)
    (down : isExecutionReady o'.state = true → isExecutionReady o.state = true)
    (reason : o'.invalidationReason = o.invalidationReason) : o'.ReadyValid :=
  fun ready => reason.trans (h (down ready))

theorem ReadyValid.moveTo {o : WarmthObject} (h : o.ReadyValid) {target : WarmthState}
    (down : isExecutionReady target = true → isExecutionReady o.state = true) (why : CString) :
    (o.moveTo target why).ReadyValid := by
  refine h.of_down (fun ready => ?_) (moveTo_invalidationReason o target why)
  rcases moveTo_ready ready with ready | ready
  · exact ready
  · exact down ready

theorem ReadyValid.moveTo_unready {o : WarmthObject} (h : o.ReadyValid) {target : WarmthState}
    (unready : isExecutionReady target = false) (why : CString) :
    (o.moveTo target why).ReadyValid :=
  h.moveTo (fun ready => absurd (unready.symm.trans ready) Bool.false_ne_true) why

end WarmthObject

end Warmth
