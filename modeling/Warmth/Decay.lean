import Warmth.Policy
import Warmth.WarmthObject

namespace Warmth

inductive DecayReason
  | idleElapsed | memoryPressure | resourceReclamation | processRestart | deviceReset
  | dependencyGenerationChange | artifactReplacement | adapterChange | runtimeUpgrade
  | kernelInvalidation | graphInvalidation | topologyChange | policyGenerationChange
deriving DecidableEq, Repr

def decayReasonName : DecayReason → CString
  | .idleElapsed => text "IDLE_ELAPSED"
  | .memoryPressure => text "MEMORY_PRESSURE"
  | .resourceReclamation => text "RESOURCE_RECLAMATION"
  | .processRestart => text "PROCESS_RESTART"
  | .deviceReset => text "DEVICE_RESET"
  | .dependencyGenerationChange => text "DEPENDENCY_GENERATION_CHANGE"
  | .artifactReplacement => text "ARTIFACT_REPLACEMENT"
  | .adapterChange => text "ADAPTER_CHANGE"
  | .runtimeUpgrade => text "RUNTIME_UPGRADE"
  | .kernelInvalidation => text "KERNEL_INVALIDATION"
  | .graphInvalidation => text "GRAPH_INVALIDATION"
  | .topologyChange => text "TOPOLOGY_CHANGE"
  | .policyGenerationChange => text "POLICY_GENERATION_CHANGE"

/-- Seconds between two timestamps, zero when they are reversed. -/
def elapsedSeconds (start finish : Timestamp) : Double :=
  let d := finish - start
  if d ≤ 0 then .zero else .ofNatDiv (Double.nearestNat d.toInt.toNat) 1000

structure DecayResult where
  changed : Bool := false
  state : WarmthState := .cold
  reason : DecayReason := .idleElapsed
deriving DecidableEq, Repr

/-- The idle thresholds: what the object becomes once it has been unused for long enough. -/
def idleDecay (s : WarmthState) (policy : DecayPolicy) (idle : Double) : DecayResult :=
  let reached (threshold : Double) := Double.zero.lt threshold && threshold.le idle
  match s with
  | .hot =>
    if reached policy.hotToWarmIdleSeconds then ⟨true, .warm, .idleElapsed⟩ else { state := s }
  | .warm =>
    if reached policy.warmToStaleIdleSeconds then ⟨true, .stale, .idleElapsed⟩
    else if Double.zero.lt policy.warmToPartialIdleSeconds &&
        policy.warmToPartialIdleSeconds.lt policy.warmToStaleIdleSeconds &&
        policy.warmToPartialIdleSeconds.le idle then
      ⟨true, .partiallyWarm, .idleElapsed⟩
    else { state := s }
  | .partiallyWarm =>
    if reached policy.partialToColdIdleSeconds then ⟨true, .cold, .idleElapsed⟩ else { state := s }
  | .stale =>
    if reached policy.staleToInvalidatedSeconds then ⟨true, .invalidated, .idleElapsed⟩
    else { state := s }
  | _ => { state := s }

def staleDecay (s : WarmthState) (reason : DecayReason) : DecayResult :=
  if s ≠ .stale then ⟨true, .stale, reason⟩ else { state := .stale }

def decayObject (obj : WarmthObject) (policy : DecayPolicy) (now : Timestamp)
    (memoryPressure dependencyChanged deviceReset processRestart : Bool) : DecayResult :=
  let s := obj.state
  if s == .cold || s == .discovered || s == .evicted || s == .failed || s == .invalidated then
    { state := s }
  -- unlike the other flags this one does not consult the policy
  else if dependencyChanged then staleDecay s .dependencyGenerationChange
  else if deviceReset && policy.decayOnDeviceReset then staleDecay s .deviceReset
  else if processRestart && policy.decayOnProcessRestart then staleDecay s .processRestart
  else
    let baseline := if obj.lastUsed ≠ 0 then obj.lastUsed else obj.lastPrepared
    let idle := elapsedSeconds baseline now
    if memoryPressure && policy.decayOnMemoryPressure && s == .hot then
      ⟨true, .warm, .memoryPressure⟩
    else if memoryPressure && policy.decayOnMemoryPressure && s == .warm then
      ⟨true, .partiallyWarm, .memoryPressure⟩
    else if memoryPressure && policy.decayOnMemoryPressure && s == .partiallyWarm then
      ⟨true, .cold, .memoryPressure⟩
    else idleDecay s policy idle

theorem staleDecay_ready (s : WarmthState) (reason : DecayReason) :
    isExecutionReady (staleDecay s reason).state = false := by
  unfold staleDecay
  split <;> rfl

theorem idleDecay_ready {s : WarmthState} {policy : DecayPolicy} {idle : Double}
    (h : isExecutionReady (idleDecay s policy idle).state = true) : isExecutionReady s = true := by
  cases s with
  | warm => rfl
  | hot => rfl
  | cold | discovered | preparing | invalidated | evicted | failed => exact h
  | partiallyWarm | stale =>
    simp only [idleDecay] at h
    split at h <;> cases h

/-- Decay makes nothing ready: its only ready target is WARM, which it reaches from HOT. -/
theorem decayObject_ready {obj : WarmthObject} {policy : DecayPolicy} {now : Timestamp}
    {memoryPressure dependencyChanged deviceReset processRestart : Bool}
    (h : isExecutionReady (decayObject obj policy now memoryPressure dependencyChanged deviceReset
      processRestart).state = true) : isExecutionReady obj.state = true := by
  simp only [decayObject] at h
  split at h
  next => exact h
  next =>
    -- the three triggers that make the object STALE
    iterate 3
      split at h
      next => rw [staleDecay_ready] at h; cases h
    split at h
    next hp =>
      simp only [Bool.and_eq_true, beq_iff_eq] at hp
      rw [hp.2]
      rfl
    next =>
      split at h
      next => cases h
      next =>
        split at h
        next => cases h
        next => exact idleDecay_ready h

end Warmth
