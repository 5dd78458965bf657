import Warmth.Binary64
import Warmth.Budget

namespace Warmth

structure DecayPolicy where
  hotToWarmIdleSeconds : Double := .ofNatDiv 300 1
  warmToStaleIdleSeconds : Double := .ofNatDiv 1200 1
  staleToInvalidatedSeconds : Double := .ofNatDiv 600 1
  warmToPartialIdleSeconds : Double := .ofNatDiv 1800 1
  partialToColdIdleSeconds : Double := .ofNatDiv 3600 1
  decayOnMemoryPressure : Bool := true
  decayOnProcessRestart : Bool := true
  decayOnDeviceReset : Bool := true
  decayOnDependencyChange : Bool := true
  decayOnPolicyChange : Bool := true
deriving DecidableEq, Repr

structure WarmthPolicy where
  generation : PolicyGeneration := {}
  decay : DecayPolicy := {}
  budgets : BudgetLimits := {}
  weightPredictedReuse : Double := .ofNatDiv 1 1
  weightArrivalProbability : Double := .ofNatDiv 2 1
  weightLatencyClass : Double := .ofNatDiv 3 2
  weightPriority : Double := .ofNatDiv 3 1
  weightTenantFairness : Double := .ofNatDiv 1 1
  weightWarmingCost : Double := (Double.ofNatDiv 1 1).neg
  weightMemoryCost : Double := (Double.ofNatDiv 1 1).neg
  weightTransferCost : Double := (Double.ofNatDiv 3 2).neg
  weightEvictionRisk : Double := (Double.ofNatDiv 1 1).neg
  weightDependencyAvailability : Double := .ofNatDiv 2 1
  weightCurrentPartialWarmth : Double := .ofNatDiv 2 1
  weightExpectedBenefit : Double := .ofNatDiv 5 2
deriving DecidableEq, Repr

def WarmthPolicy.defaults (gen : PolicyGeneration) : WarmthPolicy := { generation := gen }

/-- The policy's decay thresholds and scheduling weights, in the order they are persisted. -/
def DecayPolicy.thresholds (d : DecayPolicy) : List Double :=
  [d.hotToWarmIdleSeconds, d.warmToStaleIdleSeconds, d.staleToInvalidatedSeconds,
    d.warmToPartialIdleSeconds, d.partialToColdIdleSeconds]

def policyWeights (p : WarmthPolicy) : List Double :=
  [p.weightPredictedReuse, p.weightArrivalProbability, p.weightLatencyClass, p.weightPriority,
    p.weightTenantFairness, p.weightWarmingCost, p.weightMemoryCost, p.weightTransferCost,
    p.weightEvictionRisk, p.weightDependencyAvailability, p.weightCurrentPartialWarmth,
    p.weightExpectedBenefit]

def WarmthPolicy.Finite (p : WarmthPolicy) : Prop :=
  (∀ d ∈ p.decay.thresholds, d.isFinite = true) ∧ ∀ w ∈ policyWeights p, w.isFinite = true

theorem WarmthPolicy.defaults_finite (gen : PolicyGeneration) : (defaults gen).Finite := by
  constructor
  · change ∀ d ∈ ({} : DecayPolicy).thresholds, d.isFinite = true
    decide
  · change ∀ w ∈ policyWeights {}, w.isFinite = true
    decide

end Warmth
