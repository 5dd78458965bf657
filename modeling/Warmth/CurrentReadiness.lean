import Warmth.Attempts
import Warmth.EntrySteps
import Warmth.StaleAuthority

namespace Warmth

open Codec Std TreeMaps

/-- What made an object execution-ready: a WARM_RESULT accepted under an authority, or a copy of a
peer's object. -/
inductive Maker
  | result (authority : UInt64 × UInt64 × UInt64)
  | copy
deriving DecidableEq

/-- A system with the history of what last made each object ready. -/
structure Prepared where
  system : System
  maker : WarmthObjectId → Option Maker := fun _ => none

namespace System

/-- The object that an accepted successful WARM_RESULT completes. -/
def completedObject (s : System) : Step → Option WarmthObjectId
  | .frame cs f _ =>
    if s.closed cs then none else
    match f.type with
    | .warmResult =>
      match decodePayload decodeWarmResult f.payload with
      | none => none
      | some res =>
        match s.coord.acceptedAttempt cs res with
        | none => none
        | some _ => if res.success then some res.object else none
    | _ => none
  | _ => none

theorem completedObject_iff {s : System} {a : Step} {id : WarmthObjectId} :
    s.completedObject a = some id ↔ s.Completes a id := by
  constructor
  · intro h
    unfold completedObject at h
    split at h
    next cs f now =>
      split at h
      next => cases h
      next up =>
        split at h
        next type =>
          split at h
          next => cases h
          next res decoded =>
            split at h
            next => cases h
            next info accepted =>
              split at h
              next success =>
                exact ⟨cs, f, now, res, info, rfl, Bool.eq_false_of_not_eq_true up, type, decoded,
                  accepted, Coordinator.acceptedAttempt_inFlight accepted, success,
                  Option.some.inj h⟩
              next => cases h
        next => cases h
    next => cases h
  · rintro ⟨cs, f, now, res, info, rfl, up, type, decoded, accepted, _, success, rfl⟩
    simp only [completedObject, up, type, decoded, accepted, success]
    rfl

theorem completedObject_authority {s : System} {a : Step} {id : WarmthObjectId}
    (h : s.completedObject a = some id) : (s.step a).coord.authority = s.coord.authority := by
  obtain ⟨cs, f, now, _, _, rfl, _⟩ := completedObject_iff.mp h
  exact step_authority rfl

/-- The step moves a generation and leaves the objects that are ready as they are. -/
def BumpsReady (s : System) (a : Step) : Prop :=
  (a = .bumpWarmthGeneration ∨ a = .bumpDependencyGeneration) ∧ ∃ id, s.coord.readyAt id = true

theorem rollEpoch_unready (s : System) (id : WarmthObjectId) :
    (s.step .rollEpoch).coord.readyAt id = false := by
  have entry : s.coord.rollEpoch.1.objects[id]? = s.coord.objects[id]?.map fun o =>
      fenced o (text "authority roll") (text "coordinator_epoch_rolled") :=
    ExtTreeMap.getElem?_map
  rw [step, after, Coordinator.readyAt, entry]
  cases s.coord.objects[id]? with
  | none => rfl
  | some o => exact Coordinator.fenced_ready _ _ _

end System

namespace Prepared

def step (p : Prepared) (a : Step) : Prepared where
  system := p.system.step a
  maker := fun id =>
    if p.system.completedObject a = some id then some (.result p.system.coord.authority)
    else if (p.system.step a).coord.readyAt id && !p.system.coord.readyAt id then some .copy
    else p.maker id

def init : Prepared := { system := System.init }

/-- Every execution-ready object was last made ready under the present authority. -/
def Current (p : Prepared) : Prop :=
  ∀ id, p.system.coord.readyAt id = true → p.maker id = some (.result p.system.coord.authority)

theorem step_maker (p : Prepared) (a : Step) (id : WarmthObjectId) :
    (p.step a).maker id =
      if p.system.completedObject a = some id then some (.result p.system.coord.authority)
      else if (p.system.step a).coord.readyAt id && !p.system.coord.readyAt id then some .copy
      else p.maker id := rfl

theorem run_system (p : Prepared) (steps : List Step) :
    (Runs.run step p steps).system = Runs.run System.step p.system steps := by
  induction steps generalizing p with
  | nil => rfl
  | cons a steps ih => exact ih (p.step a)

/-- The step makes objects ready without a completion, or moves a generation over ready ones. -/
def Outdates (p : Prepared) (a : Step) : Prop := p.system.BringsHot a ∨ p.system.BumpsReady a

theorem not_current_of_bringsHot {p : Prepared} {a : Step} (h : p.system.BringsHot a) :
    ¬ (p.step a).Current := by
  intro current
  apply System.bringsHot_ready h
  intro id ready unready
  by_contra notCompleted
  have maker := current id ready
  rw [step_maker, if_neg fun done => notCompleted (System.completedObject_iff.mp done), ready,
    unready] at maker
  cases maker

theorem authority_ne_of_bump {s : System} {a : Step}
    (h : a = .bumpWarmthGeneration ∨ a = .bumpDependencyGeneration) :
    (s.step a).coord.authority ≠ s.coord.authority := by
  have moved : ∀ x : UInt64, x + 1 ≠ x := by
    intro x
    grind
  rintro same
  obtain rfl | rfl := h
  · exact moved _ (congrArg (fun t => t.2.1) same)
  · exact moved _ (congrArg (fun t => t.2.2) same)

theorem not_current_of_bumpsReady {p : Prepared} {a : Step} (inv : p.Current)
    (h : p.system.BumpsReady a) : ¬ (p.step a).Current := by
  intro current
  obtain ⟨bump, id, ready⟩ := h
  have still : (p.step a).system.coord.readyAt id = true := by
    obtain rfl | rfl := bump
    · exact ready
    · exact ready
  have kept : (p.step a).maker id = p.maker id := by
    have none : p.system.completedObject a = none := by
      obtain rfl | rfl := bump
      · rfl
      · rfl
    rw [step_maker, none, ready]
    simp
  have maker := current id still
  rw [kept, inv id ready] at maker
  exact authority_ne_of_bump bump (Maker.result.inj (Option.some.inj maker)).symm

theorem current_step {p : Prepared} {a : Step} (inv : p.Current) (h : ¬ p.Outdates a) :
    (p.step a).Current := by
  obtain ⟨cold, settled⟩ := not_or.mp h
  intro id ready
  have ready : (p.system.step a).coord.readyAt id = true := ready
  by_cases done : p.system.completedObject a = some id
  · rw [step_maker, if_pos done]
    exact congrArg (fun t => some (Maker.result t)) (System.completedObject_authority done).symm
  · cases before : p.system.coord.readyAt id with
    | false =>
      exact absurd (System.completedObject_iff.mpr
        (System.readyByCompletion_of_cold cold id ready before)) done
    | true =>
      have kept : (p.step a).maker id = p.maker id := by
        rw [step_maker, if_neg done, before]
        simp
      rw [kept, inv id before]
      -- an authority operation finds no ready object, or leaves none behind
      have same : (p.system.step a).coord.authority = p.system.coord.authority := by
        cases a with
        | bumpWarmthGeneration => exact absurd ⟨Or.inl rfl, id, before⟩ settled
        | bumpDependencyGeneration => exact absurd ⟨Or.inr rfl, id, before⟩ settled
        | rollEpoch =>
          rw [System.rollEpoch_unready] at ready
          cases ready
        | _ => exact System.step_authority rfl
      exact congrArg (fun t => some (Maker.result t)) same.symm

/-- In all states of a run the ready objects were made ready by results accepted under the
present authority exactly if no accepted HELLO or REPORT of it brings a HOT object of a new id and
no generation is bumped over a ready object. -/
theorem readiness_of_current_authority (steps : List Step) :
    Runs.Along step (fun p a => (p.step a).Current) init steps ↔
      Runs.Along step (fun p a => ¬ p.Outdates a) init steps := by
  refine Runs.along_iff_of_step (I := Current) (fun p a inv => ⟨fun current outdates => ?_,
    current_step inv⟩) ?_ steps
  · rcases outdates with hot | bump
    · exact not_current_of_bringsHot hot current
    · exact not_current_of_bumpsReady inv bump current
  · intro id ready
    cases ready

def bumpedWarm : List Step := System.warmed ++ [.bumpDependencyGeneration]

/-- The object that was warmed under the old dependency generation stays WARM. -/
theorem bumpedWarm_outdated : ¬ ∀ p, Runs.Reachable step init p → p.Current := by
  intro h
  have maker := h _ (Runs.reachable_run bumpedWarm) ⟨0, 9⟩ (by decide +kernel)
  have last : (Runs.run step init bumpedWarm).maker ⟨0, 9⟩ = some (.result (0, 0, 0)) := by
    decide +kernel
  rw [last] at maker
  revert maker
  decide +kernel

end Prepared

end Warmth
