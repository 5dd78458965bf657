import Warmth.DecaySteps
import Warmth.Attribution

namespace Warmth

open Std TreeMaps

/-- A lost connection costs the object nothing: it is no longer preparing or ready, and its
device-local dimensions are SUSPECT already. -/
def WarmthObject.Doubted (o : WarmthObject) : Prop :=
  (undecaying o.state = true ∨ o.state = .stale) ∧ ∀ i ∈ ephemeralDimensions, o.dimension i = .suspect

theorem decayObject_restarted {policy : DecayPolicy} (h : policy.decayOnProcessRestart = true)
    (now : Timestamp) {o : WarmthObject} (live : undecaying o.state = false) :
    ∃ reason, decayObject o policy now false false false true = staleDecay o.state reason := by
  have triggered : (⟨now, false, false, false, true⟩ : Sweep).triggered policy = true := by
    simp [Sweep.triggered, h]
  exact decay_triggered live triggered

theorem disconnectedObject_eq_self_iff {policy : DecayPolicy}
    (h : policy.decayOnProcessRestart = true) (now : Timestamp) (o : WarmthObject) :
    disconnectedObject policy now o = o ↔ o.Doubted := by
  unfold WarmthObject.Doubted
  cases live : undecaying o.state with
  | true =>
    have kept : decayObject o policy now false false false true = { state := o.state } :=
      decay_undecaying ⟨now, false, false, false, true⟩ policy live
    simp only [disconnectedObject, kept, Bool.false_eq_true, if_false, true_or, true_and]
    exact WarmthObject.dropEphemeral_eq_self_iff
  | false =>
    obtain ⟨reason, decayed⟩ := decayObject_restarted h now live
    simp only [disconnectedObject, decayed, staleDecay]
    by_cases stale : o.state = .stale
    · simp only [stale, ne_eq, not_true_eq_false, if_false, Bool.false_eq_true, or_true, true_and]
      exact WarmthObject.dropEphemeral_eq_self_iff
    · rw [if_pos stale, if_pos rfl]
      have edge : transitionAllowed o.state .stale = true := (Decays.outdated live stale).allowed
      constructor
      · intro same
        have state := congrArg WarmthObject.state same
        rw [WarmthObject.dropEphemeral_state, WarmthObject.moveTo_state, if_pos edge] at state
        exact absurd state.symm stale
      · rintro ⟨cold | gone, -⟩
        · cases cold
        · exact absurd gone stale

namespace Coordinator

/-- The worker has registered anew, on a connection other than `cs`. -/
def Superseded (c : Coordinator) (cs : ConnId) : Prop :=
  (c.conns cs).registered = true ∧ ∃ other, c.workers[(c.conns cs).id]? = some other ∧ other ≠ cs

/-- The records a disconnect of a superseded connection should leave alone. -/
structure SameRecords (c c' : Coordinator) : Prop where
  workers : c'.workers = c.workers
  objects : c'.objects = c.objects
  workerObjects : c'.workerObjects = c.workerObjects
  inFlight : c'.inFlight = c.inFlight
  budget : c'.budget = c.budget

/-- No object credited to the worker of the connection has anything left to lose with it. -/
def NothingToLose (c : Coordinator) (cs : ConnId) : Prop :=
  ∀ (id : WarmthObjectId) (o : WarmthObject), c.Owns (c.conns cs).id id →
    c.objects[id]? = some o → o.Doubted

theorem Superseded.sameRecords_iff {c : Coordinator} {cs : ConnId} (superseded : c.Superseded cs)
    (h : c.policy.decay.decayOnProcessRestart = true) (now : WarmthObjectId → Timestamp) :
    c.SameRecords (c.onDisconnect cs now) ↔ c.NothingToLose cs := by
  obtain ⟨registered, other, replaced, elsewhere⟩ := superseded
  have spared : c.workers[(c.conns cs).id]? ≠ some cs := by
    rw [replaced]
    exact fun same => elsewhere (Option.some.inj same)
  cases owned : c.workerObjects[(c.conns cs).id]? with
  | none =>
    have disconnected : c.onDisconnect cs now = c := by
      simp only [onDisconnect, registered, Bool.not_true, Bool.false_eq_true, if_false, if_neg spared, owned]
    rw [disconnected]
    refine ⟨fun _ id o owns _ => ?_, fun _ => ⟨rfl, rfl, rfl, rfl, rfl⟩⟩
    obtain ⟨ids, credited, _⟩ := owns
    rw [owned] at credited
    cases credited
  | some ids =>
    have disconnected : c.onDisconnect cs now = { c with
        objects := modifyEach c.objects ids.toList fun id o =>
          disconnectedObject c.policy.decay (now id) o } := by
      simp only [onDisconnect, registered, Bool.not_true, Bool.false_eq_true, if_false, if_neg spared, owned]
    rw [disconnected]
    have objects := modifyEach_eq_self_iff (m := c.objects)
      (f := fun id o => disconnectedObject c.policy.decay (now id) o) (nodup_set_toList ids)
    constructor
    · intro same id o owns entry
      obtain ⟨ids', credited, hid⟩ := owns
      rw [owned] at credited
      cases credited
      exact (disconnectedObject_eq_self_iff h (now id) o).mp
        (objects.mp same.objects id (ExtTreeSet.mem_toList.mpr hid) o entry)
    · intro nothing
      refine ⟨rfl, objects.mpr fun id hid o entry => ?_, rfl, rfl, rfl⟩
      have credited : c.Owns (c.conns cs).id id := ⟨ids, owned, ExtTreeSet.mem_toList.mp hid⟩
      exact (disconnectedObject_eq_self_iff h (now id) o).mpr (nothing id o credited entry)

end Coordinator

namespace System

theorem policy_run (steps : List Step) :
    (Runs.run step init steps).coord.policy = .defaults ⟨1⟩ := by
  induction steps using List.reverseRecOn with
  | nil => rfl
  | append_singleton steps a ih =>
    rw [Runs.run_concat]
    exact (stepped_policy (stepped_step _ a)).trans ih

/-- The disconnect of a superseded connection is harmless. -/
def SparesRecords (s : System) : Step → Prop
  | .disconnect cs now => s.coord.Superseded cs → s.coord.SameRecords (s.coord.onDisconnect cs now)
  | _ => True

def LosesNothing (s : System) : Step → Prop
  | .disconnect cs _ => s.coord.Superseded cs → s.coord.NothingToLose cs
  | _ => True

theorem sparesRecords_iff {s : System} (policy : s.coord.policy = .defaults ⟨1⟩) (a : Step) :
    s.SparesRecords a ↔ s.LosesNothing a := by
  have h : s.coord.policy.decay.decayOnProcessRestart = true := by
    rw [policy]
    rfl
  cases a with
  | disconnect cs now =>
    constructor
    · exact fun spares superseded => (superseded.sameRecords_iff h now).mp (spares superseded)
    · exact fun nothing superseded => (superseded.sameRecords_iff h now).mpr (nothing superseded)
  | frame | reserve | send | cleanup | rollEpoch | bumpWarmthGeneration | bumpDependencyGeneration =>
    exact Iff.rfl

/-- The disconnect of a superseded connection leaves the records alone just where the worker has
nothing left to lose: the registry entry is guarded against the old connection, the decay of the
worker's objects is not. -/
theorem superseded_disconnect_iff (steps : List Step) :
    (∀ cs now, (Runs.run step init steps).coord.Superseded cs →
      ((Runs.run step init steps).coord.SameRecords
          ((Runs.run step init steps).coord.onDisconnect cs now) ↔
        (Runs.run step init steps).coord.NothingToLose cs)) ∧
    (Runs.Along step SparesRecords init steps ↔ Runs.Along step LosesNothing init steps) := by
  constructor
  · intro cs now superseded
    refine superseded.sameRecords_iff ?_ now
    rw [policy_run]
    rfl
  · exact Runs.along_congr (I := fun s : System => s.coord.policy = .defaults ⟨1⟩)
      (fun s a policy => (stepped_policy (stepped_step s a)).trans policy)
      (fun s a policy => sparesRecords_iff policy a) rfl

/-- An object is warmed over the first connection, then its worker registers on a second. -/
def reconnected : List Step := warmed ++ [helloOf 1 ⟨0, 1⟩ ⟨0, 1⟩]

theorem superseded_disconnect_decays :
    ∃ cs now, (Runs.run step init reconnected).coord.Superseded cs ∧
      ¬(Runs.run step init reconnected).coord.SameRecords
        ((Runs.run step init reconnected).coord.onDisconnect cs now) := by
  have registered : ((Runs.run step init reconnected).coord.conns 0).registered = true ∧
      ((Runs.run step init reconnected).coord.conns 0).id = ⟨0, 1⟩ ∧
      (Runs.run step init reconnected).coord.workers[(⟨0, 1⟩ : WorkerId)]? = some 1 ∧
      (Runs.run step init reconnected).coord.readyAt ⟨0, 9⟩ = true ∧
      ((Runs.run step init reconnected).coord.onDisconnect 0 fun _ => 0).readyAt ⟨0, 9⟩ = false := by
    decide +kernel
  refine ⟨0, fun _ => 0, ⟨registered.1, 1, ?_, by decide⟩, fun same => ?_⟩
  · rw [registered.2.1]
    exact registered.2.2.1
  · have ready := registered.2.2.2.1
    have lost := registered.2.2.2.2
    rw [Coordinator.readyAt, same.objects, ← Coordinator.readyAt, ready] at lost
    cases lost

end System

end Warmth
