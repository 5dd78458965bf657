import Warmth.Mutex
import Warmth.Planning

namespace Warmth

open Codec Std Mutex

/-- The fabric with the part of its configuration that only planning reads. -/
structure Facade where
  fabric : WarmthFabric
  defaultModelBytes : UInt64 := (1 : UInt64) <<< (30 : UInt64)

structure PlanExplanation where
  workload : WorkloadId
  replica : ReplicaId
  policyGeneration : PolicyGeneration
  tieBreak : CString
  steps : List PlanStep

/-- `save_snapshot_file`; `disk` is what comes of opening the file and writing it, and the result
is the error. -/
def saveSnapshotFile (s : Snapshot) (disk : Bytes → Option String) : Option String :=
  match encodeSnapshot s with
  | .error e => some e
  | .ok bytes => disk bytes

namespace Facade

variable {α : Type}

/-- A locked section that changes the fabric. -/
def change (g : WarmthFabric → WarmthFabric × α) : Call Facade α :=
  guarded (act fun s => ({ s with fabric := (g s.fabric).1 }, (g s.fabric).2))

/-- A locked section that only reads. -/
def query (g : Facade → α) : Call Facade α := guarded (view g)

/-- The id, the configuration and the generation are read before the lock is taken. -/
def registerObject (category : WarmthCategory) (logicalOwner : CString) (model : Option ModelId)
    (artifact : Option ArtifactId) (replica : Option ReplicaId) (engine : Option EngineId) :
    Call Facade WarmthObjectId := do
  let read ← view Facade.fabric
  let id := (read.registerObject category logicalOwner model artifact replica engine).2
  change fun f => ({ f with objects :=
    ({ read with objects := f.objects }.registerObject category logicalOwner model artifact replica
      engine).1.objects }, id)

def upsert (o : WarmthObject) : Call Facade Bool := change fun f => (f.upsert o, true)

def get (id : WarmthObjectId) : Call Facade (Option WarmthObject) :=
  query fun s => s.fabric.objects[id]?

def objectCount : Call Facade Nat := query fun s => s.fabric.objects.size
def objects : Call Facade (List WarmthObject) := query fun s => s.fabric.objects.toList.map Prod.snd
def objectIds : Call Facade (List WarmthObjectId) := query fun s => s.fabric.objects.keys

def transition (id : WarmthObjectId) (target : WarmthState) (reason : CString) : Call Facade Bool :=
  change fun f => f.transition id target reason

def setDimension (id : WarmthObjectId) (idx : DimensionIndex) (status : DimensionStatus) :
    Call Facade Bool :=
  change fun f => f.setDimension id idx status

def setDimensions (id : WarmthObjectId) (dims : WarmthDimensions) : Call Facade Bool :=
  change fun f => f.setDimensions id dims

def markUsed (id : WarmthObjectId) (now : Timestamp) : Call Facade Bool :=
  change fun f => f.markUsed id now

def invalidate (id : WarmthObjectId) (reason : InvalidationReason) : Call Facade Bool :=
  change fun f => f.invalidate id reason

def demote (id : WarmthObjectId) : Call Facade Bool := change fun f => f.demote id
def evict (id : WarmthObjectId) : Call Facade Bool := change fun f => f.evict id

/-- A warming operation; it may call the facade itself, and leaves the mutex free. -/
structure Warming where
  run : WarmthAction → Call Facade WarmOutcome
  keeps : ∀ action, Keeps false (run action)

/-- The fabric's own operation, which has nothing to do with the mutex. -/
def Warming.own : Warming where
  run action := view fun s => s.fabric.warmOperation action
  keeps _ := keeps_view false _

def warm (operation : Warming) (id : WarmthObjectId) (action : WarmthAction)
    (now : Nat → Timestamp) : Call Facade Bool := do
  match ← change fun f => f.warmBegin id with
  | none => pure false
  | some held =>
    let outcome ← operation.run action
    change fun f => f.warmFinish id held outcome now

def warmToReady (id : WarmthObjectId) : Call Facade Bool := change fun f => f.warmToReady id

def budgetsBalanced : Call Facade Bool := query fun s => s.fabric.budget.balanced
def budgetUsage (kind : WarmthBudgetKind) : Call Facade UInt64 :=
  query fun s => s.fabric.budget.usage kind
def outstandingReservations : Call Facade Nat := query fun s => s.fabric.budget.outstanding

def bumpDependencyGeneration : Call Facade Unit := change fun f => (f.bumpDependencyGeneration, ())
def bumpWarmthGeneration : Call Facade Unit := change fun f => (f.bumpWarmthGeneration, ())

def decay (now : Timestamp) (memoryPressure dependencyChanged deviceReset processRestart : Bool) :
    Call Facade Unit :=
  change fun f => (f.decay now memoryPressure dependencyChanged deviceReset processRestart, ())

def plan : Call Facade WarmthPlan := query fun s => s.fabric.planOf s.defaultModelBytes

def explain (id : WarmthObjectId) : Call Facade (Option ReadinessExplanation) :=
  query fun s => (s.fabric.objects[id]?).map (s.fabric.explanationOf s.defaultModelBytes)

def explainPlan : Call Facade PlanExplanation := do
  let p ← plan
  pure ⟨p.workload, p.replica, p.policyGeneration, p.tieBreak, p.steps⟩

def costOf (id : WarmthObjectId) : Call Facade ReadinessCost :=
  query fun s => match s.fabric.objects[id]? with
    | none => {}
    | some o => CostModel.estimate o s.defaultModelBytes

/-- `snapshot` fills its object list by a call of `objects`, under its own lock guard. -/
def snapshot : Call Facade Snapshot := guarded do
  let s ← view fun s => s.fabric.snapshot
  let objects ← objects
  pure { s with objects }

def save (disk : Bytes → Option String) : Call Facade (Option String) := do
  let s ← snapshot
  pure (saveSnapshotFile s disk)

/-- `recover` loads the file before it takes the lock. -/
def recover (file : FileContents) : Call Facade (Option String) :=
  match loadSnapshotFile file with
  | .error e => pure (some e)
  | .ok snap => change fun f => (f.restore snap, none)

def warmthGeneration : Call Facade WarmthGeneration := view fun s => s.fabric.gen.warmth
def dependencyGeneration : Call Facade DependencyGeneration := view fun s => s.fabric.gen.dependency

end Facade

/-- A public operation of the facade with its arguments. -/
inductive FacadeOp
  | registerObject (category : WarmthCategory) (logicalOwner : CString) (model : Option ModelId)
      (artifact : Option ArtifactId) (replica : Option ReplicaId) (engine : Option EngineId)
  | upsert (o : WarmthObject)
  | get (id : WarmthObjectId)
  | objectCount | objects | objectIds
  | transition (id : WarmthObjectId) (target : WarmthState) (reason : CString)
  | setDimension (id : WarmthObjectId) (idx : DimensionIndex) (status : DimensionStatus)
  | setDimensions (id : WarmthObjectId) (dims : WarmthDimensions)
  | markUsed (id : WarmthObjectId) (now : Timestamp)
  | invalidate (id : WarmthObjectId) (reason : InvalidationReason)
  | demote (id : WarmthObjectId)
  | evict (id : WarmthObjectId)
  | warm (operation : Facade.Warming) (id : WarmthObjectId) (action : WarmthAction)
      (now : Nat → Timestamp)
  | warmToReady (id : WarmthObjectId)
  | budgetsBalanced | budgetUsage (kind : WarmthBudgetKind) | outstandingReservations
  | bumpDependencyGeneration | bumpWarmthGeneration
  | decay (now : Timestamp) (memoryPressure dependencyChanged deviceReset processRestart : Bool)
  | plan | explain (id : WarmthObjectId) | explainPlan | costOf (id : WarmthObjectId)
  | snapshot | save (disk : Bytes → Option String) | recover (file : FileContents)
  | warmthGeneration | dependencyGeneration

namespace FacadeOp

/-- The operation as a call, its result left aside. -/
def call : FacadeOp → Call Facade Unit
  | .registerObject category owner model artifact replica engine =>
    discard (Facade.registerObject category owner model artifact replica engine)
  | .upsert o => discard (Facade.upsert o)
  | .get id => discard (Facade.get id)
  | .objectCount => discard Facade.objectCount
  | .objects => discard Facade.objects
  | .objectIds => discard Facade.objectIds
  | .transition id target reason => discard (Facade.transition id target reason)
  | .setDimension id idx status => discard (Facade.setDimension id idx status)
  | .setDimensions id dims => discard (Facade.setDimensions id dims)
  | .markUsed id now => discard (Facade.markUsed id now)
  | .invalidate id reason => discard (Facade.invalidate id reason)
  | .demote id => discard (Facade.demote id)
  | .evict id => discard (Facade.evict id)
  | .warm operation id action now => discard (Facade.warm operation id action now)
  | .warmToReady id => discard (Facade.warmToReady id)
  | .budgetsBalanced => discard Facade.budgetsBalanced
  | .budgetUsage kind => discard (Facade.budgetUsage kind)
  | .outstandingReservations => discard Facade.outstandingReservations
  | .bumpDependencyGeneration => discard Facade.bumpDependencyGeneration
  | .bumpWarmthGeneration => discard Facade.bumpWarmthGeneration
  | .decay now memoryPressure dependencyChanged deviceReset processRestart =>
    discard (Facade.decay now memoryPressure dependencyChanged deviceReset processRestart)
  | .plan => discard Facade.plan
  | .explain id => discard (Facade.explain id)
  | .explainPlan => discard Facade.explainPlan
  | .costOf id => discard (Facade.costOf id)
  | .snapshot => discard Facade.snapshot
  | .save disk => discard (Facade.save disk)
  | .recover file => discard (Facade.recover file)
  | .warmthGeneration => discard Facade.warmthGeneration
  | .dependencyGeneration => discard Facade.dependencyGeneration

def takesSnapshot : FacadeOp → Bool
  | .snapshot | .save _ => true
  | _ => false

end FacadeOp

namespace Facade

variable {α : Type}

theorem keeps_change (g : WarmthFabric → WarmthFabric × α) : Keeps false (change g) :=
  (keeps_act true _).guarded

theorem keeps_query (g : Facade → α) : Keeps false (query g) := (keeps_view true g).guarded

theorem keeps_registerObject (category : WarmthCategory) (logicalOwner : CString)
    (model : Option ModelId) (artifact : Option ArtifactId) (replica : Option ReplicaId)
    (engine : Option EngineId) :
    Keeps false (registerObject category logicalOwner model artifact replica engine) :=
  (keeps_view false _).bind fun _ => keeps_change _

theorem keeps_warm (operation : Warming) (id : WarmthObjectId) (action : WarmthAction)
    (now : Nat → Timestamp) : Keeps false (warm operation id action now) := by
  refine (keeps_change _).bind fun held => ?_
  cases held with
  | none => exact keeps_pure false false
  | some held => exact (operation.keeps action).bind fun outcome => keeps_change _

theorem change_run (g : WarmthFabric → WarmthFabric × α) (s : Facade) :
    change g (s, false) = .ok ((g s.fabric).2, ({ s with fabric := (g s.fabric).1 }, false)) := by
  rfl

/-- With the fabric's own operation a `warm` runs as one that nothing interrupts. -/
theorem warm_own (s : Facade) (id : WarmthObjectId) (action : WarmthAction) (now : Nat → Timestamp) :
    warm .own id action now (s, false) = .ok ((s.fabric.warm id action now).2,
      ({ s with fabric := (s.fabric.warm id action now).1 }, false)) := by
  rw [warm, bind_ok (change_run (fun f => f.warmBegin id) s)]
  unfold WarmthFabric.warm
  rcases s.fabric.warmBegin id with ⟨f, _ | held⟩
  · rfl
  · have operation : Warming.own.run action (({ s with fabric := f } : Facade), false) =
        .ok (f.warmOperation action, ({ s with fabric := f }, false)) := rfl
    exact (bind_ok operation).trans (change_run _ _)

theorem keeps_explainPlan : Keeps false explainPlan :=
  (keeps_query _).bind fun _ => keeps_pure false _

theorem keeps_recover (file : FileContents) : Keeps false (recover file) := by
  unfold recover
  split
  next => exact keeps_pure false _
  next => exact keeps_change _

theorem relocks_snapshot : Relocks false snapshot := by
  have nested : Relocks true objects := relocks_guarded _
  exact (Relocks.after (keeps_view true _) fun _ => nested.bind _).guarded

theorem relocks_save (disk : Bytes → Option String) : Relocks false (save disk) :=
  relocks_snapshot.bind _

end Facade

namespace FacadeOp

theorem discard_eq {α : Type} (m : Call Facade α) : discard m = m >>= fun _ => pure () := by
  rfl

theorem keeps_discard {α : Type} {m : Call Facade α} (h : Keeps false m) :
    Keeps false (discard m) := by
  rw [discard_eq]
  exact h.bind fun _ => keeps_pure false ()

theorem relocks_discard {α : Type} {m : Call Facade α} (h : Relocks false m) :
    Relocks false (discard m) := by
  rw [discard_eq]
  exact h.bind _

theorem keeps_call {op : FacadeOp} (h : op.takesSnapshot = false) : Keeps false op.call := by
  cases op with
  | registerObject => exact keeps_discard (Facade.keeps_registerObject _ _ _ _ _ _)
  | warm operation id action now => exact keeps_discard (Facade.keeps_warm operation id action now)
  | explainPlan => exact keeps_discard Facade.keeps_explainPlan
  | recover file => exact keeps_discard (Facade.keeps_recover file)
  | snapshot | save => cases h
  | warmthGeneration | dependencyGeneration => exact keeps_discard (keeps_view false _)
  | get | objectCount | objects | objectIds | budgetsBalanced | budgetUsage
  | outstandingReservations | plan | explain | costOf =>
    exact keeps_discard (Facade.keeps_query _)
  | upsert | transition | setDimension | setDimensions | markUsed | invalidate | demote | evict
  | warmToReady | bumpDependencyGeneration | bumpWarmthGeneration | decay =>
    exact keeps_discard (Facade.keeps_change _)

theorem relocks_call {op : FacadeOp} (h : op.takesSnapshot = true) : Relocks false op.call := by
  cases op with
  | snapshot => exact relocks_discard Facade.relocks_snapshot
  | save disk => exact relocks_discard (Facade.relocks_save disk)
  | _ => cases h

/-- Called with the mutex free, an operation returns with the mutex free exactly if it does not
take a snapshot. -/
theorem lock_discipline (s : Facade) (op : FacadeOp) :
    (∃ t, op.call (s, false) = .ok ((), (t, false))) ↔ op.takesSnapshot = false := by
  constructor
  · rintro ⟨t, run⟩
    by_contra snapshot
    rw [relocks_call (Bool.eq_true_of_not_eq_false snapshot) s] at run
    cases run
  · intro h
    obtain ⟨_, t, run⟩ := keeps_call h s
    exact ⟨t, run⟩

/-- `snapshot` never returns: it calls `objects`, which locks the mutex again. -/
theorem snapshot_hangs :
    ¬ ∀ (s : Facade) (op : FacadeOp), ∃ t, op.call (s, false) = .ok ((), (t, false)) := by
  intro h
  obtain ⟨t, run⟩ := h { fabric := .new {} } .snapshot
  have hangs : FacadeOp.snapshot.call (({ fabric := .new {} } : Facade), false) =
      .error Fault.relocked := relocks_call rfl _
  rw [hangs] at run
  cases run

end FacadeOp

end Warmth
