import Mathlib.Algebra.Order.BigOperators.Group.List
import Warmth.MessageRoundTrip
import Warmth.Runs
import Warmth.SnapshotRoundTrip
import Warmth.TreeMaps
import Warmth.Worker

namespace Warmth

open Codec Std TreeMaps

/-- What happens to a worker between one HELLO and another, over any number of connections. -/
inductive WorkerStep
  | frame (f : Frame) (hook : Nat → HookOutcome) (now : Nat → Nat → Timestamp)
  | ack (reply : Option Frame)

namespace WorkerStep

/-- The objects that the loop warms with success from its `k`-th turn on. -/
def successes (hook : Nat → HookOutcome) : Nat → List WarmCmd → List WarmthObjectId
  | _, [] => []
  | k, cmd :: cmds =>
    if (hook k).success then cmd.object :: successes hook (k + 1) cmds
    else successes hook (k + 1) cmds

def served : WorkerStep → List WarmthObjectId
  | .frame f hook _ =>
    match f.type, decodePayload decodeWarmTopic f.payload with
    | .warmTopic, some topic => successes hook 0 topic.cmds
    | _, _ => []
  | .ack _ => []

end WorkerStep

/-- The number of distinct objects warmed with success. -/
def distinctServed (steps : List WorkerStep) : Nat := (steps.flatMap WorkerStep.served).toFinset.card

/-- The bytes of a HELLO that reports `n` objects. -/
def WorkerConfig.helloSize (cfg : WorkerConfig) (n : Nat) : Nat :=
  76 + cfg.backend.length + (cfg.devices.map fun d => 4 + d.length).sum + cfg.actions.length +
    n * (168 + cfg.backend.length)

namespace Worker

def step (w : Worker) : WorkerStep → Worker
  | .frame f hook now => (w.handleFrame f hook now).1
  | .ack reply => (w.receiveAck reply).1

/-- The HELLO fits a frame and `decode_hello` accepts it. -/
def CanIntroduce (w : Worker) : Prop :=
  ∃ f h, w.connectFrame = some f ∧ decodePayload decodeHello f.payload = some h

/-- The fields of a record of `observed_` on which its bytes depend. -/
structure Recorded (cfg : WorkerConfig) (o : WarmthObject) : Prop where
  device : o.device = text "cuda:0"
  backend : o.backend = cfg.backend
  logicalOwner : o.logicalOwner = []
  model : o.model = none
  artifact : o.artifact = none
  replica : o.replica = none
  engine : o.engine = none
  state : o.state = .cold
  stateChangeReason : o.stateChangeReason = []
  depGens : o.depGens = fun _ => none
  invalidationReason : o.invalidationReason = none
  confidence : o.confidence = .zero
  freshness : o.freshness = .zero

theorem Recorded.objectSize {cfg : WorkerConfig} {o : WarmthObject} (h : Recorded cfg o) :
    Warmth.objectSize o = 168 + cfg.backend.length := by
  have device : (text "cuda:0").length = 6 := by decide
  have dependencies : o.dependencies = [] := by
    unfold WarmthObject.dependencies
    rw [h.depGens]
    rfl
  simp only [Warmth.objectSize, h.device, h.backend, h.logicalOwner, h.model, h.artifact, h.replica,
    h.engine, h.stateChangeReason, h.invalidationReason, dependencies, device, List.length_nil]
  change 157 + 6 + cfg.backend.length + 0 + 0 + 1 + 1 + 1 + 1 + 1 + 9 * 0 = _
  omega

theorem Recorded.wirable {cfg : WorkerConfig} {o : WarmthObject} (h : Recorded cfg o)
    (short : cfg.backend.length < 2 ^ 32) : o.Wirable := by
  refine ⟨⟨?_, ?_, ?_, ?_, ?_⟩, ⟨.zero, ?_⟩, ⟨.zero, ?_⟩⟩
  · rw [h.device]
    decide
  · rw [h.backend]
    exact short
  · rw [h.logicalOwner]
    decide
  · rw [h.stateChangeReason]
    decide
  · rw [h.invalidationReason]
    exact fun r hr => nomatch hr
  · rw [h.confidence]
    decide
  · rw [h.freshness]
    decide

/-- Every record was made by this worker's own commands. -/
def AllRecorded (w : Worker) : Prop :=
  ∀ (id : WarmthObjectId) o, w.observed[id]? = some o → Recorded w.cfg o

theorem AllRecorded.warmedObject {w : Worker} (inv : w.AllRecorded) (cmd : WarmCmd)
    (r : HookOutcome) (now : Nat → Timestamp) : Recorded w.cfg (w.warmedObject cmd r now) := by
  unfold Worker.warmedObject
  split
  next =>
    constructor
    all_goals rfl
  next o found =>
    have old := inv cmd.object o found
    have still : o.moveTo .warm (text "warm_completed") = o := by
      simp [WarmthObject.moveTo, WarmthObject.transition, old.state, transitionAllowed]
    rw [still]
    exact ⟨old.device, old.backend, old.logicalOwner, old.model, old.artifact, old.replica,
      old.engine, old.state, old.stateChangeReason, old.depGens, old.invalidationReason,
      old.confidence, old.freshness⟩

theorem AllRecorded.warm {w : Worker} (inv : w.AllRecorded) (cmd : WarmCmd) (r : HookOutcome)
    (now : Nat → Timestamp) : (w.warm cmd r now).1.AllRecorded := by
  intro id o found
  simp only [Worker.warm] at found
  split at found
  · obtain ⟨-, rfl⟩ | ⟨-, old⟩ := getElem?_insert_some found
    · exact inv.warmedObject cmd r now
    · exact inv id o old
  · exact inv id o found

/-- The loop adds the objects it warms with success to `observed_`. -/
theorem warmAll_observed (w : Worker) (hook : Nat → HookOutcome) (now : Nat → Nat → Timestamp)
    (k : Nat) (cmds : List WarmCmd) (id : WarmthObjectId) :
    (w.warmAll hook now k cmds).1.observed[id]?.isSome = true ↔
      w.observed[id]?.isSome = true ∨ id ∈ WorkerStep.successes hook k cmds := by
  induction cmds generalizing w k with
  | nil => simp [warmAll, WorkerStep.successes]
  | cons cmd cmds ih =>
    simp only [warmAll, ih, warm, WorkerStep.successes]
    split
    next =>
      by_cases same : id = cmd.object
      · rw [same, ExtTreeMap.getElem?_insert_self]
        simp
      · rw [getElem?_insert_of_ne same]
        simp [same]
    next => rfl

theorem warmAll_recorded {w : Worker} (inv : w.AllRecorded) (hook : Nat → HookOutcome)
    (now : Nat → Nat → Timestamp) (k : Nat) (cmds : List WarmCmd) :
    (w.warmAll hook now k cmds).1.AllRecorded ∧ (w.warmAll hook now k cmds).1.cfg = w.cfg := by
  induction cmds generalizing w k with
  | nil => exact ⟨inv, rfl⟩
  | cons cmd cmds ih => exact ih (inv.warm cmd (hook k) (now k)) (k + 1)

theorem receiveAck_frame (w : Worker) (reply : Option Frame) :
    (w.receiveAck reply).1.observed = w.observed ∧ (w.receiveAck reply).1.cfg = w.cfg := by
  unfold receiveAck
  split
  next => exact ⟨rfl, rfl⟩
  next =>
    split
    next => exact ⟨rfl, rfl⟩
    next =>
      split
      next => exact ⟨rfl, rfl⟩
      next => split <;> exact ⟨rfl, rfl⟩

/-- What the steps so far have made of the worker. -/
structure Served (cfg : WorkerConfig) (ids : List WarmthObjectId) (w : Worker) : Prop where
  cfg : w.cfg = cfg
  recorded : w.AllRecorded
  observed : ∀ id : WarmthObjectId, w.observed[id]?.isSome = true ↔ id ∈ ids

theorem Served.step {cfg : WorkerConfig} {ids : List WarmthObjectId} {w : Worker}
    (h : Served cfg ids w) (a : WorkerStep) : Served cfg (ids ++ a.served) (w.step a) := by
  have same {w' : Worker} (hc : w'.cfg = w.cfg) (ho : w'.observed = w.observed) :
      Served cfg (ids ++ []) w' := by
    refine ⟨hc.trans h.cfg, fun id o found => ?_, fun id => ?_⟩
    · rw [hc]
      exact h.recorded id o (ho ▸ found)
    · rw [ho, List.append_nil]
      exact h.observed id
  cases a with
  | ack reply => exact same (w.receiveAck_frame reply).2 (w.receiveAck_frame reply).1
  | frame f hook now =>
    cases type : f.type with
    | warmTopic =>
      cases decoded : decodePayload decodeWarmTopic f.payload with
      | none =>
        simp only [Worker.step, handleFrame, WorkerStep.served, type, decoded]
        exact same rfl rfl
      | some topic =>
        obtain ⟨recorded, kept⟩ := warmAll_recorded h.recorded hook now 0 topic.cmds
        simp only [Worker.step, handleFrame, WorkerStep.served, type, decoded]
        refine ⟨kept.trans h.cfg, recorded, fun id => ?_⟩
        rw [List.mem_append, ← h.observed id]
        exact w.warmAll_observed hook now 0 topic.cmds id
    | hello | helloAck | report | warmResult | ping | pong | shutdown | error | ready =>
      simp only [Worker.step, handleFrame, WorkerStep.served, type]
      exact same rfl rfl

theorem served_run (cfg : WorkerConfig) (steps : List WorkerStep) :
    Served cfg (steps.flatMap WorkerStep.served) (Runs.run step { cfg } steps) := by
  induction steps using List.reverseRecOn with
  | nil =>
    refine ⟨rfl, fun id o found => ?_, fun id => ?_⟩
    · change (∅ : ExtTreeMap WarmthObjectId WarmthObject)[id]? = some o at found
      rw [ExtTreeMap.getElem?_empty] at found
      cases found
    · change (∅ : ExtTreeMap WarmthObjectId WarmthObject)[id]?.isSome = true ↔ id ∈ []
      rw [ExtTreeMap.getElem?_empty]
      simp
  | append_singleton steps a ih =>
    rw [Runs.run_concat, List.flatMap_append, List.flatMap_singleton]
    exact ih.step a

theorem hello_length {cfg : WorkerConfig} {w : Worker} (hc : w.cfg = cfg) (recorded : w.AllRecorded) :
    (encodeHello w.hello).length = cfg.helloSize w.observed.size := by
  have objects : (w.hello.observed.flatMap encodeObject).length =
      w.observed.size * (168 + cfg.backend.length) := by
    have sizes : ∀ o ∈ w.hello.observed, (encodeObject o).length = 168 + cfg.backend.length := by
      intro o ho
      obtain ⟨⟨id, o⟩, found, rfl⟩ := List.mem_map.mp ho
      have entry := ExtTreeMap.mem_toList_iff_getElem?_eq_some.mp found
      rw [← objectFields_flatten, objectFields_length, (recorded id o entry).objectSize, hc]
    rw [List.length_flatMap, List.map_congr_left sizes, List.map_const', List.sum_replicate_nat]
    exact congrArg (· * _) ((List.length_map _).trans ExtTreeMap.length_toList)
  have devices : (cfg.devices.flatMap str).length = (cfg.devices.map fun d => 4 + d.length).sum := by
    rw [List.length_flatMap]
    exact congrArg List.sum (List.map_congr_left fun d _ => str_length d)
  simp only [encodeHello, List.length_append, objects, Id128.toBytes_length, u32_length, u64_length,
    str_length]
  simp only [hello, hc, devices, WorkerConfig.helloSize]
  omega

/-- More objects than `decode_hello` allows, as long as their count fits its field. -/
theorem decodeHello_crowded {h : Hello} (version : h.protocolVersion < 2 ^ 32)
    (backend : h.backend.length < 2 ^ 32) (devices : h.devices.length ≤ 4096)
    (deviceNames : ∀ d ∈ h.devices, d.length < 2 ^ 32) (actions : h.actions.length ≤ 64)
    (crowded : 4096 < h.observed.length) (few : h.observed.length < 2 ^ 32) :
    decodePayload decodeHello (encodeHello h) = none := by
  have refused (rest : Bytes) : wireCount 4096 (u32 h.observed.length ++ rest) = .error () := by
    rw [wireCount, (reads_u32 few).apply, ensure, if_neg (by simpa using crowded)]
    rfl
  simp only [decodePayload, encodeHello, List.append_assoc, decodeHello]
  rw [(reads_u32 version).apply, (reads_id () h.worker).apply, (reads_id () h.boot).apply,
    (reads_id () h.node).apply, (reads_u64 () h.epochGuess).apply, (reads_str backend).apply,
    (reads_wireCount devices (by omega)).apply, (reads_strs deviceNames).apply,
    (reads_wireCount actions (by omega)).apply, (reads_bytes h.actions).apply, bind_apply, refused]

theorem Served.canIntroduce_iff {cfg : WorkerConfig} {ids : List WarmthObjectId} {w : Worker}
    (h : Served cfg ids w) (devices : cfg.devices.length ≤ 4096) (actions : cfg.actions.length ≤ 64) :
    w.CanIntroduce ↔ w.observed.size ≤ 4096 ∧ cfg.helloSize w.observed.size ≤ kMaxPayload := by
  have size := hello_length h.cfg h.recorded
  have observed : w.hello.observed.length = w.observed.size :=
    (List.length_map _).trans ExtTreeMap.length_toList
  have fits : (encodeHello w.hello).length ≤ kMaxPayload →
      cfg.backend.length < 2 ^ 32 ∧ (∀ d ∈ cfg.devices, d.length < 2 ^ 32) ∧
        w.observed.size < 2 ^ 32 := by
    intro fits
    rw [size, WorkerConfig.helloSize, kMaxPayload] at fits
    refine ⟨by omega, fun d hd => ?_, ?_⟩
    · have listed : 4 + d.length ∈ cfg.devices.map fun d => 4 + d.length := List.mem_map_of_mem hd
      have one := List.le_sum_of_mem listed
      omega
    · have each : w.observed.size * 1 ≤ w.observed.size * (168 + cfg.backend.length) :=
        Nat.mul_le_mul_left _ (by omega)
      omega
  unfold CanIntroduce connectFrame
  rw [← size]
  constructor
  · rintro ⟨f, g, framed, decoded⟩
    split at framed
    next small =>
      cases framed
      refine ⟨?_, small⟩
      by_contra crowded
      obtain ⟨backend, names, few⟩ := fits small
      rw [← h.cfg] at backend names devices actions
      have refused := decodeHello_crowded (h := w.hello) (show 1 < 2 ^ 32 by decide) backend devices names actions
        (by omega) (by omega)
      rw [helloFrame, refused] at decoded
      cases decoded
    next => cases framed
  · rintro ⟨few, small⟩
    obtain ⟨backend, names, -⟩ := fits small
    refine ⟨_, w.hello.stored, if_pos small, decodePayload_of_reads (reads_hello ?_)⟩
    refine ⟨show 1 < 2 ^ 32 by decide, ?_, ?_, ?_, ?_, observed ▸ few, fun o ho => ?_⟩
    · rw [← h.cfg] at backend
      exact backend
    · rw [← h.cfg] at devices
      exact devices
    · rw [← h.cfg] at names
      exact names
    · rw [← h.cfg] at actions
      exact actions
    · obtain ⟨⟨id, o⟩, found, rfl⟩ := List.mem_map.mp ho
      have entry := ExtTreeMap.mem_toList_iff_getElem?_eq_some.mp found
      exact (h.cfg ▸ h.recorded id o entry).wirable backend

/-- With short strings the objects decide alone. -/
theorem helloSize_short {cfg : WorkerConfig} {n : Nat} (devices : cfg.devices.length ≤ 4096)
    (actions : cfg.actions.length ≤ 64) (backend : cfg.backend.length ≤ 1024)
    (names : ∀ d ∈ cfg.devices, d.length ≤ 1024) (few : n ≤ 4096) :
    cfg.helloSize n ≤ kMaxPayload := by
  have listed : (cfg.devices.map fun d => 4 + d.length).sum ≤ cfg.devices.length * 1028 := by
    have each : ∀ k ∈ cfg.devices.map fun d => 4 + d.length, k ≤ 1028 := by
      intro k hk
      obtain ⟨d, hd, rfl⟩ := List.mem_map.mp hk
      have := names d hd
      omega
    have bound := List.sum_le_card_nsmul _ _ each
    rwa [List.length_map] at bound
  have objects : n * (168 + cfg.backend.length) ≤ 4096 * 1192 := Nat.mul_le_mul few (by omega)
  unfold WorkerConfig.helloSize kMaxPayload
  omega

theorem observed_size (cfg : WorkerConfig) (steps : List WorkerStep) :
    (Runs.run step { cfg } steps).observed.size = distinctServed steps :=
  size_eq_card fun id => ((served_run cfg steps).observed id).trans List.mem_toFinset.symm

/-- A worker can introduce itself as long as it has warmed at most 4096 distinct objects and its
HELLO fits a frame, whatever else it has been sent; with short strings the first alone decides. -/
theorem introduces_iff {cfg : WorkerConfig} (devices : cfg.devices.length ≤ 4096)
    (actions : cfg.actions.length ≤ 64) (steps : List WorkerStep) :
    ((Runs.run step { cfg } steps).CanIntroduce ↔
      distinctServed steps ≤ 4096 ∧ cfg.helloSize (distinctServed steps) ≤ kMaxPayload) ∧
    (cfg.backend.length ≤ 1024 → (∀ d ∈ cfg.devices, d.length ≤ 1024) →
      ((Runs.run step { cfg } steps).CanIntroduce ↔ distinctServed steps ≤ 4096)) := by
  have decided := (served_run cfg steps).canIntroduce_iff devices actions
  rw [observed_size] at decided
  refine ⟨decided, fun backend names => decided.trans ⟨And.left, fun few => ⟨few, ?_⟩⟩⟩
  exact helloSize_short devices actions backend names few

/-- A WARM_TOPIC for one object, whose warming succeeds. -/
def warmOne (k : Nat) : WorkerStep :=
  .frame { type := .warmTopic, payload := encodeWarmTopic { cmds := [{ object := ⟨0, .ofNat k⟩ }] } }
    (fun _ => { success := true }) fun _ _ => 0

theorem served_warmOne (k : Nat) : (warmOne k).served = [⟨0, .ofNat k⟩] := by
  have decoded := decodePayload_of_reads
    (reads_warmTopic (t := { cmds := [{ object := ⟨0, .ofNat k⟩ }] }) (show 1 ≤ 4096 by decide))
  simp only [warmOne, WorkerStep.served, decoded]
  rfl

theorem distinctServed_warmOne {n : Nat} (small : n ≤ 2 ^ 64) :
    distinctServed ((List.range n).map warmOne) = n := by
  have ids : ((List.range n).map warmOne).flatMap WorkerStep.served =
      (List.range n).map fun k => (⟨0, .ofNat k⟩ : WarmthObjectId) := by
    rw [List.flatMap_map, List.map_eq_flatMap]
    exact List.flatMap_congr fun k _ => served_warmOne k
  have distinct : ((List.range n).map fun k => (⟨0, .ofNat k⟩ : WarmthObjectId)).Nodup := by
    refine List.Nodup.map_on (fun j hj k hk same => ?_) List.nodup_range
    have low := congrArg (fun id : WarmthObjectId => id.lo.toNat) same
    simp only [UInt64.toNat_ofNat'] at low
    have := List.mem_range.mp hj
    have := List.mem_range.mp hk
    omega
  rw [distinctServed, ids, List.toFinset_card_of_nodup distinct, List.length_map, List.length_range]

/-- 4096 objects, each warmed by a topic of its own, are not too many. -/
theorem introduces_full :
    (Runs.run step ({} : Worker) ((List.range 4096).map warmOne)).CanIntroduce ∧
      distinctServed ((List.range 4096).map warmOne) = 4096 := by
  have objects : distinctServed ((List.range 4096).map warmOne) = 4096 :=
    distinctServed_warmOne (by decide)
  obtain ⟨-, short⟩ := @introduces_iff {} (by decide) (by decide) ((List.range 4096).map warmOne)
  have introduces := short (by decide) (by simp)
  exact ⟨introduces.mpr (Nat.le_of_eq objects), objects⟩

/-- 4097 objects, each warmed by a topic of its own. -/
theorem crowded_worker_silenced :
    ∃ (cfg : WorkerConfig) (steps : List WorkerStep), cfg.devices.length ≤ 4096 ∧
      cfg.actions.length ≤ 64 ∧ cfg.backend.length ≤ 4 ∧ (∀ d ∈ cfg.devices, d.length ≤ 4) ∧
      ¬(Runs.run step { cfg } steps).CanIntroduce := by
  refine ⟨{}, (List.range 4097).map warmOne, by decide, by decide, by decide, by simp, ?_⟩
  intro introduced
  have few := (((served_run {} _).canIntroduce_iff (by decide) (by decide)).mp introduced).1
  rw [observed_size, distinctServed_warmOne (by decide)] at few
  omega

end Worker

end Warmth
