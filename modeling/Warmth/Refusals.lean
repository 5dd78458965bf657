import Warmth.UsageLeak

namespace Warmth

open Codec Std TreeMaps

/-- A reservation and its release leave a counter alone just when the sum does not wrap: the
release stops at zero. -/
theorem regained_iff {u amount : UInt64} :
    (u + amount).toNat - amount.toNat = u.toNat ↔ u.toNat + amount.toNat < 2 ^ 64 := by
  have hu := u.toNat_lt
  have ha := amount.toNat_lt
  rw [UInt64.toNat_add]
  omega

namespace BudgetTracker

/-- The counters of both kinds have room for what phase 1 of `warm` adds to them. -/
structure WarmRoom (t : BudgetTracker) : Prop where
  device : (t.usage .deviceMemory).toNat + kDefaultWarmBytes.toNat < 2 ^ 64
  op : t.fitsOp = true → (t.usage .concurrentWarmingOps).toNat + 1 < 2 ^ 64

section
variable {t : BudgetTracker}

/-- What phase 1 adds to the counter of a kind. -/
def warmAmount (t : BudgetTracker) : WarmthBudgetKind → UInt64
  | .deviceMemory => kDefaultWarmBytes
  | .concurrentWarmingOps => if t.fitsOp then 1 else 0
  | _ => 0

theorem taken_usage (k : WarmthBudgetKind) : t.taken.usage k = t.usage k + t.warmAmount k := by
  unfold BudgetTracker.taken warmAmount
  cases t.fitsOp <;> cases k <;> simp [grant]

theorem warmRoom_iff :
    t.WarmRoom ↔ ∀ k, (t.usage k).toNat + (t.warmAmount k).toNat < 2 ^ 64 := by
  constructor
  · intro room k
    have small := (t.usage k).toNat_lt
    cases k with
    | deviceMemory => exact room.device
    | concurrentWarmingOps =>
      unfold warmAmount
      cases op : t.fitsOp with
      | true => exact room.op op
      | false => exact small
    | _ => exact small
  · intro room
    refine ⟨room .deviceMemory, fun op => ?_⟩
    have one := room .concurrentWarmingOps
    rw [warmAmount, if_pos op] at one
    exact one

/-- When phase 1 is handed fresh ids, turning back takes from every counter what was added. -/
theorem turnedBack_regains (fresh : ∀ i ∈ t.nextPair.ids, i ∉ t.ids) (k : WarmthBudgetKind) :
    ((t.taken.releasePair t.nextPair).usage k).toNat =
      (t.usage k + t.warmAmount k).toNat - (t.warmAmount k).toNat := by
  rw [← taken_usage]
  cases op : t.fitsOp with
  | true =>
    rw [(taken_holds op fresh).usage]
    cases k <;> simp [warmAmount, op]
  | false =>
    rw [turnedBack_single op, release_usage (turnedBack_entry op fresh) t.takeId_ne_zero]
    cases k <;> simp [warmAmount, op]

theorem turnedBack_usage_iff (fresh : ∀ i ∈ t.nextPair.ids, i ∉ t.ids) :
    (t.taken.releasePair t.nextPair).usage = t.usage ↔ t.WarmRoom := by
  rw [warmRoom_iff]
  constructor
  · intro same k
    apply regained_iff.mp
    rw [← turnedBack_regains fresh k, same]
  · intro room
    funext k
    apply UInt64.toNat_inj.mp
    rw [turnedBack_regains fresh k]
    exact regained_iff.mpr (room k)

theorem reservations_eq_empty_iff : t.reservations = ∅ ↔ ∀ i, i ∉ t.ids := by
  rw [ExtTreeMap.eq_empty_iff_forall_not_mem]
  exact forall_congr' fun i => not_congr mem_ids_iff.symm

/-- With nothing outstanding, turning back leaves nothing outstanding. -/
theorem turnedBack_reservations (empty : t.reservations = ∅) :
    (t.taken.releasePair t.nextPair).reservations = ∅ := by
  rw [reservations_eq_empty_iff] at empty ⊢
  intro i left
  rw [mem_ids_releasePair, mem_ids_taken] at left
  exact left.1.elim left.2 (empty i)

/-- No counter shows more than what is outstanding of its kind. -/
def UsageBacked (t : BudgetTracker) : Prop := ∀ k, (t.usage k).toNat ≤ t.outstandingSum k

theorem UsageBacked.grant (h : t.UsageBacked) (fresh : t.takeId.1 ∉ t.ids) (kind : WarmthBudgetKind)
    (amount : UInt64) (tag : CString) : (t.grant kind amount tag).UsageBacked := by
  intro k
  rw [outstandingSum_grant fresh]
  have backed := h k
  by_cases hk : k = kind
  · subst hk
    have counter : (t.grant k amount tag).usage k = t.usage k + amount := if_pos rfl
    have sum := Nat.mod_le ((t.usage k).toNat + amount.toNat) (2 ^ 64)
    rw [counter, UInt64.toNat_add, if_pos rfl]
    omega
  · rw [grant_usage_of_ne hk, if_neg (Ne.symm hk)]
    omega

theorem UsageBacked.release (h : t.UsageBacked) (i : UInt64) : (t.release i).2.UsageBacked := by
  by_cases zero : i = 0
  · subst zero
    exact h
  · cases held : t.reservations[i]? with
    | none =>
      have same : (t.release i).2 = t := by simp [BudgetTracker.release, zero, held]
      rw [same]
      exact h
    | some r =>
      intro k
      have backed := h k
      have usage := release_usage held zero k
      have sum := outstandingSum_released zero held k
      omega

theorem UsageBacked.taken (h : t.UsageBacked) (fresh : ∀ i ∈ t.nextPair.ids, i ∉ t.ids) :
    t.taken.UsageBacked := by
  have first := fresh _ ((mem_ids_of_ne t.takeId_ne_zero).mp (Or.inl rfl))
  have device := h.grant first .deviceMemory kDefaultWarmBytes (text "warm")
  unfold BudgetTracker.taken
  cases op : t.fitsOp with
  | false => exact device
  | true =>
    have handed : t.takeId.2.takeId.1 ∈ t.nextPair.ids :=
      (mem_ids_of_ne t.takeId.2.takeId_ne_zero).mp (Or.inr (by simp [nextPair, op]))
    refine device.grant ?_ _ _ _
    rw [takeId_grant, mem_ids_grant]
    exact fun h => h.elim t.takeId_takeId_ne (fresh _ handed)

theorem UsageBacked.releasePair (h : t.UsageBacked) (r : WarmReservations) :
    (t.releasePair r).UsageBacked := by
  unfold BudgetTracker.releasePair
  simp only
  split
  · exact (h.release _).release _
  · exact h.release _

/-- With nothing outstanding, counters that show no more than that are zero. -/
theorem UsageBacked.warmRoom (h : t.UsageBacked) (empty : t.reservations = ∅) : t.WarmRoom := by
  have idle (k : WarmthBudgetKind) : (t.usage k).toNat = 0 := by
    have backed := h k
    have nothing : t.outstandingSum k = 0 := by
      rw [outstandingSum, empty]
      rfl
    omega
  refine ⟨?_, fun _ => ?_⟩
  · rw [idle, kDefaultWarmBytes_toNat]
    decide
  · rw [idle]
    decide

end

end BudgetTracker

/-- The operations on one object that report by a Boolean whether they were done. -/
inductive ObjectCall
  | transition (id : WarmthObjectId) (target : WarmthState) (reason : CString)
  | setDimension (id : WarmthObjectId) (idx : DimensionIndex) (status : DimensionStatus)
  | setDimensions (id : WarmthObjectId) (dims : WarmthDimensions)
  | markUsed (id : WarmthObjectId) (now : Timestamp)
  | invalidate (id : WarmthObjectId) (reason : InvalidationReason)
  | demote (id : WarmthObjectId)
  | evict (id : WarmthObjectId)
  | warmToReady (id : WarmthObjectId)
  | warm (id : WarmthObjectId) (action : WarmthAction) (now : Nat → Timestamp)

namespace ObjectCall

def apply (f : WarmthFabric) : ObjectCall → WarmthFabric × Bool
  | .transition id target reason => f.transition id target reason
  | .setDimension id idx status => f.setDimension id idx status
  | .setDimensions id dims => f.setDimensions id dims
  | .markUsed id now => f.markUsed id now
  | .invalidate id reason => f.invalidate id reason
  | .demote id => f.demote id
  | .evict id => f.evict id
  | .warmToReady id => f.warmToReady id
  | .warm id action now => f.warm id action now

/-- The warming operation of the fabric succeeds for the call. -/
def Succeeds (f : WarmthFabric) : ObjectCall → Prop
  | .warm _ action _ => (f.warmOperation action).success = true
  | _ => True

/-- If the call is a `warm` that is turned back at the transition table, the two counters have
room for its reservations. -/
def Clear (f : WarmthFabric) : ObjectCall → Prop
  | .warm id _ _ => ∀ o, f.objects[id]? = some o → transitionAllowed o.state .preparing = false →
      f.budget.fitsDevice = true → f.budget.WarmRoom
  | _ => True

end ObjectCall

theorem WarmthObject.transition_refused {o : WarmthObject} {target : WarmthState}
    {reason : CString} (refused : (o.transition target reason).2 = false) :
    (o.transition target reason).1 = o := by
  unfold WarmthObject.transition at refused ⊢
  split
  next edge =>
    rw [if_pos edge] at refused
    cases refused
  next => rfl

/-- Every state reaches PREPARING by one edge, or by way of COLD, and WARM from there. -/
theorem makeWarm_ready (o : WarmthObject) (why : CString) :
    isExecutionReady (makeWarm o why).state = true := by
  unfold makeWarm
  split
  next already =>
    cases state : o.state <;> rw [state] at already <;> first | rfl | cases already
  next =>
    split
    next p step =>
      have prepared : p.state = .preparing := by
        unfold WarmthObject.transition at step
        split at step <;> cases step
        rfl
      change isExecutionReady (p.moveTo .warm why).state = true
      rw [WarmthObject.moveTo_state, prepared]
      rfl
    next =>
      change isExecutionReady (((o.moveTo .cold why).moveTo .preparing why).moveTo .warm why).state = true
      rw [WarmthObject.moveTo_state, WarmthObject.moveTo_state, WarmthObject.moveTo_state]
      cases o.state <;> rfl

namespace WarmthFabric

def withOperation (f : WarmthFabric) (op : Option WarmOperation) : WarmthFabric := { f with op }

/-- The objects, the counters and the outstanding reservations are the same; the counter that the
reservation ids come from may have moved. -/
structure Unchanged (f g : WarmthFabric) : Prop where
  objects : g.objects = f.objects
  usage : g.budget.usage = f.budget.usage
  reservations : g.budget.reservations = f.budget.reservations

/-- An operation on one object that leaves the object alone whenever it refuses. -/
def Guarded (g : WarmthObject → WarmthObject × Bool) : Prop := ∀ o, (g o).2 = false → (g o).1 = o

theorem onObject_refused {f : WarmthFabric} {id : WarmthObjectId}
    {g : WarmthObject → WarmthObject × Bool} (guarded : Guarded g)
    (refused : (f.onObject id g).2 = false) : (f.onObject id g).1 = f := by
  unfold onObject at refused ⊢
  cases object : f.objects[id]? with
  | none => rfl
  | some o =>
    rw [object] at refused
    have same := guarded o refused
    simp only [same, insert_same object]

theorem guarded_transition (target : WarmthState) (reason : CString) :
    Guarded fun o => o.transition target reason :=
  fun _ => WarmthObject.transition_refused

/-- An operation that always succeeds. -/
theorem guarded_of_true {g : WarmthObject → WarmthObject × Bool} (h : ∀ o, (g o).2 = true) :
    Guarded g := by
  intro o refused
  rw [h o] at refused
  cases refused

section
variable {f : WarmthFabric} {id : WarmthObjectId}

theorem invalidate_refused {reason : InvalidationReason}
    (refused : (f.invalidate id reason).2 = false) : (f.invalidate id reason).1 = f := by
  refine onObject_refused (fun o refused => ?_) refused
  dsimp only at refused ⊢
  split
  next => rfl
  next edge =>
    rw [if_neg edge] at refused
    cases refused

theorem demote_refused (refused : (f.demote id).2 = false) : (f.demote id).1 = f := by
  refine onObject_refused (fun o refused => ?_) refused
  split
  next hot =>
    rw [hot] at refused
    exact WarmthObject.transition_refused refused
  next warm =>
    rw [warm] at refused
    exact WarmthObject.transition_refused refused
  next part =>
    rw [part] at refused
    exact WarmthObject.transition_refused refused
  next => rfl

theorem evict_refused (refused : (f.evict id).2 = false) : (f.evict id).1 = f := by
  refine onObject_refused (fun o refused => ?_) refused
  dsimp only at refused ⊢
  split
  next kept step =>
    have same := WarmthObject.transition_refused (congrArg Prod.snd step)
    rwa [step] at same
  next kept step =>
    rw [step] at refused
    cases refused

theorem warmToReady_refused (refused : (f.warmToReady id).2 = false) :
    (f.warmToReady id).1 = f :=
  onObject_refused (guarded_of_true fun _ => makeWarm_ready _ _) refused

/-- `warm` on an object without an edge to PREPARING: both reservations come and go. -/
theorem warm_turnedBack {o : WarmthObject} (object : f.objects[id]? = some o)
    (device : f.budget.fitsDevice = true) (edge : transitionAllowed o.state .preparing = false)
    (action : WarmthAction) (now : Nat → Timestamp) :
    f.warm id action now =
      ({ f with budget := f.budget.taken.releasePair f.budget.nextPair }, false) := by
  simp [warm, warmBegin_eq, object, device, edge]

theorem warmFinish_done {o : WarmthObject} (object : f.objects[id]? = some o)
    {held : WarmReservations} {outcome : WarmOutcome} {now : Nat → Timestamp}
    (success : outcome.success = true) : (f.warmFinish id held outcome now).2 = true := by
  simp [warmFinish, onObject, object, success]

/-- A `warm` whose warming operation succeeds and that returns false has changed nothing, or was
turned back at the transition table. -/
theorem warm_refused {action : WarmthAction} {now : Nat → Timestamp}
    (succeeds : (f.warmOperation action).success = true)
    (refused : (f.warm id action now).2 = false) :
    (f.warm id action now).1 = f ∨
      ∃ o, f.objects[id]? = some o ∧ f.budget.fitsDevice = true ∧
        transitionAllowed o.state .preparing = false := by
  cases object : f.objects[id]? with
  | none => exact Or.inl (by simp [warm, warmBegin_eq, object])
  | some o =>
    cases device : f.budget.fitsDevice with
    | false => exact Or.inl (by simp [warm, warmBegin_eq, object, device])
    | true =>
      cases edge : transitionAllowed o.state .preparing with
      | false => exact Or.inr ⟨o, rfl, rfl, edge⟩
      | true =>
        have done : (f.warm id action now).2 = true := by
          simp only [warm, warmBegin_eq, object, device, edge, Bool.not_true, Bool.false_eq_true, if_false]
          exact warmFinish_done ExtTreeMap.getElem?_insert_self succeeds
        rw [done] at refused
        cases refused

end

end WarmthFabric

theorem WarmthFabric.Unchanged.of_eq {f g : WarmthFabric} (h : g = f) : f.Unchanged g := by
  rw [h]
  exact ⟨rfl, rfl, rfl⟩

/-- With nothing outstanding, a refused call changes nothing exactly when the counters have room
for what it reserves before it refuses. -/
theorem ObjectCall.refused_unchanged_iff {f : WarmthFabric} (empty : f.budget.reservations = ∅)
    (call : ObjectCall) (succeeds : call.Succeeds f) :
    ((call.apply f).2 = false → f.Unchanged (call.apply f).1) ↔ call.Clear f := by
  have quiet {step : WarmthFabric × Bool} (same : step.2 = false → step.1 = f) :
      (step.2 = false → f.Unchanged step.1) ↔ True :=
    iff_true_intro fun refused => .of_eq (same refused)
  have fresh : ∀ i ∈ f.budget.nextPair.ids, i ∉ f.budget.ids := fun i _ =>
    BudgetTracker.reservations_eq_empty_iff.mp empty i
  cases call with
  | warm id action now =>
    change ((f.warm id action now).2 = false → f.Unchanged (f.warm id action now).1) ↔ _
    constructor
    · intro kept o object edge device
      rw [f.warm_turnedBack object device edge] at kept
      exact (BudgetTracker.turnedBack_usage_iff fresh).mp (kept rfl).usage
    · intro clear refused
      rcases WarmthFabric.warm_refused succeeds refused with same | ⟨o, object, device, edge⟩
      · exact .of_eq same
      · rw [f.warm_turnedBack object device edge]
        have room := clear o object edge device
        exact ⟨rfl, (BudgetTracker.turnedBack_usage_iff fresh).mpr room,
          (BudgetTracker.turnedBack_reservations empty).trans empty.symm⟩
  | transition =>
    exact quiet (WarmthFabric.onObject_refused (WarmthFabric.guarded_transition _ _))
  | setDimension | setDimensions | markUsed =>
    exact quiet (WarmthFabric.onObject_refused (WarmthFabric.guarded_of_true fun _ => rfl))
  | invalidate => exact quiet WarmthFabric.invalidate_refused
  | demote => exact quiet WarmthFabric.demote_refused
  | evict => exact quiet WarmthFabric.evict_refused
  | warmToReady => exact quiet WarmthFabric.warmToReady_refused

namespace Reserving

/-- Every outstanding reservation is held by a call in progress. -/
def Covered (s : Reserving) : Prop := ∀ i ∈ s.fabric.budget.ids, i ∈ s.heldIds

theorem Covered.empty {s : Reserving} (inv : s.Covered) (h : s.calls = []) :
    s.fabric.budget.reservations = ∅ := by
  apply BudgetTracker.reservations_eq_empty_iff.mpr
  intro i outstanding
  have held := inv i outstanding
  rw [heldIds, h] at held
  cases held

theorem covered_start (cfg : FabricConfig) : (start cfg).Covered := by
  intro i outstanding
  obtain ⟨r, hr⟩ := BudgetTracker.mem_ids.mp outstanding
  cases hr

/-- Every step keeps it, a recovery and a reused id included. -/
theorem Covered.step {s : Reserving} (inv : s.Covered) (a : FabricStep) : (s.step a).Covered := by
  have moved := moved_step s a
  generalize s.step a = t at moved
  intro i outstanding
  cases moved with
  | same budget =>
    dsimp only at outstanding
    rw [budget] at outstanding
    exact inv i outstanding
  | recover =>
    obtain ⟨r, hr⟩ := BudgetTracker.mem_ids.mp outstanding
    cases hr
  | turnBack =>
    obtain ⟨taken, spared⟩ := BudgetTracker.mem_ids_releasePair.mp outstanding
    rcases BudgetTracker.mem_ids_taken.mp taken with handed | before
    · exact absurd handed spared
    · exact inv i before
  | pass =>
    rw [heldIds_pass, List.mem_append]
    rcases BudgetTracker.mem_ids_taken.mp outstanding with handed | before
    · exact Or.inr handed
    · exact Or.inl (inv i before)
  | @finish k outcome now c f call budget =>
    dsimp only at outstanding
    rw [budget] at outstanding
    obtain ⟨before, spared⟩ := BudgetTracker.mem_ids_releasePair.mp outstanding
    have held := (heldIds_finish call f).mem_iff.mp (inv i before)
    exact (List.mem_append.mp held).resolve_left spared

theorem covered_run (cfg : FabricConfig) (steps : List FabricStep) :
    (Runs.run step (start cfg) steps).Covered :=
  Runs.reachable_invariant (covered_start cfg) (fun _ a inv => inv.step a)
    (Runs.reachable_run steps)

theorem usageBacked_step {s : Reserving} {a : FabricStep} (inv : s.Covered)
    (backed : s.fabric.budget.UsageBacked) (h : ¬ s.Reuses a) :
    (s.step a).fabric.budget.UsageBacked := by
  have moved := moved_step s a
  generalize s.step a = t at moved
  cases moved with
  | same budget =>
    dsimp only
    rw [budget]
    exact backed
  | recover =>
    intro k
    exact Nat.zero_le _
  | turnBack object device edge =>
    have unheld := unheld_of_not_reuses h object device
    exact (backed.taken fun i handed outstanding => unheld i handed (inv i outstanding)).releasePair _
  | pass object device edge =>
    have unheld := unheld_of_not_reuses h object device
    exact backed.taken fun i handed outstanding => unheld i handed (inv i outstanding)
  | finish call budget =>
    dsimp only
    rw [budget]
    exact backed.releasePair _

/-- While no phase 1 is handed an id that a call in progress holds, refused operations change
nothing between the calls. -/
theorem refused_unchanged_of_fresh (cfg : FabricConfig) {steps : List FabricStep}
    (fresh : Runs.Along step (fun s a => ¬ s.Reuses a) (start cfg) steps)
    (idle : (Runs.run step (start cfg) steps).calls = []) (call : ObjectCall)
    (succeeds : call.Succeeds (Runs.run step (start cfg) steps).fabric)
    (refused : (call.apply (Runs.run step (start cfg) steps).fabric).2 = false) :
    (Runs.run step (start cfg) steps).fabric.Unchanged
      (call.apply (Runs.run step (start cfg) steps).fabric).1 := by
  have inv : (Runs.run step (start cfg) steps).Covered ∧
      (Runs.run step (start cfg) steps).fabric.budget.UsageBacked :=
    Runs.invariant (I := fun s => s.Covered ∧ s.fabric.budget.UsageBacked)
      (fun s a inv h => ⟨inv.1.step a, usageBacked_step inv.1 inv.2 h⟩)
      ⟨covered_start cfg, fun _ => Nat.zero_le _⟩ fresh
  have empty := inv.1.empty idle
  refine (call.refused_unchanged_iff empty succeeds).mpr ?_ refused
  have room := inv.2.warmRoom empty
  cases call with
  | warm => exact fun _ _ _ _ => room
  | _ => trivial

/-- Refused operations, with any warming operation that succeeds: between the `warm` calls of
every run a refused call changes nothing exactly when it is clear. -/
theorem refused_unchanged_iff_clear (cfg : FabricConfig) (steps : List FabricStep)
    (idle : (Runs.run step (start cfg) steps).calls = []) (op : Option WarmOperation)
    (call : ObjectCall)
    (succeeds : call.Succeeds ((Runs.run step (start cfg) steps).fabric.withOperation op)) :
    let f := (Runs.run step (start cfg) steps).fabric.withOperation op
    ((call.apply f).2 = false → f.Unchanged (call.apply f).1) ↔ call.Clear f := by
  intro f
  have empty : f.budget.reservations = ∅ := (covered_run cfg steps).empty idle
  exact call.refused_unchanged_iff empty succeeds

/-- A `warm` on a FAILED object is refused after its two reservations were made. -/
theorem refused_unchanged_iff_clear_turnedAway :
    let f := (Runs.run step (start oneAtATime) [.upsert turnedAway]).fabric
    (ObjectCall.apply f (.warm ⟨0, 2⟩ ⟨0⟩ fun _ => 5)).2 = false ∧
      f.Unchanged (ObjectCall.apply f (.warm ⟨0, 2⟩ ⟨0⟩ fun _ => 5)).1 := by
  intro f
  have refused : (ObjectCall.apply f (.warm ⟨0, 2⟩ ⟨0⟩ fun _ => 5)).2 = false := by decide +kernel
  have clear : ObjectCall.Clear f (.warm ⟨0, 2⟩ ⟨0⟩ fun _ => 5) := fun _ _ _ _ =>
    ⟨by decide +kernel, fun _ => by decide +kernel⟩
  exact ⟨refused, (refused_unchanged_iff_clear oneAtATime [.upsert turnedAway] rfl none
    (.warm ⟨0, 2⟩ ⟨0⟩ fun _ => 5) rfl).mpr clear refused⟩

/-- After a run that leaks all but the last unit a `warm` on a FAILED object wraps the counter of
the device memory, and its release stops at zero. -/
theorem refused_warm_clears_usage :
    ¬ ∀ (cfg : FabricConfig) (steps : List FabricStep),
      (Runs.run step (start cfg) steps).calls = [] → ∀ (op : Option WarmOperation)
        (call : ObjectCall),
        let f := (Runs.run step (start cfg) steps).fabric.withOperation op
        call.Succeeds f → (call.apply f).2 = false → f.Unchanged (call.apply f).1 := by
  intro always
  obtain ⟨k, room⟩ : ∃ k, k + 4 = 2 ^ 34 := ⟨2 ^ 34 - 4, by decide⟩
  obtain ⟨m, rest⟩ : ∃ m, m + k + 1 = idCycle := ⟨idCycle - 1 - k, by unfold idCycle; omega⟩
  obtain ⟨l, lap⟩ : ∃ l, l + 1 = idCycle := ⟨idCycle - 1, by decide⟩
  obtain ⟨idle, spilled, object⟩ := leakingRun_spills (by omega) rest lap
  let f := (Runs.run step (start oneAtATime) (leakingRun k m l)).fabric.withOperation none
  let call : ObjectCall := .warm ⟨0, 2⟩ ⟨0⟩ fun _ => 5
  have unchanged : (call.apply f).2 = false → f.Unchanged (call.apply f).1 :=
    always oneAtATime (leakingRun k m l) idle none call rfl
  have empty : f.budget.reservations = ∅ := (covered_run _ _).empty idle
  have clear : call.Clear f := (call.refused_unchanged_iff empty rfl).mp unchanged
  have device : f.budget.fitsDevice = true :=
    BudgetTracker.fits_unlimited (spilled.limits ▸ rfl) kDefaultWarmBytes
  have wraps := (clear turnedAway object rfl device).device
  have full : (f.budget.usage .deviceMemory).toNat = (k + 3) * 2 ^ 30 := spilled.device
  rw [kDefaultWarmBytes_toNat] at wraps
  omega

end Reserving

end Warmth
