import Warmth.Boots
import Warmth.SystemSteps

namespace Warmth

open Codec Std TreeMaps

namespace System

/-- Every entry of the registry belongs to an open connection that still goes by that id, with the
boot last accepted for it. -/
def Consistent (s : System) : Prop :=
  ∀ w c, s.coord.workers[w]? = some c →
    (s.coord.conns c).registered = true ∧ (s.coord.conns c).id = w ∧
      s.coord.lastBoot[w]? = some (s.coord.conns c).boot ∧ s.closed c = false

/-- A HELLO is turned away as a stale boot only on behalf of an open connection that goes by the
worker id the HELLO asks for. -/
def BlockedByLive (s : System) : Prop :=
  ∀ h, s.coord.bootClash h = true → ∃ c, s.Serves c h.worker

/-- The step is a HELLO accepted on a connection that the registry still holds under another id. -/
def Rebinds (s : System) (a : Step) : Prop :=
  ∃ cs h w, s.Registers a cs h ∧ s.coord.workers[w]? = some cs ∧ w ≠ h.worker

theorem Consistent.blockedByLive {s : System} (inv : s.Consistent) : s.BlockedByLive := by
  intro h clash
  unfold Coordinator.bootClash at clash
  split at clash
  next c entry =>
    obtain ⟨registered, id, _, up⟩ := inv h.worker c entry
    exact ⟨c, up, registered, id⟩
  next => cases clash

theorem Registers.up {s : System} {a : Step} {cs : ConnId} {h : Hello} (r : s.Registers a cs h) :
    s.closed cs = false := by
  cases r with
  | hello up => exact up

theorem acceptHello_workers (c : Coordinator) (cs : ConnId) (h : Hello) :
    (c.acceptHello cs h).workers = c.workers.insert h.worker cs := by
  rw [Coordinator.acceptHello_frame]
  rfl

/-- The registry, the connection states and the open connections change by an accepted HELLO or a
disconnect, and by nothing else. -/
theorem stepped_registry {s t : System} {a : Step} (moved : Stepped s a t) :
    (∃ cs h, s.Registers a cs h ∧ t = { s with coord := s.coord.acceptHello cs h }) ∨
    (∃ cs now, a = .disconnect cs now ∧ s.closed cs = false ∧
      t = { s with
        coord := s.coord.onDisconnect cs now
        closed := fun i => if i = cs then true else s.closed i }) ∨
    (t.coord.workers = s.coord.workers ∧ t.coord.conns = s.coord.conns ∧
      t.coord.lastBoot = s.coord.lastBoot ∧ t.closed = s.closed) := by
  cases moved with
  | hello up type decoded version noClash =>
    exact Or.inl ⟨_, _, .hello up type decoded version noClash, rfl⟩
  | disconnect up => exact Or.inr (Or.inl ⟨_, _, rfl, up, rfl⟩)
  | report =>
    refine Or.inr (Or.inr ?_)
    rw [Coordinator.acceptReport_frame]
    exact ⟨rfl, rfl, rfl, rfl⟩
  | result =>
    refine Or.inr (Or.inr ?_)
    rw [Coordinator.acceptResult, Coordinator.applyResult_frame]
    exact ⟨rfl, rfl, rfl, rfl⟩
  | issue issued =>
    refine Or.inr (Or.inr ?_)
    rw [Coordinator.issueWarm_frame issued]
    exact ⟨rfl, rfl, rfl, rfl⟩
  | cleanup =>
    refine Or.inr (Or.inr ?_)
    unfold after Coordinator.cleanup
    split <;> exact ⟨rfl, rfl, rfl, rfl⟩
  | idle | refuse | send | rollEpoch | bumpWarmth | bumpDependency =>
    exact Or.inr (Or.inr ⟨rfl, rfl, rfl, rfl⟩)

theorem consistent_init : init.Consistent := by
  intro w c entry
  simp [init] at entry

/-- An entry that a disconnect leaves in a consistent registry names another connection. -/
theorem onDisconnect_workers {s : System} (inv : s.Consistent) {cs c : ConnId} {w : WorkerId}
    {now : WarmthObjectId → Timestamp}
    (entry : (s.coord.onDisconnect cs now).workers[w]? = some c) :
    s.coord.workers[w]? = some c ∧ c ≠ cs := by
  unfold Coordinator.onDisconnect at entry
  split at entry
  next absent =>
    refine ⟨entry, ?_⟩
    rintro rfl
    simp [(inv w c entry).1] at absent
  next =>
    simp only at entry
    split at entry
    next own =>
      obtain ⟨hw, before⟩ := getElem?_erase_some entry
      refine ⟨before, ?_⟩
      rintro rfl
      exact hw (inv w c before).2.1.symm
    next foreign =>
      refine ⟨entry, ?_⟩
      rintro rfl
      exact foreign ((inv w c entry).2.1 ▸ entry)

theorem Consistent.step {s : System} {a : Step} (inv : s.Consistent) (h : ¬ s.Rebinds a) :
    (s.step a).Consistent := by
  intro w c entry
  rcases stepped_registry (stepped_step s a) with
    ⟨cs, hello, r, ht⟩ | ⟨cs, now, _, up, ht⟩ | ⟨workers, conns, lastBoot, closed⟩
  · have closed : (s.step a).closed = s.closed := by rw [ht]
    obtain ⟨conns, lastBoot⟩ := registers_registry r
    rw [step_registers r, acceptHello_workers] at entry
    rw [conns, lastBoot, closed]
    rcases getElem?_insert_some entry with ⟨rfl, rfl⟩ | ⟨hw, before⟩
    · rw [register_conns_self]
      exact ⟨rfl, rfl, ExtTreeMap.getElem?_insert_self, r.up⟩
    · have hc : c ≠ cs := by
        rintro rfl
        exact h ⟨c, hello, w, r, before, hw⟩
      rw [register_conns_of_ne hc, getElem?_insert_of_ne hw]
      exact inv w c before
  · rw [ht] at entry ⊢
    obtain ⟨entry, hc⟩ := onDisconnect_workers inv entry
    rw [Coordinator.onDisconnect_frame]
    simpa [hc] using inv w c entry
  · rw [workers] at entry
    rw [conns, lastBoot, closed]
    exact inv w c entry

/-- A rebound connection keeps an entry under an id it no longer goes by. -/
theorem Rebinds.inconsistent {s : System} {a : Step} (h : s.Rebinds a) :
    ¬ (s.step a).Consistent := by
  obtain ⟨cs, hello, w, r, entry, hw⟩ := h
  intro inv
  have kept : (s.step a).coord.workers[w]? = some cs := by
    rw [step_registers r, acceptHello_workers, getElem?_insert_of_ne hw]
    exact entry
  have id := (inv w cs kept).2.1
  rw [(registers_registry r).1, register_conns_self] at id
  exact hw id.symm

/-- The registry stays consistent, and only live connections block a boot, in exactly the runs in
which no HELLO is accepted on a connection that is still registered under another id. -/
theorem registry_consistent (steps : List Step) :
    Runs.Along step (fun s a => (s.step a).Consistent ∧ (s.step a).BlockedByLive) init steps ↔
      Runs.Along step (fun s a => ¬ s.Rebinds a) init steps := by
  constructor
  · intro h
    exact h.imp fun s a inv rebinds => rebinds.inconsistent inv.1
  · intro h
    exact Runs.along_of_invariant (I := Consistent) (fun _ _ inv h => inv.step h)
      (fun _ _ inv h => ⟨inv.step h, (inv.step h).blockedByLive⟩) consistent_init h

/-- A connection that takes a second worker id and then disconnects leaves the first id
registered, and the next boot of that worker is turned away. -/
def twoIdentities : List Step :=
  [helloOf 0 ⟨0, 1⟩ ⟨0, 1⟩, helloOf 0 ⟨0, 2⟩ ⟨0, 1⟩, .disconnect 0 fun _ => 0]

theorem twoIdentities_departed_registered :
    ¬ ∀ s, Reached s → s.Consistent ∧ s.BlockedByLive := by
  intro h
  have kept : (Runs.run step init twoIdentities).coord.workers[(⟨0, 1⟩ : WorkerId)]? = some 0 := by
    decide +kernel
  obtain ⟨_, _, _, up⟩ := (h _ (Runs.reachable_run twoIdentities)).1 _ _ kept
  cases up

end System

end Warmth
