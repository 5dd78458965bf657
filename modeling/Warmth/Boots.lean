import Warmth.SystemSteps

namespace Warmth

open Codec Std TreeMaps

namespace System

/-- The step is a HELLO `h` that is accepted on the connection `cs`. -/
inductive Registers (s : System) : Step → ConnId → Hello → Prop
  | hello {cs : ConnId} {f : Frame} {now : Nat → Timestamp} {h : Hello} (up : s.closed cs = false)
      (type : f.type = .hello) (decoded : decodePayload decodeHello f.payload = some h)
      (version : h.protocolVersion = kProtocolVersion) (noClash : s.coord.bootClash h = false) :
      Registers s (.frame cs f now) cs h

theorem Registers.frame {s : System} {a : Step} {cs : ConnId} {h : Hello}
    (r : s.Registers a cs h) : ∃ f now, a = .frame cs f now ∧ f.type = .hello := by
  cases r with
  | hello _ type => exact ⟨_, _, rfl, type⟩

theorem step_registers {s : System} {a : Step} {cs : ConnId} {h : Hello} (r : s.Registers a cs h) :
    (s.step a).coord = s.coord.acceptHello cs h := by
  cases r with
  | hello up type decoded version noClash =>
    simp only [step, up]
    exact Coordinator.handleFrame_hello type decoded version noClash cs _

theorem register_conns_self (c : Coordinator) (cs : ConnId) (h : Hello) :
    (c.register cs h).conns cs = ⟨h.worker, h.boot, h.node, true, h.backend⟩ := if_pos rfl

theorem register_conns_of_ne {c : Coordinator} {cs i : ConnId} (hne : i ≠ cs) (h : Hello) :
    (c.register cs h).conns i = c.conns i := if_neg hne

theorem registers_registry {s : System} {a : Step} {cs : ConnId} {h : Hello}
    (r : s.Registers a cs h) :
    (s.step a).coord.conns = (s.coord.register cs h).conns ∧
      (s.step a).coord.lastBoot = s.coord.lastBoot.insert h.worker h.boot := by
  rw [step_registers r, Coordinator.acceptHello_frame]
  exact ⟨rfl, rfl⟩

theorem step_registry {s : System} {a : Step} (h : ∀ cs h, ¬ s.Registers a cs h) :
    (s.step a).coord.conns = s.coord.conns ∧ (s.step a).coord.lastBoot = s.coord.lastBoot := by
  have stepped := stepped_step s a
  generalize s.step a = t at stepped
  cases stepped with
  | idle | refuse | send | rollEpoch | bumpWarmth | bumpDependency => exact ⟨rfl, rfl⟩
  | hello up type decoded version noClash =>
    exact absurd (.hello up type decoded version noClash) (h _ _)
  | report =>
    rw [Coordinator.acceptReport_frame]
    exact ⟨rfl, rfl⟩
  | result =>
    simp only [after, Coordinator.acceptResult]
    rw [Coordinator.applyResult_frame]
    exact ⟨rfl, rfl⟩
  | disconnect =>
    rw [Coordinator.onDisconnect_frame]
    exact ⟨rfl, rfl⟩
  | issue issued =>
    rw [Coordinator.issueWarm_frame issued]
    exact ⟨rfl, rfl⟩
  | cleanup =>
    simp only [after, Coordinator.cleanup]
    split <;> exact ⟨rfl, rfl⟩

/-- Connections close by `on_disconnect` alone. -/
theorem step_closed {s : System} {a : Step} {c : ConnId} (h : (s.step a).closed c = false) :
    s.closed c = false := by
  have stepped := stepped_step s a
  generalize s.step a = t at stepped h
  cases stepped with
  | disconnect =>
    simp only at h
    split at h
    · cases h
    · exact h
  | _ => exact h

def Serves (s : System) (c : ConnId) (w : WorkerId) : Prop :=
  s.closed c = false ∧ (s.coord.conns c).registered = true ∧ (s.coord.conns c).id = w

/-- The step is a HELLO accepted while another open connection of the worker has another boot. -/
def BringsRivalBoot (s : System) (a : Step) : Prop :=
  ∃ cs h c, s.Registers a cs h ∧ c ≠ cs ∧ s.Serves c h.worker ∧ (s.coord.conns c).boot ≠ h.boot

/-- Every open connection has the boot that was last accepted for its worker. -/
def BootsCurrent (s : System) : Prop :=
  ∀ c w, s.Serves c w → s.coord.lastBoot[w]? = some (s.coord.conns c).boot

theorem bootsCurrent_init : init.BootsCurrent := by
  intro c w h
  cases h.2.1

theorem BootsCurrent.step {s : System} {a : Step} (inv : s.BootsCurrent)
    (h : ¬ s.BringsRivalBoot a) : (s.step a).BootsCurrent := by
  intro c w ⟨up, registered, id⟩
  have up := step_closed up
  by_cases hr : ∃ cs h, s.Registers a cs h
  · obtain ⟨cs, hello, r⟩ := hr
    obtain ⟨conns, lastBoot⟩ := registers_registry r
    rw [conns] at registered id ⊢
    rw [lastBoot]
    by_cases hc : c = cs
    · subst hc
      rw [register_conns_self] at id ⊢
      subst id
      exact ExtTreeMap.getElem?_insert_self
    · rw [register_conns_of_ne hc] at registered id ⊢
      by_cases hw : w = hello.worker
      · subst hw
        have same : (s.coord.conns c).boot = hello.boot := by
          by_contra hne
          exact h ⟨cs, hello, c, r, hc, ⟨up, registered, id⟩, hne⟩
        rw [same]
        exact ExtTreeMap.getElem?_insert_self
      · rw [getElem?_insert_of_ne hw]
        exact inv c w ⟨up, registered, id⟩
  · obtain ⟨conns, lastBoot⟩ := step_registry fun cs h r => hr ⟨cs, h, r⟩
    rw [conns] at registered id ⊢
    rw [lastBoot]
    exact inv c w ⟨up, registered, id⟩

/-- A REPORT or WARM_RESULT changes objects, their owners, the attempts in flight or the budget
only when it comes over a connection with the boot last accepted for its worker. -/
def CurrentBootSpeaks (s : System) (a : Step) : Prop :=
  ∀ cs f now, a = .frame cs f now → (f.type = .report ∨ f.type = .warmResult) →
    (s.coord.conns cs).registered = true →
    ((s.step a).coord.objects ≠ s.coord.objects ∨
      (s.step a).coord.workerObjects ≠ s.coord.workerObjects ∨
      (s.step a).coord.inFlight ≠ s.coord.inFlight ∨
      (s.step a).coord.budget ≠ s.coord.budget) →
    s.coord.lastBoot[(s.coord.conns cs).id]? = some (s.coord.conns cs).boot

theorem BootsCurrent.speaks {s : System} (inv : s.BootsCurrent) (a : Step) :
    s.CurrentBootSpeaks a := by
  rintro cs f now rfl _ registered changed
  cases up : s.closed cs with
  | false => exact inv cs _ ⟨up, registered, rfl⟩
  | true =>
    have same : s.step (.frame cs f now) = s := by simp [System.step, up]
    rw [same] at changed
    simp at changed

/-- Only the current boot speaks for a worker, in every run in which no HELLO is accepted while
another open connection of its worker has another boot. -/
theorem current_boot_speaks {steps : List Step}
    (h : Runs.Along step (fun s a => ¬ s.BringsRivalBoot a) init steps) :
    Runs.Along step CurrentBootSpeaks init steps :=
  Runs.along_of_invariant (I := BootsCurrent) (fun _ _ inv h => inv.step h)
    (fun _ a inv _ => inv.speaks a) bootsCurrent_init h

def helloOf (cs : ConnId) (worker boot : Id128) : Step :=
  .frame cs (helloFrame { worker, boot }) fun _ => 0

def reportOf (cs : ConnId) (boot : Id128) (objects : List WarmthObject) : Step :=
  .frame cs (reportFrame { boot, objects }) fun _ => 0

theorem current_boot_speaks_report :
    Runs.Along step CurrentBootSpeaks init
      [helloOf 0 ⟨0, 1⟩ ⟨0, 1⟩, reportOf 0 ⟨0, 1⟩ [{ id := ⟨0, 9⟩ }]] := by
  apply current_boot_speaks
  refine ⟨?_, ?_, trivial⟩
  · rintro ⟨cs, h, c, _, _, ⟨_, registered, _⟩, _⟩
    cases registered
  · rintro ⟨cs, h, c, r, _⟩
    obtain ⟨_, _, he, type⟩ := r.frame
    cases he
    cases type

/-- Two connections of one boot; the second disconnects, which frees the worker id although the
first is still open, and a third takes the id with a new boot. -/
def threeConnections : List Step := [
  helloOf 0 ⟨0, 1⟩ ⟨0, 1⟩, helloOf 1 ⟨0, 1⟩ ⟨0, 1⟩, .disconnect 1 fun _ => 0,
  helloOf 2 ⟨0, 1⟩ ⟨0, 2⟩]

/-- The first connection still reports with the old boot. -/
theorem threeConnections_old_boot_speaks : ¬ ∀ s, Reached s → ∀ a, s.CurrentBootSpeaks a := by
  intro h
  have speaks := h _ (Runs.reachable_run threeConnections) (reportOf 0 ⟨0, 1⟩ [{ id := ⟨0, 9⟩ }])
    0 _ _ rfl (Or.inl rfl) (by decide) (Or.inl fun same => by
      have sizes := congrArg ExtTreeMap.size same
      revert sizes
      decide +kernel)
  revert speaks
  decide +kernel

end System

end Warmth
