import Warmth.SystemSteps

namespace Warmth

open Codec Std

/-- The (epoch, warmth_gen, dep_gen) that a REPORT or a WARM_RESULT carries. -/
def Frame.stamp (f : Frame) : Option (UInt64 × UInt64 × UInt64) :=
  match f.type with
  | .report =>
    (decodePayload decodeReport f.payload).map fun p => (p.epoch, p.warmthGen, p.depGen)
  | .warmResult =>
    (decodePayload decodeWarmResult f.payload).map fun r => (r.epoch, r.warmthGen, r.depGen)
  | _ => none

namespace Step

def raisesWarmth : Step → Bool
  | .rollEpoch | .bumpWarmthGeneration => true
  | _ => false

def raisesDependency : Step → Bool
  | .rollEpoch | .bumpDependencyGeneration => true
  | _ => false

def changesAuthority (a : Step) : Bool := a.raisesWarmth || a.raisesDependency

end Step

namespace Coordinator

/-- A frame stamped with anything but the current authority changes and settles nothing, and a
REPORT is answered with an ERROR. -/
def Rejects (c : Coordinator) (cs : ConnId) (f : Frame) (now : Nat → Timestamp) : Prop :=
  (c.handleFrame cs f now).1 = c ∧ (c.handleFrame cs f now).2.released = [] ∧
    (c.handleFrame cs f now).2.notify = false ∧
    (c.handleFrame cs f now).2.reply = if f.type = .report then some { type := .error } else none

theorem rejects_of_stamp {c : Coordinator} {f : Frame} {stamp : UInt64 × UInt64 × UInt64}
    (hs : f.stamp = some stamp) (stale : stamp ≠ c.authority) (cs : ConnId)
    (now : Nat → Timestamp) : c.Rejects cs f now := by
  unfold Frame.stamp at hs
  split at hs
  next ht =>
    obtain ⟨p, hp, rfl⟩ := Option.map_eq_some_iff.mp hs
    have rejected : c.reportRejected cs p = true := by
      by_contra hc
      simp only [reportRejected, Bool.or_eq_true, bne_iff_ne, not_or, Decidable.not_not] at hc
      exact stale (by simp [authority, hc.1.1.2, hc.1.2, hc.2])
    have same : c.handleFrame cs f now = (c, { reply := some { type := .error } }) := by
      simp only [handleFrame, ht, hp, handleReport, rejected, if_true]
    rw [Rejects, same]
    exact ⟨rfl, rfl, rfl, by rw [if_pos ht]⟩
  next ht =>
    obtain ⟨r, hr, rfl⟩ := Option.map_eq_some_iff.mp hs
    have notCurrent : c.resultCurrent cs r = false := by
      by_contra hc
      simp only [resultCurrent, Bool.not_eq_false, Bool.and_eq_true, beq_iff_eq] at hc
      exact stale (by simp [authority, hc.1.1.2, hc.1.2, hc.2])
    have same : c.handleFrame cs f now = (c, {}) := by
      simp only [handleFrame, ht, hr, handleWarmResult, acceptedAttempt, notCurrent]
      rfl
    rw [Rejects, same]
    exact ⟨rfl, rfl, rfl, by simp [ht]⟩
  next => cases hs

end Coordinator

namespace System

theorem step_authority {s : System} {a : Step} (h : a.changesAuthority = false) :
    (s.step a).coord.authority = s.coord.authority := by
  have stepped := stepped_step s a
  generalize s.step a = t at stepped
  cases stepped with
  | idle | refuse | send => rfl
  | hello =>
    rw [Coordinator.acceptHello_frame]
    rfl
  | report =>
    rw [Coordinator.acceptReport_frame]
    rfl
  | result =>
    simp only [after, Coordinator.acceptResult]
    rw [Coordinator.applyResult_frame]
    rfl
  | disconnect =>
    rw [Coordinator.onDisconnect_frame]
    rfl
  | issue issued =>
    rw [Coordinator.issueWarm_frame issued]
    rfl
  | cleanup =>
    simp only [after, Coordinator.cleanup]
    split <;> rfl
  | rollEpoch | bumpWarmth | bumpDependency => cases h

theorem step_generations (s : System) (a : Step) :
    (s.step a).coord.warmthGenValue = s.coord.warmthGenValue + (if a.raisesWarmth then 1 else 0) ∧
    (s.step a).coord.depGenValue = s.coord.depGenValue + (if a.raisesDependency then 1 else 0) := by
  cases hc : a.changesAuthority with
  | false =>
    have same := step_authority (s := s) hc
    simp only [Coordinator.authority, Prod.mk.injEq] at same
    simp only [Step.changesAuthority, Bool.or_eq_false_iff] at hc
    simp [same, hc]
  | true =>
    cases a with
    | rollEpoch => exact ⟨rfl, rfl⟩
    | bumpWarmthGeneration => exact ⟨rfl, (UInt64.add_zero s.coord.depGenValue).symm⟩
    | bumpDependencyGeneration => exact ⟨(UInt64.add_zero s.coord.warmthGenValue).symm, rfl⟩
    | _ => cases hc

/-- Along a run the generations count the operations that raise them, modulo 2^64. -/
theorem run_generations (s : System) (steps : List Step) :
    (Runs.run step s steps).coord.warmthGenValue =
      s.coord.warmthGenValue + UInt64.ofNat (steps.countP Step.raisesWarmth) ∧
    (Runs.run step s steps).coord.depGenValue =
      s.coord.depGenValue + UInt64.ofNat (steps.countP Step.raisesDependency) := by
  induction steps generalizing s with
  | nil => simp
  | cons a steps ih =>
    have hs := step_generations s a
    obtain ⟨hw, hd⟩ := ih (s.step a)
    rw [Runs.run_cons, hw, hd, hs.1, hs.2, List.countP_cons, List.countP_cons]
    constructor
    · cases a.raisesWarmth
      · simp
      · simp [UInt64.ofNat_add, UInt64.add_assoc, UInt64.add_comm]
    · cases a.raisesDependency
      · simp
      · simp [UInt64.ofNat_add, UInt64.add_assoc, UInt64.add_comm]

/-- The frame at position `i` carries an authority that was current at a position `j` before an
authority operation at a position `k` before the frame. -/
def StaleAt (steps : List Step) (i : Nat) : Prop :=
  ∃ cs f now, steps[i]? = some (.frame cs f now) ∧
    ∃ k op, k < i ∧ steps[k]? = some op ∧ op.changesAuthority = true ∧
      ∃ j ≤ k, f.stamp = some (Runs.run step init (steps.take j)).coord.authority

theorem countP_take_le (p : Step → Bool) (steps : List Step) {i j : Nat} (h : i ≤ j) :
    (steps.take i).countP p ≤ (steps.take j).countP p :=
  (List.take_sublist_take_left h).countP_le

/-- The authority never returns: after an authority operation it differs from every earlier one. -/
theorem authority_never_returns {steps : List Step}
    (few : steps.countP Step.changesAuthority < 2 ^ 64 - 1) {i j k : Nat} {op : Step}
    (hjk : j ≤ k) (hki : k < i) (hop : steps[k]? = some op) (hc : op.changesAuthority = true) :
    (Runs.run step init (steps.take j)).coord.authority ≠
      (Runs.run step init (steps.take i)).coord.authority := by
  have bound : ∀ (p : Step → Bool), (∀ a, p a = true → a.changesAuthority = true) → ∀ n,
      (steps.take n).countP p < 2 ^ 64 := by
    intro p hp n
    have h₁ : (steps.take n).countP p ≤ steps.countP p := (List.take_sublist n steps).countP_le
    have h₂ : steps.countP p ≤ steps.countP Step.changesAuthority :=
      List.countP_mono_left fun a _ => hp a
    omega
  have grows : ∀ p : Step → Bool, p op = true →
      (steps.take j).countP p < (steps.take i).countP p := by
    intro p hp
    have h₁ := countP_take_le p steps hjk
    have h₂ := countP_take_le p steps (Nat.succ_le_of_lt hki)
    rw [List.take_add_one, hop, Option.toList_some, List.countP_append,
      List.countP_singleton, if_pos hp] at h₂
    omega
  intro he
  simp only [Coordinator.authority, Prod.mk.injEq, run_generations] at he
  have apart : ∀ (g : UInt64) (p : Step → Bool), (∀ a, p a = true → a.changesAuthority = true) →
      p op = true → g + UInt64.ofNat ((steps.take j).countP p) ≠
        g + UInt64.ofNat ((steps.take i).countP p) := by
    intro g p hp hpo heq
    have heq := congrArg UInt64.toNat ((UInt64.add_right_inj g).mp heq)
    rw [UInt64.toNat_ofNat_of_lt' (bound p hp j), UInt64.toNat_ofNat_of_lt' (bound p hp i)] at heq
    exact absurd heq (Nat.ne_of_lt (grows p hpo))
  rcases Bool.or_eq_true_iff.mp hc with hw | hd
  · exact apart _ Step.raisesWarmth (fun a h => by simp [Step.changesAuthority, h]) hw he.2.1
  · exact apart _ Step.raisesDependency (fun a h => by simp [Step.changesAuthority, h]) hd he.2.2

theorem step_of_rejects {s : System} {cs : ConnId} {f : Frame} {now : Nat → Timestamp}
    (h : s.coord.Rejects cs f now) : s.step (.frame cs f now) = s := by
  simp only [step]
  split
  · rfl
  · simp only [after, record, h.1, h.2.1]
    rfl

/-- Stale authority is inert. In a run with fewer than 2^64 - 1 authority operations, a REPORT or
WARM_RESULT whose authority was current only before one of them is rejected wherever it arrives
later, and leaving any set of such frames out of the run leads to the same state. -/
theorem stale_authority_inert {steps : List Step}
    (few : steps.countP Step.changesAuthority < 2 ^ 64 - 1) :
    (∀ i j k op f, j ≤ k → k < i → steps[k]? = some op → op.changesAuthority = true →
      f.stamp = some (Runs.run step init (steps.take j)).coord.authority →
      ∀ cs now, (Runs.run step init (steps.take i)).coord.Rejects cs f now) ∧
    ∀ drop : Nat → Bool, (∀ i, drop i = true → StaleAt steps i) →
      Runs.run step init (Runs.leaveOut drop steps) = Runs.run step init steps := by
  have rejected : ∀ i j k op f, j ≤ k → k < i → steps[k]? = some op →
      op.changesAuthority = true →
      f.stamp = some (Runs.run step init (steps.take j)).coord.authority →
      ∀ cs now, (Runs.run step init (steps.take i)).coord.Rejects cs f now :=
    fun i j k op f hjk hki hop hc hs =>
      Coordinator.rejects_of_stamp hs (authority_never_returns few hjk hki hop hc)
  refine ⟨rejected, fun drop hdrop => Runs.run_leaveOut ?_⟩
  intro i a hd ha
  obtain ⟨cs, f, now, hi, k, op, hki, hop, hc, j, hjk, hs⟩ := hdrop i hd
  rw [hi] at ha
  cases ha
  exact step_of_rejects (rejected i j k op f hjk hki hop hc hs cs now)

def lateReport : List Step := [
  .frame 0 (helloFrame { worker := ⟨0, 1⟩, boot := ⟨0, 1⟩ }) fun _ => 0,
  .rollEpoch,
  .frame 0 (reportFrame { boot := ⟨0, 1⟩, objects := [{ id := ⟨0, 9⟩ }] }) fun _ => 0]

theorem stale_authority_inert_lateReport :
    Runs.run step init (Runs.leaveOut (· == 2) lateReport) = Runs.run step init lateReport := by
  refine (stale_authority_inert (by decide)).2 (· == 2) fun i hi => ?_
  cases eq_of_beq hi
  exact ⟨0, _, _, rfl, 1, .rollEpoch, by decide, rfl, rfl, 1, by decide, by decide +kernel⟩

end System

end Warmth
