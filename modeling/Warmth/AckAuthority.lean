import Warmth.Runs
import Warmth.StaleAuthority
import Warmth.Threads

namespace Warmth

open Codec Std

def HelloAck.authority (a : HelloAck) : UInt64 × UInt64 × UInt64 := (a.epoch, a.warmthGen, a.depGen)

namespace Threads

open Function

/-- Every accepted acknowledgement that is about to be sent carries the authority as it stood at
one moment at which the mutex was free. -/
def AcksGenuine (s : Threads) : Prop :=
  ∀ cs ack, s.handlers cs = some (.acknowledging ack .loaded) → ack.accepted = true →
    ack.authority ∈ s.instants

/-- The last load of an accepting HELLO handler when a store of `roll_epoch` has come between its
loads, or a raised dependency generation after a raised warmth generation. -/
def Tears (s : Threads) : ThreadStep → Prop
  | .load cs => ∃ ack x y b, s.handlers cs = some (.acknowledging ack (.warmthLoaded x y b)) ∧
      ack.accepted = true ∧ ¬ (x = s.rolls ∧ y = s.rolls ∧ b ≠ .crossed)
  | _ => False

/-- A load that has seen one more roll than is complete has seen the one in progress. -/
def EpochFits (s : Threads) (ack : HelloAck) (x : Nat) : Prop :=
  (x = s.rolls → ack.epoch = s.sys.coord.epoch.value) ∧
    (s.rolls < x → x = s.rolls + 1 ∧ s.rolling ≠ none ∧ ack.epoch = s.sys.coord.epoch.next.value)

def WarmthFits (s : Threads) (ack : HelloAck) (x : Nat) (b : Between) : Prop :=
  (x = s.rolls → ack.epoch = s.sys.coord.epoch.value ∧
    (b = .still → ack.warmthGen = s.sys.coord.warmthGenValue) ∧
    (b = .raised → (ack.epoch, ack.warmthGen, s.sys.coord.depGenValue) ∈ s.instants)) ∧
  (s.rolls < x → x = s.rolls + 1 ∧ s.rolling = some .warmthStored ∧ b = .still ∧
    ack.epoch = s.sys.coord.epoch.next.value ∧ ack.warmthGen = s.sys.coord.warmthGenValue + 1)

/-- What the values loaded so far have to do with the authority. -/
def Fits (s : Threads) (ack : HelloAck) : LoadPhase → Prop
  | .locked => True
  | .epochLoaded x => s.EpochFits ack x
  | .warmthLoaded x y b => x = y → s.WarmthFits ack x b
  | .loaded => ack.accepted = true → ack.authority ∈ s.instants

structure Loads (s : Threads) : Prop where
  current : s.sys.coord.authority ∈ s.instants
  fits : ∀ cs ack phase, s.handlers cs = some (.acknowledging ack phase) → s.Fits ack phase

theorem Loads.genuine {s : Threads} (inv : s.Loads) : s.AcksGenuine :=
  fun cs ack loaded => inv.fits cs ack .loaded loaded

theorem Fits.congr {s t : Threads} {ack : HelloAck} {phase : LoadPhase} (h : s.Fits ack phase)
    (authority : t.sys.coord.authority = s.sys.coord.authority) (rolls : t.rolls = s.rolls)
    (rolling : t.rolling = s.rolling) (instants : s.instants ⊆ t.instants) : t.Fits ack phase := by
  simp only [Coordinator.authority, Prod.mk.injEq] at authority
  obtain ⟨value, warmth, dep⟩ := authority
  have epoch : t.sys.coord.epoch = s.sys.coord.epoch := congrArg BasicGeneration.mk value
  cases phase with
  | locked => trivial
  | epochLoaded x =>
    simp only [Fits, EpochFits, epoch, rolls, rolling]
    exact h
  | warmthLoaded x y b =>
    intro same
    obtain ⟨now, next⟩ := h same
    simp only [WarmthFits, epoch, rolls, rolling, warmth, dep]
    refine ⟨fun hx => ?_, next⟩
    obtain ⟨he, hs, hr⟩ := now hx
    exact ⟨he, hs, fun hb => instants (hr hb)⟩
  | loaded => exact fun accepted => instants (h accepted)

theorem note_instants (s : Threads) : s.instants ⊆ s.note.instants := by
  unfold note
  split
  · exact List.subset_cons_self _ _
  · exact fun _ h => h

theorem Loads.note {s : Threads} (current : s.rolling ≠ none → s.sys.coord.authority ∈ s.instants)
    (fits : ∀ cs ack phase, s.handlers cs = some (.acknowledging ack phase) → s.Fits ack phase) :
    s.note.Loads := by
  have instants := note_instants s
  unfold Threads.note at instants ⊢
  split at instants
  next free =>
    rw [if_pos free]
    exact ⟨List.mem_cons_self, fun cs ack phase h => (fits cs ack phase h).congr rfl rfl rfl instants⟩
  next held =>
    rw [if_neg held]
    exact ⟨current (by simpa using held), fits⟩

/-- The value the next load reads goes with the values loaded before. -/
theorem Loads.load {s : Threads} {cs : ConnId} {ack : HelloAck} {phase : LoadPhase} (inv : s.Loads)
    (pending : s.handlers cs = some (.acknowledging ack phase)) (whole : ¬ s.Tears (.load cs))
    {ack' : HelloAck} {phase' : LoadPhase}
    (loaded : s.loadNext ack phase = .acknowledging ack' phase') : s.Fits ack' phase' := by
  have before := inv.fits cs ack phase pending
  have current := inv.current
  cases phase with
  | locked =>
    cases loaded
    simp only [Fits, EpochFits, epochRolls, visible]
    cases s.rolling with
    | none => simp [Coordinator.authority]
    | some p => cases p <;> simp
  | epochLoaded x =>
    cases loaded
    rintro rfl
    obtain ⟨now, next⟩ := before
    simp only [WarmthFits, warmthRolls, visible] at now next ⊢
    cases hr : s.rolling with
    | none =>
      rw [hr] at now
      exact ⟨fun hx => ⟨now hx, fun _ => rfl, fun h => by cases h⟩, fun lt => absurd lt (Nat.lt_irrefl _)⟩
    | some p =>
      cases p with
      | epochStored =>
        rw [hr] at now
        exact ⟨fun hx => ⟨now hx, fun _ => rfl, fun h => by cases h⟩, fun lt => absurd lt (Nat.lt_irrefl _)⟩
      | warmthStored =>
        rw [hr] at next
        obtain ⟨-, -, epoch⟩ := next (Nat.lt_succ_self _)
        exact ⟨fun hx => absurd hx (Nat.succ_ne_self _), fun _ => ⟨rfl, rfl, trivial, epoch, rfl⟩⟩
  | warmthLoaded x y b =>
    cases loaded
    intro accepted
    have whole : x = s.rolls ∧ y = s.rolls ∧ b ≠ .crossed := by
      by_contra torn
      exact whole ⟨ack, x, y, b, pending, accepted, torn⟩
    obtain ⟨hx, hy, uncrossed⟩ := whole
    obtain ⟨epoch, still, raised⟩ := (before (hx.trans hy.symm)).1 hx
    have dep : s.visible.2.2 = s.sys.coord.depGenValue := by
      unfold visible
      split <;> rfl
    simp only [HelloAck.authority, dep]
    cases b with
    | still =>
      rw [epoch, still rfl]
      exact current
    | raised => exact raised rfl
    | crossed => exact absurd rfl uncrossed
  | loaded =>
    cases loaded
    exact before

theorem mapBetween_inv {g : Between → Between} {h : Option Handler} {ack : HelloAck}
    {phase : LoadPhase} (hm : h.map (Handler.mapBetween g) = some (.acknowledging ack phase)) :
    ∃ before, h = some (.acknowledging ack before) ∧ phase = before.mapBetween g := by
  obtain ⟨h, rfl, hm⟩ := Option.map_eq_some_iff.mp hm
  cases h with
  | replying f => cases hm
  | acknowledging ack before =>
    cases hm
    exact ⟨before, rfl, rfl⟩

/-- Of the steps that leave the mutex taken none has raised a generation yet. -/
theorem Acted.authority {s t : Threads} {a : ThreadStep} (acted : s.Acted a t)
    (held : t.rolling ≠ none) : t.sys.coord.authority = s.sys.coord.authority := by
  cases acted with
  | receive | disconnect | refuse | issue | cleanup => exact System.step_authority rfl
  | reply => unfold put; split <;> rfl
  | send => unfold put; split <;> exact System.step_authority rfl
  | rollEpoch => exact absurd rfl held
  | bumpWarmth free => exact absurd free held
  | bumpDependency free => exact absurd free held
  | idle | load | storeEpoch | storeWarmth => rfl

theorem Acted.instants {s t : Threads} {a : ThreadStep} (acted : s.Acted a t) :
    t.instants = s.instants := by
  cases acted with
  | reply | send => unfold put; split <;> rfl
  | _ => rfl

theorem handlerOf_locked {c : Coordinator} {cs : ConnId} {f : Frame} {now : Nat → Timestamp}
    {ack : HelloAck} {phase : LoadPhase}
    (h : c.handlerOf cs f now = some (.acknowledging ack phase)) : phase = .locked := by
  unfold Coordinator.handlerOf at h
  split at h
  · cases h
    rfl
  · obtain ⟨f, -, hf⟩ := Option.map_eq_some_iff.mp h
    cases hf

section
variable {s : Threads} {ack : HelloAck} {phase : LoadPhase}

theorem Fits.storeEpoch (h : s.Fits ack phase) (free : s.rolling = none) :
    Fits { s with rolling := some .epochStored } ack phase := by
  cases phase with
  | epochLoaded x => exact ⟨h.1, fun lt => absurd free (h.2 lt).2.1⟩
  | warmthLoaded x y b =>
    intro same
    obtain ⟨now, next⟩ := h same
    exact ⟨now, fun lt => absurd (free.symm.trans (next lt).2.1) nofun⟩
  | locked | loaded => exact h

theorem Fits.storeWarmth (h : s.Fits ack phase) (stored : s.rolling = some .epochStored) :
    Fits { s with rolling := some .warmthStored } ack phase := by
  cases phase with
  | epochLoaded x => exact ⟨h.1, fun lt => ⟨(h.2 lt).1, nofun, (h.2 lt).2.2⟩⟩
  | warmthLoaded x y b =>
    intro same
    obtain ⟨now, next⟩ := h same
    exact ⟨now, fun lt => absurd (stored.symm.trans (next lt).2.1) nofun⟩
  | locked | loaded => exact h

/-- What was loaded in the middle of the roll fits the authority after it. -/
theorem Fits.rollEpoch (h : s.Fits ack phase) :
    Fits { s with sys := s.sys.step .rollEpoch, rolling := none, rolls := s.rolls + 1 } ack phase := by
  cases phase with
  | epochLoaded x =>
    refine ⟨?_, fun lt => ?_⟩
    · rintro rfl
      exact (h.2 (Nat.lt_succ_self _)).2.2
    · have := (h.2 (Nat.lt_of_succ_lt lt)).1
      exact absurd lt (by simp [this])
  | warmthLoaded x y b =>
    intro same
    obtain ⟨now, next⟩ := h same
    refine ⟨?_, fun lt => ?_⟩
    · rintro rfl
      obtain ⟨-, -, rfl, epoch, warmth⟩ := next (Nat.lt_succ_self _)
      exact ⟨epoch, fun _ => warmth, nofun⟩
    · have := (next (Nat.lt_of_succ_lt lt)).1
      exact absurd lt (by simp [this])
  | locked | loaded => exact h

theorem Fits.bumpWarmth (h : s.Fits ack phase) (current : s.sys.coord.authority ∈ s.instants)
    (free : s.rolling = none) :
    Fits ({ s with sys := s.sys.step .bumpWarmthGeneration }.mapBetween .onWarmth) ack
      (phase.mapBetween .onWarmth) := by
  cases phase with
  | warmthLoaded x y b =>
    intro same
    obtain ⟨now, next⟩ := h same
    refine ⟨fun hx => ?_, fun lt => absurd (free.symm.trans (next lt).2.1) nofun⟩
    obtain ⟨epoch, still, raised⟩ := now hx
    refine ⟨epoch, ?_, ?_⟩
    · cases b <;> nofun
    · intro hb
      cases b with
      | still =>
        -- the authority before the bump is the moment the two loads and the next one share
        rw [epoch, still rfl]
        exact current
      | raised => exact raised rfl
      | crossed => cases hb
  | locked | epochLoaded | loaded => exact h

theorem Fits.bumpDependency (h : s.Fits ack phase) (free : s.rolling = none) :
    Fits ({ s with sys := s.sys.step .bumpDependencyGeneration }.mapBetween .onDependency) ack
      (phase.mapBetween .onDependency) := by
  cases phase with
  | warmthLoaded x y b =>
    intro same
    obtain ⟨now, next⟩ := h same
    refine ⟨fun hx => ?_, fun lt => absurd (free.symm.trans (next lt).2.1) nofun⟩
    obtain ⟨epoch, still, raised⟩ := now hx
    refine ⟨epoch, ?_, ?_⟩
    · intro hb
      cases b with
      | still => exact still rfl
      | raised | crossed => cases hb
    · cases b <;> nofun
  | locked | epochLoaded | loaded => exact h

end

/-- After a step the values loaded so far fit the authority. -/
theorem Loads.acted {s t : Threads} {a : ThreadStep} (inv : s.Loads) (acted : s.Acted a t)
    (whole : ¬ s.Tears a) {cs : ConnId} {ack : HelloAck} {phase : LoadPhase}
    (h : t.handlers cs = some (.acknowledging ack phase)) : t.Fits ack phase := by
  have instants : s.instants ⊆ t.instants := by rw [acted.instants]; exact fun _ h => h
  cases acted with
  | idle => exact inv.fits cs ack phase h
  | @receive cs' f now up reading free =>
    by_cases hc : cs = cs'
    · subst hc
      simp only [receive, update_self] at h
      cases handlerOf_locked h
      trivial
    · simp only [receive, update_of_ne hc] at h
      exact (inv.fits cs ack phase h).congr (System.step_authority rfl) rfl rfl instants
  | @load cs' ack' phase' pending =>
    by_cases hc : cs = cs'
    · subst hc
      simp only [update_self, Option.some.injEq] at h
      exact (inv.load pending whole h).congr rfl rfl rfl instants
    · simp only [update_of_ne hc] at h
      exact (inv.fits cs ack phase h).congr rfl rfl rfl instants
  | @reply cs' sent _ f pending made =>
    have kept : s.handlers cs = some (.acknowledging ack phase) := by
      by_cases hc : cs = cs'
      · subst hc
        simp only [update_self] at h
        cases h
      · simpa only [update_of_ne hc] using h
    refine (inv.fits cs ack phase kept).congr ?_ ?_ ?_ instants <;> unfold put <;> split <;> rfl
  | send =>
    have kept : s.handlers cs = some (.acknowledging ack phase) := by
      revert h; unfold put; split <;> exact id
    refine (inv.fits cs ack phase kept).congr (System.step_authority rfl) ?_ ?_ instants <;>
      unfold put <;> split <;> rfl
  | disconnect | refuse | issue | cleanup =>
    exact (inv.fits cs ack phase h).congr (System.step_authority rfl) rfl rfl instants
  | storeEpoch free => exact (inv.fits cs ack phase h).storeEpoch free
  | storeWarmth stored => exact (inv.fits cs ack phase h).storeWarmth stored
  | rollEpoch => exact (inv.fits cs ack phase h).rollEpoch
  | bumpWarmth free =>
    obtain ⟨before, pending, rfl⟩ := mapBetween_inv h
    exact (inv.fits cs ack before pending).bumpWarmth inv.current free
  | bumpDependency free =>
    obtain ⟨before, pending, rfl⟩ := mapBetween_inv h
    exact (inv.fits cs ack before pending).bumpDependency free

theorem Loads.step {s : Threads} {a : ThreadStep} (inv : s.Loads) (whole : ¬ s.Tears a) :
    (s.step a).Loads := by
  have acted := acted_act s a
  refine Loads.note (fun held => ?_) fun cs ack phase => inv.acted acted whole
  rw [acted.authority held, acted.instants]
  exact inv.current

theorem loads_init : init.Loads := ⟨List.mem_cons_self, fun _ _ _ h => nomatch h⟩

/-- In every run in which no HELLO handler's loads are torn, every acknowledged authority is one
that was in force at a single moment. -/
theorem acknowledged_authority_genuine {steps : List ThreadStep}
    (h : Runs.Along step (fun s a => ¬ s.Tears a) init steps) :
    (Runs.run step init steps).AcksGenuine :=
  (Runs.invariant (I := Loads) (fun _ _ inv whole => inv.step whole) loads_init h).genuine

def helloOf (cs : ConnId) (worker boot : Id128) : ThreadStep :=
  .frame cs (helloFrame { worker, boot }) fun _ => 0

/-- The warmth generation is raised between the second load and the third. -/
def bumpedBetween : List ThreadStep :=
  [helloOf 0 ⟨0, 1⟩ ⟨0, 1⟩, .load 0, .load 0, .bumpWarmthGeneration, .load 0]

theorem acknowledged_authority_genuine_bumped :
    (Runs.run step init bumpedBetween).AcksGenuine := by
  apply acknowledged_authority_genuine
  refine ⟨nofun, ?_, ?_, nofun, ?_, trivial⟩
  · rintro ⟨ack, x, y, b, pending, -, -⟩
    have locked : (step init (helloOf 0 ⟨0, 1⟩ ⟨0, 1⟩)).handlers 0 =
        some (.acknowledging { accepted := true } .locked) := by decide +kernel
    rw [locked] at pending
    cases pending
  · rintro ⟨ack, x, y, b, pending, -, -⟩
    have locked : (Runs.run step init (bumpedBetween.take 2)).handlers 0 =
        some (.acknowledging { accepted := true } (.epochLoaded 0)) := by decide +kernel
    cases locked.symm.trans pending
  · rintro ⟨ack, x, y, b, pending, -, torn⟩
    have loaded : (Runs.run step init (bumpedBetween.take 4)).handlers 0 =
        some (.acknowledging { accepted := true } (.warmthLoaded 0 0 .raised)) := by decide +kernel
    cases loaded.symm.trans pending
    exact torn ⟨rfl, rfl, nofun⟩

/-- A whole roll between the first load and the second. -/
def rolledBetween : List ThreadStep :=
  [helloOf 0 ⟨0, 1⟩ ⟨0, 1⟩, .load 0, .rollEpoch, .rollEpoch, .rollEpoch, .load 0, .load 0]

theorem rolledBetween_torn : ¬ ∀ s, Runs.Reachable step init s → s.AcksGenuine := by
  intro h
  have loaded : (Runs.run step init rolledBetween).handlers 0 =
      some (.acknowledging
        { accepted := true, epoch := 0, warmthGen := 1, depGen := 1, policyGen := 1 } .loaded) := by
    decide +kernel
  have genuine := h _ (Runs.reachable_run rolledBetween) 0 _ loaded rfl
  revert genuine
  decide +kernel

end Threads

end Warmth
