import Warmth.Accounting

namespace Warmth

open Codec Std TreeMaps

/-- The id of the attempt that is issued after `k` others. -/
def attemptAt (k : Nat) : AttemptId := ⟨UInt64.ofNat (k + 1)⟩

theorem attemptAt_ne {j k : Nat} (h : j < k) (near : k < j + 2 ^ 64) : attemptAt j ≠ attemptAt k := by
  intro same
  have values := congrArg (fun a : AttemptId => a.value.toNat) same
  simp only [attemptAt, UInt64.toNat_ofNat'] at values
  omega

theorem AttemptInfo.held_nonzero {info : AttemptInfo} (h : info.reservationId ≠ 0) :
    (0 : UInt64) ∉ info.held := by
  unfold held
  intro zero
  rcases List.mem_cons.mp zero with zero | zero
  · exact h zero.symm
  · split at zero
    next op =>
      have none := List.mem_singleton.mp zero
      simp [← none] at op
    next => cases zero

namespace Coordinator

/-- After `n` attempts have been issued, however many that is, whatever is outstanding belongs to
an attempt in flight, issued so recently that its id has not come up again since. -/
structure Recent (c : Coordinator) (n : Nat) : Prop where
  unlimited : c.budget.limits = {}
  next : c.budget.takeId.1.toNat = 2 * n % idCycle + 1
  counter : (⟨c.attemptCounter⟩ : AttemptId) = attemptAt n
  nonzero : ∀ (a : AttemptId) info, c.inFlight[a]? = some info → info.reservationId ≠ 0
  owned : ∀ id ∈ c.budget.ids, ∃ d, d < 2 * n ∧ 2 * n ≤ d + idCycle ∧
    id.toNat = d % idCycle + 1 ∧ ∃ info, c.inFlight[attemptAt (d / 2)]? = some info ∧ id ∈ info.held

variable {c c' : Coordinator} {n : Nat}

theorem Recent.same (h : c.Recent n) (books : c.SameBooks c') : c'.Recent n := by
  obtain ⟨unlimited, next, counter, nonzero, owned⟩ := h
  constructor <;> simp only [books.budget, books.inFlight, books.attemptCounter] <;> assumption

/-- A section that releases what the attempts it takes out of flight hold. -/
theorem Recent.release (h : c.Recent n) {out : List UInt64} (zero : (0 : UInt64) ∉ out)
    (budget : c'.budget = (c.budget.releaseAll out).2)
    (fewer : ∀ (a : AttemptId) info, c'.inFlight[a]? = some info → c.inFlight[a]? = some info)
    (gone : ∀ (a : AttemptId) info, c.inFlight[a]? = some info →
      c'.inFlight[a]? = some info ∨ ∀ id ∈ info.held, id ∈ out)
    (counter : c'.attemptCounter = c.attemptCounter) : c'.Recent n := by
  have frame := BudgetTracker.releaseAll_frame c.budget out
  rw [← budget] at frame
  refine ⟨?_, ?_, ?_, fun a info ha => h.nonzero a info (fewer a info ha), fun id hid => ?_⟩
  · rw [frame]
    exact h.unlimited
  · have same : c'.budget.takeId.1 = c.budget.takeId.1 := by
      rw [frame]
      unfold BudgetTracker.takeId
      split <;> rfl
    rw [same]
    exact h.next
  · rw [counter]
    exact h.counter
  · rw [budget, BudgetTracker.mem_ids_releaseAll zero] at hid
    obtain ⟨d, low, high, value, info, entry, mem⟩ := h.owned id hid.1
    rcases gone _ info entry with kept | freed
    · exact ⟨d, low, high, value, info, kept, mem⟩
    · exact absurd (freed id mem) hid.2

theorem Recent.settle (h : c.Recent n) {a : AttemptId} {info : AttemptInfo}
    (ha : c.inFlight[a]? = some info) : (c.settle a info).1.Recent n := by
  refine h.release (AttemptInfo.held_nonzero (h.nonzero a info ha)) rfl ?_ ?_ rfl
  · intro b i hb
    exact (getElem?_erase_some hb).2
  · intro b i hb
    by_cases same : b = a
    · subst same
      rw [ha] at hb
      cases hb
      exact Or.inr fun id hid => hid
    · exact Or.inl ((getElem?_erase_of_ne same).trans hb)

theorem Recent.rollEpoch (h : c.Recent n) : c.rollEpoch.1.Recent n := by
  refine @Recent.release _ _ _ h c.held ?_ rfl ?_ ?_ rfl
  · intro zero
    obtain ⟨⟨a, info⟩, entry, mem⟩ := List.mem_flatMap.mp zero
    rw [ExtTreeMap.mem_toList_iff_getElem?_eq_some] at entry
    exact AttemptInfo.held_nonzero (h.nonzero a info entry) mem
  · intro a info ha
    cases ha
  · intro a info ha
    refine Or.inr fun id hid => List.mem_flatMap.mpr ⟨(a, info), ?_, hid⟩
    exact ExtTreeMap.mem_toList_iff_getElem?_eq_some.mpr ha

theorem Recent.reserve (h : c.Recent n) (kind : WarmthBudgetKind) {amount : UInt64}
    (positive : amount ≠ 0) (tag : CString) :
    c.budget.reserve kind amount tag =
      (c.budget.takeId.1, .none, c.budget.grant kind amount tag) := by
  have fits : c.budget.fits kind amount = true := by
    apply BudgetTracker.fits_unlimited
    rw [h.unlimited]
    cases kind <;> rfl
  rw [BudgetTracker.reserve_eq _ kind positive tag, fits]
  rfl

theorem Recent.issueWarm (h : c.Recent n) {object : WarmthObjectId} {action : WarmthAction}
    {preferred : Option WorkerId} {i : Issue}
    (issued : c.issueWarm object action preferred = (c', some i)) : c'.Recent (n + 1) := by
  obtain ⟨-, number, -, -, b, e₁, b', e₂, first, nonzero, second, rfl⟩ := issueWarm_some issued
  rw [h.reserve .deviceMemory (by decide) (text "warm"), Prod.mk.injEq, Prod.mk.injEq] at first
  obtain ⟨firstId, -, rfl⟩ := first
  have unlimited : (c.budget.grant .deviceMemory kDefaultWarmBytes (text "warm")).limits = {} := by
    rw [BudgetTracker.grant_limits, h.unlimited]
  have fits : (c.budget.grant .deviceMemory kDefaultWarmBytes (text "warm")).fits
      .concurrentWarmingOps 1 = true := BudgetTracker.fits_unlimited (by rw [unlimited]; rfl) 1
  rw [BudgetTracker.reserve_eq _ _ (by decide), fits, if_pos rfl, Prod.mk.injEq,
    Prod.mk.injEq] at second
  obtain ⟨secondId, -, rfl⟩ := second
  have one := h.next
  have two := BudgetTracker.grant_takeId_next one .deviceMemory kDefaultWarmBytes (text "warm")
  have three := BudgetTracker.grant_takeId_next two .concurrentWarmingOps 1 (text "warm")
  have held : i.info.held = [i.info.reservationId, i.info.opReservationId] := by
    have op : i.info.opReservationId ≠ 0 := by
      rw [← secondId]
      exact BudgetTracker.takeId_ne_zero _
    simp [AttemptInfo.held, op]
  have here : (c.inFlight.insert i.attempt i.info)[attemptAt n]? = some i.info := by
    rw [number, h.counter]
    exact ExtTreeMap.getElem?_insert_self
  refine ⟨?_, ?_, ?_, ?_, ?_⟩
  · rw [BudgetTracker.grant_limits, unlimited]
  · exact three
  · have counter := congrArg (fun a : AttemptId => a.value) h.counter
    simp only [attemptAt] at counter ⊢
    rw [counter, UInt64.ofNat_add (n + 1) 1]
    rfl
  · intro a info ha
    rcases getElem?_insert_some ha with ⟨-, rfl⟩ | ⟨-, old⟩
    · exact nonzero
    · exact h.nonzero a info old
  · intro id hid
    by_cases second : id = i.info.opReservationId
    · refine ⟨2 * n + 1, by omega, by unfold idCycle; omega, ?_, i.info, ?_, ?_⟩
      · rw [second, ← secondId, two]
      · rw [show (2 * n + 1) / 2 = n by omega]
        exact here
      · rw [held, second]
        simp
    · by_cases first : id = i.info.reservationId
      · refine ⟨2 * n, by omega, by unfold idCycle; omega, ?_, i.info, ?_, ?_⟩
        · rw [first, ← firstId, one]
        · rw [show 2 * n / 2 = n by omega]
          exact here
        · rw [held, first]
          simp
      · -- an older id is still in its window, for the two just handed out are not it
        have old : id ∈ c.budget.ids := by
          rw [BudgetTracker.mem_ids_grant, BudgetTracker.mem_ids_grant, secondId, firstId] at hid
          exact (hid.resolve_left second).resolve_left first
        obtain ⟨d, low, high, value, info, entry, mem⟩ := h.owned id old
        have apart₁ : d + idCycle ≠ 2 * n := by
          intro wrapped
          apply first
          rw [← firstId]
          apply UInt64.toNat_inj.mp
          rw [value, one, ← wrapped, Nat.add_mod_right]
        have apart₂ : d + idCycle ≠ 2 * n + 1 := by
          intro wrapped
          apply second
          rw [← secondId]
          apply UInt64.toNat_inj.mp
          rw [value, two, ← wrapped, Nat.add_mod_right]
        refine ⟨d, by omega, by omega, value, info, ?_, mem⟩
        have other : attemptAt (d / 2) ≠ i.attempt := by
          rw [number, h.counter]
          unfold idCycle at high
          exact attemptAt_ne (by omega) (by omega)
        exact (getElem?_insert_of_ne other).trans entry

theorem Recent.cleanup (h : c.Recent n) (a : AttemptId) : (c.cleanup a).1.Recent n := by
  unfold Coordinator.cleanup
  split
  next => exact h
  next info ha => exact h.settle ha

theorem recent_init : System.init.coord.Recent 0 := by
  refine ⟨rfl, rfl, rfl, ?_, ?_⟩
  · intro a info ha
    cases ha
  · intro id hid
    obtain ⟨r, hr⟩ := BudgetTracker.mem_ids.mp hid
    cases hr

/-- After a roll nothing is outstanding: whatever was belonged to an attempt then in flight. -/
theorem Recent.rolled_outstanding (h : c.Recent n) : c.rollEpoch.1.outstandingBudget = 0 := by
  have none : c.rollEpoch.1.budget.ids = [] := by
    apply List.eq_nil_iff_forall_not_mem.mpr
    intro id hid
    obtain ⟨d, -, -, -, info, entry, -⟩ := h.rollEpoch.owned id hid
    cases entry
  rw [outstandingBudget, BudgetTracker.outstanding_eq, none]
  rfl

end Coordinator

namespace System

theorem recent_step {s : System} (h : s.coord.Recent s.issues.length) (a : Step) :
    (s.step a).coord.Recent (s.step a).issues.length := by
  have stepped := stepped_step s a
  generalize s.step a = t at stepped
  cases stepped with
  | idle => exact h
  | hello => exact h.same (sameBooks_acceptHello _ _ _)
  | report => exact h.same (sameBooks_acceptReport _ _ _ _)
  | @result cs f now res info up type decoded accepted =>
    rw [issues_after]
    exact (h.settle (Coordinator.acceptedAttempt_inFlight accepted)).same
      (sameBooks_acceptResult s.coord cs res info now).1
  | disconnect => exact h.same (sameBooks_onDisconnect _ _ _)
  | refuse refusal =>
    rw [h.reserve .deviceMemory (by decide)] at refusal
    exact absurd (congrArg Prod.fst refusal) s.coord.budget.takeId_ne_zero
  | issue issued =>
    rw [issues_issue, List.length_cons]
    exact h.issueWarm issued
  | send | bumpWarmth | bumpDependency => exact h.same ⟨rfl, rfl, rfl, rfl⟩
  | @cleanup call w =>
    rw [issues_after]
    exact h.cleanup w.attempt
  | rollEpoch =>
    rw [issues_after]
    exact h.rollEpoch

theorem recent_of_reached {s : System} (h : Reached s) : s.coord.Recent s.issues.length :=
  Runs.reachable_invariant (I := fun s => s.coord.Recent s.issues.length)
    Coordinator.recent_init (fun _ a inv => recent_step inv a) h

/-- The step puts an attempt in flight under the id of one that still is. -/
def Reissues (s : System) (a : Step) : Prop :=
  ∃ object action preferred c i, a = .reserve object action preferred ∧
    s.coord.issueWarm object action preferred = (c, some i) ∧ i.attempt ∈ s.coord.inFlight

end System

namespace Coordinator

/-- The atomic counter never runs ahead of the attempts in flight. -/
def CountBounded (c : Coordinator) : Prop := c.inFlightCount.toNat ≤ c.inFlight.size

variable {c c' : Coordinator}

theorem CountBounded.same (h : c.CountBounded) (books : c.SameBooks c') : c'.CountBounded := by
  rwa [CountBounded, books.inFlightCount, books.inFlight]

theorem CountBounded.settle (h : c.CountBounded) {a : AttemptId} {info : AttemptInfo}
    (ha : c.inFlight[a]? = some info) : (c.settle a info).1.CountBounded := by
  have size := size_erase_of_some ha
  unfold CountBounded at h ⊢
  change (if 0 < c.inFlightCount then c.inFlightCount - 1 else c.inFlightCount).toNat ≤
    (c.inFlight.erase a).size
  split
  next positive =>
    rw [UInt64.lt_iff_toNat_lt, UInt64.toNat_zero] at positive
    rw [UInt64.toNat_sub_of_le _ _ (by rw [UInt64.le_iff_toNat_le, UInt64.toNat_one]; omega),
      UInt64.toNat_one]
    omega
  next zero =>
    rw [UInt64.lt_iff_toNat_lt, UInt64.toNat_zero] at zero
    omega

theorem CountBounded.rollEpoch (h : c.CountBounded) : c.rollEpoch.1.inFlightCount = 0 := by
  change (if c.inFlight.isEmpty then c.inFlightCount else 0) = 0
  split
  next none =>
    unfold CountBounded at h
    rw [ExtTreeMap.isEmpty_iff.mp none, ExtTreeMap.size_empty] at h
    apply UInt64.toNat_inj.mp
    rw [UInt64.toNat_zero]
    omega
  next => rfl

theorem CountBounded.issueWarm (h : c.CountBounded) {object : WarmthObjectId} {action : WarmthAction}
    {preferred : Option WorkerId} {i : Issue}
    (issued : c.issueWarm object action preferred = (c', some i)) (new : i.attempt ∉ c.inFlight) :
    c'.CountBounded := by
  rw [issueWarm_frame issued]
  unfold CountBounded at h ⊢
  have grown := size_insert_of_none (v := i.info) (ExtTreeMap.getElem?_eq_none new)
  have raised := Nat.mod_le (c.inFlightCount.toNat + 1) (2 ^ 64)
  change (c.inFlightCount + 1).toNat ≤ (c.inFlight.insert i.attempt i.info).size
  rw [grown, UInt64.toNat_add, UInt64.toNat_one]
  omega

end Coordinator

namespace System

theorem countBounded_step {s : System} (h : s.coord.CountBounded) {a : Step}
    (new : ¬s.Reissues a) : (s.step a).coord.CountBounded := by
  generalize ht : s.step a = t
  have stepped : Stepped s a t := ht ▸ stepped_step s a
  cases stepped with
  | idle => exact h
  | hello => exact h.same (sameBooks_acceptHello _ _ _)
  | report => exact h.same (sameBooks_acceptReport _ _ _ _)
  | @result cs f now res info up type decoded accepted =>
    exact (h.settle (Coordinator.acceptedAttempt_inFlight accepted)).same
      (sameBooks_acceptResult s.coord cs res info now).1
  | disconnect => exact h.same (sameBooks_onDisconnect _ _ _)
  | refuse | send | bumpWarmth | bumpDependency => exact h
  | @issue object action preferred c i issued =>
    exact h.issueWarm issued fun old => new ⟨object, action, preferred, c, i, rfl, issued, old⟩
  | @cleanup call w =>
    change (s.coord.cleanup w.attempt).1.CountBounded
    unfold Coordinator.cleanup
    split
    next => exact h
    next info ha => exact h.settle ha
  | rollEpoch =>
    change s.coord.rollEpoch.1.CountBounded
    rw [Coordinator.CountBounded, h.rollEpoch]
    exact Nat.zero_le _

theorem countBounded_run {steps : List Step}
    (new : Runs.Along step (fun s a => ¬s.Reissues a) init steps) :
    (Runs.run step init steps).coord.CountBounded :=
  Runs.invariant (I := fun s : System => s.coord.CountBounded)
    (fun _ _ inv fresh => countBounded_step inv fresh) (Nat.le_refl 0) new

end System

end Warmth
