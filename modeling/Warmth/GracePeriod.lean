import Warmth.DecaySteps

namespace Warmth

open Runs Std

namespace Sweep

/-- The sweep turns an object in this state STALE, by a trigger or by idleness. -/
def makesStale (s : Sweep) (policy : DecayPolicy) (o : WarmthObject) : Prop :=
  undecaying o.state = false ∧ o.state ≠ .stale ∧
    (s.triggered policy = true ∨
      o.state = .warm ∧ s.pressed policy = false ∧
        Double.zero.lt policy.warmToStaleIdleSeconds = true ∧
        policy.warmToStaleIdleSeconds.le (o.idleSeconds s.now) = true)

/-- The sweep invalidates the object if it is STALE. -/
def expires (s : Sweep) (policy : DecayPolicy) (o : WarmthObject) : Bool :=
  !s.triggered policy && s.lapsed policy o

end Sweep

namespace WarmthFabric

def stateOf (f : WarmthFabric) (id : WarmthObjectId) : Option WarmthState :=
  f.objects[id]?.map WarmthObject.state

/-- Whenever one sweep makes the object STALE and a later one INVALIDATED, the time between the
two is no shorter than `stale_to_invalidated_seconds`. -/
def GraceKept (f : WarmthFabric) (id : WarmthObjectId) (sweeps : List Sweep) : Prop :=
  ∀ (before between after : List Sweep) (entering leaving : Sweep) (s : WarmthState),
    sweeps = before ++ entering :: (between ++ leaving :: after) →
    (run sweep f before).stateOf id = some s → s ≠ .stale →
    (run sweep f (before ++ [entering])).stateOf id = some .stale →
    (run sweep f (before ++ entering :: between)).stateOf id = some .stale →
    (run sweep f (before ++ entering :: (between ++ [leaving]))).stateOf id = some .invalidated →
    f.cfg.policy.decay.staleToInvalidatedSeconds.le
      (elapsedSeconds entering.now leaving.now) = true

/-- The first sweep without a trigger that finds a STALE object unused for
`stale_to_invalidated_seconds` comes that long after the sweep that made it STALE. -/
def IdleStartsOver (f : WarmthFabric) (id : WarmthObjectId) (sweeps : List Sweep) : Prop :=
  ∀ (before between after : List Sweep) (entering leaving : Sweep) (o : WarmthObject),
    sweeps = before ++ entering :: (between ++ leaving :: after) →
    (run sweep f before).objects[id]? = some o →
    entering.makesStale f.cfg.policy.decay o →
    (∀ s ∈ between, s.expires f.cfg.policy.decay o = false) →
    leaving.expires f.cfg.policy.decay o = true →
    f.cfg.policy.decay.staleToInvalidatedSeconds.le
      (elapsedSeconds entering.now leaving.now) = true

end WarmthFabric

theorem swept_stale_iff {policy : DecayPolicy} {o : WarmthObject} {s : Sweep}
    (fresh : o.state ≠ .stale) :
    (o.swept policy s).state = .stale ↔ s.makesStale policy o := by
  rw [swept_state]
  unfold Sweep.makesStale
  cases live : undecaying o.state with
  | true =>
    rw [decay_undecaying s policy live]
    simp [fresh]
  | false =>
    cases asked : s.triggered policy with
    | true =>
      obtain ⟨reason, result⟩ := decay_triggered live asked
      rw [result, staleDecay, if_pos fresh]
      simp [fresh]
    | false =>
      rw [decay_untriggered live asked, unaskedDecay_stale_iff fresh]
      simp [fresh]

/-- What makes a sweep expire an object is the object's last use, which sweeps leave alone. -/
theorem swept_expires (policy : DecayPolicy) (o : WarmthObject) (s t : Sweep) :
    t.expires policy (o.swept policy s) = t.expires policy o := by
  obtain ⟨used, prepared⟩ := swept_baseline policy o s
  simp only [Sweep.expires, Sweep.lapsed, WarmthObject.idleSeconds, used, prepared]

theorem swept_of_stale (policy : DecayPolicy) {o : WarmthObject} (s : Sweep)
    (stale : o.state = .stale) :
    (o.swept policy s).state = if s.expires policy o then .invalidated else .stale := by
  rw [swept_state, decay_stale s policy stale, Sweep.expires]
  split <;> rfl

theorem run_invalidated {policy : DecayPolicy} {o : WarmthObject} (h : o.state = .invalidated)
    (sweeps : List Sweep) : (run (WarmthObject.swept policy) o sweeps).state = .invalidated := by
  induction sweeps generalizing o with
  | nil => exact h
  | cons s rest ih =>
    have undecayed : undecaying o.state = true := by rw [h]; rfl
    apply ih
    rw [swept_state, decay_undecaying s policy undecayed]
    exact h

/-- A STALE object stays so exactly as long as no sweep expires it. -/
theorem run_stale_iff {policy : DecayPolicy} {o : WarmthObject} (stale : o.state = .stale)
    (sweeps : List Sweep) :
    (run (WarmthObject.swept policy) o sweeps).state = .stale ↔
      ∀ s ∈ sweeps, s.expires policy o = false := by
  induction sweeps generalizing o with
  | nil => simp [stale]
  | cons s rest ih =>
    have next := swept_of_stale policy s stale
    cases expired : s.expires policy o with
    | true =>
      have gone : (o.swept policy s).state = .invalidated := by rw [next, expired]; rfl
      rw [run_cons, run_invalidated gone]
      simp [expired]
    | false =>
      have kept : (o.swept policy s).state = .stale := by rw [next, expired]; rfl
      rw [run_cons, ih kept]
      simp only [swept_expires, List.forall_mem_cons, expired, true_and]

theorem run_expires (policy : DecayPolicy) (o : WarmthObject) (sweeps : List Sweep) (t : Sweep) :
    t.expires policy (run (WarmthObject.swept policy) o sweeps) = t.expires policy o := by
  induction sweeps generalizing o with
  | nil => rfl
  | cons s rest ih => rw [run_cons, ih, swept_expires]

namespace WarmthFabric

/-- The object after more sweeps, from what it was before them. -/
theorem stateOf_after {f : WarmthFabric} {id : WarmthObjectId} {before : List Sweep}
    {o : WarmthObject} (h : (run sweep f before).objects[id]? = some o) (later : List Sweep) :
    (run sweep f (before ++ later)).stateOf id =
      some (run (WarmthObject.swept f.cfg.policy.decay) o later).state := by
  rw [getElem?_sweeps, Option.map_eq_some_iff] at h
  obtain ⟨start, found, rfl⟩ := h
  rw [stateOf, getElem?_sweeps, found]
  simp only [Option.map_some, run_append]

/-- A STALE object gets its grace period exactly in the runs in which the idle time that counts
for leaving STALE has not been running since before the object entered it. -/
theorem grace_kept_iff (f : WarmthFabric) (id : WarmthObjectId) (sweeps : List Sweep) :
    f.GraceKept id sweeps ↔ f.IdleStartsOver id sweeps := by
  constructor
  · intro kept before between after entering leaving o split found enters waiting expired
    have fresh : o.state ≠ .stale := enters.2.1
    have stale : (o.swept f.cfg.policy.decay entering).state = .stale :=
      (swept_stale_iff fresh).mpr enters
    have still : (run (WarmthObject.swept f.cfg.policy.decay) o (entering :: between)).state =
        .stale := by
      refine (run_stale_iff stale between).mpr fun s hs => ?_
      rw [swept_expires]
      exact waiting s hs
    apply kept before between after entering leaving o.state split
    · simp [stateOf, found]
    · exact fresh
    · rw [stateOf_after found]
      exact congrArg some stale
    · rw [stateOf_after found, still]
    · rw [stateOf_after found, ← List.cons_append, run_concat, swept_of_stale _ leaving still,
        run_expires, expired]
      rfl
  · intro starts before between after entering leaving s split was fresh stale still gone
    obtain ⟨o, found, rfl⟩ := Option.map_eq_some_iff.mp was
    rw [stateOf_after found, Option.some.injEq] at stale still gone
    have enters := (swept_stale_iff fresh).mp stale
    rw [← List.cons_append, run_concat, swept_of_stale _ leaving still, run_expires] at gone
    apply starts before between after entering leaving o split found enters
    · intro t ht
      rw [← swept_expires _ _ entering]
      exact (run_stale_iff stale between).mp still t ht
    · by_contra waiting
      rw [if_neg waiting] at gone
      cases gone

/-- One WARM object, last used at time 1, under the default policy. -/
def idleFabric : WarmthFabric :=
  (WarmthFabric.new {}).upsert { state := .warm, lastUsed := 1 }

/-- Unused for the 1200 seconds that make it STALE, the object has also been unused for the 600
that a STALE one is given: the same sweep made twice invalidates it at once. -/
theorem grace_cut_short :
    (∀ t ∈ idleFabric.cfg.policy.decay.thresholds, Double.zero.lt t = true) ∧
    ¬idleFabric.GraceKept {} [{ now := 1200001 }, { now := 1200001 }] := by
  constructor
  · decide +kernel
  · intro kept
    have found : idleFabric.objects[({} : WarmthObjectId)]? =
        some { state := .warm, lastUsed := 1 } := ExtTreeMap.getElem?_insert_self
    have after_none (later : List Sweep) :=
      stateOf_after (show (run sweep idleFabric []).objects[({} : WarmthObjectId)]? = _ from found) later
    have at_once := kept [] [] [] { now := 1200001 } { now := 1200001 } .warm rfl
      (by simp [stateOf, found]) nofun
      (by rw [after_none]; decide +kernel)
      (by rw [after_none]; decide +kernel)
      (by rw [after_none]; decide +kernel)
    revert at_once
    decide +kernel

end WarmthFabric

end Warmth
