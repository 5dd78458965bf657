import Warmth.Fabric
import Warmth.Runs

namespace Warmth

open Runs Std

/-- The arguments of one `decay` call. -/
structure Sweep where
  now : Timestamp
  memoryPressure : Bool := false
  dependencyChanged : Bool := false
  deviceReset : Bool := false
  processRestart : Bool := false
deriving DecidableEq, Repr

namespace Sweep

def decay (s : Sweep) (policy : DecayPolicy) (o : WarmthObject) : DecayResult :=
  decayObject o policy s.now s.memoryPressure s.dependencyChanged s.deviceReset s.processRestart

/-- The flags that make an object STALE and are in force under the policy. -/
def triggered (s : Sweep) (policy : DecayPolicy) : Bool :=
  s.dependencyChanged || s.deviceReset && policy.decayOnDeviceReset ||
    s.processRestart && policy.decayOnProcessRestart

def pressed (s : Sweep) (policy : DecayPolicy) : Bool :=
  s.memoryPressure && policy.decayOnMemoryPressure

end Sweep

namespace WarmthObject

def idleSeconds (o : WarmthObject) (now : Timestamp) : Double :=
  elapsedSeconds (if o.lastUsed ≠ 0 then o.lastUsed else o.lastPrepared) now

def swept (policy : DecayPolicy) (o : WarmthObject) (s : Sweep) : WarmthObject :=
  WarmthFabric.decayed policy s.now s.memoryPressure s.dependencyChanged s.deviceReset
    s.processRestart o

end WarmthObject

def WarmthFabric.sweep (f : WarmthFabric) (s : Sweep) : WarmthFabric :=
  f.decay s.now s.memoryPressure s.dependencyChanged s.deviceReset s.processRestart

/-- The states decay leaves alone. -/
def undecaying (s : WarmthState) : Bool :=
  s == .cold || s == .discovered || s == .evicted || s == .failed || s == .invalidated

/-- Where decay can take an object. -/
inductive Decays : WarmthState → WarmthState → Prop
  | cooled : Decays .hot .warm
  | reduced : Decays .warm .partiallyWarm
  | emptied : Decays .partiallyWarm .cold
  | lapsed : Decays .stale .invalidated
  | outdated {s : WarmthState} : undecaying s = false → s ≠ .stale → Decays s .stale

/-- The longest way down from a state. -/
def decayRank : WarmthState → Nat
  | .hot => 4
  | .warm => 3
  | .partiallyWarm | .preparing => 2
  | .stale => 1
  | .cold | .discovered | .invalidated | .evicted | .failed => 0

def DecaysBelow (t s : WarmthState) : Prop := decayRank t < decayRank s

theorem decaysBelow_wf : WellFounded DecaysBelow := InvImage.wf decayRank Nat.lt_wfRel.wf

theorem Decays.below {s t : WarmthState} (h : Decays s t) : DecaysBelow t s := by
  unfold DecaysBelow
  cases h with
  | cooled | reduced | emptied | lapsed => decide
  | outdated live fresh =>
    cases s with
    | stale => exact absurd rfl fresh
    | cold | discovered | invalidated | evicted | failed => cases live
    | hot | warm | partiallyWarm | preparing => decide

theorem Decays.ne {s t : WarmthState} (h : Decays s t) : t ≠ s := by
  rintro rfl
  exact Nat.lt_irrefl _ h.below

/-- Every edge of decay is an edge of the transition table. -/
theorem Decays.allowed {s t : WarmthState} (h : Decays s t) : transitionAllowed s t = true := by
  cases h with
  | cooled | reduced | emptied | lapsed => rfl
  | outdated live fresh =>
    cases s with
    | stale => exact absurd rfl fresh
    | cold | discovered | invalidated | evicted | failed => cases live
    | hot | warm | partiallyWarm | preparing => rfl

/-- The part of `decay_object` after the triggers. -/
def unaskedDecay (s : WarmthState) (policy : DecayPolicy) (pressed : Bool) (idle : Double) :
    DecayResult :=
  if pressed && s == .hot then ⟨true, .warm, .memoryPressure⟩
  else if pressed && s == .warm then ⟨true, .partiallyWarm, .memoryPressure⟩
  else if pressed && s == .partiallyWarm then ⟨true, .cold, .memoryPressure⟩
  else idleDecay s policy idle

theorem decay_undecaying {o : WarmthObject} (s : Sweep) (policy : DecayPolicy)
    (h : undecaying o.state = true) : s.decay policy o = { state := o.state } := by
  unfold Sweep.decay decayObject
  exact if_pos h

theorem decay_triggered {o : WarmthObject} {s : Sweep} {policy : DecayPolicy}
    (live : undecaying o.state = false) (h : s.triggered policy = true) :
    ∃ reason, s.decay policy o = staleDecay o.state reason := by
  unfold undecaying at live
  simp only [Sweep.decay, decayObject, live, Bool.false_eq_true, if_false]
  simp only [Sweep.triggered, Bool.or_eq_true] at h
  split
  next => exact ⟨_, rfl⟩
  next unchanged =>
    split
    next => exact ⟨_, rfl⟩
    next kept =>
      rcases h with (h | h) | h
      · exact absurd h unchanged
      · exact absurd h kept
      · exact ⟨_, if_pos h⟩

theorem decay_untriggered {o : WarmthObject} {s : Sweep} {policy : DecayPolicy}
    (live : undecaying o.state = false) (h : s.triggered policy = false) :
    s.decay policy o = unaskedDecay o.state policy (s.pressed policy) (o.idleSeconds s.now) := by
  unfold undecaying at live
  simp only [Sweep.triggered, Bool.or_eq_false_iff] at h
  simp only [Sweep.decay, decayObject, live, h.1.1, h.1.2, h.2, Bool.false_eq_true, if_false]
  rfl

theorem idleDecay_cases (s : WarmthState) (policy : DecayPolicy) (idle : Double) :
    idleDecay s policy idle = { state := s } ∨
    ∃ t, idleDecay s policy idle = ⟨true, t, .idleElapsed⟩ ∧ Decays s t := by
  cases s with
  | cold | discovered | preparing | invalidated | evicted | failed => exact Or.inl rfl
  | hot =>
    simp only [idleDecay]
    split
    · exact Or.inr ⟨.warm, rfl, .cooled⟩
    · exact Or.inl rfl
  | warm =>
    simp only [idleDecay]
    split
    · exact Or.inr ⟨.stale, rfl, .outdated rfl (by decide)⟩
    · split
      · exact Or.inr ⟨.partiallyWarm, rfl, .reduced⟩
      · exact Or.inl rfl
  | partiallyWarm =>
    simp only [idleDecay]
    split
    · exact Or.inr ⟨.cold, rfl, .emptied⟩
    · exact Or.inl rfl
  | stale =>
    simp only [idleDecay]
    split
    · exact Or.inr ⟨.invalidated, rfl, .lapsed⟩
    · exact Or.inl rfl

theorem unaskedDecay_cases (s : WarmthState) (policy : DecayPolicy) (pressed : Bool)
    (idle : Double) :
    unaskedDecay s policy pressed idle = { state := s } ∨
    ∃ t reason, unaskedDecay s policy pressed idle = ⟨true, t, reason⟩ ∧ Decays s t := by
  unfold unaskedDecay
  split
  next hot =>
    simp only [Bool.and_eq_true, beq_iff_eq] at hot
    exact Or.inr ⟨.warm, _, rfl, hot.2 ▸ .cooled⟩
  next =>
    split
    next warm =>
      simp only [Bool.and_eq_true, beq_iff_eq] at warm
      exact Or.inr ⟨.partiallyWarm, _, rfl, warm.2 ▸ .reduced⟩
    next =>
      split
      next partly =>
        simp only [Bool.and_eq_true, beq_iff_eq] at partly
        exact Or.inr ⟨.cold, _, rfl, partly.2 ▸ .emptied⟩
      next =>
        rcases idleDecay_cases s policy idle with kept | ⟨t, moved, edge⟩
        · exact Or.inl kept
        · exact Or.inr ⟨t, _, moved, edge⟩

/-- Without a trigger only a WARM object becomes STALE, by its idle time. -/
theorem unaskedDecay_stale_iff {s : WarmthState} {policy : DecayPolicy} {pressed : Bool}
    {idle : Double} (fresh : s ≠ .stale) :
    (unaskedDecay s policy pressed idle).state = .stale ↔
      s = .warm ∧ pressed = false ∧ Double.zero.lt policy.warmToStaleIdleSeconds = true ∧
        policy.warmToStaleIdleSeconds.le idle = true := by
  cases s with
  | stale => exact absurd rfl fresh
  | cold | discovered | preparing | invalidated | evicted | failed =>
    cases pressed <;> simp [unaskedDecay, idleDecay]
  | hot | partiallyWarm =>
    cases pressed <;> simp only [unaskedDecay, idleDecay]
    · simp only [Bool.false_and, Bool.false_eq_true, if_false]
      split <;> simp
    · simp
  | warm =>
    cases pressed <;> simp only [unaskedDecay, idleDecay]
    · simp only [Bool.false_and, Bool.false_eq_true, if_false, Bool.and_eq_true]
      split
      next reached => simp [reached]
      next unreached =>
        have short : ¬(Double.zero.lt policy.warmToStaleIdleSeconds = true ∧
            policy.warmToStaleIdleSeconds.le idle = true) := unreached
        split <;> simp [short]
    · simp

/-- What a sweep does to an object: nothing, or one edge of decay. -/
theorem decay_cases (s : Sweep) (policy : DecayPolicy) (o : WarmthObject) :
    s.decay policy o = { state := o.state } ∨
    ∃ t reason, s.decay policy o = ⟨true, t, reason⟩ ∧ Decays o.state t := by
  cases live : undecaying o.state with
  | true => exact Or.inl (decay_undecaying s policy live)
  | false =>
    cases asked : s.triggered policy with
    | true =>
      obtain ⟨reason, h⟩ := decay_triggered live asked
      rw [h, staleDecay]
      by_cases stale : o.state = .stale
      · rw [if_neg (not_not_intro stale), stale]
        exact Or.inl rfl
      · rw [if_pos stale]
        exact Or.inr ⟨.stale, reason, rfl, .outdated live stale⟩
    | false =>
      rw [decay_untriggered live asked]
      exact unaskedDecay_cases _ _ _ _

theorem decay_triggered_unready {s : Sweep} {policy : DecayPolicy} (o : WarmthObject)
    (h : s.triggered policy = true) : isExecutionReady (s.decay policy o).state = false := by
  cases live : undecaying o.state with
  | true =>
    rw [decay_undecaying s policy live]
    change isExecutionReady o.state = false
    revert live
    cases o.state <;> decide
  | false =>
    obtain ⟨reason, result⟩ := decay_triggered live h
    rw [result]
    exact staleDecay_ready o.state reason

/-- A sweep leaves the object as it is or takes it down one edge, which the table never refuses. -/
theorem swept_cases (policy : DecayPolicy) (o : WarmthObject) (s : Sweep) :
    s.decay policy o = { state := o.state } ∧ o.swept policy s = o ∨
    ∃ t reason, s.decay policy o = ⟨true, t, reason⟩ ∧ Decays o.state t ∧
      o.swept policy s = { o with state := t, stateChangeReason := decayReasonName reason } := by
  have unfolded : o.swept policy s = if (s.decay policy o).changed then
      o.moveTo (s.decay policy o).state (decayReasonName (s.decay policy o).reason) else o := rfl
  rcases decay_cases s policy o with kept | ⟨t, reason, moved, edge⟩
  · rw [unfolded, kept]
    exact Or.inl ⟨rfl, rfl⟩
  · rw [unfolded, moved]
    refine Or.inr ⟨t, reason, rfl, edge, ?_⟩
    simp only [WarmthObject.moveTo, WarmthObject.transition, edge.allowed, if_true]

theorem swept_state (policy : DecayPolicy) (o : WarmthObject) (s : Sweep) :
    (o.swept policy s).state = (s.decay policy o).state := by
  rcases swept_cases policy o s with ⟨kept, same⟩ | ⟨t, reason, moved, _, swept⟩
  · rw [same, kept]
  · rw [swept, moved]

theorem swept_baseline (policy : DecayPolicy) (o : WarmthObject) (s : Sweep) :
    (o.swept policy s).lastUsed = o.lastUsed ∧ (o.swept policy s).lastPrepared = o.lastPrepared := by
  rcases swept_cases policy o s with ⟨_, same⟩ | ⟨t, reason, _, _, swept⟩
  · rw [same]
    exact ⟨rfl, rfl⟩
  · rw [swept]
    exact ⟨rfl, rfl⟩

/-- How many sweeps with the same flags an object can still change in. -/
def sweepsLeft (triggered : Bool) (s : WarmthState) : Nat :=
  if undecaying s then 0
  else if triggered then (if s = .stale then 0 else 1)
  else match s with
    | .hot => 3
    | .warm => 2
    | .partiallyWarm | .stale => 1
    | _ => 0

theorem sweepsLeft_le (triggered : Bool) (s : WarmthState) : sweepsLeft triggered s ≤ 3 := by
  cases triggered <;> cases s <;> decide

theorem untriggered_lowers {s : Sweep} {policy : DecayPolicy} {o : WarmthObject} {t : WarmthState}
    {reason : DecayReason} (live : undecaying o.state = false) (asked : s.triggered policy = false)
    (moved : s.decay policy o = ⟨true, t, reason⟩) (edge : Decays o.state t) :
    sweepsLeft false t < sweepsLeft false o.state := by
  rw [decay_untriggered live asked] at moved
  generalize o.state = state at moved edge
  cases edge with
  | cooled | reduced | emptied | lapsed => decide
  | outdated _ fresh =>
    have target := (unaskedDecay_stale_iff fresh).mp (congrArg DecayResult.state moved)
    rw [target.1]
    decide

theorem swept_lowers {s : Sweep} {policy : DecayPolicy} {o : WarmthObject}
    (h : o.swept policy s ≠ o) :
    sweepsLeft (s.triggered policy) (o.swept policy s).state <
      sweepsLeft (s.triggered policy) o.state := by
  rcases swept_cases policy o s with ⟨_, same⟩ | ⟨t, reason, moved, edge, swept⟩
  · exact absurd same h
  · rw [swept]
    change sweepsLeft (s.triggered policy) t < _
    cases live : undecaying o.state with
    | true =>
      rw [decay_undecaying s policy live] at moved
      cases moved
    | false =>
      cases asked : s.triggered policy with
      | false => exact untriggered_lowers live asked moved edge
      | true =>
        obtain ⟨why, result⟩ := decay_triggered live asked
        rw [result, staleDecay] at moved
        by_cases stale : o.state = .stale
        · rw [if_neg (not_not_intro stale)] at moved
          cases moved
        · rw [if_pos stale] at moved
          cases moved
          simp [sweepsLeft, live, stale]

theorem swept_settles (policy : DecayPolicy) (o : WarmthObject) (s : Sweep) :
    run (WarmthObject.swept policy) o (List.replicate 3 s ++ [s]) =
      run (WarmthObject.swept policy) o (List.replicate 3 s) := by
  have descends (t : WarmthObject) (moves : t.swept policy s ≠ t) :
      sweepsLeft (s.triggered policy) (t.swept policy s).state <
        sweepsLeft (s.triggered policy) t.state := swept_lowers moves
  rw [run_concat]
  exact run_replicate_settled (fun t : WarmthObject => sweepsLeft (s.triggered policy) t.state) descends
    (sweepsLeft_le _ o.state)

theorem WarmthFabric.getElem?_sweeps (f : WarmthFabric) (sweeps : List Sweep)
    (id : WarmthObjectId) :
    (run sweep f sweeps).objects[id]? =
      f.objects[id]?.map fun o => run (WarmthObject.swept f.cfg.policy.decay) o sweeps := by
  induction sweeps generalizing f with
  | nil => simp
  | cons s rest ih =>
    have one : (f.sweep s).objects[id]? =
        f.objects[id]?.map fun o => o.swept f.cfg.policy.decay s := by
      simp only [sweep, decay, ExtTreeMap.getElem?_map]
      rfl
    rw [run_cons, ih, one, Option.map_map]
    rfl

theorem WarmthFabric.sweeps_frame (f : WarmthFabric) (sweeps : List Sweep) :
    run sweep f sweeps = { f with objects := (run sweep f sweeps).objects } := by
  induction sweeps generalizing f with
  | nil => rfl
  | cons s rest ih =>
    rw [run_cons, ih (f.sweep s)]
    rfl

theorem WarmthFabric.sweeps_settle (f : WarmthFabric) (s : Sweep) :
    (run sweep f (List.replicate 3 s)).sweep s = run sweep f (List.replicate 3 s) := by
  have again : (run sweep f (List.replicate 3 s)).sweep s =
      run sweep f (List.replicate 3 s ++ [s]) := (run_concat _ s).symm
  have settled : (run sweep f (List.replicate 3 s ++ [s])).objects =
      (run sweep f (List.replicate 3 s)).objects := by
    apply ExtTreeMap.ext_getElem?
    intro id
    have same : (fun o => run (WarmthObject.swept f.cfg.policy.decay) o (List.replicate 3 s ++ [s])) =
        fun o => run (WarmthObject.swept f.cfg.policy.decay) o (List.replicate 3 s) :=
      funext fun o => swept_settles f.cfg.policy.decay o s
    rw [f.getElem?_sweeps, f.getElem?_sweeps, same]
  rw [again, f.sweeps_frame, f.sweeps_frame (List.replicate 3 s), settled]

/-- Decay only goes down, along edges that the transition table has, makes nothing ready, and
repeated with the same arguments it comes to rest within three sweeps. -/
theorem decay_descends_and_settles :
    WellFounded DecaysBelow ∧
    (∀ (s : Sweep) (policy : DecayPolicy) (o : WarmthObject),
      ((s.decay policy o).changed = true →
        (s.decay policy o).state ≠ o.state ∧
        transitionAllowed o.state (s.decay policy o).state = true ∧
        (∀ why, (o.transition (s.decay policy o).state why).2 = true) ∧
        DecaysBelow (s.decay policy o).state o.state) ∧
      (isExecutionReady o.state = false → isExecutionReady (s.decay policy o).state = false) ∧
      (s.dependencyChanged = true ∨
          s.deviceReset = true ∧ policy.decayOnDeviceReset = true ∨
          s.processRestart = true ∧ policy.decayOnProcessRestart = true →
        isExecutionReady (s.decay policy o).state = false ∧
        isExecutionReady (o.swept policy s).state = false)) ∧
    ∀ (f : WarmthFabric) (s : Sweep),
      (run WarmthFabric.sweep f (List.replicate 3 s)).sweep s =
        run WarmthFabric.sweep f (List.replicate 3 s) := by
  refine ⟨decaysBelow_wf, fun s policy o => ⟨fun changed => ?_, fun unready => ?_, fun asked => ?_⟩,
    WarmthFabric.sweeps_settle⟩
  · rcases decay_cases s policy o with kept | ⟨t, reason, moved, edge⟩
    · rw [kept] at changed
      cases changed
    · rw [moved]
      refine ⟨edge.ne, edge.allowed, fun why => ?_, edge.below⟩
      simp only [WarmthObject.transition, edge.allowed, if_true]
  · by_contra ready
    have before := decayObject_ready (Bool.eq_true_of_not_eq_false ready)
    rw [unready] at before
    cases before
  · have unready : isExecutionReady (s.decay policy o).state = false := by
      apply decay_triggered_unready
      simp only [Sweep.triggered, Bool.or_eq_true, Bool.and_eq_true, or_assoc]
      exact asked
    exact ⟨unready, swept_state policy o s ▸ unready⟩

/-- The flags of a sweep, each with a switch of its own in the policy. -/
inductive DecayTrigger
  | memoryPressure | dependencyChanged | deviceReset | processRestart
deriving DecidableEq, Repr

def DecayPolicy.decaysOn (policy : DecayPolicy) : DecayTrigger → Bool
  | .memoryPressure => policy.decayOnMemoryPressure
  | .dependencyChanged => policy.decayOnDependencyChange
  | .deviceReset => policy.decayOnDeviceReset
  | .processRestart => policy.decayOnProcessRestart

namespace Sweep

def flagged (s : Sweep) (trigger : DecayTrigger) (b : Bool) : Sweep :=
  match trigger with
  | .memoryPressure => { s with memoryPressure := b }
  | .dependencyChanged => { s with dependencyChanged := b }
  | .deviceReset => { s with deviceReset := b }
  | .processRestart => { s with processRestart := b }

/-- The idle time that turns a STALE object INVALIDATED has passed. -/
def lapsed (s : Sweep) (policy : DecayPolicy) (o : WarmthObject) : Bool :=
  Double.zero.lt policy.staleToInvalidatedSeconds &&
    policy.staleToInvalidatedSeconds.le (o.idleSeconds s.now)

/-- A changed dependency cannot show: decay leaves the object alone, or it is STALE already and
this sweep would not invalidate it. -/
def DependencyUnseen (s : Sweep) (policy : DecayPolicy) (o : WarmthObject) : Prop :=
  undecaying o.state = true ∨
  o.state = .stale ∧
    (s.deviceReset = true ∧ policy.decayOnDeviceReset = true ∨
      s.processRestart = true ∧ policy.decayOnProcessRestart = true ∨
      s.lapsed policy o = false)

end Sweep

theorem decay_stale {o : WarmthObject} (s : Sweep) (policy : DecayPolicy) (h : o.state = .stale) :
    s.decay policy o =
      if !s.triggered policy && s.lapsed policy o then ⟨true, .invalidated, .idleElapsed⟩
      else { state := .stale } := by
  have live : undecaying o.state = false := by rw [h]; rfl
  cases asked : s.triggered policy with
  | true =>
    obtain ⟨reason, result⟩ := decay_triggered live asked
    rw [result, h]
    rfl
  | false =>
    rw [decay_untriggered live asked, h]
    cases s.pressed policy <;> rfl

theorem unaskedDecay_reason (s : WarmthState) (policy : DecayPolicy) (pressed : Bool)
    (idle : Double) :
    (unaskedDecay s policy pressed idle).reason ≠ .dependencyGenerationChange := by
  unfold unaskedDecay
  split
  next => exact nofun
  next =>
    split
    next => exact nofun
    next =>
      split
      next => exact nofun
      next =>
        rcases idleDecay_cases s policy idle with kept | ⟨t, moved, _⟩
        · rw [kept]
          exact nofun
        · rw [moved]
          exact nofun

theorem decay_reason_ne {s : Sweep} (h : s.dependencyChanged = false) (policy : DecayPolicy)
    {o : WarmthObject} (live : undecaying o.state = false) (fresh : o.state ≠ .stale) :
    (s.decay policy o).reason ≠ .dependencyGenerationChange := by
  cases asked : s.triggered policy with
  | false =>
    rw [decay_untriggered live asked]
    exact unaskedDecay_reason _ _ _ _
  | true =>
    unfold undecaying at live
    simp only [Sweep.triggered, h, Bool.false_or, Bool.or_eq_true] at asked
    simp only [Sweep.decay, decayObject, live, h, Bool.false_eq_true, if_false, staleDecay,
      if_pos fresh]
    split
    next =>
      intro same
      cases same
    next kept =>
      rw [if_pos (asked.resolve_left kept)]
      intro same
      cases same

theorem decay_dependencyChanged {o : WarmthObject} (s : Sweep) (policy : DecayPolicy)
    (live : undecaying o.state = false) :
    (s.flagged .dependencyChanged true).decay policy o =
      staleDecay o.state .dependencyGenerationChange := by
  unfold undecaying at live
  simp only [Sweep.decay, Sweep.flagged, decayObject, live, Bool.false_eq_true, if_false, if_true]

theorem dependencyChanged_inert_iff (s : Sweep) (policy : DecayPolicy) (o : WarmthObject) :
    (s.flagged .dependencyChanged true).decay policy o =
        (s.flagged .dependencyChanged false).decay policy o ↔
      s.DependencyUnseen policy o := by
  unfold Sweep.DependencyUnseen
  cases live : undecaying o.state with
  | true =>
    rw [decay_undecaying _ policy live, decay_undecaying _ policy live]
    simp
  | false =>
    rw [decay_dependencyChanged s policy live]
    by_cases stale : o.state = .stale
    · have same : (s.flagged .dependencyChanged false).lapsed policy o = s.lapsed policy o := rfl
      have asked : (s.flagged .dependencyChanged false).triggered policy =
          (s.deviceReset && policy.decayOnDeviceReset ||
            s.processRestart && policy.decayOnProcessRestart) := rfl
      simp only [decay_stale _ policy stale, same, asked, stale, ← Bool.and_eq_true]
      cases s.deviceReset && policy.decayOnDeviceReset <;>
        cases s.processRestart && policy.decayOnProcessRestart <;>
        cases s.lapsed policy o <;> simp [staleDecay]
    · have reason := decay_reason_ne (s := s.flagged .dependencyChanged false) rfl policy live stale
      rw [staleDecay, if_pos stale]
      constructor
      · intro same
        rw [← same] at reason
        exact absurd rfl reason
      · rintro (h | h)
        · cases h
        · exact absurd h.1 stale

/-- A switched-off trigger does nothing, but for a changed dependency that can be seen. -/
theorem disabled_trigger_inert_iff (s : Sweep) (policy : DecayPolicy) (o : WarmthObject)
    (trigger : DecayTrigger) (off : policy.decaysOn trigger = false) :
    (s.flagged trigger true).decay policy o = (s.flagged trigger false).decay policy o ↔
      (trigger = .dependencyChanged → s.DependencyUnseen policy o) := by
  cases trigger with
  | dependencyChanged =>
    rw [dependencyChanged_inert_iff]
    exact ⟨fun unseen _ => unseen, fun h => h rfl⟩
  | memoryPressure =>
    have pressure : policy.decayOnMemoryPressure = false := off
    constructor
    · intro _ other
      cases other
    · intro _
      simp [Sweep.decay, Sweep.flagged, decayObject, pressure]
  | deviceReset =>
    have reset : policy.decayOnDeviceReset = false := off
    constructor
    · intro _ other
      cases other
    · intro _
      simp [Sweep.decay, Sweep.flagged, decayObject, reset]
  | processRestart =>
    have restart : policy.decayOnProcessRestart = false := off
    constructor
    · intro _ other
      cases other
    · intro _
      simp [Sweep.decay, Sweep.flagged, decayObject, restart]

/-- A policy that opts out of decay on dependency changes. -/
def independentPolicy : DecayPolicy := { decayOnDependencyChange := false }

/-- A policy that keeps objects warm under memory pressure. -/
def unpressedPolicy : DecayPolicy := { decayOnMemoryPressure := false }

/-- Memory pressure leaves a WARM object as it is, and a changed dependency a STALE one of a device
that was reset. -/
theorem disabled_trigger_inert_warm :
    ({ now := 0 : Sweep }.flagged .memoryPressure true).decay unpressedPolicy { state := .warm } =
      ({ now := 0 : Sweep }.flagged .memoryPressure false).decay unpressedPolicy
        { state := .warm } ∧
    ({ now := 0, deviceReset := true : Sweep }.flagged .dependencyChanged true).decay
        independentPolicy { state := .stale } =
      ({ now := 0, deviceReset := true : Sweep }.flagged .dependencyChanged false).decay
        independentPolicy { state := .stale } := by
  constructor
  · exact (disabled_trigger_inert_iff { now := 0 } unpressedPolicy { state := .warm }
      .memoryPressure rfl).mpr fun same => by cases same
  · exact (disabled_trigger_inert_iff { now := 0, deviceReset := true } independentPolicy
      { state := .stale } .dependencyChanged rfl).mpr fun _ => Or.inr ⟨rfl, Or.inl ⟨rfl, rfl⟩⟩

/-- A WARM object becomes STALE although the policy has the dependency trigger off. -/
theorem disabled_dependency_trigger_fires :
    independentPolicy.decaysOn .dependencyChanged = false ∧
    ({ now := 0 : Sweep }.flagged .dependencyChanged true).decay independentPolicy
        { state := .warm } = ⟨true, .stale, .dependencyGenerationChange⟩ ∧
    ({ now := 0 : Sweep }.flagged .dependencyChanged true).decay independentPolicy
        { state := .warm } ≠
      ({ now := 0 : Sweep }.flagged .dependencyChanged false).decay independentPolicy
        { state := .warm } := by
  decide +kernel

end Warmth
