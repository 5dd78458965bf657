import Warmth.DecaySteps
import Warmth.Rounding

namespace Warmth

/-- The signed subtraction of two timestamps yields their difference: it does not overflow. -/
def Subtracts (start finish : Timestamp) : Prop :=
  (finish - start).toInt = finish.toInt - start.toInt

theorem subtracts_iff {start finish : Timestamp} :
    Subtracts start finish ↔
      start.toInt - 2 ^ 63 ≤ finish.toInt ∧ finish.toInt < start.toInt + 2 ^ 63 := by
  unfold Subtracts
  constructor
  · intro same
    have low := (finish - start).le_toInt
    have high := (finish - start).toInt_lt
    omega
  · rintro ⟨low, high⟩
    rw [Int64.toInt_sub]
    exact Int.bmod_eq_of_le (by omega) (by omega)

theorem elapsedSeconds_bits (start finish : Timestamp) :
    (elapsedSeconds start finish).bits.toNat < Double.infinity := by
  simp only [elapsedSeconds]
  split
  next => decide
  next positive =>
    have short := (finish - start).toInt_lt
    rcases Nat.eq_zero_or_pos (Double.nearestNat (finish - start).toInt.toNat) with none | some
    · rw [none]
      decide
    · have size := Double.nearestNat_lt (n := (finish - start).toInt.toNat) (k := 63) (by omega)
      exact (Double.ofNatDiv_bits some (by decide) size (by decide) (by decide)).2

/-- Between subtractions that do not overflow, the elapsed time grows with its end. -/
theorem elapsedSeconds_mono {start earlier later : Timestamp} (h : earlier ≤ later)
    (first : Subtracts start earlier) (second : Subtracts start later) {threshold : Double}
    (reached : threshold.le (elapsedSeconds start earlier) = true) :
    threshold.le (elapsedSeconds start later) = true := by
  refine Double.le_of_bits_le ?_ (elapsedSeconds_bits start later) reached
  unfold Subtracts at first second
  have times := Int64.le_iff_toInt_le.mp h
  have short := (later - start).toInt_lt
  simp only [elapsedSeconds]
  by_cases before : earlier - start ≤ 0
  · rw [if_pos before]
    exact Nat.zero_le _
  · have after : ¬later - start ≤ 0 := by
      rw [Int64.le_iff_toInt_le, Int64.toInt_zero] at before ⊢
      omega
    rw [if_neg before, if_neg after]
    have before : (earlier - start).toInt ≤ (later - start).toInt := by omega
    have sooner := Double.nearestNat_mono (Int.toNat_le_toNat before)
    have size := Double.nearestNat_lt (n := (later - start).toInt.toNat) (k := 63) (by omega)
    exact Double.ofNatDiv_mono (by decide) sooner size (by decide) (by decide)

namespace WarmthObject

/-- The time that idle decay counts from. -/
def baseline (o : WarmthObject) : Timestamp := if o.lastUsed ≠ 0 then o.lastUsed else o.lastPrepared

/-- The level of what `decay_object` makes of the object when no flag is set. -/
def idleLevel (o : WarmthObject) (policy : DecayPolicy) (now : Timestamp) : Nat :=
  (toLevel (decayObject o policy now false false false false).state).value

theorem idleLevel_undecaying {o : WarmthObject} (h : undecaying o.state = true) (policy : DecayPolicy)
    (now : Timestamp) : o.idleLevel policy now = (toLevel o.state).value := by
  have kept := decay_undecaying { now } policy h
  change decayObject o policy now false false false false = _ at kept
  rw [idleLevel, kept]

theorem idleLevel_decaying {o : WarmthObject} (h : undecaying o.state = false) (policy : DecayPolicy)
    (now : Timestamp) :
    o.idleLevel policy now =
      (toLevel (idleDecay o.state policy (elapsedSeconds o.baseline now)).state).value := by
  have asked := @decay_untriggered o { now } policy h rfl
  change decayObject o policy now false false false false =
    idleDecay o.state policy (elapsedSeconds o.baseline now) at asked
  rw [idleLevel, asked]

end WarmthObject

/-- A longer idle time reaches every threshold that a shorter one reaches. -/
theorem idleDecay_level_antitone (s : WarmthState) (policy : DecayPolicy) {shorter longer : Double}
    (h : ∀ threshold : Double, threshold.le shorter = true → threshold.le longer = true) :
    (toLevel (idleDecay s policy longer).state).value ≤ (toLevel (idleDecay s policy shorter).state).value := by
  have reached (threshold : Double) (now : (Double.zero.lt threshold && threshold.le shorter) = true) :
      (Double.zero.lt threshold && threshold.le longer) = true := by
    rw [Bool.and_eq_true] at now ⊢
    exact ⟨now.1, h threshold now.2⟩
  cases s with
  | cold | discovered | preparing | invalidated | evicted | failed => exact Nat.le_refl _
  | hot =>
    simp only [idleDecay]
    split
    next => split <;> decide
    next short =>
      rw [if_neg (mt (reached _) short)]
  | warm =>
    have slid (now : (Double.zero.lt policy.warmToPartialIdleSeconds &&
          policy.warmToPartialIdleSeconds.lt policy.warmToStaleIdleSeconds &&
          policy.warmToPartialIdleSeconds.le shorter) = true) :
        (Double.zero.lt policy.warmToPartialIdleSeconds &&
          policy.warmToPartialIdleSeconds.lt policy.warmToStaleIdleSeconds &&
          policy.warmToPartialIdleSeconds.le longer) = true := by
      rw [Bool.and_eq_true] at now ⊢
      exact ⟨now.1, h _ now.2⟩
    simp only [idleDecay]
    split
    next => exact Nat.zero_le _
    next fresh =>
      rw [if_neg (mt (reached _) fresh)]
      split
      next => split <;> decide
      next kept => rw [if_neg (mt slid kept)]
  | partiallyWarm =>
    simp only [idleDecay]
    split
    next => exact Nat.zero_le _
    next short => rw [if_neg (mt (reached _) short)]
  | stale =>
    simp only [idleDecay]
    split
    next => exact Nat.zero_le _
    next short => rw [if_neg (mt (reached _) short)]

/-- Idle decay never raises a level as time goes by, and its subtractions stay in range, just when
decay leaves the object alone or the clock stays within 2^63 of the object's baseline. -/
theorem idle_monotone_iff (o : WarmthObject) (policy : DecayPolicy) {now₁ now₂ : Timestamp}
    (h : now₁ ≤ now₂) :
    ((undecaying o.state = false → Subtracts o.baseline now₁ ∧ Subtracts o.baseline now₂) ∧
      o.idleLevel policy now₂ ≤ o.idleLevel policy now₁) ↔
    undecaying o.state = true ∨
      o.baseline.toInt - 2 ^ 63 ≤ now₁.toInt ∧ now₂.toInt < o.baseline.toInt + 2 ^ 63 := by
  cases live : undecaying o.state with
  | true =>
    rw [o.idleLevel_undecaying live, o.idleLevel_undecaying live]
    exact ⟨fun _ => Or.inl rfl, fun _ => ⟨fun live => absurd live (by decide), Nat.le_refl _⟩⟩
  | false =>
    have times := Int64.le_iff_toInt_le.mp h
    constructor
    · rintro ⟨exact, -⟩
      obtain ⟨first, second⟩ := exact rfl
      exact Or.inr ⟨(subtracts_iff.mp first).1, (subtracts_iff.mp second).2⟩
    · rintro (settled | ⟨low, high⟩)
      · cases settled
      · have first : Subtracts o.baseline now₁ := subtracts_iff.mpr ⟨low, by omega⟩
        have second : Subtracts o.baseline now₂ := subtracts_iff.mpr ⟨by omega, high⟩
        refine ⟨fun _ => ⟨first, second⟩, ?_⟩
        rw [o.idleLevel_decaying live, o.idleLevel_decaying live]
        exact idleDecay_level_antitone o.state policy fun _ => elapsedSeconds_mono h first second

/-- A HOT object last used at the epoch, a second and an hour later. -/
theorem idle_monotone_hot :
    ((undecaying WarmthState.hot = false →
        Subtracts (WarmthObject.baseline { state := .hot }) 1000 ∧
          Subtracts (WarmthObject.baseline { state := .hot }) 3600000) ∧
      WarmthObject.idleLevel { state := .hot } {} 3600000 ≤
        WarmthObject.idleLevel { state := .hot } {} 1000) :=
  (idle_monotone_iff { state := .hot } {} (by decide)).mpr (Or.inr (by decide))

/-- A last use 2^63 milliseconds before the clock: one more millisecond, and the object is HOT. -/
theorem hot_again :
    ¬((undecaying WarmthState.hot = false →
        Subtracts (WarmthObject.baseline { state := .hot, lastUsed := -9223370336854775808 }) 1699999999999 ∧
          Subtracts (WarmthObject.baseline { state := .hot, lastUsed := -9223370336854775808 }) 1700000000000) ∧
      WarmthObject.idleLevel { state := .hot, lastUsed := -9223370336854775808 } {} 1700000000000 ≤
        WarmthObject.idleLevel { state := .hot, lastUsed := -9223370336854775808 } {} 1699999999999) := by
  rintro ⟨-, level⟩
  revert level
  decide

end Warmth
