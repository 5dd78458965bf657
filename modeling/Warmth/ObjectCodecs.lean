import Warmth.Acceptance
import Warmth.Messages
import Warmth.Persistence

namespace Warmth

open Codec

/-- Every text of the object has a length that fits its 32-bit prefix. -/
structure WarmthObject.Short (o : WarmthObject) : Prop where
  device : o.device.length < 2 ^ 32
  backend : o.backend.length < 2 ^ 32
  logicalOwner : o.logicalOwner.length < 2 ^ 32
  stateChangeReason : o.stateChangeReason.length < 2 ^ 32
  invalidationReason : ∀ r ∈ o.invalidationReason, r.length < 2 ^ 32

def WarmthObject.stored (o : WarmthObject) : WarmthObject :=
  { o with
    model := storedId o.model
    artifact := storedId o.artifact
    replica := storedId o.replica
    engine := storedId o.engine
    invalidationReason := storedReason o.invalidationReason }

/-- None of the object's doubles is a NaN or an infinity. -/
structure WarmthObject.Finite (o : WarmthObject) : Prop where
  estimatedTtrMs : o.estimatedTtrMs.isFinite = true
  observedTtrMs : o.observedTtrMs.isFinite = true
  confidence : o.confidence.isFinite = true
  freshness : o.freshness.isFinite = true

/-- The object once its two setters have clamped confidence and freshness. -/
def WarmthObject.clamped (o : WarmthObject) : WarmthObject :=
  (o.setConfidence o.confidence).setFreshness o.freshness

/-- Confidence and freshness are values that their setters leave. -/
structure WarmthObject.Settled (o : WarmthObject) : Prop where
  confidence : ∃ c : Double, o.confidence = c.clampUnit
  freshness : ∃ f : Double, o.freshness = f.clampUnit

/-- `decode_object` without the clamping: confidence and freshness are kept as they were read. -/
def decodeUnclamped : Decoder Unit WarmthObject := do
  let id ← readId ()
  let cat ← u8 ()
  let workload ← readId ()
  let node ← readId ()
  let category ← known () cat
  let device ← readStr ()
  let backend ← readStr ()
  let owner ← readStr ()
  let model ← readOpt () () ()
  let artifact ← readOpt () () ()
  let replica ← readOpt () () ()
  let engine ← readOpt () () ()
  let state ← enumerator () ()
  let reason ← readStr ()
  let obj : WarmthObject := { id, category, workload, node, device, backend }
  let obj := { obj with logicalOwner := owner, model, artifact, replica, engine }
  let obj := obj.restoreState state reason
  let obj ← readDimensions () () DimensionIndex.values obj
  let lp ← readU64 ()
  let lu ← readU64 ()
  let obj := { obj with lastPrepared := lp.toInt64, lastUsed := lu.toInt64 }
  let ecb ← readU64 ()
  let mcb ← readU64 ()
  let ettr ← wireF64
  let ottr ← wireF64
  let obj := { obj with estimatedCostBytes := ecb, measuredCostBytes := mcb }
  let obj := { obj with estimatedTtrMs := ettr, observedTtrMs := ottr }
  let residency ← enumerator () ()
  let lifecycle ← enumerator () ()
  let confidence ← wireF64
  let freshness ← wireF64
  let obj := { obj with residency, lifecycle, confidence, freshness }
  let wg ← readU64 ()
  let obj := { obj with warmthGen := ⟨wg⟩ }
  let nd ← wireCount 64
  let obj ← readDependencies () () () () nd [] obj
  let invalidationReason ← readInvalidation () () ()
  let provenance ← enumerator () ()
  return { obj with invalidationReason, provenance }

/-- The fields of an object as `write_object` lays them out. -/
def objectFields (o : WarmthObject) : List Bytes := [
  o.id.toBytes, [toByte o.category], o.workload.toBytes, o.node.toBytes,
  str o.device, str o.backend, str o.logicalOwner,
  optionalId o.model, optionalId o.artifact, optionalId o.replica, optionalId o.engine,
  [toByte o.state], str o.stateChangeReason, o.dimensionBytes,
  u64 o.lastPrepared.toUInt64, u64 o.lastUsed.toUInt64,
  u64 o.estimatedCostBytes, u64 o.measuredCostBytes,
  u64 o.estimatedTtrMs.bits, u64 o.observedTtrMs.bits,
  [toByte o.residency], [toByte o.lifecycle], u64 o.confidence.bits, u64 o.freshness.bits,
  u64 o.warmthGen.value, u32 o.dependencies.length, o.dependencies.flatMap dependencyBytes,
  optionalReason o.invalidationReason, [toByte o.provenance]]

theorem objectFields_flatten (o : WarmthObject) : (objectFields o).flatten = encodeObject o := by
  unfold objectFields encodeObject
  simp only [List.flatten_cons, List.flatten_nil, List.append_nil]
  simp only [List.append_assoc]

theorem f64_of_isFinite {d : Double} (h : d.isFinite = true) : f64 d = .ok (u64 d.bits) := by
  obtain ⟨hn, hi⟩ := Double.isFinite_iff.mp h
  simp [f64, hn, hi]

theorem writeObject_of_finite {o : WarmthObject} (h : o.Finite) :
    writeObject o = .ok (encodeObject o) := by
  rw [writeObject, f64_of_isFinite h.estimatedTtrMs, f64_of_isFinite h.observedTtrMs,
    f64_of_isFinite h.confidence, f64_of_isFinite h.freshness, ← objectFields_flatten]
  exact pieces_ok (objectFields o)

theorem clampUnit_clampUnit (v : Double) : v.clampUnit.clampUnit = v.clampUnit := by
  cases h : v.isNan with
  | false => exact Double.clampUnit_of_inUnit (Double.inUnit_clampUnit h)
  | true =>
    have hv : v.clampUnit = v := by simp [Double.clampUnit, Double.lt, h]
    rw [hv, hv]

theorem WarmthObject.Settled.clamped {o : WarmthObject} (h : o.Settled) : o.clamped = o := by
  obtain ⟨⟨c, hc⟩, ⟨f, hf⟩⟩ := h
  simp only [WarmthObject.clamped, setConfidence, setFreshness, hc, hf,
    clampUnit_clampUnit]
  rw [← hc, ← hf]

theorem WarmthObject.Settled.stored {o : WarmthObject} (h : o.Settled) : o.stored.Settled :=
  ⟨h.confidence, h.freshness⟩

/-! Reading an object off the wire. -/

theorem reads_wireF64 (d : Double) : Reads wireF64 (u64 d.bits) d :=
  Reads.last (reads_u64 () d.bits) (Reads.pure _)

theorem reads_wireCount {limit n : Nat} (h : n ≤ limit) (fits : n < 2 ^ 32) :
    Reads (wireCount limit) (u32 n) n :=
  Reads.last (reads_u32 fits) (Reads.bind_nil (reads_ensure (by simpa using h)) (Reads.pure n))

theorem reads_unclamped {o : WarmthObject} (hs : o.Short) :
    Reads decodeUnclamped (encodeObject o) o.stored := by
  simp only [← objectFields_flatten, objectFields, List.flatten_cons, List.flatten_nil]
  refine Reads.bind (reads_id _ o.id) (Reads.bind (reads_u8 _ _) ?_)
  refine Reads.bind (reads_id _ o.workload) (Reads.bind (reads_id _ o.node) ?_)
  refine Reads.bind_nil (reads_known _ o.category) ?_
  refine Reads.bind (reads_str hs.device) (Reads.bind (reads_str hs.backend) ?_)
  refine Reads.bind (reads_str hs.logicalOwner) ?_
  refine Reads.bind (reads_opt _ _ _ o.model) (Reads.bind (reads_opt _ _ _ o.artifact) ?_)
  refine Reads.bind (reads_opt _ _ _ o.replica) (Reads.bind (reads_opt _ _ _ o.engine) ?_)
  refine Reads.bind (reads_enumerator _ _ o.state) (Reads.bind (reads_str hs.stateChangeReason) ?_)
  refine Reads.bind (reads_allDimensions _ _ o _) ?_
  refine Reads.bind (reads_u64 _ _) (Reads.bind (reads_u64 _ _) ?_)
  refine Reads.bind (reads_u64 _ _) (Reads.bind (reads_u64 _ _) ?_)
  refine Reads.bind (reads_wireF64 _) (Reads.bind (reads_wireF64 _) ?_)
  refine Reads.bind (reads_enumerator _ _ o.residency) ?_
  refine Reads.bind (reads_enumerator _ _ o.lifecycle) ?_
  refine Reads.bind (reads_wireF64 _) (Reads.bind (reads_wireF64 _) ?_)
  refine Reads.bind (reads_u64 _ _) ?_
  have hd := dependencies_length_le o
  refine Reads.bind (reads_wireCount (by omega) (by omega)) ?_
  refine Reads.bind (reads_allDependencies _ _ _ _ o fun _ => rfl) ?_
  refine Reads.bind (reads_invalidation hs.invalidationReason) ?_
  refine Reads.bind (reads_enumerator _ _ o.provenance) ?_
  exact Reads.pure _

/-! Fields that both formats read, each with its own errors. -/

section

variable {ε ε' : Type}

theorem same_readU64 (e : ε) (e' : ε') : Same (readU64 e) (readU64 e') :=
  (same_number e e' 8).bind fun _ => Same.pure _

theorem same_readId (e : ε) (e' : ε') : Same (readId e) (readId e') :=
  (same_take e e' 16).bind fun _ => Same.pure _

theorem same_readStr (e : ε) (e' : ε') : Same (readStr e) (readStr e') :=
  (same_number e e' 4).bind fun len => same_take e e' len

theorem same_readOpt (t i d : ε) (t' i' d' : ε') : Same (readOpt t i d) (readOpt t' i' d') := by
  refine (same_u8 t t').bind fun present => ?_
  split
  · exact Same.pure none
  · refine (same_ensure i i' _).bind fun _ => ?_
    exact (same_readId d d').bind fun v => Same.pure (some v)

theorem same_readDimensions (t i : ε) (t' i' : ε') (is : List DimensionIndex) (o : WarmthObject) :
    Same (readDimensions t i is o) (readDimensions t' i' is o) := by
  induction is generalizing o with
  | nil => exact Same.pure o
  | cons j is ih => exact (same_enumerator t i t' i').bind fun d => ih _

theorem same_readInvalidation (t r i : ε) (t' r' i' : ε') :
    Same (readInvalidation t r i) (readInvalidation t' r' i') := by
  refine (same_u8 t t').bind fun hasInv => ?_
  split
  · exact (same_readStr r r').bind fun inv => Same.pure (some inv)
  · exact (same_ensure i i' _).bind fun _ => Same.pure none

theorem ensures_dependencies (truncated invalid duplicate truncatedGen : ε) (n : Nat)
    (seen : List DependencyKind) (o : WarmthObject) :
    Ensures (readDependencies truncated invalid duplicate truncatedGen n seen o)
      (fun o' => ∃ gens, o' = { o with depGens := gens }) := by
  induction n generalizing seen o with
  | zero => exact ensures_pure ⟨o.depGens, rfl⟩
  | succ n ih =>
    refine Ensures.skip fun kind => Ensures.skip fun _ => Ensures.skip fun g => ?_
    refine (ih (kind :: seen) _).imp ?_
    rintro o' ⟨gens, rfl⟩
    exact ⟨gens, rfl⟩

/-- Clamping commutes with the loop over the dependency generations. -/
theorem maps_readDependencies (t i d g : ε) (t' i' d' g' : ε') (n : Nat)
    (seen : List DependencyKind) {o raw : WarmthObject} (h : raw.clamped = o) :
    Maps WarmthObject.clamped (readDependencies t i d g n seen o)
      (readDependencies t' i' d' g' n seen raw) := by
  refine Checks.maps ?_
  induction n generalizing seen o raw with
  | zero => exact Checks.pure Iff.rfl h
  | succ n ih =>
    subst h
    refine Checks.step (same_enumerator t i t' i') fun kind => ?_
    refine Checks.step (same_ensure d d' _) fun _ => ?_
    exact Checks.step (same_readU64 g g') fun v => ih (kind :: seen) rfl

end

theorem decodeObject_unclamped : Maps WarmthObject.clamped decodeObject decodeUnclamped := by
  refine Checks.maps ?_
  refine Checks.step (Same.refl _) fun id => Checks.step (Same.refl _) fun cat => ?_
  refine Checks.step (Same.refl _) fun workload => Checks.step (Same.refl _) fun node => ?_
  refine Checks.step (Same.refl _) fun category => Checks.step (Same.refl _) fun device => ?_
  refine Checks.step (Same.refl _) fun backend => Checks.step (Same.refl _) fun owner => ?_
  refine Checks.step (Same.refl _) fun model => Checks.step (Same.refl _) fun artifact => ?_
  refine Checks.step (Same.refl _) fun replica => Checks.step (Same.refl _) fun engine => ?_
  refine Checks.step (Same.refl _) fun state => Checks.step (Same.refl _) fun reason => ?_
  refine Checks.step (Same.refl _) fun obj => Checks.step (Same.refl _) fun lp => ?_
  refine Checks.step (Same.refl _) fun lu => Checks.step (Same.refl _) fun ecb => ?_
  refine Checks.step (Same.refl _) fun mcb => Checks.step (Same.refl _) fun ettr => ?_
  refine Checks.step (Same.refl _) fun ottr => Checks.step (Same.refl _) fun residency => ?_
  refine Checks.step (Same.refl _) fun lifecycle => Checks.step (Same.refl _) fun conf => ?_
  refine Checks.step (Same.refl _) fun fresh => Checks.step (Same.refl _) fun wg => ?_
  refine Checks.step (Same.refl _) fun nd => ?_
  refine Checks.bind (maps_readDependencies _ _ _ _ _ _ _ _ nd [] rfl) (Ensures.trivial _) ?_
  intro raw _
  refine Checks.step (Same.refl _) fun invalidation => Checks.step (Same.refl _) fun prov => ?_
  exact Checks.pure Iff.rfl rfl

/-- An object of the wire format comes back from its bytes, whatever its doubles are. -/
theorem reads_wireObject {o : WarmthObject} (short : o.Short) (settled : o.Settled) :
    Reads decodeObject (encodeObject o) o.stored := by
  intro rest
  refine (decodeObject_unclamped _ _ _).mpr ⟨o.stored, reads_unclamped short rest, ?_⟩
  exact settled.stored.clamped

/-! The snapshot's reader against the wire's. -/

section

variable {α γ : Type} {p : Prop} {P : γ → Prop} {f : γ → α}

theorem Checks.f64 {e : String} {k : Double → Decoder String α} {k' : Double → Decoder Unit γ}
    (hk : ∀ d, Checks (p ∧ d.isFinite = true) P f (k d) (k' d)) :
    Checks p P f (readF64 e >>= k) (wireF64 >>= k') := by
  unfold readF64 wireF64
  simp only [bind_assoc, pure_bind]
  refine Checks.step (same_readU64 e ()) fun bits => Checks.ensure ?_
  have finite : (!(⟨bits⟩ : Double).isNan && !(⟨bits⟩ : Double).isInf) =
      (⟨bits⟩ : Double).isFinite := by
    rw [Bool.eq_iff_iff, Double.isFinite_iff]
    simp
  rw [finite]
  exact hk ⟨bits⟩

/-- The category, which the snapshot's reader checks before the two ids behind it. -/
theorem Checks.category {t i e₁ e₂ : String}
    {k : WarmthCategory → WorkloadId → NodeId → Decoder String α}
    {k' : WarmthCategory → WorkloadId → NodeId → Decoder Unit γ}
    (hk : ∀ c w n, Checks p P f (k c w n) (k' c w n)) :
    Checks p P f
      (do
        let category ← enumerator t i
        let workload ← readId e₁
        let node ← readId e₂
        k category workload node)
      (do
        let cat ← u8 ()
        let workload ← readId ()
        let node ← readId ()
        let category ← known () cat
        k' category workload node) := by
  unfold enumerator
  simp only [bind_assoc]
  refine Checks.step (same_u8 t ()) fun cat => ?_
  cases hc : (ofByte cat : Option WarmthCategory) with
  | some c =>
    simp only [known, hc, pure_bind]
    refine Checks.step (same_readId e₁ ()) fun w => Checks.step (same_readId e₂ ()) fun n => ?_
    exact hk c w n
  | none =>
    simp only [known, hc]
    refine Checks.fail (Ensures.skip fun w => Ensures.skip fun n => ?_)
    exact Ensures.bind (ensures_fail () (P := fun _ => False)) fun _ h => h.elim

end

/-- What a snapshot of generation `g` asks of an object beyond what the wire asks. -/
structure WarmthObject.Storable (g : WarmthGeneration) (raw : WarmthObject) : Prop where
  finite : raw.Finite
  generation : raw.warmthGen.value ≤ g.value

theorem readObject_unclamped (g : WarmthGeneration) :
    Checks True (WarmthObject.Storable g) WarmthObject.clamped (readObject g) decodeUnclamped := by
  refine Checks.step (same_readId _ ()) fun id => Checks.category fun category workload node => ?_
  refine Checks.step (same_readStr _ ()) fun device => ?_
  refine Checks.step (same_readStr _ ()) fun backend => ?_
  refine Checks.step (same_readStr _ ()) fun owner => ?_
  refine Checks.step (same_readOpt _ _ _ () () ()) fun model => ?_
  refine Checks.step (same_readOpt _ _ _ () () ()) fun artifact => ?_
  refine Checks.step (same_readOpt _ _ _ () () ()) fun replica => ?_
  refine Checks.step (same_readOpt _ _ _ () () ()) fun engine => ?_
  refine Checks.step (same_enumerator _ _ () ()) fun state => ?_
  refine Checks.step (same_readStr _ ()) fun reason => ?_
  refine Checks.step (same_readDimensions _ _ () () _ _) fun obj => ?_
  refine Checks.step (same_readU64 _ ()) fun lp => Checks.step (same_readU64 _ ()) fun lu => ?_
  refine Checks.step (same_readU64 _ ()) fun ecb => Checks.step (same_readU64 _ ()) fun mcb => ?_
  refine Checks.f64 fun ettr => Checks.f64 fun ottr => ?_
  refine Checks.step (same_enumerator _ _ () ()) fun residency => ?_
  refine Checks.step (same_enumerator _ _ () ()) fun lifecycle => ?_
  refine Checks.f64 fun conf => Checks.f64 fun fresh => ?_
  refine Checks.step (same_readU64 _ ()) fun wg => ?_
  unfold wireCount
  simp only [bind_assoc, pure_bind]
  refine Checks.step (same_number _ () 4) fun nd => Checks.step (same_ensure _ () _) fun _ => ?_
  refine Checks.bind (maps_readDependencies _ _ _ _ _ _ _ _ nd [] rfl)
    (ensures_dependencies _ _ _ _ nd [] _) ?_
  rintro raw ⟨gens, rfl⟩
  refine Checks.step (same_readInvalidation _ _ _ () () ()) fun invalidation => ?_
  refine Checks.step (same_enumerator _ _ () ()) fun prov => Checks.ensure ?_
  refine Checks.pure ?_ rfl
  constructor
  · rintro ⟨⟨⟨⟨⟨_, he⟩, ho⟩, hc⟩, hf⟩, hg⟩
    exact ⟨⟨he, ho, hc, hf⟩, of_decide_eq_true hg⟩
  · rintro ⟨⟨he, ho, hc, hf⟩, hg⟩
    exact ⟨⟨⟨⟨⟨trivial, he⟩, ho⟩, hc⟩, hf⟩, decide_eq_true hg⟩

/-- The two formats of an object are one: the writers agree on objects without NaN or infinities,
and the snapshot's reader accepts what the wire's accepts, with the same object and the same bytes
left, as long as the doubles it read are finite and the generation is not ahead of the snapshot's. -/
theorem object_codecs_agree :
    (∀ o : WarmthObject, o.Finite → writeObject o = .ok (encodeObject o)) ∧
      ∀ (g : WarmthGeneration) (bytes : Bytes) (o : WarmthObject) (rest : Bytes),
        readObject g bytes = .ok (o, rest) ↔
          decodeObject bytes = .ok (o, rest) ∧
            ∃ raw : WarmthObject, decodeUnclamped bytes = .ok (raw, rest) ∧ raw.clamped = o ∧
              raw.Finite ∧ raw.warmthGen.value ≤ g.value := by
  refine ⟨fun o finite => writeObject_of_finite finite, fun g bytes o rest => ?_⟩
  constructor
  · intro h
    obtain ⟨raw, hraw, ⟨finite, generation⟩, hc⟩ :=
      (readObject_unclamped g bytes o rest).mp ⟨trivial, h⟩
    have accepted := (decodeObject_unclamped bytes o rest).mpr ⟨raw, hraw, hc⟩
    exact ⟨accepted, raw, hraw, hc, finite, generation⟩
  · rintro ⟨_, raw, hraw, hc, finite, generation⟩
    exact ((readObject_unclamped g bytes o rest).mpr ⟨raw, hraw, ⟨finite, generation⟩, hc⟩).2

/-- An invalidated object with optional ids, dependencies and a reason. -/
def linkedObject : WarmthObject where
  id := ⟨0, 9⟩
  device := text "cuda:0"
  backend := text "cuda"
  model := some ⟨0, 4⟩
  engine := some ⟨1, 2⟩
  state := .invalidated
  stateChangeReason := text "worker_boot_changed"
  observedTtrMs := .one
  confidence := .one
  warmthGen := ⟨3⟩
  depGens kind := if kind = .model ∨ kind = .policy then some ⟨7⟩ else none
  invalidationReason := some (text "worker_boot_changed")

/-- The snapshot's reader takes it up to its own generation. -/
theorem object_codecs_agree_linked :
    writeObject linkedObject = .ok (encodeObject linkedObject) ∧
      readObject ⟨3⟩ (encodeObject linkedObject) = .ok (linkedObject, []) ∧
      readObject ⟨2⟩ (encodeObject linkedObject) ≠ .ok (linkedObject, []) := by
  have finite : linkedObject.Finite := ⟨by decide, by decide, by decide, by decide⟩
  have short : linkedObject.Short := by
    refine ⟨by decide, by decide, by decide, by decide, ?_⟩
    intro r hr
    cases hr
    decide
  have settled : linkedObject.Settled := ⟨⟨.one, by decide⟩, ⟨.zero, by decide⟩⟩
  have wire := reads_wireObject short settled []
  have raw := reads_unclamped short []
  rw [List.append_nil] at wire raw
  obtain ⟨writers, readers⟩ := object_codecs_agree
  refine ⟨writers linkedObject finite, ?_, fun accepted => ?_⟩
  · exact (readers ⟨3⟩ _ _ _).mpr ⟨wire, _, raw, settled.clamped, finite, UInt64.le_refl _⟩
  · obtain ⟨-, o, read, -, -, behind⟩ := (readers ⟨2⟩ _ _ _).mp accepted
    cases raw.symm.trans read
    exact absurd behind (by decide)

end Warmth
