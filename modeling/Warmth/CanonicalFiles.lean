import Warmth.SaveLoad
import Warmth.SnapshotAccepted

namespace Warmth

open Codec

/-- An object as a file spells it: the optional ids and the reason by their flags, confidence and
freshness as they were read, and the dependency generations in the order of the file. -/
structure Spelling where
  raw : WarmthObject
  dependencies : List (DependencyKind × DependencyGeneration)

def readDependencyList :
    Nat → List DependencyKind → Decoder Unit (List (DependencyKind × DependencyGeneration))
  | 0, _ => return []
  | n + 1, seen => do
    let kind ← enumerator () ()
    ensure () (!seen.contains kind)
    let g ← readU64 ()
    let rest ← readDependencyList n (kind :: seen)
    return (kind, ⟨g⟩) :: rest

/-- `read_object` without the clamping, which keeps the order of the dependency generations. -/
def readSpelling : Decoder Unit Spelling := do
  let id ← readId ()
  let cat ← u8 ()
  let workload ← readId ()
  let node ← readId ()
  let category ← known () cat
  let device ← readStr ()
  let backend ← readStr ()
  let owner ← readStr ()
  let model ← readOpt () () ()
  let artifact ← readOpt () () ()
  let replica ← readOpt () () ()
  let engine ← readOpt () () ()
  let state ← enumerator () ()
  let reason ← readStr ()
  let obj : WarmthObject := { id, category, workload, node, device, backend }
  let obj := { obj with logicalOwner := owner, model, artifact, replica, engine }
  let obj := obj.restoreState state reason
  let obj ← readDimensions () () DimensionIndex.values obj
  let lp ← readU64 ()
  let lu ← readU64 ()
  let obj := { obj with lastPrepared := lp.toInt64, lastUsed := lu.toInt64 }
  let ecb ← readU64 ()
  let mcb ← readU64 ()
  let ettr ← wireF64
  let ottr ← wireF64
  let obj := { obj with estimatedCostBytes := ecb, measuredCostBytes := mcb }
  let obj := { obj with estimatedTtrMs := ettr, observedTtrMs := ottr }
  let residency ← enumerator () ()
  let lifecycle ← enumerator () ()
  let confidence ← wireF64
  let freshness ← wireF64
  let obj := { obj with residency, lifecycle, confidence, freshness }
  let wg ← readU64 ()
  let obj := { obj with warmthGen := ⟨wg⟩ }
  let nd ← wireCount 64
  let dependencies ← readDependencyList nd []
  let obj := dependencies.foldl (fun o d => o.setDependencyGeneration d.1 d.2) obj
  let invalidationReason ← readInvalidation () () ()
  let provenance ← enumerator () ()
  return ⟨{ obj with invalidationReason, provenance }, dependencies⟩

/-- The objects of a snapshot file: they stand behind the header, the authority and the policy. -/
def readSpellings : Decoder Unit (List Spelling) := do
  let _ ← take () (16 + 32 + 213)
  let n ← number () 4
  times readSpelling n

def WarmthObject.optionalIds (o : WarmthObject) : List (Option Id128) :=
  [o.model, o.artifact, o.replica, o.engine]

/-- The file spells the object as the writer would: no optional id is present and zero, no reason
is present and empty, the dependency kinds ascend, and confidence and freshness lie in [0, 1]. -/
structure Spelling.Canonical (x : Spelling) : Prop where
  ids : ∀ id ∈ x.raw.optionalIds, ∀ v ∈ id, v.isValid = true
  reason : ∀ r ∈ x.raw.invalidationReason, r ≠ []
  kinds : (x.dependencies.map Prod.fst).Pairwise fun j k => toByte j < toByte k
  confidence : x.raw.confidence.inUnit = true
  freshness : x.raw.freshness.inUnit = true

def CanonicalFile (bytes : Bytes) : Prop :=
  ∀ xs rest, readSpellings bytes = .ok (xs, rest) → ∀ x ∈ xs, x.Canonical

/-! The bytes that the readers of single fields have read. -/

section

variable {ε : Type}

theorem exact_readU64 (e : ε) : Exact (readU64 e) u64 := by
  intro s v rest h
  obtain ⟨n, mid, hn, hv⟩ := bind_ok.mp h
  obtain ⟨small, rfl⟩ := number_ok.mp hn
  obtain ⟨rfl, rfl⟩ := pure_ok.mp hv
  refine ⟨_, rfl, ?_⟩
  change beBytes 8 n = beBytes 8 (UInt64.ofNat n).toNat
  rw [UInt64.toNat_ofNat_of_lt' small]

theorem exact_readId (e : ε) : Exact (readId e) Id128.toBytes := by
  intro s x rest h
  obtain ⟨b, mid, hb, hx⟩ := bind_ok.mp h
  obtain ⟨size, rfl⟩ := take_ok.mp hb
  obtain ⟨rfl, rfl⟩ := pure_ok.mp hx
  have first : (b.take 8).length = 8 := by rw [List.length_take, size]; rfl
  have second : ((b.drop 8).take 8).length = 8 := by rw [List.length_take, List.length_drop, size]; rfl
  have high := ofBe_lt (b.take 8)
  have low := ofBe_lt ((b.drop 8).take 8)
  rw [first] at high
  rw [second] at low
  have last : (b.drop 8).take 8 = b.drop 8 :=
    List.take_of_length_le (by rw [List.length_drop, size])
  refine ⟨b, rfl, ?_⟩
  change b = (Id128.fromBytes b).toBytes
  rw [Id128.toBytes, Id128.fromBytes, UInt64.toNat_ofNat_of_lt' high, UInt64.toNat_ofNat_of_lt' low,
    beBytes_ofBe first, beBytes_ofBe second, last, List.take_append_drop]

theorem exact_readStr (e : ε) : Exact (readStr e) str := by
  intro s b rest h
  obtain ⟨n, mid, hn, hb⟩ := bind_ok.mp h
  obtain ⟨-, rfl⟩ := number_ok.mp hn
  obtain ⟨rfl, rfl⟩ := take_ok.mp hb
  exact ⟨str b, by rw [str, u32, List.append_assoc], rfl⟩

def spelledId : Option Id128 → Bytes
  | some id => 1 :: id.toBytes
  | none => [0]

def spelledReason : Option CString → Bytes
  | some r => 1 :: str r
  | none => [0]

theorem exact_readOpt (truncated invalid truncatedId : ε) :
    Exact (readOpt truncated invalid truncatedId) spelledId := by
  refine Exact.bind (exact_u8 truncated) fun present => ?_
  split
  next absent =>
    rw [beq_iff_eq.mp absent]
    exact Spells.pure rfl
  next =>
    refine Spells.check fun one => ?_
    rw [beq_iff_eq.mp one]
    refine Exact.bind (exact_readId truncatedId) fun v => Spells.pure ?_
    rw [List.append_nil]
    rfl

theorem exact_readInvalidation (truncated truncatedReason invalid : ε) :
    Exact (readInvalidation truncated truncatedReason invalid) spelledReason := by
  refine Exact.bind (exact_u8 truncated) fun hasInv => ?_
  split
  next one =>
    rw [beq_iff_eq.mp one]
    refine Exact.bind (exact_readStr truncatedReason) fun inv => Spells.pure ?_
    rw [List.append_nil]
    rfl
  next =>
    refine Spells.check fun absent => ?_
    rw [beq_iff_eq.mp absent]
    exact Spells.pure rfl

theorem spells_dimensions (truncated invalid : ε) {is : List DimensionIndex} (distinct : is.Nodup)
    (o : WarmthObject) :
    Spells (readDimensions truncated invalid is o) fun w o' =>
      w = (is.map fun i => toByte (o'.dimension i)) ∧ o' = { o with dims := o'.dims } ∧
        ∀ i, i ∉ is → o'.dimension i = o.dimension i := by
  induction is generalizing o with
  | nil => exact Spells.pure ⟨rfl, rfl, fun _ _ => rfl⟩
  | cons i is ih =>
    obtain ⟨new, distinct⟩ := List.nodup_cons.mp distinct
    refine Exact.bind (exact_enumerator (by decide) truncated invalid) fun d => ?_
    refine (ih distinct (o.setDimension i d)).imp ?_
    rintro w o' ⟨rfl, frame, kept⟩
    rw [WarmthObject.setDimension_frame] at frame
    refine ⟨?_, frame, fun j hj => ?_⟩
    · rw [List.map_cons, kept i new, WarmthObject.setDimension_dimension, if_pos rfl]
      rfl
    · obtain ⟨hne, hj⟩ := List.ne_and_not_mem_of_not_mem_cons hj
      rw [kept j hj, WarmthObject.setDimension_dimension, if_neg hne]

end

theorem spells_dependencyList (n : Nat) (seen : List DependencyKind) :
    Spells (readDependencyList n seen) fun w ds =>
      w = ds.flatMap dependencyBytes ∧ ds.length = n ∧ (ds.map Prod.fst).Nodup ∧
        ∀ d ∈ ds, d.1 ∉ seen := by
  induction n generalizing seen with
  | zero => exact Spells.pure ⟨rfl, rfl, List.nodup_nil, by simp⟩
  | succ n ih =>
    refine Exact.bind (exact_enumerator (by decide) () ()) fun kind => Spells.check fun new => ?_
    refine Exact.bind (exact_readU64 ()) fun g => Spells.bind (ih (kind :: seen)) ?_
    rintro w ds ⟨rfl, rfl, distinct, fresh⟩
    refine Spells.pure ⟨?_, rfl, ?_, ?_⟩
    · rw [List.append_nil, List.flatMap_cons]
      rfl
    · refine List.nodup_cons.mpr ⟨fun again => ?_, distinct⟩
      obtain ⟨d, hd, same⟩ := List.mem_map.mp again
      exact fresh d hd (same ▸ List.mem_cons_self)
    · intro d hd
      rcases List.mem_cons.mp hd with rfl | hd
      · simpa using new
      · exact fun old => fresh d hd (List.mem_cons_of_mem _ old)

/-- The fields of an object as the file lays them out. -/
def Spelling.fields (x : Spelling) : List Bytes := [
  x.raw.id.toBytes, [toByte x.raw.category], x.raw.workload.toBytes, x.raw.node.toBytes,
  str x.raw.device, str x.raw.backend, str x.raw.logicalOwner,
  spelledId x.raw.model, spelledId x.raw.artifact, spelledId x.raw.replica, spelledId x.raw.engine,
  [toByte x.raw.state], str x.raw.stateChangeReason, x.raw.dimensionBytes,
  u64 x.raw.lastPrepared.toUInt64, u64 x.raw.lastUsed.toUInt64,
  u64 x.raw.estimatedCostBytes, u64 x.raw.measuredCostBytes,
  u64 x.raw.estimatedTtrMs.bits, u64 x.raw.observedTtrMs.bits,
  [toByte x.raw.residency], [toByte x.raw.lifecycle], u64 x.raw.confidence.bits,
  u64 x.raw.freshness.bits, u64 x.raw.warmthGen.value, u32 x.dependencies.length,
  x.dependencies.flatMap dependencyBytes, spelledReason x.raw.invalidationReason,
  [toByte x.raw.provenance]]

/-- The object holds each dependency kind of the file once, with its generation. -/
structure Spelling.Listed (x : Spelling) : Prop where
  distinct : (x.dependencies.map Prod.fst).Nodup
  held : ∀ k, x.raw.depGens k =
    (x.dependencies.foldl (fun o d => o.setDependencyGeneration d.1 d.2) ({} : WarmthObject)).depGens k

theorem exact_wireF64 : Exact wireF64 fun d => u64 d.bits := by
  refine Exact.bind (exact_readU64 ()) fun bits => Spells.pure ?_
  rw [List.append_nil]

theorem exact_wireCount (limit : Nat) : Exact (wireCount limit) u32 := by
  refine Exact.bind (exact_number () 4) fun n => Spells.check fun _ => Spells.pure ?_
  rw [List.append_nil]
  rfl

theorem foldl_setDependencyGeneration_congr {o o' : WarmthObject} (h : o.depGens = o'.depGens)
    (ds : List (DependencyKind × DependencyGeneration)) :
    (ds.foldl (fun o d => o.setDependencyGeneration d.1 d.2) o).depGens =
      (ds.foldl (fun o d => o.setDependencyGeneration d.1 d.2) o').depGens := by
  induction ds generalizing o o' with
  | nil => exact h
  | cons d ds ih =>
    apply ih
    funext k
    rw [WarmthObject.setDependencyGeneration_depGens, WarmthObject.setDependencyGeneration_depGens, h]

theorem spells_spelling :
    Spells readSpelling fun w x => w = x.fields.flatten ∧ x.Listed := by
  refine Exact.bind (exact_readId ()) fun id => Exact.bind (exact_u8 ()) fun cat => ?_
  refine Exact.bind (exact_readId ()) fun workload => Exact.bind (exact_readId ()) fun node => ?_
  refine Spells.bind (spells_known (by decide) () cat) ?_
  rintro _ category ⟨rfl, rfl⟩
  refine Exact.bind (exact_readStr ()) fun device => Exact.bind (exact_readStr ()) fun backend => ?_
  refine Exact.bind (exact_readStr ()) fun owner => ?_
  refine Exact.bind (exact_readOpt () () ()) fun model => ?_
  refine Exact.bind (exact_readOpt () () ()) fun artifact => ?_
  refine Exact.bind (exact_readOpt () () ()) fun replica => ?_
  refine Exact.bind (exact_readOpt () () ()) fun engine => ?_
  refine Exact.bind (exact_enumerator (by decide) () ()) fun state => ?_
  refine Exact.bind (exact_readStr ()) fun reason => ?_
  refine Spells.bind (spells_dimensions () () (by decide) _) ?_
  rintro _ o ⟨rfl, frame, -⟩
  refine Exact.bind (exact_readU64 ()) fun lp => Exact.bind (exact_readU64 ()) fun lu => ?_
  refine Exact.bind (exact_readU64 ()) fun ecb => Exact.bind (exact_readU64 ()) fun mcb => ?_
  refine Exact.bind exact_wireF64 fun ettr => Exact.bind exact_wireF64 fun ottr => ?_
  refine Exact.bind (exact_enumerator (by decide) () ()) fun residency => ?_
  refine Exact.bind (exact_enumerator (by decide) () ()) fun lifecycle => ?_
  refine Exact.bind exact_wireF64 fun confidence => Exact.bind exact_wireF64 fun freshness => ?_
  refine Exact.bind (exact_readU64 ()) fun wg => Exact.bind (exact_wireCount 64) fun nd => ?_
  refine Spells.bind (spells_dependencyList nd []) ?_
  rintro _ ds ⟨rfl, rfl, distinct, -⟩
  refine Exact.bind (exact_readInvalidation () () ()) fun invalidation => ?_
  refine Exact.bind (exact_enumerator (by decide) () ()) fun provenance => Spells.pure ?_
  constructor
  · rw [foldl_setDependencyGeneration_eq, frame]
    rfl
  · refine ⟨distinct, fun k => congrFun ?_ k⟩
    apply foldl_setDependencyGeneration_congr
    rw [frame]
    rfl

def Spelling.object (x : Spelling) : WarmthObject := x.raw.clamped

theorem maps_dependencyList (n : Nat) (seen : List DependencyKind) (o : WarmthObject) :
    Maps (fun ds => ds.foldl (fun o d => o.setDependencyGeneration d.1 d.2) o)
      (readDependencies () () () () n seen o) (readDependencyList n seen) := by
  refine Checks.maps ?_
  induction n generalizing seen o with
  | zero => exact Checks.pure Iff.rfl rfl
  | succ n ih =>
    refine Checks.step (Same.refl _) fun kind => Checks.step (Same.refl _) fun _ => ?_
    refine Checks.step (Same.refl _) fun g => ?_
    rw [← bind_pure (readDependencies () () () () n (kind :: seen) (o.setDependencyGeneration kind ⟨g⟩))]
    exact Checks.bind (ih (kind :: seen) _).maps (Ensures.trivial _) fun ds _ => Checks.pure Iff.rfl rfl

theorem decodeUnclamped_spelled : Maps Spelling.raw decodeUnclamped readSpelling := by
  refine Checks.maps ?_
  refine Checks.step (Same.refl _) fun id => Checks.step (Same.refl _) fun cat => ?_
  refine Checks.step (Same.refl _) fun workload => Checks.step (Same.refl _) fun node => ?_
  refine Checks.step (Same.refl _) fun category => Checks.step (Same.refl _) fun device => ?_
  refine Checks.step (Same.refl _) fun backend => Checks.step (Same.refl _) fun owner => ?_
  refine Checks.step (Same.refl _) fun model => Checks.step (Same.refl _) fun artifact => ?_
  refine Checks.step (Same.refl _) fun replica => Checks.step (Same.refl _) fun engine => ?_
  refine Checks.step (Same.refl _) fun state => Checks.step (Same.refl _) fun reason => ?_
  refine Checks.step (Same.refl _) fun obj => Checks.step (Same.refl _) fun lp => ?_
  refine Checks.step (Same.refl _) fun lu => Checks.step (Same.refl _) fun ecb => ?_
  refine Checks.step (Same.refl _) fun mcb => Checks.step (Same.refl _) fun ettr => ?_
  refine Checks.step (Same.refl _) fun ottr => Checks.step (Same.refl _) fun residency => ?_
  refine Checks.step (Same.refl _) fun lifecycle => Checks.step (Same.refl _) fun conf => ?_
  refine Checks.step (Same.refl _) fun fresh => Checks.step (Same.refl _) fun wg => ?_
  refine Checks.step (Same.refl _) fun nd => ?_
  refine Checks.bind (maps_dependencyList nd [] _) (Ensures.trivial _) fun ds _ => ?_
  refine Checks.step (Same.refl _) fun invalidation => Checks.step (Same.refl _) fun prov => ?_
  exact Checks.pure Iff.rfl rfl

theorem readObject_spelled {g : WarmthGeneration} {bytes rest : Bytes} {o : WarmthObject}
    (h : readObject g bytes = .ok (o, rest)) :
    ∃ x, readSpelling bytes = .ok (x, rest) ∧ x.object = o := by
  obtain ⟨raw, unclamped, -, rfl⟩ := (readObject_unclamped g bytes o rest).mp ⟨trivial, h⟩
  obtain ⟨x, read, rfl⟩ := (decodeUnclamped_spelled bytes raw rest).mp unclamped
  exact ⟨x, read, rfl⟩

theorem readObjects_spelled {g : WarmthGeneration} {n i : Nat} {ids : List CString}
    {bytes rest : Bytes} {objects : List WarmthObject}
    (h : readObjects g n i ids bytes = .ok (objects, rest)) :
    ∃ xs, times readSpelling n bytes = .ok (xs, rest) ∧ xs.map Spelling.object = objects := by
  induction n generalizing i ids bytes objects with
  | zero =>
    obtain ⟨rfl, rfl⟩ := pure_ok.mp h
    exact ⟨[], rfl, rfl⟩
  | succ n ih =>
    obtain ⟨o, mid, ho, h⟩ := bind_ok.mp h
    obtain ⟨_, mid', hc, h⟩ := bind_ok.mp h
    obtain ⟨-, rfl⟩ := ensure_ok.mp hc
    obtain ⟨others, _, hr, h⟩ := bind_ok.mp h
    obtain ⟨rfl, rfl⟩ := pure_ok.mp h
    have first : readObject g bytes = .ok (o, mid) := by
      unfold relabel at ho
      split at ho
      next p hp => rw [hp, ho]
      next => cases ho
    obtain ⟨x, hx, rfl⟩ := readObject_spelled first
    obtain ⟨xs, hxs, rfl⟩ := ih hr
    exact ⟨x :: xs, bind_ok.mpr ⟨x, mid, hx, bind_ok.mpr ⟨xs, _, hxs, rfl⟩⟩, rfl⟩

/-! Spellings against what the writer writes. -/

theorem mem_foldl_setDependencyGeneration {ds : List (DependencyKind × DependencyGeneration)}
    (distinct : (ds.map Prod.fst).Nodup) (o : WarmthObject) (k : DependencyKind)
    (g : DependencyGeneration) :
    (ds.foldl (fun o d => o.setDependencyGeneration d.1 d.2) o).depGens k = some g ↔
      (k, g) ∈ ds ∨ (k ∉ ds.map Prod.fst ∧ o.depGens k = some g) := by
  induction ds generalizing o with
  | nil => simp
  | cons d ds ih =>
    obtain ⟨new, distinct⟩ := List.nodup_cons.mp distinct
    rw [List.foldl_cons, ih distinct, WarmthObject.setDependencyGeneration_depGens]
    by_cases hk : k = d.1
    · subst hk
      have absent : (d.1, g) ∉ ds := fun hd => new (List.mem_map.mpr ⟨(d.1, g), hd, rfl⟩)
      constructor
      · rintro (hd | ⟨-, held⟩)
        · exact absurd hd absent
        · rw [if_pos rfl] at held
          cases held
          exact Or.inl List.mem_cons_self
      · rintro (hd | ⟨other, -⟩)
        · rcases List.mem_cons.mp hd with same | hd
          · refine Or.inr ⟨new, ?_⟩
            rw [if_pos rfl, ← same]
          · exact absurd hd absent
        · exact absurd List.mem_cons_self other
    · have other : (k, g) ≠ d := fun same => hk (congrArg Prod.fst same)
      simp [hk, other]

theorem kinds_dependencies (o : WarmthObject) :
    (o.dependencies.map Prod.fst).Pairwise fun j k => toByte j < toByte k := by
  have ascending : (ByteEnum.values : List DependencyKind).Pairwise fun j k => toByte j < toByte k := by
    decide
  rw [map_fst_dependencies]
  exact ascending.filter _

theorem mem_dependencies {o : WarmthObject} {k : DependencyKind} {g : DependencyGeneration} :
    (k, g) ∈ o.dependencies ↔ o.depGens k = some g := by
  unfold WarmthObject.dependencies
  rw [List.mem_filterMap]
  constructor
  · rintro ⟨j, -, held⟩
    obtain ⟨g', hg, same⟩ := Option.map_eq_some_iff.mp held
    cases same
    exact hg
  · intro held
    exact ⟨k, mem_enumerators k, by rw [held]; rfl⟩

/-- Ascending dependency generations are listed by the object as the file lists them. -/
theorem Spelling.Listed.dependencies {x : Spelling} (listed : x.Listed)
    (ascending : (x.dependencies.map Prod.fst).Pairwise fun j k => toByte j < toByte k) :
    x.raw.dependencies = x.dependencies := by
  have members (d : DependencyKind × DependencyGeneration) :
      d ∈ x.raw.dependencies ↔ d ∈ x.dependencies := by
    obtain ⟨k, g⟩ := d
    rw [mem_dependencies, listed.held, mem_foldl_setDependencyGeneration listed.distinct]
    exact or_iff_left fun none => nomatch none.2
  have nodup : x.raw.dependencies.Nodup := (nodup_dependencies x.raw).of_map
  have same := (List.perm_ext_iff_of_nodup nodup listed.distinct.of_map).mpr members
  have left : x.raw.dependencies.Pairwise fun c d => toByte c.1 < toByte d.1 :=
    (List.pairwise_map (R := fun j k => toByte j < toByte k)).mp (kinds_dependencies x.raw)
  have right : x.dependencies.Pairwise fun c d => toByte c.1 < toByte d.1 :=
    (List.pairwise_map (R := fun j k => toByte j < toByte k)).mp ascending
  refine List.Perm.eq_of_pairwise (fun c d _ _ below above => ?_) left right same
  exact absurd (UInt8.lt_trans below above) (UInt8.lt_irrefl _)

theorem spelledId_eq {id : Option Id128} (h : ∀ v ∈ id, v.isValid = true) :
    spelledId id = optionalId id := by
  cases id with
  | none => rfl
  | some v => exact (if_pos (h v rfl)).symm

theorem spelledReason_eq {reason : Option CString} (h : ∀ r ∈ reason, r ≠ []) :
    spelledReason reason = optionalReason reason := by
  cases reason with
  | none => rfl
  | some r =>
    have some : r.isEmpty = false := by simpa using h r rfl
    simp only [spelledReason, optionalReason, some, Bool.false_eq_true, if_false]

theorem Spelling.Canonical.fields {x : Spelling} (h : x.Canonical) (listed : x.Listed) :
    x.fields = objectFields x.object := by
  have settled : x.object = x.raw := by
    apply WarmthObject.Settled.clamped
    exact ⟨⟨_, (Double.clampUnit_of_inUnit h.confidence).symm⟩,
      ⟨_, (Double.clampUnit_of_inUnit h.freshness).symm⟩⟩
  have ids := h.ids
  simp only [WarmthObject.optionalIds, List.forall_mem_cons, List.not_mem_nil, false_implies,
    implies_true, and_true] at ids
  rw [settled, Spelling.fields, objectFields, spelledId_eq ids.1, spelledId_eq ids.2.1,
    spelledId_eq ids.2.2.1, spelledId_eq ids.2.2.2, spelledReason_eq h.reason,
    listed.dependencies h.kinds]

theorem spells_objects (n : Nat) : Spells (times readSpelling n) fun w xs =>
    w = (xs.flatMap fun x => x.fields.flatten) ∧ xs.length = n ∧ ∀ x ∈ xs, x.Listed :=
  spells_times spells_spelling n

theorem reads_dependencyList {ds : List (DependencyKind × DependencyGeneration)}
    {seen : List DependencyKind} (distinct : (ds.map Prod.fst).Nodup) (fresh : ∀ d ∈ ds, d.1 ∉ seen) :
    Reads (readDependencyList ds.length seen) (ds.flatMap dependencyBytes) ds := by
  induction ds generalizing seen with
  | nil => exact Reads.pure []
  | cons d ds ih =>
    obtain ⟨new, distinct⟩ := List.nodup_cons.mp distinct
    have unseen : (!seen.contains d.1) = true := by simpa using fresh d List.mem_cons_self
    have later : ∀ e ∈ ds, e.1 ∉ d.1 :: seen := by
      intro e he hm
      rcases List.mem_cons.mp hm with same | old
      · exact new (List.mem_map.mpr ⟨e, he, same⟩)
      · exact fresh e (List.mem_cons_of_mem _ he) old
    rw [List.flatMap_cons, show dependencyBytes d = [toByte d.1] ++ u64 d.2.value from rfl,
      List.append_assoc, List.length_cons, readDependencyList]
    refine Reads.bind (reads_enumerator () () d.1) (Reads.bind_nil (reads_ensure unseen) ?_)
    refine Reads.bind (reads_u64 () d.2.value) (Reads.last (ih distinct later) ?_)
    exact Reads.pure _

/-- The writer's own spelling. -/
def WarmthObject.spelling (o : WarmthObject) : Spelling := ⟨o.stored, o.dependencies⟩

theorem reads_spelling {o : WarmthObject} (short : o.Short) :
    Reads readSpelling (objectFields o).flatten o.spelling := by
  simp only [objectFields, List.flatten_cons, List.flatten_nil]
  refine Reads.bind (reads_id _ o.id) (Reads.bind (reads_u8 _ _) ?_)
  refine Reads.bind (reads_id _ o.workload) (Reads.bind (reads_id _ o.node) ?_)
  refine Reads.bind_nil (reads_known _ o.category) ?_
  refine Reads.bind (reads_str short.device) (Reads.bind (reads_str short.backend) ?_)
  refine Reads.bind (reads_str short.logicalOwner) ?_
  refine Reads.bind (reads_opt _ _ _ o.model) (Reads.bind (reads_opt _ _ _ o.artifact) ?_)
  refine Reads.bind (reads_opt _ _ _ o.replica) (Reads.bind (reads_opt _ _ _ o.engine) ?_)
  refine Reads.bind (reads_enumerator _ _ o.state) ?_
  refine Reads.bind (reads_str short.stateChangeReason) ?_
  refine Reads.bind (reads_allDimensions _ _ o _) ?_
  refine Reads.bind (reads_u64 _ _) (Reads.bind (reads_u64 _ _) ?_)
  refine Reads.bind (reads_u64 _ _) (Reads.bind (reads_u64 _ _) ?_)
  refine Reads.bind (reads_wireF64 _) (Reads.bind (reads_wireF64 _) ?_)
  refine Reads.bind (reads_enumerator _ _ o.residency) ?_
  refine Reads.bind (reads_enumerator _ _ o.lifecycle) ?_
  refine Reads.bind (reads_wireF64 _) (Reads.bind (reads_wireF64 _) ?_)
  refine Reads.bind (reads_u64 _ _) ?_
  have few := dependencies_length_le o
  refine Reads.bind (reads_wireCount (by omega) (by omega)) ?_
  refine Reads.bind (reads_dependencyList (nodup_dependencies o) fun _ _ => List.not_mem_nil) ?_
  rw [foldl_dependencies fun _ => rfl]
  refine Reads.bind (reads_invalidation short.invalidationReason) ?_
  refine Reads.bind (reads_enumerator _ _ o.provenance) ?_
  exact Reads.pure _

theorem canonical_spelling {o : WarmthObject} (numeric : o.Numeric) : o.spelling.Canonical := by
  refine ⟨?_, ?_, kinds_dependencies o, numeric.confidence, numeric.freshness⟩
  · have valid (id : Option Id128) : ∀ v ∈ storedId id, v.isValid = true :=
      fun v hv => (Option.filter_eq_some_iff.mp hv).2
    simp only [WarmthObject.optionalIds, WarmthObject.spelling, WarmthObject.stored,
      List.forall_mem_cons, List.not_mem_nil, false_implies, implies_true, and_true]
    exact ⟨valid _, valid _, valid _, valid _⟩
  · intro r hr
    have some := (Option.filter_eq_some_iff.mp hr).2
    simpa using some

def objectsFields (objects : List WarmthObject) : Bytes :=
  (objects.map fun o => (objectFields o).flatten).flatten

/-- The writer reproduces the bytes of the objects just where the file spells them as it does. -/
theorem rewritten_iff {xs : List Spelling} {bytes : Bytes} {n : Nat}
    (read : times readSpelling n bytes = .ok (xs, []))
    (numeric : ∀ o ∈ xs.map Spelling.object, o.Numeric) (size : bytes.length < 2 ^ 32) :
    objectsFields (xs.map Spelling.object) = bytes ↔ ∀ x ∈ xs, x.Canonical := by
  obtain ⟨w, whole, spelled, rfl, listed⟩ := spells_objects n bytes xs [] read
  rw [List.append_nil] at whole
  subst whole
  rw [objectsFields, ← List.flatMap_def]
  constructor
  · intro same
    have short : ∀ o ∈ xs.map Spelling.object, o.Short := by
      intro o ho
      have one := List.le_sum_of_mem (List.mem_map_of_mem (f := objectSize) ho)
      rw [← objectsFields_length, ← List.flatMap_def, same] at one
      exact WarmthObject.short_of_size (Nat.lt_of_le_of_lt one size)
    have again := reads_times (d := readSpelling) (xs.map Spelling.object)
      (fun o ho => reads_spelling (short o ho)) []
    rw [List.append_nil, same, List.length_map, read] at again
    have own : xs = (xs.map Spelling.object).map WarmthObject.spelling :=
      congrArg Prod.fst (Except.ok.inj again)
    intro x hx
    rw [own] at hx
    obtain ⟨o, ho, rfl⟩ := List.mem_map.mp hx
    exact canonical_spelling (numeric o ho)
  · intro canonical
    rw [spelled, List.flatMap_map]
    apply List.flatMap_congr
    intro x hx
    rw [(canonical x hx).fields (listed x hx)]

/-! The bytes of a whole file. -/

theorem exact_readF64 (e : String) : Exact (readF64 e) fun d => u64 d.bits := by
  refine Exact.bind (exact_readU64 e) fun bits => Spells.check fun _ => Spells.pure ?_
  rw [List.append_nil]

theorem exact_flag : Exact readFlag flag := by
  refine Exact.bind (exact_u8 "") fun b => Spells.check fun small => Spells.pure ?_
  have few : b = 0 ∨ b = 1 := by
    have bound := UInt8.le_iff_toNat_le.mp (of_decide_eq_true small)
    rw [← UInt8.toNat_inj, ← UInt8.toNat_inj]
    change b.toNat = 0 ∨ b.toNat = 1
    change b.toNat ≤ 1 at bound
    omega
  rcases few with rfl | rfl
  · rfl
  · rfl

theorem exact_policy : Exact readPolicy fun p => (policyFields p).flatten := by
  refine Exact.bind (exact_readU64 _) fun gen => ?_
  refine Exact.bind (exact_readF64 _) fun v0 => Exact.bind (exact_readF64 _) fun v1 => ?_
  refine Exact.bind (exact_readF64 _) fun v2 => Exact.bind (exact_readF64 _) fun v3 => ?_
  refine Exact.bind (exact_readF64 _) fun v4 => Exact.bind exact_flag fun f0 => ?_
  refine Exact.bind exact_flag fun f1 => Exact.bind exact_flag fun f2 => ?_
  refine Exact.bind exact_flag fun f3 => Exact.bind exact_flag fun f4 => ?_
  refine Exact.bind (exact_readU64 _) fun b0 => Exact.bind (exact_readU64 _) fun b1 => ?_
  refine Exact.bind (exact_readU64 _) fun b2 => Exact.bind (exact_readU64 _) fun b3 => ?_
  refine Exact.bind (exact_readU64 _) fun b4 => Exact.bind (exact_readU64 _) fun b5 => ?_
  refine Exact.bind (exact_readU64 _) fun b6 => Exact.bind (exact_readU64 _) fun b7 => ?_
  refine Exact.bind (exact_readF64 _) fun w0 => Exact.bind (exact_readF64 _) fun w1 => ?_
  refine Exact.bind (exact_readF64 _) fun w2 => Exact.bind (exact_readF64 _) fun w3 => ?_
  refine Exact.bind (exact_readF64 _) fun w4 => Exact.bind (exact_readF64 _) fun w5 => ?_
  refine Exact.bind (exact_readF64 _) fun w6 => Exact.bind (exact_readF64 _) fun w7 => ?_
  refine Exact.bind (exact_readF64 _) fun w8 => Exact.bind (exact_readF64 _) fun w9 => ?_
  refine Exact.bind (exact_readF64 _) fun w10 => Exact.bind (exact_readF64 _) fun w11 => ?_
  exact Spells.pure rfl

/-- The payload in front of the objects. -/
def authorityFields (s : Snapshot) : List Bytes := [
  u64 s.epoch.value, u64 s.warmthGeneration.value, u64 s.dependencyGeneration.value,
  u64 s.policyGeneration.value, (policyFields s.policy).flatten]

theorem authorityFields_length (s : Snapshot) : (authorityFields s).flatten.length = 32 + 213 := by
  simp only [authorityFields, List.flatten_cons, List.flatten_nil, List.length_append, u64_length,
    policyFields_length, List.length_nil]

theorem snapshotFields_split (s : Snapshot) : (snapshotFields s).flatten =
    (authorityFields s).flatten ++ (u32 s.objects.length ++ objectsFields s.objects) := by
  simp only [snapshotFields, authorityFields, objectsFields, List.flatten_cons, List.flatten_nil,
    List.append_nil, List.append_assoc]

theorem readBody_spelled {payload : Bytes} {s : Snapshot} (h : readBody payload = .ok (s, [])) :
    ∃ objects xs,
      payload = (authorityFields s).flatten ++ (u32 s.objects.length ++ objects) ∧
      times readSpelling s.objects.length objects = .ok (xs, []) ∧
      xs.map Spelling.object = s.objects := by
  obtain ⟨epoch, _, h₁, h⟩ := bind_ok.mp h
  obtain ⟨wgen, _, h₂, h⟩ := bind_ok.mp h
  obtain ⟨dgen, _, h₃, h⟩ := bind_ok.mp h
  obtain ⟨pgen, _, h₄, h⟩ := bind_ok.mp h
  obtain ⟨policy, afterPolicy, h₅, h⟩ := bind_ok.mp h
  obtain ⟨_, _, h₆, h⟩ := bind_ok.mp h
  obtain ⟨n, _, h₇, h⟩ := bind_ok.mp h
  obtain ⟨_, _, h₈, h⟩ := bind_ok.mp h
  obtain ⟨objects, _, h₉, h⟩ := bind_ok.mp h
  obtain ⟨rfl, rfl⟩ := pure_ok.mp h
  obtain ⟨-, rfl⟩ := ensure_ok.mp h₆
  obtain ⟨-, rfl⟩ := ensure_ok.mp h₈
  have count := (ensures_objects ⟨wgen⟩ n 0 [] _ _ _ h₉).1
  subst count
  obtain ⟨xs, read, own⟩ := readObjects_spelled h₉
  refine ⟨_, xs, ?_, read, own⟩
  rw [(exact_readU64 _).apply h₁, (exact_readU64 _).apply h₂, (exact_readU64 _).apply h₃,
    (exact_readU64 _).apply h₄, Exact.apply (exact_policy.relabel _) h₅,
    (exact_number _ 4).apply h₇]
  simp only [authorityFields, List.flatten_cons, List.flatten_nil, List.append_nil, List.append_assoc]
  rfl

theorem withHeader_inj {p q : Bytes} : withHeader p = withHeader q ↔ p = q := by
  constructor
  · intro same
    have tail (r : Bytes) : (withHeader r).drop 16 = r := List.drop_left' (by simp)
    rw [← tail p, same, tail q]
  · exact fun same => congrArg withHeader same

theorem readSpellings_file {s : Snapshot} {objects rest : Bytes} {xs : List Spelling}
    (few : s.objects.length < 2 ^ 32)
    (read : times readSpelling s.objects.length objects = .ok (xs, rest)) :
    readSpellings (withHeader ((authorityFields s).flatten ++ (u32 s.objects.length ++ objects))) =
      .ok (xs, rest) := by
  have header (payload : Bytes) : ∃ head : Bytes, head.length = 16 ∧ withHeader payload = head ++ payload :=
    ⟨_, by simp, rfl⟩
  obtain ⟨head, size, whole⟩ :=
    header ((authorityFields s).flatten ++ (u32 s.objects.length ++ objects))
  have front : Reads (take () (16 + 32 + 213)) (head ++ (authorityFields s).flatten) _ :=
    reads_take_of_length (by rw [List.length_append, size, authorityFields_length])
  rw [whole, ← List.append_assoc, readSpellings, front.apply, (reads_u32 few).apply, read]

theorem canonicalFile_iff {bytes : Bytes} {s : Snapshot} (h : decodeSnapshot bytes = .ok s) :
    encodeSnapshot s = .ok bytes ↔ CanonicalFile bytes := by
  obtain ⟨payload, small, rfl, body⟩ := decodeSnapshot_ok.mp h
  have wf := (decodeSnapshot_wellFormed h).1
  have encoded := encodeSnapshot_eq wf.policyFinite wf.numeric
  obtain ⟨objects, xs, rfl, read, own⟩ := readBody_spelled body
  have few : s.objects.length < 2 ^ 32 := Nat.lt_of_le_of_lt wf.count (by decide)
  have spelled := readSpellings_file few read
  have canonical : CanonicalFile (withHeader ((authorityFields s).flatten ++
      (u32 s.objects.length ++ objects))) ↔ ∀ x ∈ xs, x.Canonical := by
    constructor
    · exact fun file => file xs [] spelled
    · intro all ys rest again
      rw [spelled] at again
      cases again
      exact all
  rw [canonical, encoded, Except.ok.injEq, withHeader_inj, snapshotFields_split,
    List.append_cancel_left_eq, List.append_cancel_left_eq, ← own]
  rw [List.length_append, List.length_append] at small
  exact rewritten_iff read (own ▸ wf.numeric) (by omega)

/-- Decoding an accepted file and encoding the snapshot again never throws, and it gives the same
bytes just where the file spells its objects as the writer does. -/
theorem resave_identical_iff {bytes : Bytes} {s : Snapshot} (h : decodeSnapshot bytes = .ok s) :
    (∃ again, encodeSnapshot s = .ok again) ∧
      (encodeSnapshot s = .ok bytes ↔ CanonicalFile bytes) := by
  have wf := (decodeSnapshot_wellFormed h).1
  exact ⟨⟨_, encodeSnapshot_eq wf.policyFinite wf.numeric⟩, canonicalFile_iff h⟩

/-- One object whose model id is marked present and is zero. -/
def zeroModelPayload : Bytes :=
  [u64 0, u64 0, u64 0, u64 1, (policyFields (.defaults ⟨1⟩)).flatten, u32 1,
    (Spelling.mk { id := ⟨0, 1⟩, model := some ⟨0, 0⟩ } []).fields.flatten].flatten

theorem zeroModel_accepted : ∃ s, decodeSnapshot (withHeader zeroModelPayload) = .ok s := by
  have small : zeroModelPayload.length < 2 ^ 32 := by decide +kernel
  have accepted : (readPayload zeroModelPayload).isOk = true := by decide +kernel
  rw [decodeSnapshot_withHeader small]
  cases h : readPayload zeroModelPayload with
  | ok p => exact ⟨p.1, rfl⟩
  | error e =>
    rw [h] at accepted
    cases accepted

theorem resave_zeroModel :
    ∃ s, decodeSnapshot (withHeader zeroModelPayload) = .ok s ∧
      (∃ again, encodeSnapshot s = .ok again) ∧
      (encodeSnapshot s = .ok (withHeader zeroModelPayload) ↔
        CanonicalFile (withHeader zeroModelPayload)) := by
  obtain ⟨s, h⟩ := zeroModel_accepted
  exact ⟨s, h, resave_identical_iff h⟩

def marksZeroModel (r : Except Unit (List Spelling × Bytes)) : Bool :=
  match r with
  | .ok (xs, _) => xs.any fun x => x.raw.model == some ⟨0, 0⟩
  | .error _ => false

theorem not_canonicalFile {bytes : Bytes} (h : marksZeroModel (readSpellings bytes) = true) :
    ¬CanonicalFile bytes := by
  intro canonical
  cases read : readSpellings bytes with
  | error e =>
    rw [read] at h
    cases h
  | ok p =>
    rw [read] at h
    obtain ⟨x, hx, marked⟩ := List.any_eq_true.mp h
    have model : x.raw.model = some ⟨0, 0⟩ := beq_iff_eq.mp marked
    have valid := (canonical p.1 p.2 read x hx).ids x.raw.model List.mem_cons_self _ model
    cases valid

theorem resave_changes_bytes :
    ∃ bytes s, decodeSnapshot bytes = .ok s ∧ encodeSnapshot s ≠ .ok bytes := by
  obtain ⟨s, h⟩ := zeroModel_accepted
  have spelled : marksZeroModel (readSpellings (withHeader zeroModelPayload)) = true := by
    decide +kernel
  exact ⟨_, s, h, fun same => not_canonicalFile spelled ((canonicalFile_iff h).mp same)⟩

end Warmth
