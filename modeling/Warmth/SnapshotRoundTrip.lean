import Warmth.ObjectCodecs

namespace Warmth

open Codec

/-- The numbers of an object that a snapshot can hold. -/
structure WarmthObject.Numeric (o : WarmthObject) : Prop where
  estimatedTtrMs : o.estimatedTtrMs.isFinite = true
  observedTtrMs : o.observedTtrMs.isFinite = true
  confidence : o.confidence.inUnit = true
  freshness : o.freshness.inUnit = true

theorem WarmthObject.numeric_of_zero {o : WarmthObject} (he : o.estimatedTtrMs = .zero)
    (ho : o.observedTtrMs = .zero) (hc : o.confidence = .zero) (hf : o.freshness = .zero) :
    o.Numeric := by
  refine ⟨?_, ?_, ?_, ?_⟩
  · rw [he]; decide
  · rw [ho]; decide
  · rw [hc]; decide
  · rw [hf]; decide

/-- The relations between the fields of a snapshot that the decoder enforces. -/
structure Snapshot.WellFormed (s : Snapshot) : Prop where
  distinct : (s.objects.map WarmthObject.id).Nodup
  generations : ∀ o ∈ s.objects, o.warmthGen.value ≤ s.warmthGeneration.value
  policyGeneration : s.policy.generation = s.policyGeneration
  count : s.objects.length ≤ 1000000
  policyFinite : s.policy.Finite
  numeric : ∀ o ∈ s.objects, o.Numeric

def Snapshot.stored (s : Snapshot) : Snapshot :=
  { s with formatVersion := 1, objects := s.objects.map WarmthObject.stored }

theorem reads_f64 (e : String) {d : Double} (h : d.isFinite = true) :
    Reads (readF64 e) (u64 d.bits) d := by
  obtain ⟨hn, hi⟩ := Double.isFinite_iff.mp h
  refine Reads.last (reads_u64 e d.bits) ?_
  exact Reads.bind_nil (reads_ensure (by simp [hn, hi])) (Reads.pure d)

theorem reads_flag (b : Bool) : Reads readFlag (flag b) b := by
  cases b
  all_goals
    refine Reads.last (reads_u8 "" _) ?_
    exact Reads.bind_nil (reads_ensure (by decide)) (Reads.pure _)

theorem WarmthObject.Numeric.finite {o : WarmthObject} (h : o.Numeric) : o.Finite :=
  ⟨h.estimatedTtrMs, h.observedTtrMs, Double.isFinite_of_inUnit h.confidence,
    Double.isFinite_of_inUnit h.freshness⟩

theorem WarmthObject.Numeric.settled {o : WarmthObject} (h : o.Numeric) : o.Settled :=
  ⟨⟨o.confidence, (Double.clampUnit_of_inUnit h.confidence).symm⟩,
    ⟨o.freshness, (Double.clampUnit_of_inUnit h.freshness).symm⟩⟩

theorem writeObject_eq {o : WarmthObject} (h : o.Numeric) :
    writeObject o = .ok (objectFields o).flatten := by
  rw [writeObject_of_finite h.finite, objectFields_flatten]

theorem reads_object {o : WarmthObject} {g : WarmthGeneration} (hn : o.Numeric) (hs : o.Short)
    (hg : o.warmthGen.value ≤ g.value) :
    Reads (readObject g) (objectFields o).flatten o.stored := by
  intro rest
  rw [objectFields_flatten]
  have finite : o.stored.Finite :=
    ⟨hn.finite.estimatedTtrMs, hn.finite.observedTtrMs, hn.finite.confidence, hn.finite.freshness⟩
  have raw := reads_unclamped hs rest
  exact ((readObject_unclamped g _ _ _).mpr
    ⟨o.stored, raw, ⟨finite, hg⟩, hn.settled.stored.clamped⟩).2

def policyFields (p : WarmthPolicy) : List Bytes :=
  [u64 p.generation.value] ++ p.decay.thresholds.map (fun d => u64 d.bits) ++
    p.decay.flags.map flag ++ p.budgets.amounts.map u64 ++
    (policyWeights p).map (fun d => u64 d.bits)

theorem map_f64 {ds : List Double} (h : ∀ d ∈ ds, d.isFinite = true) :
    ds.map f64 = (ds.map fun d => u64 d.bits).map Except.ok := by
  rw [List.map_map]
  exact List.map_congr_left fun d hd => f64_of_isFinite (h d hd)

theorem writePolicy_eq {p : WarmthPolicy} (h : p.Finite) :
    writePolicy p = .ok (policyFields p).flatten := by
  rw [writePolicy, map_f64 h.1, map_f64 h.2, ← pieces_ok (policyFields p)]
  simp only [policyFields, List.map_append, List.map_map, List.map_cons, List.map_nil]
  rfl

theorem reads_policy {p : WarmthPolicy} (h : p.Finite) :
    Reads readPolicy (policyFields p).flatten p := by
  obtain ⟨hd, hw⟩ := h
  simp only [DecayPolicy.thresholds, policyWeights, List.forall_mem_cons, List.not_mem_nil,
    false_implies, implies_true, and_true] at hd hw
  obtain ⟨d0, d1, d2, d3, d4⟩ := hd
  obtain ⟨w0, w1, w2, w3, w4, w5, w6, w7, w8, w9, w10, w11⟩ := hw
  simp only [policyFields, DecayPolicy.thresholds, DecayPolicy.flags, BudgetLimits.amounts,
    policyWeights, List.map_cons, List.map_nil, List.cons_append, List.nil_append,
    List.flatten_cons, List.flatten_nil]
  refine Reads.bind (reads_u64 _ _) ?_
  refine Reads.bind (reads_f64 _ d0) (Reads.bind (reads_f64 _ d1) (Reads.bind (reads_f64 _ d2) ?_))
  refine Reads.bind (reads_f64 _ d3) (Reads.bind (reads_f64 _ d4) ?_)
  refine Reads.bind (reads_flag _) (Reads.bind (reads_flag _) (Reads.bind (reads_flag _) ?_))
  refine Reads.bind (reads_flag _) (Reads.bind (reads_flag _) ?_)
  refine Reads.bind (reads_u64 _ _) (Reads.bind (reads_u64 _ _) (Reads.bind (reads_u64 _ _) ?_))
  refine Reads.bind (reads_u64 _ _) (Reads.bind (reads_u64 _ _) (Reads.bind (reads_u64 _ _) ?_))
  refine Reads.bind (reads_u64 _ _) (Reads.bind (reads_u64 _ _) ?_)
  refine Reads.bind (reads_f64 _ w0) (Reads.bind (reads_f64 _ w1) (Reads.bind (reads_f64 _ w2) ?_))
  refine Reads.bind (reads_f64 _ w3) (Reads.bind (reads_f64 _ w4) (Reads.bind (reads_f64 _ w5) ?_))
  refine Reads.bind (reads_f64 _ w6) (Reads.bind (reads_f64 _ w7) (Reads.bind (reads_f64 _ w8) ?_))
  refine Reads.bind (reads_f64 _ w9) (Reads.bind (reads_f64 _ w10) ?_)
  exact Reads.bind (reads_f64 _ w11) (Reads.pure _)

/-- The object loop reads the objects back in order; the printed ids seen so far never clash. -/
theorem reads_objects {g : WarmthGeneration} {objects : List WarmthObject} {i : Nat}
    {ids : List CString} (distinct : (objects.map WarmthObject.id).Nodup)
    (fresh : ∀ o ∈ objects, o.id.toString ∉ ids) (numeric : ∀ o ∈ objects, o.Numeric)
    (short : ∀ o ∈ objects, o.Short) (gens : ∀ o ∈ objects, o.warmthGen.value ≤ g.value) :
    Reads (readObjects g objects.length i ids) (objects.map fun o => (objectFields o).flatten).flatten
      (objects.map WarmthObject.stored) := by
  induction objects generalizing i ids with
  | nil => exact Reads.pure []
  | cons o objects ih =>
    simp only [List.forall_mem_cons] at fresh numeric short gens
    obtain ⟨ho, hn⟩ := List.nodup_cons.mp distinct
    have hseen : (!ids.contains o.stored.id.toString) = true := by
      simpa [WarmthObject.stored] using fresh.1
    have later : ∀ p ∈ objects, p.id.toString ∉ o.stored.id.toString :: ids := by
      intro p hp hm
      rcases List.mem_cons.mp hm with he | hi
      · exact ho (List.mem_map.mpr ⟨p, hp, Id128.toString_injective he⟩)
      · exact fresh.2 p hp hi
    rw [List.length_cons, readObjects, List.map_cons, List.flatten_cons, List.map_cons]
    refine Reads.bind ((reads_object numeric.1 short.1 gens.1).relabel _) ?_
    refine Reads.bind_nil (reads_ensure hseen) ?_
    exact Reads.last (ih hn later numeric.2 short.2 gens.2) (Reads.pure _)

def snapshotFields (s : Snapshot) : List Bytes := [
  u64 s.epoch.value, u64 s.warmthGeneration.value, u64 s.dependencyGeneration.value,
  u64 s.policyGeneration.value, (policyFields s.policy).flatten, u32 s.objects.length,
  (s.objects.map fun o => (objectFields o).flatten).flatten]

theorem writeObjects_eq {objects : List WarmthObject} (h : ∀ o ∈ objects, o.Numeric) :
    writeObjects objects = .ok (objects.map fun o => (objectFields o).flatten).flatten := by
  rw [← pieces_ok, List.map_map, writeObjects]
  exact congrArg pieces (List.map_congr_left fun o ho => writeObject_eq (h o ho))

theorem snapshotPayload_eq {s : Snapshot} (hp : s.policy.Finite) (ho : ∀ o ∈ s.objects, o.Numeric) :
    snapshotPayload s = .ok (snapshotFields s).flatten := by
  rw [snapshotPayload, writePolicy_eq hp, writeObjects_eq ho]
  exact pieces_ok (snapshotFields s)

theorem reads_body {s : Snapshot} (wf : s.WellFormed) (short : ∀ o ∈ s.objects, o.Short) :
    Reads readBody (snapshotFields s).flatten s.stored := by
  have hc := wf.count
  simp only [snapshotFields, List.flatten_cons, List.flatten_nil]
  refine Reads.bind (reads_u64 _ _) (Reads.bind (reads_u64 _ _) ?_)
  refine Reads.bind (reads_u64 _ _) (Reads.bind (reads_u64 _ _) ?_)
  refine Reads.bind ((reads_policy wf.policyFinite).relabel _) ?_
  refine Reads.bind_nil (reads_ensure (by simpa using wf.policyGeneration)) ?_
  refine Reads.bind (reads_u32 (by omega)) ?_
  refine Reads.bind_nil (reads_ensure (by simpa using hc)) ?_
  refine Reads.bind (reads_objects wf.distinct (fun _ _ => List.not_mem_nil) wf.numeric short
    wf.generations) ?_
  exact Reads.pure _

theorem readPayload_fields {s : Snapshot} (wf : s.WellFormed) (short : ∀ o ∈ s.objects, o.Short) :
    readPayload (snapshotFields s).flatten = .ok (s.stored, []) := by
  have hb := reads_body wf short []
  rw [List.append_nil] at hb
  rw [readPayload, bind_apply, hb]
  rfl

theorem reads_header (size : Nat) {crc : Nat} (hc : crc < 2 ^ 32) :
    Reads readHeader (u32 kMagic ++ (u32 kVersion ++ (u32 size ++ u32 crc)))
      (size % 2 ^ 32, crc) := by
  refine Reads.bind (reads_u32 (by decide)) (Reads.bind_nil (reads_ensure rfl) ?_)
  refine Reads.bind (reads_u32 (by decide)) (Reads.bind_nil (reads_ensure rfl) ?_)
  exact Reads.bind (reads_number_mod _ 4 size) (Reads.last (reads_u32 hc) (Reads.pure _))

def withHeader (payload : Bytes) : Bytes :=
  u32 kMagic ++ u32 kVersion ++ u32 payload.length ++ u32 (crc32 payload).toNat ++ payload

theorem withHeader_length (payload : Bytes) : (withHeader payload).length = 16 + payload.length := by
  simp only [withHeader, List.length_append, u32_length]

theorem readHeader_withHeader (payload : Bytes) :
    readHeader (withHeader payload) =
      .ok ((payload.length % 2 ^ 32, (crc32 payload).toNat), payload) := by
  have hr := reads_header payload.length (crc32 payload).toNat_lt payload
  simpa only [withHeader, List.append_assoc] using hr

theorem decodeSnapshot_withHeader {payload : Bytes} (h : payload.length < 2 ^ 32) :
    decodeSnapshot (withHeader payload) = (readPayload payload).map Prod.fst := by
  have hl := withHeader_length payload
  rw [decodeSnapshot, if_neg (by omega), readHeader_withHeader, hl, Nat.mod_eq_of_lt h]
  simp only [bind, Except.bind, pure, Except.pure, Nat.add_sub_cancel_left, ne_eq,
    not_true_eq_false, if_false]
  cases readPayload payload <;> rfl

theorem decodeSnapshot_oversized {payload : Bytes} (h : 2 ^ 32 ≤ payload.length) :
    decodeSnapshot (withHeader payload) = .error "trailing garbage" := by
  have hl := withHeader_length payload
  have hlt : payload.length % 2 ^ 32 < payload.length :=
    Nat.lt_of_lt_of_le (Nat.mod_lt _ (Nat.two_pow_pos 32)) h
  rw [decodeSnapshot, if_neg (by omega), readHeader_withHeader, hl]
  simp only [bind, Except.bind, Nat.add_sub_cancel_left]
  rw [if_pos (Nat.ne_of_lt hlt), if_neg (Nat.not_lt_of_gt hlt)]
  rfl

theorem readBody_mismatch {s : Snapshot} (hp : s.policy.Finite)
    (hne : s.policy.generation ≠ s.policyGeneration) :
    readBody (snapshotFields s).flatten = .error "invalid generation relation (policy)" := by
  simp only [snapshotFields, List.flatten_cons, readBody]
  rw [(reads_u64 _ _).apply, (reads_u64 _ _).apply, (reads_u64 _ _).apply, (reads_u64 _ _).apply,
    ((reads_policy hp).relabel _).apply, bind_apply, ensure, if_neg (by simpa using hne)]
  rfl

theorem encodeSnapshot_eq {s : Snapshot} (hp : s.policy.Finite) (ho : ∀ o ∈ s.objects, o.Numeric) :
    encodeSnapshot s = .ok (withHeader (snapshotFields s).flatten) := by
  rw [encodeSnapshot, snapshotPayload_eq hp ho]
  rfl

theorem decodeSnapshot_encoded {s : Snapshot} (wf : s.WellFormed)
    (short : ∀ o ∈ s.objects, o.Short) (size : (snapshotFields s).flatten.length < 2 ^ 32)
    {bytes : Bytes} (h : encodeSnapshot s = .ok bytes) : decodeSnapshot bytes = .ok s.stored := by
  rw [encodeSnapshot_eq wf.policyFinite wf.numeric] at h
  cases h
  rw [decodeSnapshot_withHeader size, readPayload_fields wf short]
  rfl

def optionalIdSize (x : Option Id128) : Nat := if (storedId x).isSome then 17 else 1

def optionalReasonSize (r : Option CString) : Nat :=
  match storedReason r with
  | some r => 5 + r.length
  | none => 1

def objectSize (o : WarmthObject) : Nat :=
  157 + o.device.length + o.backend.length + o.logicalOwner.length + o.stateChangeReason.length +
    optionalIdSize o.model + optionalIdSize o.artifact + optionalIdSize o.replica +
    optionalIdSize o.engine + optionalReasonSize o.invalidationReason + 9 * o.dependencies.length

def snapshotSize (s : Snapshot) : Nat := 249 + (s.objects.map objectSize).sum

theorem optionalId_length (x : Option Id128) : (optionalId x).length = optionalIdSize x := by
  cases x with
  | none => rfl
  | some id => cases hv : id.isValid <;> simp [optionalId, optionalIdSize, storedId, Option.filter, hv]

theorem optionalReason_length (r : Option CString) :
    (optionalReason r).length = optionalReasonSize r := by
  cases r with
  | none => rfl
  | some s =>
    cases hs : s.isEmpty
    · simp [optionalReason, optionalReasonSize, storedReason, Option.filter, hs]
      omega
    · simp [optionalReason, optionalReasonSize, storedReason, Option.filter, hs]

theorem dependencyBytes_length (ds : List (DependencyKind × DependencyGeneration)) :
    (ds.flatMap dependencyBytes).length = 9 * ds.length := by
  induction ds with
  | nil => rfl
  | cons d ds ih =>
    simp only [List.flatMap_cons, List.length_append, ih, dependencyBytes, List.length_cons,
      u64_length]
    omega

theorem objectFields_length (o : WarmthObject) :
    (objectFields o).flatten.length = objectSize o := by
  have hd : o.dimensionBytes.length = 12 := by
    simp [WarmthObject.dimensionBytes, DimensionIndex.values]
  simp only [objectFields, List.flatten_cons, List.flatten_nil, List.length_append, List.length_cons,
    List.length_nil, Id128.toBytes_length, str_length, u64_length, u32_length, optionalId_length,
    optionalReason_length, dependencyBytes_length, hd, objectSize]
  clear hd
  generalize o.dependencies.length = n
  omega

theorem policyFields_length (p : WarmthPolicy) : (policyFields p).flatten.length = 213 := by
  simp [policyFields, DecayPolicy.thresholds, DecayPolicy.flags, BudgetLimits.amounts, policyWeights,
    flag]

theorem objectsFields_length (objects : List WarmthObject) :
    (objects.map fun o => (objectFields o).flatten).flatten.length =
      (objects.map objectSize).sum := by
  rw [List.length_flatten, List.map_map]
  exact congrArg List.sum (List.map_congr_left fun o _ => objectFields_length o)

theorem snapshotFields_length (s : Snapshot) : (snapshotFields s).flatten.length = snapshotSize s := by
  simp only [snapshotFields, List.flatten_cons, List.flatten_nil, List.length_append, List.length_nil,
    u64_length, u32_length, policyFields_length, objectsFields_length, snapshotSize]
  omega

/-- Round trip: a snapshot that keeps the decoder's relations is encoded without an exception,
and its encoding decodes to the snapshot, zero ids and empty reasons becoming absent. -/
theorem decode_encodeSnapshot {s : Snapshot} (wf : s.WellFormed)
    (short : ∀ o ∈ s.objects, o.Short)
    (size : ∀ payload, snapshotPayload s = .ok payload → payload.length < 2 ^ 32) :
    ∃ bytes, encodeSnapshot s = .ok bytes ∧ decodeSnapshot bytes = .ok s.stored := by
  have hp := snapshotPayload_eq wf.policyFinite wf.numeric
  have he := encodeSnapshot_eq wf.policyFinite wf.numeric
  exact ⟨_, he, decodeSnapshot_encoded wf short (size _ hp) he⟩

/-- An object with a zero model id and an empty reason, which come back as absent. -/
def plainSnapshot : Snapshot :=
  { formatVersion := 7, policyGeneration := ⟨1⟩, policy := .defaults ⟨1⟩
    objects := [{ id := ⟨0, 1⟩, model := some ⟨0, 0⟩, invalidationReason := some [] }] }

theorem plainSnapshot_numeric : ∀ o ∈ plainSnapshot.objects, o.Numeric := by
  intro o ho
  cases List.mem_singleton.mp ho
  exact WarmthObject.numeric_of_zero rfl rfl rfl rfl

theorem plainSnapshot_size (payload : Bytes) (h : snapshotPayload plainSnapshot = .ok payload) :
    payload.length < 2 ^ 32 := by
  rw [snapshotPayload_eq (WarmthPolicy.defaults_finite ⟨1⟩) plainSnapshot_numeric] at h
  cases h
  rw [snapshotFields_length]
  decide

theorem decode_encodeSnapshot_plain :
    ∃ bytes, encodeSnapshot plainSnapshot = .ok bytes ∧
      decodeSnapshot bytes = .ok plainSnapshot.stored := by
  have finite : plainSnapshot.policy.Finite := WarmthPolicy.defaults_finite ⟨1⟩
  refine decode_encodeSnapshot
    ⟨by decide, ?_, rfl, by decide, finite, plainSnapshot_numeric⟩ ?_ plainSnapshot_size
  · intro o ho
    cases List.mem_singleton.mp ho
    decide
  · intro o ho
    cases List.mem_singleton.mp ho
    exact ⟨by decide, by decide, by decide, by decide, by simp⟩

end Warmth
