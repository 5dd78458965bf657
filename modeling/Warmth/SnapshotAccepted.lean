import Warmth.ByteReader
import Warmth.SnapshotRoundTrip

namespace Warmth

open Codec

theorem ensures_f64 (e : String) : Ensures (readF64 e) (fun d => d.isFinite = true) := by
  refine Ensures.skip fun bits => ?_
  refine Ensures.bind (ensures_ensure e _) fun _ h => ensures_pure ?_
  rw [Double.isFinite_iff]
  simpa using h

theorem ensures_policy : Ensures readPolicy WarmthPolicy.Finite := by
  refine Ensures.skip fun gen => ?_
  refine Ensures.bind (ensures_f64 _) fun v0 h0 => Ensures.bind (ensures_f64 _) fun v1 h1 => ?_
  refine Ensures.bind (ensures_f64 _) fun v2 h2 => Ensures.bind (ensures_f64 _) fun v3 h3 => ?_
  refine Ensures.bind (ensures_f64 _) fun v4 h4 => ?_
  refine Ensures.skip fun f0 => Ensures.skip fun f1 => Ensures.skip fun f2 => ?_
  refine Ensures.skip fun f3 => Ensures.skip fun f4 => ?_
  refine Ensures.skip fun b0 => Ensures.skip fun b1 => Ensures.skip fun b2 => ?_
  refine Ensures.skip fun b3 => Ensures.skip fun b4 => Ensures.skip fun b5 => ?_
  refine Ensures.skip fun b6 => Ensures.skip fun b7 => ?_
  refine Ensures.bind (ensures_f64 _) fun w0 k0 => Ensures.bind (ensures_f64 _) fun w1 k1 => ?_
  refine Ensures.bind (ensures_f64 _) fun w2 k2 => Ensures.bind (ensures_f64 _) fun w3 k3 => ?_
  refine Ensures.bind (ensures_f64 _) fun w4 k4 => Ensures.bind (ensures_f64 _) fun w5 k5 => ?_
  refine Ensures.bind (ensures_f64 _) fun w6 k6 => Ensures.bind (ensures_f64 _) fun w7 k7 => ?_
  refine Ensures.bind (ensures_f64 _) fun w8 k8 => Ensures.bind (ensures_f64 _) fun w9 k9 => ?_
  refine Ensures.bind (ensures_f64 _) fun w10 k10 => Ensures.bind (ensures_f64 _) fun w11 k11 => ?_
  refine ensures_pure ⟨?_, ?_⟩
  · simp only [DecayPolicy.thresholds, List.forall_mem_cons, List.not_mem_nil, false_implies,
      implies_true, and_true]
    exact ⟨h0, h1, h2, h3, h4⟩
  · simp only [policyWeights, List.forall_mem_cons, List.not_mem_nil, false_implies,
      implies_true, and_true]
    exact ⟨k0, k1, k2, k3, k4, k5, k6, k7, k8, k9, k10, k11⟩

theorem ensures_object (g : WarmthGeneration) :
    Ensures (readObject g) (fun o => o.Numeric ∧ o.warmthGen.value ≤ g.value) := by
  intro bytes o rest h
  obtain ⟨raw, _, ⟨finite, generation⟩, rfl⟩ :=
    (readObject_unclamped g bytes o rest).mp ⟨trivial, h⟩
  have hcu := Double.inUnit_clampUnit (Double.isFinite_iff.mp finite.confidence).1
  have hfu := Double.inUnit_clampUnit (Double.isFinite_iff.mp finite.freshness).1
  exact ⟨⟨finite.estimatedTtrMs, finite.observedTtrMs, hcu, hfu⟩, generation⟩

theorem ensures_objects (g : WarmthGeneration) (n i : Nat) (ids : List CString) :
    Ensures (readObjects g n i ids) (fun objects =>
      objects.length = n ∧ (objects.map WarmthObject.id).Nodup ∧
      (∀ o ∈ objects, o.id.toString ∉ ids) ∧
      ∀ o ∈ objects, o.Numeric ∧ o.warmthGen.value ≤ g.value) := by
  induction n generalizing i ids with
  | zero => exact ensures_pure ⟨rfl, List.nodup_nil, by simp, by simp⟩
  | succ n ih =>
    refine Ensures.bind ((ensures_object g).relabel _) fun o ho => ?_
    refine Ensures.bind (ensures_ensure _ _) fun _ hfresh => ?_
    refine Ensures.bind (ih (i + 1) (o.id.toString :: ids)) fun rest hr => ensures_pure ?_
    obtain ⟨hlen, hnodup, hseen, hall⟩ := hr
    have hids : o.id.toString ∉ ids := by simpa using hfresh
    refine ⟨by simp [hlen], List.nodup_cons.mpr ⟨?_, hnodup⟩, ?_, ?_⟩
    · intro hm
      obtain ⟨p, hp, he⟩ := List.mem_map.mp hm
      exact hseen p hp (by simp [he])
    · intro p hp
      rcases List.mem_cons.mp hp with rfl | hp
      · exact hids
      · exact fun hi => hseen p hp (List.mem_cons_of_mem _ hi)
    · intro p hp
      rcases List.mem_cons.mp hp with rfl | hp
      · exact ho
      · exact hall p hp

theorem ensures_body :
    Ensures readBody (fun s => s.WellFormed ∧ s.formatVersion = 1) := by
  refine Ensures.skip fun epoch => Ensures.skip fun wgen => Ensures.skip fun dgen => ?_
  refine Ensures.skip fun pgen => Ensures.bind (ensures_policy.relabel _) fun policy hp => ?_
  refine Ensures.bind (ensures_ensure _ _) fun _ hgen => ?_
  refine Ensures.skip fun n => Ensures.bind (ensures_ensure _ _) fun _ hn => ?_
  refine Ensures.bind (ensures_objects ⟨wgen⟩ n 0 []) fun objects ho => ensures_pure ?_
  obtain ⟨hlen, hnodup, _, hall⟩ := ho
  refine ⟨⟨hnodup, fun o h => (hall o h).2, of_decide_eq_true hgen, ?_, hp,
    fun o h => (hall o h).1⟩, rfl⟩
  rw [hlen]
  exact of_decide_eq_true hn

theorem readHeader_ok {bytes payload : Bytes} {size checksum : Nat} :
    readHeader bytes = .ok ((size, checksum), payload) ↔ size < 2 ^ 32 ∧ checksum < 2 ^ 32 ∧
      bytes = u32 kMagic ++ (u32 kVersion ++ (u32 size ++ (u32 checksum ++ payload))) := by
  constructor
  · intro h
    obtain ⟨magic, _, hm, h⟩ := bind_ok.mp h
    obtain ⟨_, _, em, h⟩ := bind_ok.mp h
    obtain ⟨version, _, hv, h⟩ := bind_ok.mp h
    obtain ⟨_, _, ev, h⟩ := bind_ok.mp h
    obtain ⟨size', _, hs, h⟩ := bind_ok.mp h
    obtain ⟨checksum', _, hc, h⟩ := bind_ok.mp h
    obtain ⟨heq, rfl⟩ := pure_ok.mp h
    cases heq
    obtain ⟨magicOk, rfl⟩ := ensure_ok.mp em
    obtain ⟨versionOk, rfl⟩ := ensure_ok.mp ev
    obtain ⟨_, rfl⟩ := number_ok.mp hm
    obtain ⟨_, rfl⟩ := number_ok.mp hv
    obtain ⟨hsize, rfl⟩ := number_ok.mp hs
    obtain ⟨hchecksum, rfl⟩ := number_ok.mp hc
    rw [beq_iff_eq] at magicOk versionOk
    subst magicOk versionOk
    exact ⟨hsize, hchecksum, rfl⟩
  · rintro ⟨hs, hc, rfl⟩
    have hr := reads_header size hc payload
    rw [Nat.mod_eq_of_lt hs] at hr
    simpa only [List.append_assoc] using hr

theorem readPayload_ok {payload rest : Bytes} {s : Snapshot} :
    readPayload payload = .ok (s, rest) ↔ readBody payload = .ok (s, []) ∧ rest = [] := by
  have left {mid : Bytes} {n : Nat} {r : Bytes} :
      (remaining : Decoder String Nat) mid = .ok (n, r) ↔ n = mid.length ∧ r = mid := by
    change (.ok (mid.length, mid) : Except String (Nat × Bytes)) = .ok (n, r) ↔ _
    simp [eq_comm]
  constructor
  · intro h
    obtain ⟨snap, mid, hb, h⟩ := bind_ok.mp h
    obtain ⟨n, r, hl, h⟩ := bind_ok.mp h
    obtain ⟨_, _, he, h⟩ := bind_ok.mp h
    obtain ⟨rfl, rfl⟩ := pure_ok.mp h
    obtain ⟨consumed, rfl⟩ := ensure_ok.mp he
    obtain ⟨rfl, rfl⟩ := left.mp hl
    have nil : r = [] := by simpa using consumed
    subst nil
    exact ⟨hb, rfl⟩
  · rintro ⟨hb, rfl⟩
    rw [readPayload, bind_apply, hb]
    rfl

/-- The decoder accepts a header that describes its payload, followed by that payload. -/
theorem decodeSnapshot_ok {bytes : Bytes} {s : Snapshot} :
    decodeSnapshot bytes = .ok s ↔ ∃ payload : Bytes, payload.length < 2 ^ 32 ∧
      bytes = withHeader payload ∧ readBody payload = .ok (s, []) := by
  constructor
  · intro h
    unfold decodeSnapshot at h
    split at h
    next => cases h
    next hlen =>
      cases hr : readHeader bytes with
      | error e => rw [hr] at h; cases h
      | ok header =>
        obtain ⟨⟨payloadSize, checksum⟩, payload⟩ := header
        rw [hr] at h
        simp only [bind, Except.bind, pure, Except.pure, throw, throwThe, MonadExceptOf.throw] at h
        split at h
        next => cases h
        next hsize =>
          split at h
          next => cases h
          next hcrc =>
            cases hp : readPayload payload with
            | error e => rw [hp] at h; cases h
            | ok p =>
              rw [hp] at h
              cases h
              obtain ⟨hs, _, rfl⟩ := readHeader_ok.mp hr
              have body := (readPayload_ok.mp hp).1
              simp only [List.length_append, u32_length, not_not] at hsize hcrc
              have size : payloadSize = payload.length := by omega
              subst size hcrc
              exact ⟨payload, hs, by simp only [withHeader, List.append_assoc], body⟩
  · rintro ⟨payload, hlen, rfl, body⟩
    rw [decodeSnapshot_withHeader hlen, readPayload_ok.mpr ⟨body, rfl⟩]
    rfl

/-- Whatever the decoder accepts keeps the relations between a snapshot's fields. -/
theorem decodeSnapshot_wellFormed {bytes : Bytes} {s : Snapshot}
    (h : decodeSnapshot bytes = .ok s) : s.WellFormed ∧ s.formatVersion = 1 := by
  obtain ⟨payload, _, _, body⟩ := decodeSnapshot_ok.mp h
  exact ensures_body payload s [] body

/-- Every enumeration of the object holds one of its declared enumerators. -/
structure WarmthObject.Declared (o : WarmthObject) : Prop where
  category : o.category ∈ (ByteEnum.values : List WarmthCategory)
  state : o.state ∈ (ByteEnum.values : List WarmthState)
  dimensions : ∀ i, o.dimension i ∈ (ByteEnum.values : List DimensionStatus)
  residency : o.residency ∈ (ByteEnum.values : List ResidencyState)
  lifecycle : o.lifecycle ∈ (ByteEnum.values : List Lifecycle)
  dependencies : ∀ d ∈ o.dependencies, d.1 ∈ (ByteEnum.values : List DependencyKind)
  provenance : o.provenance ∈ (ByteEnum.values : List Provenance)

theorem WarmthObject.declared (o : WarmthObject) : o.Declared :=
  ⟨mem_enumerators _, mem_enumerators _, fun _ => mem_enumerators _, mem_enumerators _,
    mem_enumerators _, fun _ _ => mem_enumerators _, mem_enumerators _⟩

/-- What an accepted byte string and the snapshot it gives have in common. -/
structure Snapshot.AcceptedFrom (bytes : Bytes) (s : Snapshot) : Prop where
  exact : ∃ payload : Bytes, payload.length < 2 ^ 32 ∧ bytes = withHeader payload ∧
    readBody payload = .ok (s, [])
  wellFormed : s.WellFormed
  declared : ∀ o ∈ s.objects, o.Declared

theorem ByteReader.decodeSnapshot_eq (bytes : Bytes) :
    ByteReader.decodeSnapshot bytes = (Warmth.decodeSnapshot bytes).mapError .rejected := by
  unfold ByteReader.decodeSnapshot Warmth.decodeSnapshot
  split
  next => rfl
  next hlen =>
    have within : ({ bytes } : Cursor).Within := Nat.zero_le _
    cases hr : Warmth.readHeader bytes with
    | error e => rw [implements_header.rejects { bytes } e within hr]; rfl
    | ok header =>
      obtain ⟨⟨payloadSize, checksum⟩, payload⟩ := header
      obtain ⟨c, hc, _⟩ := implements_header.accepts { bytes } _ _ within hr
      have tail : bytes.drop 16 = payload := by
        obtain ⟨_, _, rfl⟩ := readHeader_ok.mp hr
        simp only [← List.append_assoc]
        exact List.drop_left' (by simp)
      have body := implements_payload.run payload
      rw [hc, sizeLess, subspan, if_pos (by omega), if_pos (by omega), tail]
      simp only [bind, Except.bind, pure, Except.pure, throw, throwThe, MonadExceptOf.throw]
      split
      next => rfl
      next =>
        split
        next => rfl
        next =>
          cases hp : Warmth.readPayload payload with
          | error e =>
            rw [hp] at body
            cases hb : ByteReader.readPayload { bytes := payload } with
            | error w => rw [hb] at body; exact body
            | ok p => rw [hb] at body; cases body
          | ok p =>
            rw [hp] at body
            cases hb : ByteReader.readPayload { bytes := payload } with
            | error w => rw [hb] at body; cases body
            | ok p => rw [hb] at body; exact body

/-- On every byte string the decoder stays inside it; what it accepts is a header, the payload the
header describes and nothing else, and the snapshot is well formed. -/
theorem accepted_snapshot (bytes : Bytes) :
    ByteReader.decodeSnapshot bytes ≠ .error .outOfRange ∧
      ByteReader.decodeSnapshot bytes ≠ .error .underflow ∧
      ∀ s, ByteReader.decodeSnapshot bytes = .ok s → s.AcceptedFrom bytes := by
  rw [ByteReader.decodeSnapshot_eq]
  cases h : decodeSnapshot bytes with
  | error e => exact ⟨by simp [Except.mapError], by simp [Except.mapError], by simp [Except.mapError]⟩
  | ok snap =>
    refine ⟨by simp [Except.mapError], by simp [Except.mapError], ?_⟩
    rintro s hs
    cases hs
    exact ⟨decodeSnapshot_ok.mp h, (decodeSnapshot_wellFormed h).1, fun o _ => o.declared⟩

end Warmth
