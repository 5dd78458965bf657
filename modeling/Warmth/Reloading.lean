import Warmth.CanonicalFiles
import Warmth.Corruption

namespace Warmth

open Codec

/-- What an object reads back as once it has been written. -/
def WarmthObject.reread (o : WarmthObject) : WarmthObject := o.stored.clamped

@[simp] theorem WarmthObject.reread_id (o : WarmthObject) : o.reread.id = o.id := rfl

/-- What a snapshot reads back as once it has been written. -/
def Snapshot.reread (s : Snapshot) : Snapshot :=
  { s with formatVersion := 1, objects := s.objects.map WarmthObject.reread }

/-- The snapshot holds no NaN and no infinity. -/
structure Snapshot.Finite (s : Snapshot) : Prop where
  policy : s.policy.Finite
  objects : ∀ o ∈ s.objects, o.Finite

/-- What the reader asks of a snapshot beyond what the writer asks. -/
structure Snapshot.Coherent (s : Snapshot) : Prop where
  distinct : (s.objects.map WarmthObject.id).Nodup
  generations : ∀ o ∈ s.objects, o.warmthGen.value ≤ s.warmthGeneration.value
  policyGeneration : s.policy.generation = s.policyGeneration
  count : s.objects.length ≤ 1000000
  size : snapshotSize s < 2 ^ 32

/-! What the writer accepts. -/

theorem f64_ok {d : Double} {b : Bytes} (h : f64 d = .ok b) : d.isFinite = true := by
  cases special : d.isNan || d.isInf with
  | true =>
    rw [f64, if_pos special] at h
    cases h
  | false => exact Double.isFinite_iff.mpr (Bool.or_eq_false_iff.mp special)

theorem writeObject_ok {o : WarmthObject} {out : Bytes} (h : writeObject o = .ok out) : o.Finite := by
  obtain ⟨_, estimated⟩ := pieces_mem h (f64 o.estimatedTtrMs) (by simp)
  obtain ⟨_, observed⟩ := pieces_mem h (f64 o.observedTtrMs) (by simp)
  obtain ⟨_, confidence⟩ := pieces_mem h (f64 o.confidence) (by simp)
  obtain ⟨_, freshness⟩ := pieces_mem h (f64 o.freshness) (by simp)
  exact ⟨f64_ok estimated, f64_ok observed, f64_ok confidence, f64_ok freshness⟩

theorem writePolicy_ok {p : WarmthPolicy} {out : Bytes} (h : writePolicy p = .ok out) : p.Finite := by
  have finite (d : Double) (mem : d ∈ p.decay.thresholds ∨ d ∈ policyWeights p) :
      d.isFinite = true := by
    obtain ⟨b, hb⟩ := pieces_mem h (f64 d) (by
      simp only [List.mem_append, List.mem_map]
      rcases mem with mem | mem
      · exact Or.inl (Or.inl (Or.inl (Or.inr ⟨d, mem, rfl⟩)))
      · exact Or.inr ⟨d, mem, rfl⟩)
    exact f64_ok hb
  exact ⟨fun d mem => finite d (Or.inl mem), fun d mem => finite d (Or.inr mem)⟩

theorem snapshotPayload_ok {s : Snapshot} {payload : Bytes} :
    snapshotPayload s = .ok payload ↔ s.Finite ∧ payload = (snapshotFields s).flatten := by
  have written (finite : s.Finite) : snapshotPayload s = .ok (snapshotFields s).flatten := by
    have objects : writeObjects s.objects =
        .ok (s.objects.map fun o => (objectFields o).flatten).flatten := by
      rw [← pieces_ok, List.map_map, writeObjects]
      refine congrArg pieces (List.map_congr_left fun o ho => ?_)
      rw [writeObject_of_finite (finite.objects o ho), ← objectFields_flatten]
      rfl
    rw [snapshotPayload, writePolicy_eq finite.policy, objects]
    exact pieces_ok (snapshotFields s)
  constructor
  · intro h
    obtain ⟨policy, hp⟩ := pieces_mem h (writePolicy s.policy) (by simp)
    obtain ⟨objects, ho⟩ := pieces_mem h (writeObjects s.objects) (by simp)
    have finite : s.Finite := by
      refine ⟨writePolicy_ok hp, fun o mem => ?_⟩
      obtain ⟨out, hw⟩ := pieces_mem ho (writeObject o) (List.mem_map_of_mem mem)
      exact writeObject_ok hw
    rw [written finite] at h
    cases h
    exact ⟨finite, rfl⟩
  · rintro ⟨finite, rfl⟩
    exact written finite

/-- The writer throws exactly when a NaN or an infinity is to be written. -/
theorem encodeSnapshot_ok_iff {s : Snapshot} {bytes : Bytes} :
    encodeSnapshot s = .ok bytes ↔ s.Finite ∧ bytes = withHeader (snapshotFields s).flatten := by
  constructor
  · intro h
    obtain ⟨payload, written, rfl⟩ := encodeSnapshot_ok h
    obtain ⟨finite, rfl⟩ := snapshotPayload_ok.mp written
    exact ⟨finite, rfl⟩
  · rintro ⟨finite, rfl⟩
    rw [encodeSnapshot, snapshotPayload_ok.mpr ⟨finite, rfl⟩]
    rfl

/-! What the reader makes of it. -/

theorem readObject_written {o o' : WarmthObject} {g : WarmthGeneration} (finite : o.Finite)
    (short : o.Short) {tail rest : Bytes} :
    readObject g ((objectFields o).flatten ++ tail) = .ok (o', rest) ↔
      o.warmthGen.value ≤ g.value ∧ o' = o.reread ∧ rest = tail := by
  have raw := reads_unclamped short tail
  have kept : o.stored.Finite :=
    ⟨finite.estimatedTtrMs, finite.observedTtrMs, finite.confidence, finite.freshness⟩
  have accepted := readObject_unclamped g (encodeObject o ++ tail) o' rest
  rw [objectFields_flatten]
  constructor
  · intro h
    obtain ⟨read, same, storable, rfl⟩ := accepted.mp ⟨trivial, h⟩
    rw [raw] at same
    cases same
    exact ⟨storable.generation, rfl, rfl⟩
  · rintro ⟨generation, rfl, rfl⟩
    exact (accepted.mpr ⟨o.stored, raw, ⟨kept, generation⟩, rfl⟩).2

/-- The object loop accepts written objects exactly when their ids differ from each other and from
those seen, and no generation is ahead. -/
theorem readObjects_written {g : WarmthGeneration} {objects xs : List WarmthObject} {i : Nat}
    {ids : List CString} (finite : ∀ o ∈ objects, o.Finite) (short : ∀ o ∈ objects, o.Short)
    {tail rest : Bytes} :
    readObjects g objects.length i ids
        ((objects.map fun o => (objectFields o).flatten).flatten ++ tail) = .ok (xs, rest) ↔
      ((objects.map WarmthObject.id).Nodup ∧ (∀ o ∈ objects, o.id.toString ∉ ids) ∧
        ∀ o ∈ objects, o.warmthGen.value ≤ g.value) ∧
      xs = objects.map WarmthObject.reread ∧ rest = tail := by
  induction objects generalizing i ids xs rest with
  | nil =>
    constructor
    · intro h
      obtain ⟨rfl, rfl⟩ := pure_ok.mp h
      exact ⟨⟨List.nodup_nil, by simp, by simp⟩, rfl, rfl⟩
    · rintro ⟨-, rfl, rfl⟩
      rfl
  | cons o objects ih =>
    rw [List.forall_mem_cons] at finite short
    rw [List.length_cons, readObjects, List.map_cons, List.flatten_cons, List.append_assoc,
      List.map_cons, List.map_cons, List.nodup_cons, List.forall_mem_cons, List.forall_mem_cons]
    constructor
    · intro h
      obtain ⟨read, mid, ho, h⟩ := bind_ok.mp h
      obtain ⟨generation, rfl, rfl⟩ := (readObject_written finite.1 short.1).mp (relabel_ok.mp ho)
      obtain ⟨_, _, hn, h⟩ := bind_ok.mp h
      obtain ⟨new, rfl⟩ := ensure_ok.mp hn
      obtain ⟨others, left, hr, last⟩ := bind_ok.mp h
      obtain ⟨⟨distinct, unseen, generations⟩, rfl, rfl⟩ := (ih finite.2 short.2).mp hr
      obtain ⟨rfl, rfl⟩ := pure_ok.mp last
      refine ⟨⟨⟨fun again => ?_, distinct⟩, ⟨?_, ?_⟩, generation, generations⟩, rfl, rfl⟩
      · obtain ⟨p, mem, same⟩ := List.mem_map.mp again
        refine unseen p mem ?_
        rw [same]
        exact List.mem_cons_self
      · simpa using new
      · exact fun p mem seen => unseen p mem (List.mem_cons_of_mem _ seen)
    · rintro ⟨⟨⟨first, distinct⟩, ⟨unseen, later⟩, generation, generations⟩, rfl, rfl⟩
      have new : (!ids.contains o.reread.id.toString) = true := by
        simpa using unseen
      have fresh : ∀ p ∈ objects, p.id.toString ∉ o.reread.id.toString :: ids := by
        intro p mem seen
        rcases List.mem_cons.mp seen with same | old
        · exact first (List.mem_map.mpr ⟨p, mem, Id128.toString_injective same⟩)
        · exact later p mem old
      have read (tail : Bytes) : readObject g ((objectFields o).flatten ++ tail) = .ok (o.reread, tail) :=
        (readObject_written finite.1 short.1).mpr ⟨generation, rfl, rfl⟩
      have others := (ih (i := i + 1) finite.2 short.2).mpr ⟨⟨distinct, fresh, generations⟩, rfl, rfl⟩
      refine bind_ok.mpr ⟨o.reread, _, relabel_ok.mpr (read _), bind_ok.mpr ⟨(), _, ensure_ok.mpr ⟨new, rfl⟩, ?_⟩⟩
      exact bind_ok.mpr ⟨_, _, others, pure_ok.mpr ⟨rfl, rfl⟩⟩

/-- The body of a written snapshot is accepted exactly when the snapshot is coherent. -/
theorem readBody_written {s t : Snapshot} (finite : s.Finite) (size : snapshotSize s < 2 ^ 32) :
    readBody (snapshotFields s).flatten = .ok (t, []) ↔ s.Coherent ∧ t = s.reread := by
  have short := Snapshot.short_of_size size
  have few : s.objects.length < 2 ^ 32 := by
    have least := List.length_le_sum_of_one_le (s.objects.map objectSize) (fun n mem => by
      obtain ⟨o, -, rfl⟩ := List.mem_map.mp mem
      unfold objectSize
      omega)
    rw [List.length_map] at least
    unfold snapshotSize at size
    omega
  simp only [snapshotFields, List.flatten_cons, List.flatten_nil]
  unfold readBody
  rw [(reads_u64 _ _).apply, (reads_u64 _ _).apply, (reads_u64 _ _).apply, (reads_u64 _ _).apply,
    ((reads_policy finite.policy).relabel _).apply]
  constructor
  · intro h
    obtain ⟨_, _, hp, h⟩ := bind_ok.mp h
    obtain ⟨policy, rfl⟩ := ensure_ok.mp hp
    rw [(reads_u32 few).apply] at h
    obtain ⟨_, _, hc, h⟩ := bind_ok.mp h
    obtain ⟨count, rfl⟩ := ensure_ok.mp hc
    obtain ⟨objects, left, ho, last⟩ := bind_ok.mp h
    obtain ⟨⟨distinct, -, generations⟩, rfl, rfl⟩ := (readObjects_written finite.objects short).mp ho
    obtain ⟨rfl, -⟩ := pure_ok.mp last
    exact ⟨⟨distinct, generations, of_decide_eq_true policy, of_decide_eq_true count, size⟩, rfl⟩
  · rintro ⟨coherent, rfl⟩
    have objects : readObjects ⟨s.warmthGeneration.value⟩ s.objects.length 0 []
        ((s.objects.map fun o => (objectFields o).flatten).flatten ++ []) =
          .ok (s.objects.map WarmthObject.reread, []) :=
      (readObjects_written finite.objects short).mpr
        ⟨⟨coherent.distinct, fun _ _ => List.not_mem_nil, coherent.generations⟩, rfl, rfl⟩
    have policy : decide (s.policy.generation = ⟨s.policyGeneration.value⟩) = true :=
      decide_eq_true coherent.policyGeneration
    have count : decide (s.objects.length ≤ 1000000) = true := decide_eq_true coherent.count
    refine bind_ok.mpr ⟨(), _, ensure_ok.mpr ⟨policy, rfl⟩, ?_⟩
    rw [(reads_u32 few).apply]
    refine bind_ok.mpr ⟨(), _, ensure_ok.mpr ⟨count, rfl⟩, ?_⟩
    exact bind_ok.mpr ⟨_, _, objects, pure_ok.mpr ⟨rfl, rfl⟩⟩

theorem decodeSnapshot_written {s t : Snapshot} (finite : s.Finite) :
    decodeSnapshot (withHeader (snapshotFields s).flatten) = .ok t ↔ s.Coherent ∧ t = s.reread := by
  by_cases size : snapshotSize s < 2 ^ 32
  · have fits : (snapshotFields s).flatten.length < 2 ^ 32 := by
      rw [snapshotFields_length]
      exact size
    rw [← readBody_written finite size, decodeSnapshot_ok]
    constructor
    · rintro ⟨payload, short, same, body⟩
      rw [withHeader_inj.mp same]
      exact body
    · intro body
      exact ⟨_, fits, rfl, body⟩
  · have oversized : 2 ^ 32 ≤ (snapshotFields s).flatten.length := by
      rw [snapshotFields_length]
      omega
    rw [decodeSnapshot_oversized oversized]
    constructor
    · intro h
      cases h
    · rintro ⟨coherent, -⟩
      exact absurd coherent.size size

/-- Saving and loading: a snapshot comes back exactly when it holds no NaN and no infinity, its ids
differ, its generations agree, and its object count and payload fit; confidence and freshness come
back clamped. -/
theorem reloads_iff (s t : Snapshot) :
    (∃ bytes, encodeSnapshot s = .ok bytes ∧ decodeSnapshot bytes = .ok t) ↔
      s.Finite ∧ s.Coherent ∧ t = s.reread := by
  constructor
  · rintro ⟨bytes, written, read⟩
    obtain ⟨finite, rfl⟩ := encodeSnapshot_ok_iff.mp written
    exact ⟨finite, (decodeSnapshot_written finite).mp read⟩
  · rintro ⟨finite, loaded⟩
    exact ⟨_, encodeSnapshot_ok_iff.mpr ⟨finite, rfl⟩, (decodeSnapshot_written finite).mpr loaded⟩

end Warmth
