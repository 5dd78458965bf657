import Warmth.WarmthObject

namespace Warmth

open Codec

/-! The fields that the snapshot format and the wire protocol have in common. -/

def u32 (v : Nat) : Bytes := beBytes 4 v
def u64 (v : UInt64) : Bytes := beBytes 8 v.toNat

/-- `str`: the size cast to 32 bits, then the bytes. -/
def str (s : CString) : Bytes := u32 s.length ++ s

/-- An optional id; one that is zero is written as if it were absent. -/
def optionalId : Option Id128 → Bytes
  | some id => if id.isValid then 1 :: id.toBytes else [0]
  | none => [0]

/-- An optional reason; one that is empty is written as if it were absent. -/
def optionalReason : Option CString → Bytes
  | some r => if r.isEmpty then [0] else 1 :: str r
  | none => [0]

def WarmthObject.dimensionBytes (o : WarmthObject) : Bytes :=
  DimensionIndex.values.map fun i => toByte (o.dimension i)

/-- The dependency generations sorted by kind. -/
def WarmthObject.dependencies (o : WarmthObject) : List (DependencyKind × DependencyGeneration) :=
  (ByteEnum.values : List DependencyKind).filterMap fun k => (o.depGens k).map (k, ·)

def dependencyBytes (d : DependencyKind × DependencyGeneration) : Bytes :=
  toByte d.1 :: u64 d.2.value

variable {ε : Type}

def readU64 (e : ε) : Decoder ε UInt64 := do
  let v ← number e 8
  return UInt64.ofNat v

def readId (e : ε) : Decoder ε Id128 := do
  let b ← take e 16
  return Id128.fromBytes b

def readStr (e : ε) : Decoder ε CString := do
  let len ← number e 4
  take e len

/-- `read_opt`: a presence byte, then the id. -/
def readOpt (truncated invalid truncatedId : ε) : Decoder ε (Option Id128) := do
  let present ← u8 truncated
  if present == 0 then return none
  ensure invalid (present == 1)
  let v ← readId truncatedId
  return some v

def readDimensions (truncated invalid : ε) :
    List DimensionIndex → WarmthObject → Decoder ε WarmthObject
  | [], o => return o
  | i :: rest, o => do
    let d ← enumerator truncated invalid
    readDimensions truncated invalid rest (o.setDimension i d)

/-- The loop over the dependency generations; `seen` holds the kinds read so far. -/
def readDependencies (truncated invalid duplicate truncatedGen : ε) :
    Nat → List DependencyKind → WarmthObject → Decoder ε WarmthObject
  | 0, _, o => return o
  | n + 1, seen, o => do
    let kind ← enumerator truncated invalid
    ensure duplicate (!seen.contains kind)
    let g ← readU64 truncatedGen
    readDependencies truncated invalid duplicate truncatedGen n (kind :: seen)
      (o.setDependencyGeneration kind ⟨g⟩)

def readInvalidation (truncated truncatedReason invalid : ε) : Decoder ε (Option CString) := do
  let hasInv ← u8 truncated
  if hasInv == 1 then
    let inv ← readStr truncatedReason
    return some inv
  ensure invalid (hasInv == 0)
  return none

@[simp] theorem u32_length (v : Nat) : (u32 v).length = 4 := beBytes_length 4 v

@[simp] theorem u64_length (v : UInt64) : (u64 v).length = 8 := beBytes_length 8 v.toNat

@[simp] theorem str_length (s : CString) : (str s).length = 4 + s.length := by simp [str]

theorem reads_u32 {e : ε} {v : Nat} (h : v < 2 ^ 32) : Reads (number e 4) (u32 v) v :=
  reads_number (by omega)

theorem reads_u64 (e : ε) (v : UInt64) : Reads (readU64 e) (u64 v) v := by
  refine Reads.last (reads_number (e := e) (n := 8) v.toNat_lt) ?_
  rw [UInt64.ofNat_toNat]
  exact Reads.pure v

theorem reads_id (e : ε) (x : Id128) : Reads (readId e) x.toBytes x := by
  refine Reads.last (reads_take_of_length x.toBytes_length) ?_
  rw [Id128.fromBytes_toBytes]
  exact Reads.pure x

theorem reads_str {e : ε} {s : CString} (h : s.length < 2 ^ 32) : Reads (readStr e) (str s) s :=
  Reads.bind (reads_u32 h) (reads_take e s)

def storedId (x : Option Id128) : Option Id128 := x.filter Id128.isValid

def storedReason (r : Option CString) : Option CString := r.filter fun r => !r.isEmpty

theorem reads_opt (truncated invalid truncatedId : ε) (x : Option Id128) :
    Reads (readOpt truncated invalid truncatedId) (optionalId x) (storedId x) := by
  have absent : Reads (readOpt truncated invalid truncatedId) [0] none :=
    Reads.last (reads_u8 truncated 0) (Reads.pure none)
  cases x with
  | none => exact absent
  | some id =>
    cases hv : id.isValid with
    | false => simpa [optionalId, storedId, Option.filter, hv] using absent
    | true =>
      rw [show optionalId (some id) = [1] ++ id.toBytes by simp [optionalId, hv],
        show storedId (some id) = some id by simp [storedId, Option.filter, hv]]
      refine Reads.bind (reads_u8 truncated 1) (Reads.bind_nil (reads_ensure rfl) ?_)
      exact Reads.last (reads_id truncatedId id) (Reads.pure _)

theorem reads_invalidation {truncated truncatedReason invalid : ε} {r : Option CString}
    (h : ∀ s ∈ r, s.length < 2 ^ 32) :
    Reads (readInvalidation truncated truncatedReason invalid) (optionalReason r)
      (storedReason r) := by
  have absent : Reads (readInvalidation truncated truncatedReason invalid) [0] none :=
    Reads.last (reads_u8 truncated 0) (Reads.bind_nil (reads_ensure rfl) (Reads.pure none))
  cases r with
  | none => exact absent
  | some s =>
    cases hs : s.isEmpty with
    | true => simpa [optionalReason, storedReason, Option.filter, hs] using absent
    | false =>
      rw [show optionalReason (some s) = [1] ++ str s by simp [optionalReason, hs],
        show storedReason (some s) = some s by simp [storedReason, Option.filter, hs]]
      refine Reads.bind (reads_u8 truncated 1) ?_
      exact Reads.last (reads_str (h s rfl)) (Reads.pure _)

theorem reads_dimensions (truncated invalid : ε) (t : WarmthObject) (is : List DimensionIndex)
    (o : WarmthObject) :
    Reads (readDimensions truncated invalid is o) (is.map fun i => toByte (t.dimension i))
      (is.foldl (fun o i => o.setDimension i (t.dimension i)) o) := by
  induction is generalizing o with
  | nil => exact Reads.pure o
  | cons i is ih =>
    have head : Reads (enumerator truncated invalid) [toByte (t.dimension i)] (t.dimension i) :=
      reads_enumerator truncated invalid (t.dimension i)
    exact Reads.bind head (ih _)

theorem foldl_setDimension (t o : WarmthObject) :
    DimensionIndex.values.foldl (fun o i => o.setDimension i (t.dimension i)) o =
      { o with dims := t.dims } := by
  simp only [DimensionIndex.values, List.foldl_cons, List.foldl_nil, WarmthObject.setDimension,
    WarmthObject.dimension]

theorem reads_allDimensions (truncated invalid : ε) (t o : WarmthObject) :
    Reads (readDimensions truncated invalid DimensionIndex.values o) t.dimensionBytes
      { o with dims := t.dims } := by
  rw [← foldl_setDimension t o]
  exact reads_dimensions truncated invalid t DimensionIndex.values o

theorem reads_dependencies (truncated invalid duplicate truncatedGen : ε)
    {ds : List (DependencyKind × DependencyGeneration)} {seen : List DependencyKind}
    (distinct : (ds.map Prod.fst).Nodup) (fresh : ∀ d ∈ ds, d.1 ∉ seen) (o : WarmthObject) :
    Reads (readDependencies truncated invalid duplicate truncatedGen ds.length seen o)
      (ds.flatMap dependencyBytes)
      (ds.foldl (fun o d => o.setDependencyGeneration d.1 d.2) o) := by
  induction ds generalizing seen o with
  | nil => exact Reads.pure o
  | cons d ds ih =>
    obtain ⟨kind, g⟩ := d
    have hd := List.nodup_cons.mp distinct
    have hseen : (!seen.contains kind) = true := by
      have := fresh (kind, g) (by simp)
      simpa using this
    have later : ∀ e ∈ ds, e.1 ∉ kind :: seen := by
      intro e he hm
      rcases List.mem_cons.mp hm with hk | hs
      · exact hd.1 (List.mem_map.mpr ⟨e, he, hk⟩)
      · exact fresh e (List.mem_cons_of_mem _ he) hs
    rw [List.flatMap_cons, show dependencyBytes (kind, g) = [toByte kind] ++ u64 g.value from rfl,
      List.append_assoc, List.length_cons, List.foldl_cons, readDependencies]
    refine Reads.bind (reads_enumerator truncated invalid kind) ?_
    refine Reads.bind_nil (reads_ensure hseen) ?_
    exact Reads.bind (reads_u64 truncatedGen g.value) (ih hd.2 later _)

theorem map_fst_dependencies (t : WarmthObject) :
    t.dependencies.map Prod.fst =
      (ByteEnum.values : List DependencyKind).filter fun k => (t.depGens k).isSome := by
  unfold WarmthObject.dependencies
  generalize (ByteEnum.values : List DependencyKind) = ks
  induction ks with
  | nil => rfl
  | cons k ks ih =>
    cases hk : t.depGens k <;> simp [hk, ih]

theorem nodup_dependencies (t : WarmthObject) : (t.dependencies.map Prod.fst).Nodup := by
  have hn : (ByteEnum.values : List DependencyKind).Nodup := by decide
  rw [map_fst_dependencies]
  exact hn.filter _

theorem dependencies_length_le (t : WarmthObject) : t.dependencies.length ≤ 12 :=
  List.length_filterMap_le _ _

theorem foldl_setDependencyGeneration_depGens (t : WarmthObject) (ks : List DependencyKind)
    (o : WarmthObject) (k : DependencyKind) :
    ((ks.filterMap fun k => (t.depGens k).map (k, ·)).foldl
        (fun o d => o.setDependencyGeneration d.1 d.2) o).depGens k =
      if k ∈ ks ∧ (t.depGens k).isSome then t.depGens k else o.depGens k := by
  induction ks generalizing o with
  | nil => simp
  | cons j ks ih =>
    cases hj : t.depGens j with
    | none =>
      simp only [List.filterMap_cons, hj, Option.map_none, ih, List.mem_cons]
      by_cases hk : k = j
      · simp [hk, hj]
      · simp [hk]
    | some g =>
      simp only [List.filterMap_cons, hj, Option.map_some, List.foldl_cons, ih, List.mem_cons,
        WarmthObject.setDependencyGeneration_depGens]
      by_cases hk : k = j
      · simp [hk, hj]
      · simp [hk]

theorem foldl_setDependencyGeneration_eq (ds : List (DependencyKind × DependencyGeneration))
    (o : WarmthObject) :
    ds.foldl (fun o d => o.setDependencyGeneration d.1 d.2) o =
      { o with
        depGens := (ds.foldl (fun o d => o.setDependencyGeneration d.1 d.2) o).depGens } := by
  induction ds generalizing o with
  | nil => rfl
  | cons d ds ih => exact ih (o.setDependencyGeneration d.1 d.2)

/-- Setting the dependency generations one after the other on an object that has none copies
the map. -/
theorem foldl_dependencies {t o : WarmthObject} (h : ∀ k, o.depGens k = none) :
    t.dependencies.foldl (fun o d => o.setDependencyGeneration d.1 d.2) o =
      { o with depGens := t.depGens } := by
  rw [foldl_setDependencyGeneration_eq]
  congr 1
  funext k
  rw [WarmthObject.dependencies, foldl_setDependencyGeneration_depGens, h k]
  cases hk : t.depGens k <;> simp [mem_enumerators]

theorem reads_allDependencies (truncated invalid duplicate truncatedGen : ε) (t : WarmthObject)
    {o : WarmthObject} (h : ∀ k, o.depGens k = none) :
    Reads (readDependencies truncated invalid duplicate truncatedGen t.dependencies.length [] o)
      (t.dependencies.flatMap dependencyBytes) { o with depGens := t.depGens } := by
  rw [← foldl_dependencies h]
  exact reads_dependencies truncated invalid duplicate truncatedGen (nodup_dependencies t)
    (fun _ _ => List.not_mem_nil) o

end Warmth
