import Warmth.CanonicalFiles
import Warmth.MessageRoundTrip

namespace Warmth

open Codec

/-- The payload of a HELLO_ACK whose first byte is `accepted`. -/
def HelloAck.spelled (a : HelloAck) (accepted : UInt8) : Bytes :=
  accepted :: (str a.reason ++ u64 a.epoch ++ u64 a.warmthGen ++ u64 a.depGen ++ u64 a.policyGen)

/-- The payload of a WARM_RESULT whose success byte is `success`. -/
def WarmResult.spelled (r : WarmResult) (success : UInt8) : Bytes :=
  r.boot.toBytes ++ u64 r.epoch ++ u64 r.warmthGen ++ u64 r.depGen ++
  r.object.toBytes ++ [r.action.value] ++ u64 r.attempt ++
  [success] ++ u64 r.durationMs.bits ++ u64 r.bytes ++ str r.error

/-- The bytes of the objects as the sender spells them. -/
def spelledObjects (xs : List Spelling) : Bytes := xs.flatMap fun x => x.fields.flatten

def Hello.spelled (h : Hello) (observed : List Spelling) : Bytes :=
  u32 h.protocolVersion ++ h.worker.toBytes ++ h.boot.toBytes ++ h.node.toBytes ++
  u64 h.epochGuess ++ str h.backend ++
  u32 h.devices.length ++ h.devices.flatMap str ++
  u32 h.actions.length ++ h.actions ++
  u32 observed.length ++ spelledObjects observed

def ReportPayload.spelled (p : ReportPayload) (objects : List Spelling) : Bytes :=
  p.boot.toBytes ++ u64 p.epoch ++ u64 p.warmthGen ++ u64 p.depGen ++
  u32 objects.length ++ spelledObjects objects

/-! Readers of one field, as the sender may spell it. -/

section

variable {ε : Type}

theorem reads_spelledId (truncated invalid truncatedId : ε) (id : Option Id128) :
    Reads (readOpt truncated invalid truncatedId) (spelledId id) id := by
  cases id with
  | none => exact Reads.last (reads_u8 truncated 0) (Reads.pure none)
  | some v =>
    rw [spelledId, ← List.singleton_append]
    refine Reads.bind (reads_u8 truncated 1) (Reads.bind_nil (reads_ensure rfl) ?_)
    exact Reads.last (reads_id truncatedId v) (Reads.pure _)

theorem reads_spelledReason {truncated truncatedReason invalid : ε} {reason : Option CString}
    (short : ∀ r ∈ reason, r.length < 2 ^ 32) :
    Reads (readInvalidation truncated truncatedReason invalid) (spelledReason reason) reason := by
  cases reason with
  | none => exact Reads.last (reads_u8 truncated 0) (Reads.bind_nil (reads_ensure rfl) (Reads.pure none))
  | some r =>
    rw [spelledReason, ← List.singleton_append]
    refine Reads.bind (reads_u8 truncated 1) ?_
    exact Reads.last (reads_str (short r rfl)) (Reads.pure _)

end

theorem length_le_flatten {w : Bytes} {ws : List Bytes} (mem : w ∈ ws) :
    w.length ≤ ws.flatten.length := by
  rw [List.length_flatten]
  exact List.le_sum_of_mem (List.mem_map_of_mem mem)

/-- The texts of an object that fits a payload have lengths that fit their prefixes. -/
theorem Spelling.short {x : Spelling} (size : x.fields.flatten.length < 2 ^ 32) : x.raw.Short := by
  have small {w : Bytes} (mem : w ∈ x.fields) : w.length < 2 ^ 32 :=
    Nat.lt_of_le_of_lt (length_le_flatten mem) size
  have text {s : CString} (mem : str s ∈ x.fields) : s.length < 2 ^ 32 := by
    have := small mem
    rw [str_length] at this
    omega
  refine ⟨text ?_, text ?_, text ?_, text ?_, ?_⟩
  · simp [Spelling.fields]
  · simp [Spelling.fields]
  · simp [Spelling.fields]
  · simp [Spelling.fields]
  · intro r hr
    have whole : (spelledReason x.raw.invalidationReason).length < 2 ^ 32 :=
      small (by simp [Spelling.fields])
    rw [hr, spelledReason, List.length_cons, str_length] at whole
    omega

theorem Spelling.Listed.few {x : Spelling} (listed : x.Listed) : x.dependencies.length ≤ 12 := by
  have bound := List.Subperm.length_le (List.subperm_of_subset listed.distinct fun k _ => mem_enumerators k)
  rw [List.length_map] at bound
  exact bound

theorem foldl_held {x : Spelling} (listed : x.Listed) {o : WarmthObject}
    (fresh : ∀ k, o.depGens k = none) :
    x.dependencies.foldl (fun o d => o.setDependencyGeneration d.1 d.2) o =
      { o with depGens := x.raw.depGens } := by
  have held : x.raw.depGens = (x.dependencies.foldl (fun o d => o.setDependencyGeneration d.1 d.2)
      ({} : WarmthObject)).depGens := funext listed.held
  have empty : o.depGens = ({} : WarmthObject).depGens := funext fresh
  rw [foldl_setDependencyGeneration_eq, held, foldl_setDependencyGeneration_congr empty]

/-- Every way of spelling an object is read as it stands. -/
theorem reads_listed {x : Spelling} (short : x.raw.Short) (listed : x.Listed) :
    Reads readSpelling x.fields.flatten x := by
  obtain ⟨raw, dependencies⟩ := x
  simp only [Spelling.fields, List.flatten_cons, List.flatten_nil]
  refine Reads.bind (reads_id _ raw.id) (Reads.bind (reads_u8 _ _) ?_)
  refine Reads.bind (reads_id _ raw.workload) (Reads.bind (reads_id _ raw.node) ?_)
  refine Reads.bind_nil (reads_known _ raw.category) ?_
  refine Reads.bind (reads_str short.device) (Reads.bind (reads_str short.backend) ?_)
  refine Reads.bind (reads_str short.logicalOwner) ?_
  refine Reads.bind (reads_spelledId _ _ _ raw.model) (Reads.bind (reads_spelledId _ _ _ raw.artifact) ?_)
  refine Reads.bind (reads_spelledId _ _ _ raw.replica) (Reads.bind (reads_spelledId _ _ _ raw.engine) ?_)
  refine Reads.bind (reads_enumerator _ _ raw.state) ?_
  refine Reads.bind (reads_str short.stateChangeReason) ?_
  refine Reads.bind (reads_allDimensions _ _ raw _) ?_
  refine Reads.bind (reads_u64 _ _) (Reads.bind (reads_u64 _ _) ?_)
  refine Reads.bind (reads_u64 _ _) (Reads.bind (reads_u64 _ _) ?_)
  refine Reads.bind (reads_wireF64 _) (Reads.bind (reads_wireF64 _) ?_)
  refine Reads.bind (reads_enumerator _ _ raw.residency) ?_
  refine Reads.bind (reads_enumerator _ _ raw.lifecycle) ?_
  refine Reads.bind (reads_wireF64 _) (Reads.bind (reads_wireF64 _) ?_)
  refine Reads.bind (reads_u64 _ _) ?_
  have few : dependencies.length ≤ 12 := listed.few
  refine Reads.bind (reads_wireCount (by omega) (by omega)) ?_
  refine Reads.bind (reads_dependencyList listed.distinct fun _ _ => List.not_mem_nil) ?_
  rw [foldl_held listed fun _ => rfl]
  refine Reads.bind (reads_spelledReason short.invalidationReason) ?_
  refine Reads.bind (reads_enumerator _ _ raw.provenance) ?_
  exact Reads.pure _

/-! Objects, one or many, as the decoders of the messages take them. -/

theorem decodeObject_spelled : Maps Spelling.object decodeObject readSpelling := by
  intro bytes o rest
  constructor
  · intro h
    obtain ⟨raw, unclamped, rfl⟩ := (decodeObject_unclamped bytes o rest).mp h
    obtain ⟨x, read, rfl⟩ := (decodeUnclamped_spelled bytes raw rest).mp unclamped
    exact ⟨x, read, rfl⟩
  · rintro ⟨x, read, rfl⟩
    have unclamped := (decodeUnclamped_spelled bytes x.raw rest).mpr ⟨x, read, rfl⟩
    exact (decodeObject_unclamped bytes x.object rest).mpr ⟨x.raw, unclamped, rfl⟩

/-- What the decoder of `n` objects reads. -/
theorem spells_wireObjects (n : Nat) : Spells (times decodeObject n) fun w objects =>
    ∃ xs : List Spelling, w = spelledObjects xs ∧ xs.length = n ∧ (∀ x ∈ xs, x.Listed) ∧
      objects = xs.map Spelling.object := by
  intro bytes objects rest h
  obtain ⟨xs, read, rfl⟩ := (decodeObject_spelled.times n bytes objects rest).mp h
  obtain ⟨w, whole, spelled, size, listed⟩ := spells_objects n bytes xs rest read
  exact ⟨w, whole, xs, spelled, size, listed, rfl⟩

theorem reads_spelledObjects {xs : List Spelling} (listed : ∀ x ∈ xs, x.Listed)
    (size : (spelledObjects xs).length < 2 ^ 32) :
    Reads (times decodeObject xs.length) (spelledObjects xs) (xs.map Spelling.object) := by
  have each : ∀ x ∈ xs, Reads readSpelling x.fields.flatten (id x) := by
    intro x hx
    have part : x.fields.flatten.length ≤ (spelledObjects xs).length := by
      rw [spelledObjects, List.flatMap_def]
      exact length_le_flatten (List.mem_map_of_mem hx)
    exact reads_listed (Spelling.short (by omega)) (listed x hx)
  have all := reads_times xs each
  rw [List.map_id] at all
  intro rest
  exact (decodeObject_spelled.times xs.length _ _ rest).mpr ⟨xs, all rest, rfl⟩

/-! The messages. -/

/-- The limits that `decode_hello` checks; the version has 32 bits. -/
structure Hello.Within (h : Hello) : Prop where
  protocolVersion : h.protocolVersion < 2 ^ 32
  devices : h.devices.length ≤ 4096
  actions : h.actions.length ≤ 64
  observed : h.observed.length ≤ 4096

theorem spells_wireCount (limit : Nat) :
    Spells (wireCount limit) fun w n => w = u32 n ∧ n ≤ limit := by
  refine Exact.bind (exact_number () 4) fun n => Spells.check fun small => Spells.pure ?_
  rw [List.append_nil]
  exact ⟨rfl, of_decide_eq_true small⟩

theorem spells_number32 : Spells (number () 4) fun w n => w = u32 n ∧ n < 2 ^ 32 := by
  intro s v rest h
  obtain ⟨small, whole⟩ := number_ok.mp h
  exact ⟨_, whole, rfl, small⟩

theorem spells_strs (n : Nat) : Spells (times (readStr ()) n) fun w ss =>
    w = ss.flatMap str ∧ ss.length = n := by
  have each : Spells (readStr ()) fun w (s : CString) => w = str s ∧ True :=
    (exact_readStr ()).imp fun _ _ same => ⟨same, trivial⟩
  exact (spells_times each n).imp fun _ _ all => ⟨all.1, all.2.1⟩

theorem spells_bytes (n : Nat) : Spells (times (u8 ()) n) fun w bs => w = bs ∧ bs.length = n := by
  have each : Spells (u8 ()) fun w (b : UInt8) => w = [b] ∧ True :=
    (exact_u8 ()).imp fun _ _ same => ⟨same, trivial⟩
  refine (spells_times each n).imp fun w bs all => ⟨?_, all.2.1⟩
  rw [all.1, List.flatMap_singleton']

theorem spells_hello : Spells decodeHello fun w h =>
    h.Within ∧ ∃ xs : List Spelling, (∀ x ∈ xs, x.Listed) ∧ h.observed = xs.map Spelling.object ∧
      w = h.spelled xs := by
  refine Spells.bind spells_number32 ?_
  rintro _ version ⟨rfl, hversion⟩
  refine Exact.bind (exact_readId ()) fun worker => Exact.bind (exact_readId ()) fun boot => ?_
  refine Exact.bind (exact_readId ()) fun node => Exact.bind (exact_readU64 ()) fun guess => ?_
  refine Exact.bind (exact_readStr ()) fun backend => Spells.bind (spells_wireCount 4096) ?_
  rintro _ nd ⟨rfl, hnd⟩
  refine Spells.bind (spells_strs nd) ?_
  rintro _ devices ⟨rfl, rfl⟩
  refine Spells.bind (spells_wireCount 64) ?_
  rintro _ na ⟨rfl, hna⟩
  refine Spells.bind (spells_bytes na) ?_
  rintro _ actions ⟨rfl, rfl⟩
  refine Spells.bind (spells_wireCount 4096) ?_
  rintro _ no ⟨rfl, hno⟩
  refine Spells.bind (spells_wireObjects no) ?_
  rintro _ objects ⟨xs, rfl, rfl, listed, rfl⟩
  refine Spells.pure ⟨⟨hversion, hnd, hna, by rw [List.length_map]; exact hno⟩, xs, listed, rfl, ?_⟩
  simp only [Hello.spelled, List.append_assoc, List.append_nil]

theorem spells_helloAck : Spells decodeHelloAck fun w a =>
    ∃ accepted : UInt8, a.accepted = (accepted != 0) ∧ w = a.spelled accepted := by
  refine Exact.bind (exact_u8 ()) fun acc => Exact.bind (exact_readStr ()) fun reason => ?_
  refine Exact.bind (exact_readU64 ()) fun epoch => Exact.bind (exact_readU64 ()) fun wgen => ?_
  refine Exact.bind (exact_readU64 ()) fun dgen => Exact.bind (exact_readU64 ()) fun pgen => ?_
  refine Spells.pure ⟨acc, rfl, ?_⟩
  simp only [HelloAck.spelled, List.append_assoc, List.append_nil, List.singleton_append]

theorem spells_report : Spells decodeReport fun w p =>
    p.objects.length ≤ 8192 ∧ ∃ xs : List Spelling, (∀ x ∈ xs, x.Listed) ∧
      p.objects = xs.map Spelling.object ∧ w = p.spelled xs := by
  refine Exact.bind (exact_readId ()) fun boot => Exact.bind (exact_readU64 ()) fun epoch => ?_
  refine Exact.bind (exact_readU64 ()) fun wgen => Exact.bind (exact_readU64 ()) fun dgen => ?_
  refine Spells.bind (spells_wireCount 8192) ?_
  rintro _ no ⟨rfl, hno⟩
  refine Spells.bind (spells_wireObjects no) ?_
  rintro _ objects ⟨xs, rfl, rfl, listed, rfl⟩
  refine Spells.pure ⟨by rw [List.length_map]; exact hno, xs, listed, rfl, ?_⟩
  simp only [ReportPayload.spelled, List.append_assoc, List.append_nil]

theorem spells_warmCmd : Spells decodeWarmCmd fun w c => w = encodeWarmCmd c ∧ True := by
  refine Exact.bind (exact_readId ()) fun object => Exact.bind (exact_u8 ()) fun act => ?_
  refine Exact.bind (exact_readU64 ()) fun attempt => Spells.pure ⟨?_, trivial⟩
  simp only [encodeWarmCmd, List.append_assoc, List.append_nil]

theorem spells_warmTopic : Spells decodeWarmTopic fun w t =>
    t.cmds.length ≤ 4096 ∧ w = encodeWarmTopic t := by
  refine Exact.bind (exact_readU64 ()) fun epoch => Exact.bind (exact_readU64 ()) fun wgen => ?_
  refine Spells.bind (spells_wireCount 4096) ?_
  rintro _ nc ⟨rfl, hnc⟩
  refine Spells.bind (spells_times spells_warmCmd nc) ?_
  rintro _ cmds ⟨rfl, rfl, -⟩
  refine Spells.pure ⟨hnc, ?_⟩
  simp only [encodeWarmTopic, List.append_assoc, List.append_nil]

theorem spells_warmResult : Spells decodeWarmResult fun w r =>
    ∃ success : UInt8, r.success = (success != 0) ∧ w = r.spelled success := by
  refine Exact.bind (exact_readId ()) fun boot => Exact.bind (exact_readU64 ()) fun epoch => ?_
  refine Exact.bind (exact_readU64 ()) fun wgen => Exact.bind (exact_readU64 ()) fun dgen => ?_
  refine Exact.bind (exact_readId ()) fun object => Exact.bind (exact_u8 ()) fun act => ?_
  refine Exact.bind (exact_readU64 ()) fun attempt => Exact.bind (exact_u8 ()) fun ok => ?_
  refine Exact.bind exact_wireF64 fun duration => Exact.bind (exact_readU64 ()) fun bytes => ?_
  refine Exact.bind (exact_readStr ()) fun error => Spells.pure ⟨ok, rfl, ?_⟩
  simp only [WarmResult.spelled, List.append_assoc, List.append_nil]

theorem length_str_le {s : CString} {ws : List Bytes} (mem : str s ∈ ws)
    (size : ws.flatten.length < 2 ^ 32) : s.length < 2 ^ 32 := by
  have := length_le_flatten mem
  rw [str_length] at this
  omega

theorem reads_acceptedHello {h : Hello} {xs : List Spelling} (within : h.Within)
    (listed : ∀ x ∈ xs, x.Listed) (observed : h.observed = xs.map Spelling.object)
    (size : (h.spelled xs).length < 2 ^ 32) : Reads decodeHello (h.spelled xs) h := by
  have fields : (h.spelled xs).length = 72 + (str h.backend).length + (h.devices.flatMap str).length +
      h.actions.length + (spelledObjects xs).length := by
    simp only [Hello.spelled, List.length_append, u32_length, u64_length, Id128.toBytes_length]
    omega
  rw [str_length] at fields
  have names : ∀ d ∈ h.devices, d.length < 2 ^ 32 := by
    intro d hd
    refine length_str_le (List.mem_map_of_mem (f := str) hd) ?_
    rw [← List.flatMap_def]
    omega
  have count : xs.length ≤ 4096 := by
    have := within.observed
    rwa [observed, List.length_map] at this
  have devices := within.devices
  have actions := within.actions
  simp only [Hello.spelled, List.append_assoc]
  refine Reads.bind (reads_u32 within.protocolVersion) (Reads.bind (reads_id _ h.worker) ?_)
  refine Reads.bind (reads_id _ h.boot) (Reads.bind (reads_id _ h.node) ?_)
  refine Reads.bind (reads_u64 _ h.epochGuess) (Reads.bind (reads_str (by omega)) ?_)
  refine Reads.bind (reads_wireCount devices (by omega)) (Reads.bind (reads_strs names) ?_)
  refine Reads.bind (reads_wireCount actions (by omega)) (Reads.bind (reads_bytes h.actions) ?_)
  refine Reads.bind (reads_wireCount count (by omega)) ?_
  refine Reads.last (reads_spelledObjects listed (by omega)) ?_
  rw [← observed]
  exact Reads.pure h

theorem reads_acceptedReport {p : ReportPayload} {xs : List Spelling} (few : p.objects.length ≤ 8192)
    (listed : ∀ x ∈ xs, x.Listed) (objects : p.objects = xs.map Spelling.object)
    (size : (p.spelled xs).length < 2 ^ 32) : Reads decodeReport (p.spelled xs) p := by
  have part : (spelledObjects xs).length ≤ (p.spelled xs).length := by
    rw [ReportPayload.spelled, List.length_append]
    exact Nat.le_add_left _ _
  have count : xs.length ≤ 8192 := by rwa [objects, List.length_map] at few
  simp only [ReportPayload.spelled, List.append_assoc]
  refine Reads.bind (reads_id _ p.boot) (Reads.bind (reads_u64 _ p.epoch) ?_)
  refine Reads.bind (reads_u64 _ p.warmthGen) (Reads.bind (reads_u64 _ p.depGen) ?_)
  refine Reads.bind (reads_wireCount count (by omega)) ?_
  refine Reads.last (reads_spelledObjects listed (by omega)) ?_
  rw [← objects]
  exact Reads.pure p

theorem reads_acceptedAck {a : HelloAck} {accepted : UInt8} (flag : a.accepted = (accepted != 0))
    (size : (a.spelled accepted).length < 2 ^ 32) : Reads decodeHelloAck (a.spelled accepted) a := by
  have short : a.reason.length < 2 ^ 32 := by
    simp only [HelloAck.spelled, List.length_cons, List.length_append, str_length] at size
    omega
  simp only [HelloAck.spelled, List.append_assoc]
  refine Reads.bind (reads_u8 () accepted) (Reads.bind (reads_str short) ?_)
  refine Reads.bind (reads_u64 _ _) (Reads.bind (reads_u64 _ _) ?_)
  refine Reads.bind (reads_u64 _ _) (Reads.last (reads_u64 _ _) ?_)
  rw [← flag]
  exact Reads.pure a

theorem reads_acceptedResult {r : WarmResult} {success : UInt8} (flag : r.success = (success != 0))
    (size : (r.spelled success).length < 2 ^ 32) : Reads decodeWarmResult (r.spelled success) r := by
  have short : r.error.length < 2 ^ 32 := by
    simp only [WarmResult.spelled, List.length_append, str_length] at size
    omega
  simp only [WarmResult.spelled, List.append_assoc]
  refine Reads.bind (reads_id _ r.boot) (Reads.bind (reads_u64 _ r.epoch) ?_)
  refine Reads.bind (reads_u64 _ r.warmthGen) (Reads.bind (reads_u64 _ r.depGen) ?_)
  refine Reads.bind (reads_id _ r.object) (Reads.bind (reads_u8 _ r.action.value) ?_)
  refine Reads.bind (reads_u64 _ r.attempt) (Reads.bind (reads_u8 () success) ?_)
  refine Reads.bind (reads_wireF64 r.durationMs) (Reads.bind (reads_u64 _ r.bytes) ?_)
  refine Reads.last (reads_str short) ?_
  rw [← flag]
  exact Reads.pure r

theorem decodePayload_eq_some {α : Type} {d : Decoder Unit α} {payload : Bytes} {a : α} :
    decodePayload d payload = some a ↔ ∃ rest, d payload = .ok (a, rest) := by
  unfold decodePayload
  cases d payload with
  | ok p =>
    obtain ⟨b, rest⟩ := p
    constructor
    · intro h
      cases h
      exact ⟨rest, rfl⟩
    · rintro ⟨rest, h⟩
      cases h
      rfl
  | error e =>
    constructor
    · intro h
      cases h
    · rintro ⟨rest, h⟩
      cases h

/-- A decoder that reads back whatever it can have read accepts just the payloads that begin so. -/
theorem decodePayload_iff {α : Type} {d : Decoder Unit α} {P : Bytes → α → Prop} (spells : Spells d P)
    (reads : ∀ w a, P w a → w.length < 2 ^ 32 → Reads d w a) {payload : Bytes}
    (size : payload.length ≤ kMaxPayload) (a : α) :
    decodePayload d payload = some a ↔ ∃ w rest, payload = w ++ rest ∧ P w a := by
  rw [decodePayload_eq_some]
  constructor
  · rintro ⟨rest, h⟩
    obtain ⟨w, whole, spelled⟩ := spells payload a rest h
    exact ⟨w, rest, whole, spelled⟩
  · rintro ⟨w, rest, rfl, spelled⟩
    rw [List.length_append] at size
    unfold kMaxPayload at size
    exact ⟨rest, reads w a spelled (by omega) rest⟩

/-- What the payload of a frame has to be for the decoders to accept it, message by message: the
encoding of a message within the limits, up to the spelling of flags and objects, with anything
behind it. -/
theorem accepted_payloads {payload : Bytes} (size : payload.length ≤ kMaxPayload) :
    (∀ h, decodePayload decodeHello payload = some h ↔ ∃ w rest, payload = w ++ rest ∧ h.Within ∧
      ∃ xs : List Spelling, (∀ x ∈ xs, x.Listed) ∧ h.observed = xs.map Spelling.object ∧
        w = h.spelled xs) ∧
    (∀ a, decodePayload decodeHelloAck payload = some a ↔ ∃ w rest, payload = w ++ rest ∧
      ∃ accepted : UInt8, a.accepted = (accepted != 0) ∧ w = a.spelled accepted) ∧
    (∀ p, decodePayload decodeReport payload = some p ↔ ∃ w rest, payload = w ++ rest ∧
      p.objects.length ≤ 8192 ∧ ∃ xs : List Spelling, (∀ x ∈ xs, x.Listed) ∧
        p.objects = xs.map Spelling.object ∧ w = p.spelled xs) ∧
    (∀ t, decodePayload decodeWarmTopic payload = some t ↔ ∃ w rest, payload = w ++ rest ∧
      t.cmds.length ≤ 4096 ∧ w = encodeWarmTopic t) ∧
    (∀ r, decodePayload decodeWarmResult payload = some r ↔ ∃ w rest, payload = w ++ rest ∧
      ∃ success : UInt8, r.success = (success != 0) ∧ w = r.spelled success) := by
  refine ⟨decodePayload_iff spells_hello ?_ size, decodePayload_iff spells_helloAck ?_ size,
    decodePayload_iff spells_report ?_ size, decodePayload_iff spells_warmTopic ?_ size,
    decodePayload_iff spells_warmResult ?_ size⟩
  · rintro _ h ⟨within, xs, listed, observed, rfl⟩ small
    exact reads_acceptedHello within listed observed small
  · rintro _ a ⟨accepted, flag, rfl⟩ small
    exact reads_acceptedAck flag small
  · rintro _ p ⟨few, xs, listed, objects, rfl⟩ small
    exact reads_acceptedReport few listed objects small
  · rintro _ t ⟨few, rfl⟩ small
    exact reads_warmTopic few
  · rintro _ r ⟨success, flag, rfl⟩ small
    exact reads_acceptedResult flag small

theorem accepted_payloads_topic :
    decodePayload decodeWarmTopic (encodeWarmTopic { epoch := 3, cmds := [{ attempt := 9 }] } ++ [7]) =
      some { epoch := 3, cmds := [{ attempt := 9 }] } := by
  have small : (encodeWarmTopic { epoch := 3, cmds := [{ attempt := 9 }] } ++ [7]).length ≤
      kMaxPayload := by decide
  obtain ⟨-, -, -, topic, -⟩ := accepted_payloads small
  exact (topic _).mpr ⟨_, [7], rfl, by decide, rfl⟩

end Warmth
