import Warmth.ObjectCodecs

namespace Warmth

open Codec

theorem decodePayload_of_reads {α : Type} {d : Decoder Unit α} {bs : Bytes} {a : α}
    (h : Reads d bs a) : decodePayload d bs = some a := by
  have := h []
  rw [List.append_nil] at this
  simp only [decodePayload, this]

theorem reads_wireFlag {α : Type} {f : UInt8 → Decoder Unit α} {bs : Bytes} {a : α} (b : Bool)
    (h : Reads (f (if b then 1 else 0)) bs a) :
    Reads (u8 () >>= f) ((if b then 1 else 0) :: bs) a :=
  Reads.bind (reads_u8 () _) h

theorem reads_helloAck {a : HelloAck} (h : a.reason.length < 2 ^ 32) :
    Reads decodeHelloAck (encodeHelloAck a) a := by
  simp only [encodeHelloAck, List.append_assoc, List.cons_append, List.nil_append]
  refine reads_wireFlag a.accepted (Reads.bind (reads_str h) ?_)
  refine Reads.bind (reads_u64 _ _) (Reads.bind (reads_u64 _ _) ?_)
  refine Reads.bind (reads_u64 _ _) (Reads.last (reads_u64 _ _) ?_)
  have accepted : ((if a.accepted then 1 else 0 : UInt8) != 0) = a.accepted := by
    cases a.accepted <;> rfl
  rw [accepted]
  exact Reads.pure a

theorem reads_warmCmd (c : WarmCmd) : Reads decodeWarmCmd (encodeWarmCmd c) c := by
  simp only [encodeWarmCmd, List.append_assoc, List.cons_append, List.nil_append]
  refine Reads.bind (reads_id _ c.object) ?_
  exact Reads.bind (reads_u8 _ c.action.value) (Reads.last (reads_u64 _ c.attempt) (Reads.pure c))

theorem reads_warmTopic {t : WarmTopic} (h : t.cmds.length ≤ 4096) :
    Reads decodeWarmTopic (encodeWarmTopic t) t := by
  simp only [encodeWarmTopic, List.append_assoc]
  refine Reads.bind (reads_u64 _ _) (Reads.bind (reads_u64 _ _) ?_)
  refine Reads.bind (reads_wireCount h (by omega)) ?_
  have cmd (c : WarmCmd) : Reads decodeWarmCmd (encodeWarmCmd c) (id c) := reads_warmCmd c
  have cmds := reads_times t.cmds fun c _ => cmd c
  rw [List.map_id] at cmds
  exact Reads.last cmds (Reads.pure t)

theorem reads_warmResult {r : WarmResult} (h : r.error.length < 2 ^ 32) :
    Reads decodeWarmResult (encodeWarmResult r) r := by
  simp only [encodeWarmResult, List.append_assoc, List.cons_append, List.nil_append]
  refine Reads.bind (reads_id _ r.boot) (Reads.bind (reads_u64 _ _) ?_)
  refine Reads.bind (reads_u64 _ _) (Reads.bind (reads_u64 _ _) ?_)
  refine Reads.bind (reads_id _ r.object) (Reads.bind (reads_u8 _ r.action.value) ?_)
  refine Reads.bind (reads_u64 _ r.attempt) (reads_wireFlag r.success ?_)
  refine Reads.bind (reads_wireF64 r.durationMs) (Reads.bind (reads_u64 _ r.bytes) ?_)
  refine Reads.last (reads_str h) ?_
  have success : ((if r.success then 1 else 0 : UInt8) != 0) = r.success := by
    cases r.success <;> rfl
  rw [success]
  exact Reads.pure r

/-- The object travels unchanged, but for zero ids and an empty reason. -/
structure WarmthObject.Wirable (o : WarmthObject) : Prop where
  short : o.Short
  settled : o.Settled

/-- A HELLO within the limits of `decode_hello`. -/
structure Hello.Wirable (h : Hello) : Prop where
  protocolVersion : h.protocolVersion < 2 ^ 32
  backend : h.backend.length < 2 ^ 32
  devices : h.devices.length ≤ 4096
  deviceNames : ∀ d ∈ h.devices, d.length < 2 ^ 32
  actions : h.actions.length ≤ 64
  observed : h.observed.length ≤ 4096
  objects : ∀ o ∈ h.observed, o.Wirable

structure ReportPayload.Wirable (p : ReportPayload) : Prop where
  length : p.objects.length ≤ 8192
  objects : ∀ o ∈ p.objects, o.Wirable

def Hello.stored (h : Hello) : Hello := { h with observed := h.observed.map WarmthObject.stored }

def ReportPayload.stored (p : ReportPayload) : ReportPayload :=
  { p with objects := p.objects.map WarmthObject.stored }

theorem reads_wireObjects {objects : List WarmthObject} (h : ∀ o ∈ objects, o.Wirable) :
    Reads (times decodeObject objects.length) (objects.flatMap encodeObject)
      (objects.map WarmthObject.stored) :=
  reads_times objects fun o ho => reads_wireObject (h o ho).short (h o ho).settled

theorem reads_strs {ss : List CString} (h : ∀ s ∈ ss, s.length < 2 ^ 32) :
    Reads (times (readStr ()) ss.length) (ss.flatMap str) ss := by
  have hs : Reads (times (readStr ()) ss.length) (ss.flatMap str) (ss.map id) :=
    reads_times ss fun s m => reads_str (h s m)
  rwa [List.map_id] at hs

theorem reads_bytes (bs : Bytes) : Reads (times (u8 ()) bs.length) bs bs := by
  have hb : Reads (times (u8 ()) bs.length) (bs.flatMap fun b => [b]) (bs.map id) :=
    reads_times bs fun b _ => reads_u8 () b
  rwa [List.map_id, List.flatMap_singleton'] at hb

theorem reads_hello {h : Hello} (ok : h.Wirable) : Reads decodeHello (encodeHello h) h.stored := by
  have devices := ok.devices
  have actions := ok.actions
  have observed := ok.observed
  simp only [encodeHello, List.append_assoc]
  refine Reads.bind (reads_u32 ok.protocolVersion) (Reads.bind (reads_id _ h.worker) ?_)
  refine Reads.bind (reads_id _ h.boot) (Reads.bind (reads_id _ h.node) ?_)
  refine Reads.bind (reads_u64 _ h.epochGuess) (Reads.bind (reads_str ok.backend) ?_)
  refine Reads.bind (reads_wireCount devices (by omega)) ?_
  refine Reads.bind (reads_strs ok.deviceNames) ?_
  refine Reads.bind (reads_wireCount actions (by omega)) (Reads.bind (reads_bytes h.actions) ?_)
  refine Reads.bind (reads_wireCount observed (by omega)) ?_
  exact Reads.last (reads_wireObjects ok.objects) (Reads.pure _)

theorem reads_report {p : ReportPayload} (ok : p.Wirable) :
    Reads decodeReport (encodeReport p) p.stored := by
  have length := ok.length
  simp only [encodeReport, List.append_assoc]
  refine Reads.bind (reads_id _ p.boot) (Reads.bind (reads_u64 _ p.epoch) ?_)
  refine Reads.bind (reads_u64 _ p.warmthGen) (Reads.bind (reads_u64 _ p.depGen) ?_)
  refine Reads.bind (reads_wireCount length (by omega)) ?_
  exact Reads.last (reads_wireObjects ok.objects) (Reads.pure _)

/-- Each payload is decoded to the message it was encoded from, and the bytes behind it stay. -/
theorem message_round_trip :
    (∀ h : Hello, h.Wirable → Reads decodeHello (encodeHello h) h.stored) ∧
    (∀ a : HelloAck, a.reason.length < 2 ^ 32 → Reads decodeHelloAck (encodeHelloAck a) a) ∧
    (∀ p : ReportPayload, p.Wirable → Reads decodeReport (encodeReport p) p.stored) ∧
    (∀ t : WarmTopic, t.cmds.length ≤ 4096 → Reads decodeWarmTopic (encodeWarmTopic t) t) ∧
    (∀ r : WarmResult, r.error.length < 2 ^ 32 →
      Reads decodeWarmResult (encodeWarmResult r) r) :=
  ⟨fun _ ok => reads_hello ok, fun _ h => reads_helloAck h, fun _ ok => reads_report ok,
    fun _ h => reads_warmTopic h, fun _ h => reads_warmResult h⟩

/-- A HELLO that observes an object with a zero model id and an empty reason. -/
def observingHello : Hello :=
  { worker := ⟨0, 1⟩, boot := ⟨0, 1⟩, devices := [[99]], actions := [1, 2]
    observed := [{ id := ⟨0, 9⟩, model := some ⟨0, 0⟩, invalidationReason := some [] }] }

theorem message_round_trip_observing :
    Reads decodeHello (encodeHello observingHello) observingHello.stored ∧
    Reads decodeHelloAck (encodeHelloAck {}) {} ∧
    Reads decodeReport (encodeReport { objects := observingHello.observed })
      { objects := observingHello.stored.observed } ∧
    Reads decodeWarmTopic (encodeWarmTopic { cmds := [{}] }) { cmds := [{}] } ∧
    Reads decodeWarmResult (encodeWarmResult {}) {} := by
  have object : ∀ o ∈ observingHello.observed, o.Wirable := by
    intro o ho
    cases List.mem_singleton.mp ho
    have short : ∀ r ∈ (some [] : Option CString), r.length < 2 ^ 32 := by simp
    exact ⟨⟨by decide, by decide, by decide, by decide, short⟩, ⟨.zero, by decide⟩,
      ⟨.zero, by decide⟩⟩
  have hello : observingHello.Wirable :=
    ⟨by decide, by decide, by decide, by simp [observingHello], by decide, by decide, object⟩
  have report : ({ objects := observingHello.observed } : ReportPayload).Wirable :=
    ⟨by decide, object⟩
  obtain ⟨h, a, p, t, r⟩ := message_round_trip
  exact ⟨h _ hello, a {} (by decide), p _ report, t _ (by decide), r {} (by decide)⟩

/-- The two HELLOs come from the same boot of the same worker. -/
def Hello.SameSender (h g : Hello) : Prop :=
  g.protocolVersion = h.protocolVersion ∧ g.worker = h.worker ∧ g.boot = h.boot ∧ g.node = h.node

/-- Whatever becomes of its lists, a HELLO that is decoded names the sender it was encoded with. -/
theorem decodeHello_sender {h g : Hello} (version : h.protocolVersion < 2 ^ 32)
    (decoded : decodePayload decodeHello (encodeHello h) = some g) : h.SameSender g := by
  unfold decodePayload at decoded
  split at decoded
  next g' left ok =>
    cases decoded
    simp only [encodeHello, List.append_assoc] at ok
    rw [decodeHello, (reads_u32 version).apply, (reads_id () h.worker).apply,
      (reads_id () h.boot).apply, (reads_id () h.node).apply] at ok
    -- epoch guess, backend, and the three lists with their counts
    refine Ensures.skip (Q := h.SameSender) (fun _ => Ensures.skip fun _ => Ensures.skip fun _ =>
      Ensures.skip fun _ => Ensures.skip fun _ => Ensures.skip fun _ => Ensures.skip fun _ =>
      Ensures.skip fun _ => ?_) _ g left ok
    exact ensures_pure ⟨rfl, rfl, rfl, rfl⟩
  next => cases decoded

end Warmth
