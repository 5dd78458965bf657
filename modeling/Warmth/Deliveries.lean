import Warmth.AckAuthority
import Warmth.Boots
import Warmth.MessageRoundTrip
import Warmth.Network

namespace Warmth

open Codec Std

namespace Threads

/-- The connection states change by an accepted HELLO and by nothing else. -/
theorem step_conns (s : Threads) (a : ThreadStep) :
    (s.step a).sys.coord.conns = s.sys.coord.conns ∨
      ∃ cs f now h, a = .frame cs f now ∧ f.type = .hello ∧
        decodePayload decodeHello f.payload = some h ∧
        (s.step a).sys.coord.conns = (s.sys.coord.register cs h).conns := by
  rw [step, note_sys]
  have acted := acted_act s a
  generalize s.act a = t at acted
  have other {b : Step} (hb : ∀ cs f now, b ≠ .frame cs f now) :
      (s.sys.step b).coord.conns = s.sys.coord.conns := by
    refine (System.step_registry fun cs h r => ?_).1
    obtain ⟨f, now, same, -⟩ := r.frame
    exact hb cs f now same
  cases acted with
  | @receive cs f now =>
    by_cases r : ∃ cs' h, s.sys.Registers (.frame cs f now) cs' h
    · obtain ⟨cs', h, r⟩ := r
      have registry := (System.registers_registry r).1
      cases r with
      | hello up type decoded version noClash =>
        exact Or.inr ⟨cs, f, now, h, rfl, type, decoded, registry⟩
    · exact Or.inl (System.step_registry fun cs' h hr => r ⟨cs', h, hr⟩).1
  | disconnect | refuse | issue | cleanup | rollEpoch | bumpWarmth | bumpDependency =>
    exact Or.inl (other (by intro cs f now; nofun))
  | send =>
    refine Or.inl ?_
    exact other (by intro cs f now; nofun)
  | reply =>
    refine Or.inl ?_
    unfold put
    split <;> rfl
  | idle | load | storeEpoch | storeWarmth => exact Or.inl rfl

/-- Nothing is ever taken off a wire. -/
theorem step_wire (s : Threads) (a : ThreadStep) (c : ConnId) :
    ∃ more, (s.step a).wire c = s.wire c ++ more := by
  rw [step, note_wire]
  have put_wire (cs : ConnId) (f : Frame) (sent : Bool) :
      ∃ more, (s.put cs f sent).wire c = s.wire c ++ more := by
    by_cases hc : c = cs
    · subst hc
      cases sent with
      | true => exact ⟨[f], by simp [put]⟩
      | false => exact ⟨[], by simp [put]⟩
    · exact ⟨[], by cases sent <;> simp [put, hc]⟩
  have acted := acted_act s a
  generalize s.act a = t at acted
  cases acted with
  | reply | send => exact put_wire _ _ _
  | _ => exact ⟨[], (List.append_nil _).symm⟩

end Threads

def WarmResult.authority (r : WarmResult) : UInt64 × UInt64 × UInt64 :=
  (r.epoch, r.warmthGen, r.depGen)

namespace Worker

/-- The authority as the worker has learned it. -/
def authority (w : Worker) : UInt64 × UInt64 × UInt64 := (w.epoch, w.warmthGen, w.depGen)

theorem warmAll_frame (w : Worker) (hook : Nat → HookOutcome) (now : Nat → Nat → Timestamp) (k : Nat)
    (cmds : List WarmCmd) :
    (w.warmAll hook now k cmds).1 = { w with observed := (w.warmAll hook now k cmds).1.observed } := by
  induction cmds generalizing w k with
  | nil => rfl
  | cons cmd cmds ih => exact ih (w.warm cmd (hook k) (now k)).1 (k + 1)

/-- Every command of a WARM_TOPIC is answered, in order and with the stamps of the connect. -/
theorem warmAll_results (w : Worker) (hook : Nat → HookOutcome) (now : Nat → Nat → Timestamp)
    (k : Nat) (cmds : List WarmCmd) :
    (w.warmAll hook now k cmds).2.map Warmed.result =
      (cmds.zipIdx k).map fun p => w.resultOf p.1 (hook p.2) := by
  induction cmds generalizing w k with
  | nil => rfl
  | cons cmd cmds ih =>
    rw [List.zipIdx_cons, List.map_cons]
    exact congrArg (w.resultOf cmd (hook k) :: ·) (ih (w.warm cmd (hook k) (now k)).1 (k + 1))

theorem resultOf_error (w : Worker) (cmd : WarmCmd) (r : HookOutcome) :
    (w.resultOf cmd r).error.length < 2 ^ 32 := by
  simp only [resultOf]
  cases r.success <;> decide

theorem receiveAck_cfg (w : Worker) (reply : Option Frame) : (w.receiveAck reply).1.cfg = w.cfg := by
  unfold receiveAck
  repeat' split
  all_goals rfl

/-- The result answers a command and is stamped by the worker. -/
def Speaks (w : Worker) (cmds : List WarmCmd) (res : WarmResult) : Prop :=
  ∃ cmd ∈ cmds, ∃ r, res = w.resultOf cmd r

theorem handleFrame_frame (w : Worker) (f : Frame) (hook : Nat → HookOutcome)
    (now : Nat → Nat → Timestamp) :
    (w.handleFrame f hook now).1 = { w with
      observed := (w.handleFrame f hook now).1.observed
      shutdownRequested := (w.handleFrame f hook now).1.shutdownRequested } := by
  unfold handleFrame
  split
  next =>
    split
    next => rfl
    next topic _ =>
      simp only
      rw [warmAll_frame]
  next => rfl
  next => rfl
  next => rfl

/-- The results among the answers to a frame are those of the commands it carries. -/
theorem handleFrame_speaks {w : Worker} {f : Frame} {hook : Nat → HookOutcome}
    {now : Nat → Nat → Timestamp} {d : Warmed}
    (h : .warmed d ∈ (w.handleFrame f hook now).2) :
    f.type = .warmTopic ∧ ∃ topic, decodePayload decodeWarmTopic f.payload = some topic ∧
      w.Speaks topic.cmds d.result := by
  unfold handleFrame at h
  split at h
  next type =>
    split at h
    next => cases h
    next topic decoded =>
      obtain ⟨d', hd, same⟩ := List.mem_map.mp h
      cases same
      have mem := List.mem_map_of_mem (f := Warmed.result) hd
      rw [warmAll_results] at mem
      obtain ⟨⟨cmd, j⟩, hp, same⟩ := List.mem_map.mp mem
      exact ⟨type, topic, decoded, cmd, List.fst_mem_of_mem_zipIdx hp, hook j, same.symm⟩
  next => cases List.mem_singleton.mp h
  next => cases h
  next => cases h

end Worker

namespace Network

open Function

/-- Who speaks on which connection. -/
structure Senders (cfgs : Nat → WorkerConfig) (s : Network) : Prop where
  cfg : ∀ i, (s.peers i).worker.cfg = cfgs i
  conn : ∀ i c, (s.peers i).conn = some c → c < s.made ∧ s.owner c = i
  fresh : ∀ c, s.made ≤ c → s.inbox c = [] ∧
    (s.threads.sys.coord.conns c).registered = false ∧ s.taken c = 0
  hellos : ∀ c h, .hello h ∈ s.inbox c → h.protocolVersion = kProtocolVersion ∧
    h.worker = (cfgs (s.owner c)).workerId ∧ h.boot = (cfgs (s.owner c)).boot
  results : ∀ c d, .answer (.warmed d) ∈ s.inbox c →
    d.result.boot = (cfgs (s.owner c)).boot ∧ d.result.error.length < 2 ^ 32
  registered : ∀ c, (s.threads.sys.coord.conns c).registered = true →
    (s.threads.sys.coord.conns c).id = (cfgs (s.owner c)).workerId ∧
      (s.threads.sys.coord.conns c).boot = (cfgs (s.owner c)).boot

theorem senders_init (cfgs : Nat → WorkerConfig) : Senders cfgs (init cfgs) :=
  ⟨fun _ => rfl, fun _ _ h => (nomatch h), fun _ _ => ⟨rfl, rfl, rfl⟩, fun _ _ h => (nomatch h),
    fun _ _ h => (nomatch h), fun _ h => (nomatch h)⟩

section
variable {cfgs : Nat → WorkerConfig} {s : Network}

theorem Senders.setPeer (inv : Senders cfgs s) {i : Nat} {p : Peer} (cfg : p.worker.cfg = cfgs i)
    (conn : ∀ c, p.conn = some c → c < s.made ∧ s.owner c = i) : Senders cfgs (s.setPeer i p) := by
  refine { inv with cfg := ?_, conn := ?_ }
  · exact (forall_update_iff s.peers fun j p => p.worker.cfg = cfgs j).mpr
      ⟨cfg, fun j _ => inv.cfg j⟩
  · exact (forall_update_iff s.peers fun j p =>
      ∀ c, p.conn = some c → c < s.made ∧ s.owner c = j).mpr ⟨conn, fun j _ => inv.conn j⟩

theorem Senders.take (inv : Senders cfgs s) {c : ConnId} (known : c < s.made) :
    Senders cfgs (s.take c) := by
  refine { inv with fresh := fun c' unmade => ?_ }
  have other : c' ≠ c := by
    rintro rfl
    exact absurd known (Nat.not_lt.mpr unmade)
  simp only [Network.take, update_of_ne other]
  exact inv.fresh c' unmade

theorem Senders.post (inv : Senders cfgs s) {c : ConnId} (known : c < s.made)
    {letters : List Letter}
    (hellos : ∀ h, .hello h ∈ letters → h.protocolVersion = kProtocolVersion ∧
      h.worker = (cfgs (s.owner c)).workerId ∧ h.boot = (cfgs (s.owner c)).boot)
    (results : ∀ d, .answer (.warmed d) ∈ letters →
      d.result.boot = (cfgs (s.owner c)).boot ∧ d.result.error.length < 2 ^ 32) :
    Senders cfgs (s.post c letters) := by
  refine { inv with fresh := fun c' unmade => ?_, hellos := ?_, results := ?_ }
  · have other : c' ≠ c := by
      rintro rfl
      exact absurd known (Nat.not_lt.mpr unmade)
    simp only [Network.post, update_of_ne other]
    exact inv.fresh c' unmade
  · intro c' h
    by_cases hc : c' = c
    · subst hc
      simp only [Network.post, update_self, List.mem_append]
      exact Or.rec (inv.hellos c' h) (hellos h)
    · simp only [Network.post, update_of_ne hc]
      exact inv.hellos c' h
  · intro c' d
    by_cases hc : c' = c
    · subst hc
      simp only [Network.post, update_self, List.mem_append]
      exact Or.rec (inv.results c' d) (results d)
    · simp only [Network.post, update_of_ne hc]
      exact inv.results c' d

theorem Senders.openFresh (inv : Senders cfgs s) (i : Nat) : Senders cfgs (s.openFresh i) := by
  have owner (c : ConnId) (hc : c ≠ s.made) : (s.openFresh i).owner c = s.owner c := by
    simp only [Network.openFresh, update_of_ne hc]
  obtain ⟨empty, unregistered, -⟩ := inv.fresh s.made (Nat.le_refl _)
  refine ⟨inv.cfg, fun j c hc => ?_, fun c unmade => ?_, fun c h mem => ?_, fun c d mem => ?_,
    fun c reg => ?_⟩
  · obtain ⟨known, own⟩ := inv.conn j c hc
    exact ⟨Nat.lt_succ_of_lt known, (owner c (Nat.ne_of_lt known)).trans own⟩
  · exact inv.fresh c (Nat.le_of_succ_le unmade)
  · rw [owner c (by rintro rfl; rw [show (s.openFresh i).inbox s.made = [] from empty] at mem; cases mem)]
    exact inv.hellos c h mem
  · rw [owner c (by rintro rfl; rw [show (s.openFresh i).inbox s.made = [] from empty] at mem; cases mem)]
    exact inv.results c d mem
  · rw [owner c (by rintro rfl; exact absurd (reg.symm.trans unregistered) nofun)]
    exact inv.registered c reg

theorem Senders.become (inv : Senders cfgs s) {t : Threads}
    (conns : t.sys.coord.conns = s.threads.sys.coord.conns) : Senders cfgs (s.become t) := by
  refine ⟨inv.cfg, inv.conn, fun c unmade => ?_, inv.hellos, inv.results, fun c => ?_⟩
  · simp only [Network.become, conns]
    exact inv.fresh c unmade
  · simp only [Network.become, conns]
    exact inv.registered c

/-- The letter has been read. -/
theorem Senders.drop (inv : Senders cfgs s) {c : ConnId} {letter : Letter} {rest : List Letter}
    (next : s.inbox c = letter :: rest) :
    Senders cfgs { s with inbox := update s.inbox c rest } := by
  have sub (c' : ConnId) : update s.inbox c rest c' ⊆ s.inbox c' := by
    by_cases hc : c' = c
    · subst hc
      rw [update_self, next]
      exact List.subset_cons_self _ _
    · rw [update_of_ne hc]
      exact fun _ h => h
  refine { inv with fresh := fun c' unmade => ?_, hellos := ?_, results := ?_ }
  · obtain ⟨empty, rest'⟩ := inv.fresh c' unmade
    exact ⟨List.eq_nil_of_subset_nil (empty ▸ sub c'), rest'⟩
  · exact fun c' h mem => inv.hellos c' h (sub c' mem)
  · exact fun c' d mem => inv.results c' d (sub c' mem)

theorem Letter.hello_of_type {letter : Letter} (h : letter.frame.type = .hello) :
    ∃ g, letter = .hello g := by
  cases letter with
  | hello g => exact ⟨g, rfl⟩
  | answer a => cases a <;> cases h
  | shutdown => cases h

theorem Senders.deliver (inv : Senders cfgs s) {c : ConnId} {letter : Letter} {rest : List Letter}
    (next : s.inbox c = letter :: rest) (now : Nat → Timestamp) :
    Senders cfgs { s.become (s.threads.step (.frame c letter.frame now)) with
      inbox := update s.inbox c rest } := by
  obtain same | ⟨c', f, now', h, hf, type, decoded, conns⟩ :=
    s.threads.step_conns (.frame c letter.frame now)
  · exact (inv.drop next).become same
  · cases hf
    obtain ⟨g, rfl⟩ := Letter.hello_of_type type
    obtain ⟨version, worker, boot⟩ := inv.hellos c g (next ▸ List.mem_cons_self)
    obtain ⟨-, worker', boot', -⟩ := decodeHello_sender (by rw [version]; decide) decoded
    have known : c < s.made := by
      by_contra unmade
      rw [(inv.fresh c (Nat.le_of_not_lt unmade)).1] at next
      cases next
    have dropped := inv.drop next
    refine ⟨dropped.cfg, dropped.conn, fun i unmade => ?_, dropped.hellos, dropped.results,
      fun i reg => ?_⟩
    · have other : i ≠ c := by
        rintro rfl
        exact absurd known (Nat.not_lt.mpr unmade)
      simp only [Network.become, conns, System.register_conns_of_ne other]
      exact dropped.fresh i unmade
    · simp only [Network.become, conns] at reg ⊢
      by_cases hi : i = c
      · subst hi
        rw [System.register_conns_self]
        exact ⟨worker'.trans worker, boot'.trans boot⟩
      · rw [System.register_conns_of_ne hi] at reg ⊢
        exact inv.registered i reg

theorem Senders.receive (inv : Senders cfgs s) {i : Nat} {c : ConnId}
    (conn : (s.peers i).conn = some c) (f : Frame) (hook : Nat → HookOutcome)
    (now : Nat → Nat → Timestamp) : Senders cfgs (s.receive i c f hook now) := by
  obtain ⟨known, own⟩ := inv.conn i c conn
  have taken := inv.take known
  cases phase : (s.peers i).phase with
  | idle =>
    rw [receive_idle c f hook now phase]
    exact inv
  | awaiting =>
    rw [receive_awaiting c f hook now phase]
    exact taken.setPeer ((Worker.receiveAck_cfg _ (some f)).trans (inv.cfg i)) (inv.conn i)
  | running =>
    rw [receive_running c f hook now phase]
    have kept : ((s.peers i).handleFrame f hook now).1.worker.cfg = cfgs i := by
      rw [← inv.cfg i]
      have same := congrArg Worker.cfg (Worker.handleFrame_frame (s.peers i).worker f hook now)
      exact same
    refine (taken.setPeer kept (inv.conn i)).post known (fun h mem => ?_) fun d mem => ?_
    · obtain ⟨a, -, same⟩ := List.mem_map.mp mem
      cases same
    · obtain ⟨a, ha, same⟩ := List.mem_map.mp mem
      cases same
      obtain ⟨-, topic, -, cmd, -, r, result⟩ := Worker.handleFrame_speaks ha
      rw [result]
      refine ⟨?_, Worker.resultOf_error _ cmd r⟩
      change (s.peers i).worker.cfg.boot = (cfgs (s.owner c)).boot
      rw [own, inv.cfg i]

theorem Senders.connect (inv : Senders cfgs s) (i : Nat) : Senders cfgs (s.connect i) := by
  have opened := inv.openFresh i
  have own : (s.openFresh i).owner s.made = i := by simp [Network.openFresh]
  have conn (c : ConnId) (hc : some s.made = some c) :
      c < (s.openFresh i).made ∧ (s.openFresh i).owner c = i := by
    cases hc
    exact ⟨Nat.lt_succ_self _, own⟩
  simp only [Network.connect]
  split
  · have opened := opened.setPeer (i := i)
      (p := { s.peers i with conn := some s.made, phase := .awaiting }) (inv.cfg i) conn
    refine opened.post (Nat.lt_succ_self _) (fun h mem => ?_) fun d mem => ?_
    · cases List.mem_singleton.mp mem
      change _ ∧ _ = (cfgs ((s.openFresh i).owner s.made)).workerId ∧
        _ = (cfgs ((s.openFresh i).owner s.made)).boot
      rw [own, ← inv.cfg i]
      exact ⟨rfl, rfl, rfl⟩
    · cases List.mem_singleton.mp mem
  · exact opened.setPeer (i := i) (p := { s.peers i with conn := some s.made }) (inv.cfg i) conn

theorem Senders.step (inv : Senders cfgs s) (a : NetStep) : Senders cfgs (s.step a) := by
  have went := s.went_step a
  generalize s.step a = t at went
  cases went with
  | idle => exact inv
  | connect => exact inv.connect _
  | read reader => exact inv.receive reader _ _ _
  | @lose i | @flag i => exact inv.setPeer (inv.cfg i) (inv.conn i)
  | @shutdown i c writer =>
    have asked : Senders cfgs (s.setPeer i (s.peers i).requestShutdown) :=
      inv.setPeer (inv.cfg i) (inv.conn i)
    refine asked.post (inv.conn i c writer).1 (fun h mem => ?_) fun d mem => ?_
    · cases List.mem_singleton.mp mem
    · cases List.mem_singleton.mp mem
  | deliver next => exact inv.deliver next _
  | @coordinator a unframed =>
    obtain same | ⟨c, f, now, -, framed, -⟩ := s.threads.step_conns a
    · exact inv.become same
    · exact absurd framed (unframed c f now)

end

/-- The first frame on the connection is an acknowledgement of the given authority. -/
def Learned (s : Network) (c : ConnId) (a : UInt64 × UInt64 × UInt64) : Prop :=
  ∃ f rest ack, s.threads.wire c = f :: rest ∧
    decodePayload decodeHelloAck f.payload = some ack ∧ ack.authority = a

theorem Learned.unique {s : Network} {c : ConnId} {a b : UInt64 × UInt64 × UInt64}
    (ha : s.Learned c a) (hb : s.Learned c b) : a = b := by
  obtain ⟨f, rest, ack, wire, decoded, rfl⟩ := ha
  obtain ⟨g, rest', ack', wire', decoded', rfl⟩ := hb
  cases wire.symm.trans wire'
  cases decoded.symm.trans decoded'
  rfl

/-- Which authority the workers have learned, and stamp their results with. -/
structure Stamps (s : Network) : Prop where
  awaiting : ∀ i c, (s.peers i).conn = some c → (s.peers i).phase = .awaiting → s.taken c = 0
  running : ∀ i c, (s.peers i).conn = some c → (s.peers i).phase = .running →
    s.Learned c (s.peers i).worker.authority
  results : ∀ c d, .answer (.warmed d) ∈ s.inbox c → s.Learned c d.result.authority

theorem stamps_init (cfgs : Nat → WorkerConfig) : (init cfgs).Stamps :=
  ⟨fun _ _ h => (nomatch h), fun _ _ h => (nomatch h), fun _ _ h => (nomatch h)⟩

section
variable {cfgs : Nat → WorkerConfig} {s : Network}

theorem Stamps.setPeer (inv : s.Stamps) {i : Nat} {p : Peer}
    (awaiting : ∀ c, p.conn = some c → p.phase = .awaiting → s.taken c = 0)
    (running : ∀ c, p.conn = some c → p.phase = .running → s.Learned c p.worker.authority) :
    (s.setPeer i p).Stamps := by
  refine { inv with awaiting := ?_, running := ?_ }
  · exact (forall_update_iff s.peers fun _ p =>
      ∀ c, p.conn = some c → p.phase = .awaiting → s.taken c = 0).mpr
        ⟨awaiting, fun j _ => inv.awaiting j⟩
  · exact (forall_update_iff s.peers fun _ p =>
      ∀ c, p.conn = some c → p.phase = .running → s.Learned c p.worker.authority).mpr
        ⟨running, fun j _ => inv.running j⟩

theorem Stamps.post (inv : s.Stamps) {c : ConnId} {letters : List Letter}
    (results : ∀ d, .answer (.warmed d) ∈ letters → s.Learned c d.result.authority) :
    (s.post c letters).Stamps := by
  refine { inv with results := fun c' d => ?_ }
  by_cases hc : c' = c
  · subst hc
    simp only [Network.post, update_self, List.mem_append]
    exact Or.rec (inv.results c' d) (results d)
  · simp only [Network.post, update_of_ne hc]
    exact inv.results c' d

theorem Stamps.become (inv : s.Stamps) (a : ThreadStep) : (s.become (s.threads.step a)).Stamps := by
  have learned (c x) (h : s.Learned c x) : (s.become (s.threads.step a)).Learned c x := by
    obtain ⟨f, rest, ack, wire, decoded, same⟩ := h
    obtain ⟨more, grown⟩ := s.threads.step_wire a c
    exact ⟨f, rest ++ more, ack, by rw [wire] at grown; exact grown, decoded, same⟩
  exact ⟨inv.awaiting, fun i c conn phase => learned _ _ (inv.running i c conn phase),
    fun c d mem => learned _ _ (inv.results c d mem)⟩

theorem Stamps.drop (inv : s.Stamps) {c : ConnId} {letter : Letter} {rest : List Letter}
    (next : s.inbox c = letter :: rest) : Stamps { s with inbox := update s.inbox c rest } := by
  refine { inv with results := fun c' d mem => ?_ }
  by_cases hc : c' = c
  · subst hc
    simp only [update_self] at mem
    exact inv.results c' d (next ▸ List.mem_cons_of_mem _ mem)
  · simp only [update_of_ne hc] at mem
    exact inv.results c' d mem

/-- A worker that has been let in has learned what the answer says. -/
theorem receiveAck_connected {w : Worker} {f : Frame}
    (h : (w.receiveAck (some f)).2 = .connected) :
    ∃ ack, decodePayload decodeHelloAck f.payload = some ack ∧
      (w.receiveAck (some f)).1.authority = ack.authority := by
  simp only [Worker.receiveAck] at h ⊢
  split at h
  · cases h
  next type =>
    rw [if_neg type]
    split at h
    · cases h
    next ack decoded =>
      simp only [decoded]
      split at h
      next accepted =>
        rw [if_pos accepted]
        exact ⟨ack, rfl, rfl⟩
      next => cases h

/-- The reader of a connection goes on; nobody else reads there. -/
theorem Stamps.advance (inv : s.Stamps) (who : Senders cfgs s) {i : Nat} {c : ConnId}
    (reader : (s.peers i).conn = some c) {p : Peer} (phase : p.phase ≠ .awaiting)
    (running : ∀ c', p.conn = some c' → p.phase = .running → s.Learned c' p.worker.authority) :
    ((s.take c).setPeer i p).Stamps := by
  refine ⟨fun j c' conn waits => ?_, fun j c' conn runs => ?_, inv.results⟩
  · by_cases hj : j = i
    · subst hj
      simp only [Network.setPeer, update_self] at waits
      exact absurd waits phase
    · simp only [Network.setPeer, Network.take, update_of_ne hj] at conn waits
      have other : c' ≠ c := by
        rintro rfl
        exact hj ((who.conn j c' conn).2.symm.trans (who.conn i c' reader).2)
      simp only [Network.setPeer, Network.take, update_of_ne other]
      exact inv.awaiting j c' conn waits
  · by_cases hj : j = i
    · subst hj
      simp only [Network.setPeer, update_self] at conn runs ⊢
      exact running c' conn runs
    · simp only [Network.setPeer, Network.take, update_of_ne hj] at conn runs ⊢
      exact inv.running j c' conn runs

theorem Stamps.receive (inv : s.Stamps) (who : Senders cfgs s) {i : Nat} {c : ConnId}
    (reader : (s.peers i).conn = some c) {f : Frame}
    (next : (s.threads.wire c)[s.taken c]? = some f) (hook : Nat → HookOutcome)
    (now : Nat → Nat → Timestamp) : (s.receive i c f hook now).Stamps := by
  cases phase : (s.peers i).phase with
  | idle =>
    rw [receive_idle c f hook now phase]
    exact inv
  | awaiting =>
    rw [receive_awaiting c f hook now phase]
    refine inv.advance who reader ?_ fun c' conn runs => ?_
    · simp only [Peer.receiveAck]
      split <;> nofun
    · cases reader.symm.trans conn
      simp only [Peer.receiveAck] at runs
      split at runs
      next connected =>
        obtain ⟨ack, decoded, same⟩ := receiveAck_connected connected
        rw [inv.awaiting i c reader phase] at next
        cases wire : s.threads.wire c with
        | nil => rw [wire] at next; cases next
        | cons g rest =>
          rw [wire] at next
          cases next
          exact ⟨f, rest, ack, wire, decoded, same.symm⟩
      next => cases runs
  | running =>
    rw [receive_running c f hook now phase]
    have learned := inv.running i c reader phase
    have same : ((s.peers i).handleFrame f hook now).1.worker.authority =
        (s.peers i).worker.authority := by
      have kept := congrArg Worker.authority
        (Worker.handleFrame_frame (s.peers i).worker f hook now)
      exact kept
    refine (inv.advance who reader ?_ fun c' conn _ => ?_).post fun d mem => ?_
    · simp only [Peer.handleFrame]
      split <;> nofun
    · cases reader.symm.trans conn
      rw [same]
      exact learned
    · obtain ⟨a, ha, hd⟩ := List.mem_map.mp mem
      cases hd
      obtain ⟨-, topic, -, cmd, -, r, result⟩ := Worker.handleFrame_speaks ha
      rw [result]
      exact learned

theorem Stamps.connect (inv : s.Stamps) (who : Senders cfgs s) {i : Nat}
    (idle : (s.peers i).phase = .idle) : (s.connect i).Stamps := by
  have opened : (s.openFresh i).Stamps := ⟨inv.awaiting, inv.running, inv.results⟩
  simp only [Network.connect]
  split
  · have asking : ((s.openFresh i).setPeer i
        { s.peers i with conn := some s.made, phase := .awaiting }).Stamps := by
      refine opened.setPeer (fun c conn _ => ?_) fun _ _ runs => (nomatch runs)
      cases conn
      exact (who.fresh s.made (Nat.le_refl _)).2.2
    refine asking.post fun d mem => ?_
    cases List.mem_singleton.mp mem
  · refine opened.setPeer (fun _ _ waits => ?_) fun _ _ runs => ?_
    · exact absurd (idle.symm.trans waits) nofun
    · exact absurd (idle.symm.trans runs) nofun

theorem Stamps.step (inv : s.Stamps) (who : Senders cfgs s) (a : NetStep) : (s.step a).Stamps := by
  have went := s.went_step a
  generalize s.step a = t at went
  cases went with
  | idle => exact inv
  | connect idle => exact inv.connect who idle
  | read reader next => exact inv.receive who reader next _ _
  | lose => exact inv.setPeer (fun _ _ h => nomatch h) fun _ _ h => nomatch h
  | @flag i => exact inv.setPeer (inv.awaiting i) (inv.running i)
  | @shutdown i =>
    have asked : (s.setPeer i (s.peers i).requestShutdown).Stamps :=
      inv.setPeer (inv.awaiting i) (inv.running i)
    refine asked.post fun d mem => ?_
    cases List.mem_singleton.mp mem
  | deliver next => exact (inv.drop next).become _
  | coordinator => exact inv.become _

end

end Network

end Warmth
