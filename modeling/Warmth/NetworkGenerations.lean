import Warmth.CurrentResults
import Warmth.Generations
import Warmth.JustifiedReadiness

namespace Warmth

open Codec Std TreeMaps

/-- An acknowledgement in the frame is of a warmth generation up to the bound. -/
def Frame.AcksWithin (f : Frame) (g : UInt64) : Prop :=
  f.type = .helloAck → ∀ ack, decodePayload decodeHelloAck f.payload = some ack → ack.warmthGen ≤ g

theorem Frame.AcksWithin.mono {f : Frame} {g g' : UInt64} (h : f.AcksWithin g) (more : g ≤ g') :
    f.AcksWithin g' :=
  fun type ack decoded => UInt64.le_trans (h type ack decoded) more

theorem Frame.acksWithin_of_type {f : Frame} (other : f.type ≠ .helloAck) (g : UInt64) :
    f.AcksWithin g := fun type => absurd type other

theorem acksWithin_helloAckFrame {ack : HelloAck} (reason : ack.reason.length < 2 ^ 32) {g : UInt64}
    (bound : ack.warmthGen ≤ g) : (Coordinator.helloAckFrame ack).AcksWithin g := by
  intro _ ack' decoded
  cases (decodePayload_of_reads (reads_helloAck reason)).symm.trans decoded
  exact bound

namespace Coordinator

theorem handleHello_ack (c : Coordinator) (cs : ConnId) (h : Hello) :
    (c.handleHello cs h).2.reason.length < 2 ^ 32 ∧ (c.handleHello cs h).2.warmthGen = 0 := by
  have stale : (text "stale boot (worker already registered)").length < 2 ^ 32 := by decide
  unfold handleHello
  split
  · exact ⟨stale, rfl⟩
  · exact ⟨Nat.two_pow_pos 32, rfl⟩

/-- A reply that is not the acknowledgement of a HELLO of this protocol carries no generation. -/
theorem handlerOf_replying {c : Coordinator} {cs : ConnId} {f g : Frame} {now : Nat → Timestamp}
    (h : c.handlerOf cs f now = some (.replying g)) : g.AcksWithin 0 := by
  unfold handlerOf at h
  split at h
  next => cases h
  next unheard =>
    obtain ⟨reply, made, same⟩ := Option.map_eq_some_iff.mp h
    cases same
    cases handleFrame_replies made with
    | error | pong => exact Frame.acksWithin_of_type (by decide) 0
    | mismatch => exact acksWithin_helloAckFrame (by decide) (UInt64.le_refl _)
    | ack ack current => cases unheard.symm.trans current

end Coordinator

namespace Threads

open Function

/-- The acknowledgements that are made up or sent are of generations up to the bound. -/
structure AcksWithin (s : Threads) (g : UInt64) : Prop where
  acks : ∀ c ack phase, s.handlers c = some (.acknowledging ack phase) →
    ack.reason.length < 2 ^ 32 ∧ ack.warmthGen ≤ g
  replies : ∀ c f, s.handlers c = some (.replying f) → f.AcksWithin g
  wire : ∀ c, ∀ f ∈ s.wire c, f.AcksWithin g

theorem acksWithin_init (g : UInt64) : init.AcksWithin g := by
  refine ⟨fun c ack phase h => ?_, fun c f h => ?_, fun c f h => absurd h List.not_mem_nil⟩
  · cases h
  · cases h

section
variable {s t : Threads} {g : UInt64}

theorem AcksWithin.mono (inv : s.AcksWithin g) {g' : UInt64} (more : g ≤ g') : s.AcksWithin g' := by
  refine ⟨fun c ack phase h => ?_, fun c f h => (inv.replies c f h).mono more,
    fun c f h => (inv.wire c f h).mono more⟩
  obtain ⟨reason, bound⟩ := inv.acks c ack phase h
  exact ⟨reason, UInt64.le_trans bound more⟩

theorem AcksWithin.note (inv : s.AcksWithin g) : s.note.AcksWithin g := by
  unfold Threads.note
  split
  · exact ⟨inv.acks, inv.replies, inv.wire⟩
  · exact inv

/-- One connection's handler is replaced. -/
theorem AcksWithin.handler (inv : s.AcksWithin g) {c : ConnId} {h : Option Handler}
    (handlers : t.handlers = update s.handlers c h) (wire : ∀ c, ∀ f ∈ t.wire c, f.AcksWithin g)
    (acks : ∀ ack phase, h = some (.acknowledging ack phase) →
      ack.reason.length < 2 ^ 32 ∧ ack.warmthGen ≤ g)
    (replies : ∀ f, h = some (.replying f) → f.AcksWithin g) : t.AcksWithin g := by
  refine ⟨fun c' ack phase pending => ?_, fun c' f pending => ?_, wire⟩
  · rw [handlers] at pending
    by_cases hc : c' = c
    · subst hc
      rw [update_self] at pending
      exact acks ack phase pending
    · rw [update_of_ne hc] at pending
      exact inv.acks c' ack phase pending
  · rw [handlers] at pending
    by_cases hc : c' = c
    · subst hc
      rw [update_self] at pending
      exact replies f pending
    · rw [update_of_ne hc] at pending
      exact inv.replies c' f pending

theorem AcksWithin.put_wire (inv : s.AcksWithin g) {cs : ConnId} {f : Frame} (new : f.AcksWithin g)
    (sent : Bool) : ∀ c, ∀ f' ∈ (s.put cs f sent).wire c, f'.AcksWithin g := by
  intro c f' mem
  unfold put at mem
  split at mem
  · by_cases hc : c = cs
    · subst hc
      simp only [update_self] at mem
      rcases List.mem_append.mp mem with old | last
      · exact inv.wire c f' old
      · rw [List.mem_singleton.mp last]
        exact new
    · simp only [update_of_ne hc] at mem
      exact inv.wire c f' mem
  · exact inv.wire c f' mem

theorem AcksWithin.outgoing (inv : s.AcksWithin g) {c : ConnId} {h : Handler} {f : Frame}
    (pending : s.handlers c = some h) (made : h.outgoing = some f) : f.AcksWithin g := by
  cases h with
  | replying r =>
    cases made
    exact inv.replies c f pending
  | acknowledging ack phase =>
    cases phase with
    | loaded =>
      cases made
      obtain ⟨reason, bound⟩ := inv.acks c ack .loaded pending
      exact acksWithin_helloAckFrame reason bound
    | _ => cases made

theorem AcksWithin.mapBetween (inv : s.AcksWithin g) (f : Between → Between) :
    (s.mapBetween f).AcksWithin g := by
  refine ⟨fun c ack phase h => ?_, fun c r h => ?_, inv.wire⟩
  · obtain ⟨old, pending, same⟩ := Option.map_eq_some_iff.mp h
    cases old with
    | acknowledging ack' phase' =>
      cases same
      exact inv.acks c _ phase' pending
    | replying r => cases same
  · obtain ⟨old, pending, same⟩ := Option.map_eq_some_iff.mp h
    cases old with
    | acknowledging ack' phase' => cases same
    | replying r' =>
      cases same
      exact inv.replies c _ pending

theorem AcksWithin.acted {a : ThreadStep} (inv : s.AcksWithin g) (now : s.visible.2.1 ≤ g)
    (acted : s.Acted a t) : t.AcksWithin g := by
  cases acted with
  | @receive cs f clock =>
    refine inv.handler (c := cs) rfl inv.wire (fun ack phase made => ?_) fun r made => ?_
    · unfold Coordinator.handlerOf at made
      split at made
      next h _ =>
        cases made
        obtain ⟨reason, zero⟩ := s.sys.coord.handleHello_ack cs h
        exact ⟨reason, zero ▸ UInt64.zero_le⟩
      next =>
        obtain ⟨r, -, same⟩ := Option.map_eq_some_iff.mp made
        cases same
    · exact (Coordinator.handlerOf_replying made).mono UInt64.zero_le
  | @load cs ack phase pending =>
    obtain ⟨reason, bound⟩ := inv.acks cs ack phase pending
    refine inv.handler (c := cs) rfl inv.wire (fun ack' phase' made => ?_) fun r made => ?_
    · cases phase <;> cases made
      · exact ⟨reason, bound⟩
      · exact ⟨reason, now⟩
      · exact ⟨reason, bound⟩
      · exact ⟨reason, bound⟩
    · cases phase <;> cases made
  | @reply cs sent h f pending made =>
    have put : (s.put cs f sent).handlers = s.handlers := by
      unfold put
      split <;> rfl
    refine inv.handler (c := cs) (h := none) ?_ (inv.put_wire (inv.outgoing pending made) _)
      (fun ack phase none => ?_) fun r none => ?_
    · rfl
    · cases none
    · cases none
  | @send call sent conn topic =>
    have put : (s.put conn (topicFrame topic) sent).handlers = s.handlers := by
      unfold put
      split <;> rfl
    have quiet : (topicFrame topic).AcksWithin g :=
      Frame.acksWithin_of_type (fun same => by cases same) g
    refine ⟨fun c ack phase h => inv.acks c ack phase (put ▸ h),
      fun c f h => inv.replies c f (put ▸ h), inv.put_wire quiet _⟩
  | bumpWarmth | bumpDependency =>
    have same (sys : System) : AcksWithin { s with sys } g := ⟨inv.acks, inv.replies, inv.wire⟩
    exact (same _).mapBetween _
  | idle | disconnect | refuse | issue | cleanup | storeEpoch | storeWarmth | rollEpoch =>
    exact ⟨inv.acks, inv.replies, inv.wire⟩

theorem AcksWithin.step (inv : s.AcksWithin g) (now : s.visible.2.1 ≤ g) (a : ThreadStep) :
    (s.step a).AcksWithin g :=
  (inv.acted now (acted_act s a)).note

end

end Threads

namespace Worker

/-- What the worker has learned and recorded is of generations up to the bound. -/
structure Within (w : Worker) (g : UInt64) : Prop where
  learned : w.warmthGen ≤ g
  observed : ∀ (id : WarmthObjectId) o, w.observed[id]? = some o → o.warmthGen.value ≤ g

section
variable {w : Worker} {g : UInt64}

theorem Within.mono (inv : w.Within g) {g' : UInt64} (more : g ≤ g') : w.Within g' :=
  ⟨UInt64.le_trans inv.learned more,
    fun id o found => UInt64.le_trans (inv.observed id o found) more⟩

theorem Within.warm (inv : w.Within g) (cmd : WarmCmd) (r : HookOutcome) (now : Nat → Timestamp) :
    (w.warm cmd r now).1.Within g := by
  have made : (w.warmedObject cmd r now).warmthGen.value ≤ g := by
    unfold warmedObject
    split
    next => exact inv.learned
    next o found =>
      have kept : (o.moveTo .warm (text "warm_completed")).warmthGen = o.warmthGen := by simp
      simp only [kept]
      exact inv.observed cmd.object o found
  refine ⟨inv.learned, fun id o found => ?_⟩
  simp only [Worker.warm] at found
  split at found
  · obtain ⟨-, rfl⟩ | ⟨-, old⟩ := getElem?_insert_some found
    · exact made
    · exact inv.observed id o old
  · exact inv.observed id o found

theorem Within.warmAll (inv : w.Within g) (hook : Nat → HookOutcome) (now : Nat → Nat → Timestamp)
    (k : Nat) (cmds : List WarmCmd) : (w.warmAll hook now k cmds).1.Within g := by
  induction cmds generalizing w k with
  | nil => exact inv
  | cons cmd cmds ih => exact ih (inv.warm cmd (hook k) (now k)) (k + 1)

theorem Within.handleFrame (inv : w.Within g) (f : Frame) (hook : Nat → HookOutcome)
    (now : Nat → Nat → Timestamp) : (w.handleFrame f hook now).1.Within g := by
  unfold Worker.handleFrame
  split
  next =>
    split
    next => exact inv
    next topic _ => exact inv.warmAll hook now 0 topic.cmds
  next => exact inv
  next => exact ⟨inv.learned, inv.observed⟩
  next => exact inv

theorem Within.receiveAck (inv : w.Within g) {f : Frame} (bound : f.AcksWithin g) :
    (w.receiveAck (some f)).1.Within g := by
  simp only [Worker.receiveAck]
  split
  next => exact inv
  next type =>
    split
    next => exact inv
    next ack decoded =>
      split
      next => exact ⟨bound (not_ne_iff.mp type) ack decoded, inv.observed⟩
      next => exact inv

end

end Worker

namespace Network

open Function

/-- The warmth generation as a thread without the mutex loads it. -/
def latest (s : Network) : UInt64 := s.threads.visible.2.1

/-- The workers and their HELLOs are of generations up to the bound. -/
structure PeersWithin (s : Network) (g : UInt64) : Prop where
  workers : ∀ i, (s.peers i).worker.Within g
  hellos : ∀ c h, .hello h ∈ s.inbox c → ∀ o ∈ h.observed, o.warmthGen.value ≤ g

theorem peersWithin_init (cfgs : Nat → WorkerConfig) (g : UInt64) : (init cfgs).PeersWithin g := by
  refine ⟨fun i => ⟨UInt64.zero_le, fun id o found => ?_⟩, fun c h mem => absurd mem List.not_mem_nil⟩
  simp [init] at found

section
variable {s : Network} {g : UInt64}

theorem PeersWithin.mono (inv : s.PeersWithin g) {g' : UInt64} (more : g ≤ g') : s.PeersWithin g' :=
  ⟨fun i => (inv.workers i).mono more,
    fun c h mem o ho => UInt64.le_trans (inv.hellos c h mem o ho) more⟩

theorem PeersWithin.setPeer (inv : s.PeersWithin g) (i : Nat) {p : Peer} (hp : p.worker.Within g) :
    (s.setPeer i p).PeersWithin g :=
  ⟨(forall_update_iff s.peers fun _ p => p.worker.Within g).mpr ⟨hp, fun j _ => inv.workers j⟩,
    inv.hellos⟩

theorem PeersWithin.post (inv : s.PeersWithin g) (c : ConnId) {letters : List Letter}
    (new : ∀ h, .hello h ∈ letters → ∀ o ∈ h.observed, o.warmthGen.value ≤ g) :
    (s.post c letters).PeersWithin g := by
  refine ⟨inv.workers, (forall_update_iff s.inbox
    fun _ ls => ∀ h, .hello h ∈ ls → ∀ o ∈ h.observed, o.warmthGen.value ≤ g).mpr
      ⟨fun h mem => ?_, fun c' _ => inv.hellos c'⟩⟩
  rcases List.mem_append.mp mem with old | mem
  · exact inv.hellos c h old
  · exact new h mem

theorem PeersWithin.connect (inv : s.PeersWithin g) (i : Nat) : (s.connect i).PeersWithin g := by
  have before : (s.openFresh i).PeersWithin g := ⟨inv.workers, inv.hellos⟩
  simp only [Network.connect]
  split
  next =>
    have opened := before.setPeer i
      (p := { s.peers i with conn := some s.made, phase := .awaiting }) (inv.workers i)
    refine opened.post s.made fun h mem o ho => ?_
    cases List.mem_singleton.mp mem
    obtain ⟨⟨id, o'⟩, found, rfl⟩ := List.mem_map.mp ho
    exact (inv.workers i).observed id o' (ExtTreeMap.mem_toList_iff_getElem?_eq_some.mp found)
  next => exact before.setPeer i (p := { s.peers i with conn := some s.made }) (inv.workers i)

theorem PeersWithin.receive (inv : s.PeersWithin g) (i : Nat) (c : ConnId) {f : Frame}
    (bound : f.AcksWithin g) (hook : Nat → HookOutcome) (now : Nat → Nat → Timestamp) :
    (s.receive i c f hook now).PeersWithin g := by
  have before : (s.take c).PeersWithin g := ⟨inv.workers, inv.hellos⟩
  unfold Network.receive
  split
  next => exact inv
  next => exact before.setPeer i ((inv.workers i).receiveAck bound)
  next =>
    refine (before.setPeer i ((inv.workers i).handleFrame f hook now)).post c fun h mem => ?_
    obtain ⟨a, -, same⟩ := List.mem_map.mp mem
    cases same

theorem PeersWithin.step (inv : s.PeersWithin g) (acks : s.threads.AcksWithin g) (a : NetStep) :
    (s.step a).PeersWithin g := by
  have went := s.went_step a
  generalize s.step a = t at went
  cases went with
  | idle => exact inv
  | connect => exact inv.connect _
  | @read i hook now c f reader next =>
    exact inv.receive i c (acks.wire c f (List.mem_of_getElem? next)) hook now
  | @lose i => exact inv.setPeer i (inv.workers i)
  | @flag i =>
    obtain ⟨learned, observed⟩ := inv.workers i
    exact inv.setPeer i (p := (s.peers i).requestShutdown) ⟨learned, observed⟩
  | @shutdown i =>
    obtain ⟨learned, observed⟩ := inv.workers i
    have asked := inv.setPeer i (p := (s.peers i).requestShutdown) ⟨learned, observed⟩
    refine asked.post _ fun h mem => ?_
    cases List.mem_singleton.mp mem
  | @deliver c now letter rest next =>
    refine ⟨inv.workers, (forall_update_iff s.inbox
      fun _ ls => ∀ h, .hello h ∈ ls → ∀ o ∈ h.observed, o.warmthGen.value ≤ g).mpr
        ⟨fun h mem => ?_, fun c' _ => inv.hellos c'⟩⟩
    exact inv.hellos c h (next ▸ List.mem_cons_of_mem _ mem)
  | coordinator => exact ⟨inv.workers, inv.hellos⟩

theorem acksWithin_step (acks : s.threads.AcksWithin g) (now : s.latest ≤ g) (a : NetStep) :
    (s.step a).threads.AcksWithin g := by
  rcases (s.step_threads a).1 with same | ⟨b, same⟩
  · rw [same]
    exact acks
  · rw [same]
    exact acks.step now b

/-- Without a roll in progress every thread loads the coordinator's own generation. -/
theorem latest_of_free (free : s.threads.rolling = none) :
    s.latest = s.threads.sys.coord.warmthGenValue := by
  simp only [latest, Threads.visible, free, Coordinator.authority]

/-- Nothing that exists anywhere is of a warmth generation above the one that can be loaded, and
nothing that is stored above the coordinator's. -/
structure Contemporary (s : Network) : Prop where
  acks : s.threads.AcksWithin s.latest
  peers : s.PeersWithin s.latest
  behind : s.threads.sys.coord.warmthGenValue ≤ s.latest
  stored : s.threads.sys.coord.NoFuture

theorem contemporary_init (cfgs : Nat → WorkerConfig) : (init cfgs).Contemporary := by
  refine ⟨Threads.acksWithin_init _, peersWithin_init cfgs _, UInt64.le_refl _, fun id o found => ?_⟩
  have none : (init cfgs).threads.sys.coord.objects[id]? = none := ExtTreeMap.getElem?_empty
  rw [none] at found
  cases found

/-- A worker's HELLO brings nothing from the future. -/
theorem Contemporary.not_brings (inv : s.Contemporary) (introduced : s.Introduced)
    {cfgs : Nat → WorkerConfig} (who : Senders cfgs s) {c : ConnId} {letter : Letter}
    {rest : List Letter} (next : s.inbox c = letter :: rest)
    (ready : s.threads.ready c letter.frame.takesMutex = true) (now : Nat → Timestamp) :
    ¬ s.threads.sys.BringsFuture (.frame c letter.frame now) := by
  rintro ⟨os, id, o, carries, -, first, newer⟩
  cases carries with
  | @hello _ _ _ g _ type decoded version =>
    have mutex : letter.frame.takesMutex = true := by
      have current : letter.frame.currentHello = some g := by
        simp only [Frame.currentHello, type, decoded]
        exact Option.filter_eq_some_iff.mpr ⟨rfl, beq_iff_eq.mpr version⟩
      simp only [Frame.takesMutex, type, current, Option.isSome_some]
    have free := (Threads.ready_iff.mp ready).2.2 mutex
    obtain ⟨h, rfl⟩ := Letter.hello_of_type type
    have mem : .hello h ∈ s.inbox c := next ▸ List.mem_cons_self
    have introduces := introduced.hellos c h mem
    have sent : h.protocolVersion < 2 ^ 32 := by
      rw [(who.hellos c h mem).1]
      decide
    have own := decodeHello_own sent (fun o ho => (introduces.objects o ho).1) introduces.fits decoded
    subst own
    obtain ⟨o', ho, rfl⟩ := List.mem_map.mp (List.mem_of_find?_eq_some first)
    have bound := inv.peers.hellos c h mem o' ho
    rw [latest_of_free free] at bound
    exact absurd newer (UInt64.not_lt.mpr bound)
  | report _ type =>
    cases letter with
    | answer a => cases a <;> cases type
    | hello | shutdown => cases type

theorem Contemporary.store (inv : s.Contemporary) (introduced : s.Introduced)
    {cfgs : Nat → WorkerConfig} (who : Senders cfgs s) {a : NetStep}
    (rising : s.latest ≤ (s.step a).latest) :
    (s.step a).threads.sys.coord.warmthGenValue ≤ (s.step a).latest ∧
      (s.step a).threads.sys.coord.NoFuture := by
  have still (same : (s.step a).threads.sys = s.threads.sys) :
      (s.step a).threads.sys.coord.warmthGenValue ≤ (s.step a).latest ∧
        (s.step a).threads.sys.coord.NoFuture := by
    rw [same]
    exact ⟨UInt64.le_trans inv.behind rising, inv.stored⟩
  have moved {b : Step} (same : (s.step a).threads.sys = s.threads.sys.step b)
      (past : ¬ s.threads.sys.BringsFuture b)
      (raises : b.raisesWarmth = true → (s.step a).threads.rolling = none) :
      (s.step a).threads.sys.coord.warmthGenValue ≤ (s.step a).latest ∧
        (s.step a).threads.sys.coord.NoFuture := by
    cases raised : b.raisesWarmth with
    | false =>
      have wraps : ¬ s.threads.sys.WrapsWarmth b := by
        rintro ⟨up, -⟩
        rw [raised] at up
        cases up
      refine ⟨?_, same ▸ System.noFuture_step inv.stored past wraps⟩
      rw [same, System.warmthGenValue_of_not_raises raised]
      exact UInt64.le_trans inv.behind rising
    | true =>
      have current := latest_of_free (raises raised)
      have wraps : ¬ s.threads.sys.WrapsWarmth b := by
        rintro ⟨-, top, -⟩
        have next := (System.step_generations s.threads.sys b).1
        rw [raised, if_pos rfl, top, ← same, ← current] at next
        have low := UInt64.le_trans inv.behind rising
        rw [next] at low
        have zero := UInt64.le_zero_iff.mp low
        rw [zero] at top
        exact absurd top (by decide)
      exact ⟨current ▸ UInt64.le_refl _, same ▸ System.noFuture_step inv.stored past wraps⟩
  have went := s.went_step a
  generalize s.step a = t at went rising still moved
  cases went with
  | connect =>
    refine still ?_
    simp only [Network.connect]
    split <;> rfl
  | read =>
    refine still ?_
    unfold Network.receive
    split <;> rfl
  | idle | lose | shutdown | flag => exact still rfl
  | @deliver c now letter rest next ready =>
    rcases s.threads.step_frame_sys c letter.frame now with same | same
    · exact still same
    · refine moved same (inv.not_brings introduced who next ready now) fun raised => ?_
      cases raised
  | coordinator unframed =>
    rcases s.threads.step_sys unframed with same | ⟨b, other, raises, same⟩
    · exact still same
    · refine moved same ?_ raises
      rintro ⟨os, id, o, carries, -⟩
      cases carries <;> exact other _ _ _ rfl

theorem Contemporary.step (inv : s.Contemporary) (introduced : s.Introduced)
    {cfgs : Nat → WorkerConfig} (who : Senders cfgs s) {a : NetStep}
    (rising : s.latest ≤ (s.step a).latest) : (s.step a).Contemporary := by
  obtain ⟨behind, stored⟩ := inv.store introduced who rising
  exact ⟨acksWithin_step (inv.acks.mono rising) rising a,
    (inv.peers.mono rising).step (inv.acks.mono rising) a, behind, stored⟩

end

/-- As long as the warmth generation does not wrap around, no worker, no HELLO under way and no
object of the coordinator is ever of a generation that has not been reached. -/
theorem nothing_from_the_future {cfgs : Nat → WorkerConfig} {steps : List NetStep}
    (rising : Runs.Along step (fun s a => s.latest ≤ (s.step a).latest) (init cfgs) steps) :
    let s := Runs.run step (init cfgs) steps
    s.PeersWithin s.latest ∧ s.threads.sys.coord.NoFuture := by
  let I (s : Network) : Prop := Senders cfgs s ∧ s.Introduced ∧ s.Contemporary
  have keep (s : Network) (a : NetStep) (inv : I s) (up : s.latest ≤ (s.step a).latest) :
      I (s.step a) :=
    ⟨inv.1.step a, inv.2.1.step a, inv.2.2.step inv.2.1 inv.1 up⟩
  obtain ⟨-, -, inv⟩ := Runs.invariant keep
    ⟨senders_init cfgs, introduced_init cfgs, contemporary_init cfgs⟩ rising
  exact ⟨inv.peers, inv.stored⟩

/-- The operation stores a warmth generation, or one of its steps does. -/
def raises : NetStep → Bool
  | .coordinator .rollEpoch | .coordinator .bumpWarmthGeneration => true
  | _ => false

theorem visible_congr {s t : Threads} (rolling : t.rolling = s.rolling)
    (warmth : t.sys.coord.warmthGenValue = s.sys.coord.warmthGenValue) :
    t.visible.2.1 = s.visible.2.1 := by
  simp only [Threads.visible, rolling]
  split <;> simp only [Coordinator.authority, warmth]

theorem acted_visible {s t : Threads} {a : ThreadStep} (acted : s.Acted a t) :
    t.visible.2.1 = s.visible.2.1 ∨
      raises (.coordinator a) = true ∧ t.visible.2.1 = s.visible.2.1 + 1 := by
  have same {b : Step} (lowly : b.raisesWarmth = false) :
      (s.sys.step b).coord.warmthGenValue = s.sys.coord.warmthGenValue :=
    System.warmthGenValue_of_not_raises lowly
  cases acted with
  | idle | load => exact Or.inl rfl
  | receive => exact Or.inl (visible_congr rfl (same (b := .frame _ _ _) rfl))
  | disconnect => exact Or.inl (visible_congr rfl (same (b := .disconnect _ _) rfl))
  | refuse | issue => exact Or.inl (visible_congr rfl (same (b := .reserve _ _ _) rfl))
  | cleanup => exact Or.inl (visible_congr rfl (same (b := .cleanup _) rfl))
  | bumpDependency => exact Or.inl (visible_congr rfl (same (b := .bumpDependencyGeneration) rfl))
  | send =>
    refine Or.inl (visible_congr ?_ (same (b := .send _ _) rfl))
    simp only [Threads.put]
    split <;> rfl
  | reply =>
    refine Or.inl (visible_congr ?_ ?_)
    all_goals simp only [Threads.put]; split <;> rfl
  | bumpWarmth free =>
    refine Or.inr ⟨rfl, ?_⟩
    simp only [Threads.visible, Threads.mapBetween, free, Coordinator.authority]
    exact (System.step_generations s.sys .bumpWarmthGeneration).1
  | storeEpoch free =>
    refine Or.inl ?_
    simp only [Threads.visible, free, Coordinator.authority]
  | storeWarmth stored =>
    refine Or.inr ⟨rfl, ?_⟩
    simp only [Threads.visible, stored]
  | rollEpoch stored =>
    refine Or.inl ?_
    simp only [Threads.visible, stored, Coordinator.authority]
    exact (System.step_generations s.sys .rollEpoch).1

theorem latest_step (s : Network) (a : NetStep) :
    (s.step a).latest = s.latest ∨ raises a = true ∧ (s.step a).latest = s.latest + 1 := by
  have visible (b : ThreadStep) : (s.threads.step b).visible.2.1 = s.threads.visible.2.1 ∨
      raises (.coordinator b) = true ∧
        (s.threads.step b).visible.2.1 = s.threads.visible.2.1 + 1 := by
    rw [Threads.step, visible_congr (Threads.note_rolling _) (by rw [Threads.note_sys])]
    exact acted_visible (Threads.acted_act s.threads b)
  have went := s.went_step a
  generalize s.step a = t at went
  cases went with
  | connect =>
    simp only [Network.connect]
    split <;> exact Or.inl rfl
  | read =>
    unfold Network.receive
    split <;> exact Or.inl rfl
  | idle | lose | shutdown | flag => exact Or.inl rfl
  | @deliver c now letter =>
    rcases visible (.frame c letter.frame now) with same | ⟨raised, -⟩
    · exact Or.inl same
    · cases raised
  | coordinator => exact visible _

/-- Fewer than 2^64 stores do not wrap the warmth generation around. -/
theorem rising_of_few {cfgs : Nat → WorkerConfig} {steps : List NetStep}
    (few : steps.countP raises < 2 ^ 64) :
    Runs.Along step (fun s a => s.latest ≤ (s.step a).latest) (init cfgs) steps := by
  have counted : (Runs.run step (init cfgs) steps).latest.toNat ≤ steps.countP raises ∧
      Runs.Along step (fun s a => s.latest ≤ (s.step a).latest) (init cfgs) steps := by
    induction steps using List.reverseRecOn with
    | nil => exact ⟨Nat.le_refl 0, trivial⟩
    | append_singleton steps a ih =>
      rw [List.countP_append] at few ⊢
      obtain ⟨bound, along⟩ := ih (by omega)
      rw [Runs.run_concat, Runs.along_append]
      generalize Runs.run step (init cfgs) steps = s at bound ⊢
      rcases s.latest_step a with same | ⟨raised, next⟩
      · have up : s.latest ≤ (s.step a).latest := by
          rw [same]
          exact UInt64.le_refl _
        refine ⟨?_, along, up, trivial⟩
        rw [same]
        omega
      · rw [List.countP_singleton, if_pos raised] at few ⊢
        have value : (s.step a).latest.toNat = s.latest.toNat + 1 := by
          rw [next, UInt64.toNat_add]
          exact Nat.mod_eq_of_lt (by simp only [UInt64.reduceToNat]; omega)
        have up : s.latest ≤ (s.step a).latest := by
          rw [UInt64.le_iff_toNat_le]
          omega
        exact ⟨by omega, along, up, trivial⟩
  exact counted.2

theorem nothing_from_the_future_joined :
    let steps := .coordinator .bumpWarmthGeneration :: (joined ++ warmedBy ⟨0, 9⟩) ++
      [.deliver 0 fun _ => 0]
    let s := Runs.run step (init everyWorker) steps
    s.PeersWithin s.latest ∧ s.threads.sys.coord.NoFuture :=
  nothing_from_the_future (rising_of_few (by decide))

end Network

end Warmth
