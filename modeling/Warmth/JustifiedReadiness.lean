import Warmth.Executions
import Warmth.Introductions
import Warmth.Readiness

namespace Warmth

open Codec Std TreeMaps

theorem wireCount_crowded {limit n : Nat} (crowded : limit < n) (few : n < 2 ^ 32) (rest : Bytes) :
    wireCount limit (u32 n ++ rest) = .error () := by
  rw [wireCount, (reads_u32 few).apply, ensure, if_neg (by simpa using crowded)]
  rfl

theorem length_le_length_flatMap {α : Type} {f : α → Bytes} (xs : List α)
    (each : ∀ x ∈ xs, 1 ≤ (f x).length) : xs.length ≤ (xs.flatMap f).length := by
  rw [List.length_flatMap]
  have bound := List.card_nsmul_le_sum (xs.map fun x => (f x).length) 1 fun n hn => by
    obtain ⟨x, hx, rfl⟩ := List.mem_map.mp hn
    exact each x hx
  simpa using bound

/-- In a HELLO no longer than a frame every count and every length fits its field. -/
theorem Hello.lengths {h : Hello} (fits : (encodeHello h).length ≤ kMaxPayload) :
    h.backend.length < 2 ^ 32 ∧ (∀ d ∈ h.devices, d.length < 2 ^ 32) ∧
      h.devices.length < 2 ^ 32 ∧ h.actions.length < 2 ^ 32 ∧ h.observed.length < 2 ^ 32 := by
  have devices := length_le_length_flatMap (f := str) h.devices fun d _ => by
    rw [str_length]
    omega
  have observed := length_le_length_flatMap (f := encodeObject) h.observed fun o _ => by
    rw [← objectFields_flatten, objectFields_length, objectSize]
    omega
  simp only [encodeHello, List.length_append, Id128.toBytes_length, u32_length, u64_length,
    str_length] at fits
  unfold kMaxPayload at fits
  refine ⟨by omega, fun d hd => ?_, by omega, by omega, by omega⟩
  have part : (str d).length ≤ (h.devices.flatMap str).length := by
    rw [List.length_flatMap]
    exact List.le_sum_of_mem (List.mem_map_of_mem hd)
  rw [str_length] at part
  omega

/-- A HELLO no longer than a frame that is decoded at all is decoded to what was sent. -/
theorem decodeHello_own {h g : Hello} (version : h.protocolVersion < 2 ^ 32)
    (objects : ∀ o ∈ h.observed, o.Wirable) (fits : (encodeHello h).length ≤ kMaxPayload)
    (decoded : decodePayload decodeHello (encodeHello h) = some g) : g = h.stored := by
  obtain ⟨backend, names, deviceCount, actionCount, few⟩ := Hello.lengths fits
  have refused (crowded : decodePayload decodeHello (encodeHello h) = none) : False := by
    rw [crowded] at decoded
    cases decoded
  have devices : h.devices.length ≤ 4096 := by
    by_contra crowded
    refine refused ?_
    simp only [decodePayload, encodeHello, List.append_assoc, decodeHello]
    rw [(reads_u32 version).apply, (reads_id () h.worker).apply, (reads_id () h.boot).apply,
      (reads_id () h.node).apply, (reads_u64 () h.epochGuess).apply, (reads_str backend).apply,
      bind_apply, wireCount_crowded (Nat.lt_of_not_le crowded) deviceCount]
  have actions : h.actions.length ≤ 64 := by
    by_contra crowded
    refine refused ?_
    simp only [decodePayload, encodeHello, List.append_assoc, decodeHello]
    rw [(reads_u32 version).apply, (reads_id () h.worker).apply, (reads_id () h.boot).apply,
      (reads_id () h.node).apply, (reads_u64 () h.epochGuess).apply, (reads_str backend).apply,
      (reads_wireCount devices (by omega)).apply, (reads_strs names).apply,
      bind_apply, wireCount_crowded (Nat.lt_of_not_le crowded) actionCount]
  have observed : h.observed.length ≤ 4096 := by
    by_contra crowded
    exact refused (Worker.decodeHello_crowded version backend devices names actions
      (Nat.lt_of_not_le crowded) few)
  have sent := decodePayload_of_reads
    (reads_hello ⟨version, backend, devices, names, actions, observed, objects⟩)
  exact Option.some.inj (decoded.symm.trans sent)

namespace Worker

theorem AllRecorded.handleFrame {w : Worker} (inv : w.AllRecorded) (f : Frame)
    (hook : Nat → HookOutcome) (now : Nat → Nat → Timestamp) :
    (w.handleFrame f hook now).1.AllRecorded := by
  unfold Worker.handleFrame
  split
  next =>
    split
    next => exact inv
    next topic _ => exact (warmAll_recorded inv hook now 0 topic.cmds).1
  next => exact inv
  next => exact inv
  next => exact inv

theorem AllRecorded.receiveAck {w : Worker} (inv : w.AllRecorded) (reply : Option Frame) :
    (w.receiveAck reply).1.AllRecorded := by
  obtain ⟨observed, cfg⟩ := w.receiveAck_frame reply
  intro id o found
  rw [cfg]
  exact inv id o (observed ▸ found)

/-- A HELLO that fits its frame. -/
structure Introduces (h : Hello) : Prop where
  fits : (encodeHello h).length ≤ kMaxPayload
  objects : ∀ o ∈ h.observed, o.Wirable ∧ o.state = .cold

theorem AllRecorded.introduces {w : Worker} (inv : w.AllRecorded) {f : Frame}
    (framed : w.connectFrame = some f) : Introduces w.hello := by
  unfold connectFrame at framed
  split at framed
  next fits =>
    refine ⟨fits, fun o ho => ?_⟩
    obtain ⟨⟨id, o'⟩, found, rfl⟩ := List.mem_map.mp ho
    have entry := ExtTreeMap.mem_toList_iff_getElem?_eq_some.mp found
    have recorded := inv id o' entry
    exact ⟨recorded.wirable (Hello.lengths fits).1, recorded.state⟩
  next => cases framed

end Worker

namespace Network

open Function

/-- The workers know of nothing but what they have recorded, and introduce themselves with it. -/
structure Introduced (s : Network) : Prop where
  workers : ∀ i, (s.peers i).worker.AllRecorded
  hellos : ∀ c h, .hello h ∈ s.inbox c → Worker.Introduces h

theorem introduced_init (cfgs : Nat → WorkerConfig) : (init cfgs).Introduced := by
  refine ⟨fun i id o found => ?_, fun c h mem => absurd mem List.not_mem_nil⟩
  simp [init] at found

section
variable {s : Network}

theorem Introduced.setPeer (inv : s.Introduced) (i : Nat) {p : Peer} (hp : p.worker.AllRecorded) :
    (s.setPeer i p).Introduced :=
  ⟨(forall_update_iff s.peers fun _ p => p.worker.AllRecorded).mpr ⟨hp, fun j _ => inv.workers j⟩,
    inv.hellos⟩

theorem Introduced.post (inv : s.Introduced) (c : ConnId) {letters : List Letter}
    (new : ∀ h, .hello h ∈ letters → Worker.Introduces h) : (s.post c letters).Introduced := by
  refine ⟨inv.workers, (forall_update_iff s.inbox
    fun _ ls => ∀ h, .hello h ∈ ls → Worker.Introduces h).mpr ⟨fun h mem => ?_, ?_⟩⟩
  · rcases List.mem_append.mp mem with old | mem
    · exact inv.hellos c h old
    · exact new h mem
  · exact fun c' _ => inv.hellos c'

theorem Introduced.connect (inv : s.Introduced) (i : Nat) : (s.connect i).Introduced := by
  have before : (s.openFresh i).Introduced := ⟨inv.workers, inv.hellos⟩
  simp only [Network.connect]
  split
  next f framed =>
    have opened := before.setPeer i
      (p := { s.peers i with conn := some s.made, phase := .awaiting }) (inv.workers i)
    refine opened.post s.made fun h mem => ?_
    cases List.mem_singleton.mp mem
    exact (inv.workers i).introduces framed
  next =>
    exact before.setPeer i (p := { s.peers i with conn := some s.made }) (inv.workers i)

theorem Introduced.receive (inv : s.Introduced) (i : Nat) (c : ConnId) (f : Frame)
    (hook : Nat → HookOutcome) (now : Nat → Nat → Timestamp) :
    (s.receive i c f hook now).Introduced := by
  have before : (s.take c).Introduced := ⟨inv.workers, inv.hellos⟩
  unfold Network.receive
  split
  next => exact inv
  next => exact before.setPeer i ((inv.workers i).receiveAck (some f))
  next =>
    refine (before.setPeer i ((inv.workers i).handleFrame f hook now)).post c fun h mem => ?_
    obtain ⟨a, -, same⟩ := List.mem_map.mp mem
    cases same

theorem Introduced.step (inv : s.Introduced) (a : NetStep) : (s.step a).Introduced := by
  have went := s.went_step a
  generalize s.step a = t at went
  cases went with
  | idle => exact inv
  | connect => exact inv.connect _
  | read => exact inv.receive _ _ _ _ _
  | @lose i | @flag i => exact inv.setPeer i (inv.workers i)
  | @shutdown i =>
    have asked := inv.setPeer i (p := (s.peers i).requestShutdown) (inv.workers i)
    refine asked.post _ fun h mem => ?_
    cases List.mem_singleton.mp mem
  | @deliver c now letter rest next =>
    refine ⟨inv.workers, (forall_update_iff s.inbox
      fun _ ls => ∀ h, .hello h ∈ ls → Worker.Introduces h).mpr ⟨?_, ?_⟩⟩
    · exact fun h mem => inv.hellos c h (next ▸ List.mem_cons_of_mem _ mem)
    · exact fun c' _ => inv.hellos c'
  | coordinator => exact ⟨inv.workers, inv.hellos⟩

/-- No worker's HELLO and no other letter brings a HOT object. -/
theorem Introduced.not_bringsHot (inv : s.Introduced) {cfgs : Nat → WorkerConfig}
    (who : Senders cfgs s) {c : ConnId} {letter : Letter} {rest : List Letter}
    (next : s.inbox c = letter :: rest) (now : Nat → Timestamp) :
    ¬ s.threads.sys.BringsHot (.frame c letter.frame now) := by
  rintro ⟨os, id, carries, -, hot⟩
  cases carries with
  | hello _ type decoded =>
    obtain ⟨h, rfl⟩ := Letter.hello_of_type type
    have mem : .hello h ∈ s.inbox c := next ▸ List.mem_cons_self
    have introduces := inv.hellos c h mem
    have version : h.protocolVersion < 2 ^ 32 := by
      rw [(who.hellos c h mem).1]
      decide
    have own := decodeHello_own version (fun o ho => (introduces.objects o ho).1) introduces.fits
      decoded
    subst own
    unfold Coordinator.arrivesHot at hot
    split at hot
    next o found =>
      obtain ⟨o', ho, rfl⟩ := List.mem_map.mp (List.mem_of_find?_eq_some found)
      have cold : o'.stored.state = .cold := (introduces.objects o' ho).2
      rw [cold] at hot
      cases hot
    next => cases hot
  | report _ type =>
    cases letter with
    | answer a => cases a <;> cases type
    | hello | shutdown => cases type

end

end Network

namespace Threads

/-- Outside of a frame's handler the coordinator takes one of its other steps, or none; when it
raises the warmth generation no roll is left in progress. -/
theorem step_sys (s : Threads) {a : ThreadStep} (h : ∀ cs f now, a ≠ .frame cs f now) :
    (s.step a).sys = s.sys ∨
      ∃ b, (∀ cs f now, b ≠ Step.frame cs f now) ∧
        (b.raisesWarmth = true → (s.step a).rolling = none) ∧ (s.step a).sys = s.sys.step b := by
  rw [step, note_sys, note_rolling]
  have acted := acted_act s a
  generalize s.act a = t at acted
  have moved {b : Step} (other : ∀ cs f now, b ≠ .frame cs f now)
      (raises : b.raisesWarmth = true → t.rolling = none) : s.sys.step b = s.sys ∨
      ∃ b', (∀ cs f now, b' ≠ Step.frame cs f now) ∧
        (b'.raisesWarmth = true → t.rolling = none) ∧ s.sys.step b = s.sys.step b' :=
    Or.inr ⟨b, other, raises, rfl⟩
  have lowly {r : Option RollPhase} (raises : false = true) : r = none := by cases raises
  cases acted with
  | receive => exact absurd rfl (h _ _ _)
  | disconnect => exact moved (b := .disconnect _ _) (fun _ _ _ same => by cases same) lowly
  | refuse | issue => exact moved (b := .reserve _ _ _) (fun _ _ _ same => by cases same) lowly
  | send => exact moved (b := .send _ _) (fun _ _ _ same => by cases same) lowly
  | cleanup => exact moved (b := .cleanup _) (fun _ _ _ same => by cases same) lowly
  | rollEpoch => exact moved (b := .rollEpoch) (fun _ _ _ same => by cases same) fun _ => rfl
  | bumpWarmth free =>
    exact moved (b := .bumpWarmthGeneration) (fun _ _ _ same => by cases same) fun _ => free
  | bumpDependency =>
    exact moved (b := .bumpDependencyGeneration) (fun _ _ _ same => by cases same) lowly
  | reply =>
    refine Or.inl ?_
    unfold put
    split <;> rfl
  | idle | load | storeEpoch | storeWarmth => exact Or.inl rfl

/-- A frame that is delivered is handled as a whole or stays where it is. -/
theorem step_frame_sys (s : Threads) (cs : ConnId) (f : Frame) (now : Nat → Timestamp) :
    (s.step (.frame cs f now)).sys = s.sys ∨
      (s.step (.frame cs f now)).sys = s.sys.step (.frame cs f now) := by
  rw [step, note_sys, act]
  split
  · exact Or.inr rfl
  · exact Or.inl rfl

/-- A step that delivers no frame makes no object ready. -/
theorem step_notReadier (s : Threads) {a : ThreadStep} (h : ∀ cs f now, a ≠ .frame cs f now) :
    s.sys.coord.NotReadier (s.step a).sys.coord := by
  rcases s.step_sys h with same | ⟨b, unframed, -, same⟩
  · rw [same]
    exact fun _ ready => ready
  · rw [same]
    have cold : ¬ s.sys.BringsHot b := by
      rintro ⟨os, id, carries, -⟩
      cases carries <;> exact unframed _ _ _ rfl
    intro id ready
    by_contra unready
    obtain ⟨cs, f, now, res, info, framed, -⟩ :=
      System.readyByCompletion_of_cold cold id ready (Bool.eq_false_iff.mpr unready)
    exact unframed cs f now framed

end Threads

namespace Network

open Function

/-- A worker's hook has warmed the object, and the coordinator has read and accepted its result. -/
def Justified (h : List Happening) (id : WarmthObjectId) : Prop :=
  ∃ e ∈ executions h, ∃ r ∈ readings h, e.cmd.object = id ∧ e.outcome.success = true ∧
    r.conn = e.conn ∧ r.result = e.result ∧ r.accepted = true

theorem Justified.append {h : List Happening} {id : WarmthObjectId} (j : Justified h id)
    (more : List Happening) : Justified (h ++ more) id := by
  obtain ⟨e, he, r, hr, rest⟩ := j
  have split : executions (h ++ more) = executions h ++ executions more := List.filterMap_append
  have splitRead : readings (h ++ more) = readings h ++ readings more := List.filterMap_append
  exact ⟨e, split ▸ List.mem_append_left _ he, r, splitRead ▸ List.mem_append_left _ hr, rest⟩

section
variable {cfgs : Nat → WorkerConfig} {h : List Happening} {s : Network}

/-- The result that makes an object ready is one of a successful execution. -/
theorem justified_deliver (ordered : Ordered h s) (who : Senders cfgs s) (introduced : s.Introduced)
    {c : ConnId} {letter : Letter} {rest : List Letter} (next : s.inbox c = letter :: rest)
    (now : Nat → Timestamp) {id : WarmthObjectId} (unready : s.threads.sys.coord.readyAt id = false)
    (ready : (s.threads.step (.frame c letter.frame now)).sys.coord.readyAt id = true) :
    Justified (h ++ (s.reading c letter).map .read) id := by
  rcases s.threads.step_frame_sys c letter.frame now with same | same
  · rw [same, unready] at ready
    cases ready
  · rw [same] at ready
    have cold := introduced.not_bringsHot who next now
    obtain ⟨cs, f, now', res, info, step, -, type, decoded, accepted, -, success, object⟩ :=
      System.readyByCompletion_of_cold cold id ready unready
    cases step
    obtain ⟨d, rfl⟩ := Letter.warmed_of_type type
    have mem : .answer (.warmed d) ∈ s.inbox c := next ▸ List.mem_cons_self
    cases (who.decoded mem).symm.trans decoded
    have waiting : d.result ∈ (s.inbox c).filterMap Letter.result? :=
      List.mem_filterMap.mpr ⟨_, mem, rfl⟩
    have ran : d.result ∈ (executionsOn h c).map Execution.result := by
      rw [ordered.results c]
      exact List.mem_append_right _ waiting
    obtain ⟨e, he, result⟩ := List.mem_map.mp ran
    obtain ⟨executed, conn⟩ := List.mem_filter.mp he
    have read : ({ conn := c, result := d.result, accepted := true } : Reading) ∈
        s.reading c (.answer (.warmed d)) := by
      simp [reading, Letter.result?, Letter.warmed?, Worker.Answer.warmed?, accepted]
    refine ⟨e, ?_, { conn := c, result := d.result, accepted := true }, ?_, ?_, ?_,
      (beq_iff_eq.mp conn).symm, result.symm, rfl⟩
    · rw [executions_append_read]
      exact executed
    · rw [readings_append_read]
      exact List.mem_append_right _ read
    · rw [← e.concerns, result, object]
    · rw [← e.reports, result, success]

theorem justified_step (ordered : Ordered h s) (who : Senders cfgs s) (introduced : s.Introduced)
    (justified : ∀ id, s.threads.sys.coord.readyAt id = true → Justified h id) (a : NetStep)
    {id : WarmthObjectId} (ready : (s.step a).threads.sys.coord.readyAt id = true) :
    Justified (h ++ s.happens a) id := by
  cases before : s.threads.sys.coord.readyAt id with
  | true => exact (justified id before).append _
  | false =>
    have happened := s.happened_step a
    generalize s.step a = t, s.happens a = new at happened ready
    have unmoved (same : t.threads = s.threads) : Justified (h ++ new) id := by
      rw [same, before] at ready
      cases ready
    cases happened with
    | @connect i =>
      refine unmoved ?_
      simp only [Network.connect]
      split <;> rfl
    | idle | acknowledge | execute | lose | shutdown | flag => exact unmoved rfl
    | deliver next => exact justified_deliver ordered who introduced next _ before ready
    | coordinator unframed =>
      have earlier := s.threads.step_notReadier unframed id ready
      rw [before] at earlier
      cases earlier

end

/-- Whatever the coordinator holds execution-ready, a worker's hook has warmed with success, and the
coordinator has accepted the result of that very execution. -/
theorem ready_objects_were_warmed (cfgs : Nat → WorkerConfig) (steps : List NetStep)
    {id : WarmthObjectId}
    (ready : (Runs.run step (init cfgs) steps).threads.sys.coord.readyAt id = true) :
    Justified (history cfgs steps) id := by
  let I (h : List Happening) (s : Network) : Prop := Ordered h s ∧ Senders cfgs s ∧ s.Introduced ∧
    ∀ id, s.threads.sys.coord.readyAt id = true → Justified h id
  have start : I [] (init cfgs) := by
    refine ⟨ordered_init cfgs, senders_init cfgs, introduced_init cfgs, fun id ready => ?_⟩
    have none : (init cfgs).threads.sys.coord.readyAt id = false :=
      Coordinator.readyAt_none ExtTreeMap.getElem?_empty
    rw [none] at ready
    cases ready
  have keep (h : List Happening) (s : Network) (a : NetStep) (inv : I h s) (_ : True) :
      I (h ++ s.happens a) (s.step a) := by
    obtain ⟨ordered, who, introduced, justified⟩ := inv
    exact ⟨ordered.step who a, who.step a, introduced.step a,
      fun id => justified_step ordered who introduced justified a⟩
  have inv := Runs.emitted_invariant keep start (Runs.along_true steps)
  exact inv.2.2.2 id ready

theorem ready_objects_were_warmed_joined :
    Justified (history everyWorker ((joined ++ warmedBy ⟨0, 9⟩) ++ [.deliver 0 fun _ => 0])) ⟨0, 9⟩ :=
  ready_objects_were_warmed everyWorker _ (by decide +kernel)

end Network

end Warmth
