import Warmth.MessageRoundTrip
import Warmth.Network
import Warmth.Runs
import Warmth.TreeMaps

namespace Warmth

open Codec Std TreeMaps

namespace Worker

/-- The records of `observed_` are all COLD. -/
def Cold (w : Worker) : Prop :=
  ∀ (id : WarmthObjectId) o, w.observed[id]? = some o → o.state = .cold

theorem Cold.warmedObject {w : Worker} (cold : w.Cold) (cmd : WarmCmd) (r : HookOutcome)
    (now : Nat → Timestamp) : (w.warmedObject cmd r now).state = .cold := by
  unfold Worker.warmedObject
  split
  next => simp [WarmthObject.moveTo_state, transitionAllowed]
  next o found => simp [WarmthObject.moveTo_state, cold cmd.object o found, transitionAllowed]

theorem Cold.warm {w : Worker} (cold : w.Cold) (cmd : WarmCmd) (r : HookOutcome)
    (now : Nat → Timestamp) :
    (w.warm cmd r now).1.Cold ∧
      ∀ o, (w.warm cmd r now).2.left = some o → o.state = .cold := by
  have kept : (w.warm cmd r now).1.Cold := by
    intro id o found
    simp only [Worker.warm] at found
    split at found
    · obtain ⟨-, rfl⟩ | ⟨-, old⟩ := getElem?_insert_some found
      · exact cold.warmedObject cmd r now
      · exact cold id o old
    · exact cold id o found
  exact ⟨kept, fun o left => kept cmd.object o left⟩

theorem Cold.warmAll {w : Worker} (cold : w.Cold) (hook : Nat → HookOutcome)
    (now : Nat → Nat → Timestamp) (k : Nat) (cmds : List WarmCmd) :
    (w.warmAll hook now k cmds).1.Cold ∧
      ∀ d ∈ (w.warmAll hook now k cmds).2, ∀ o, d.left = some o → o.state = .cold := by
  induction cmds generalizing w k with
  | nil => exact ⟨cold, fun _ hd => nomatch hd⟩
  | cons cmd cmds ih =>
    obtain ⟨next, left⟩ := cold.warm cmd (hook k) (now k)
    obtain ⟨last, rest⟩ := ih next (k + 1)
    refine ⟨last, fun d hd => ?_⟩
    rcases List.mem_cons.mp hd with rfl | hd
    · exact left
    · exact rest d hd

end Worker

theorem Worker.Cold.handleFrame {w : Worker} (cold : w.Cold) (f : Frame) (hook : Nat → HookOutcome)
    (now : Nat → Nat → Timestamp) :
    (w.handleFrame f hook now).1.Cold ∧
      ∀ a ∈ (w.handleFrame f hook now).2, ∀ d o, a.warmed? = some d → d.left = some o →
        o.state = .cold := by
  unfold Worker.handleFrame
  split
  next =>
    split
    next => exact ⟨cold, fun a ha => nomatch ha⟩
    next topic _ =>
      obtain ⟨next, left⟩ := cold.warmAll hook now 0 topic.cmds
      refine ⟨next, fun a ha d o hd => ?_⟩
      obtain ⟨d', hd', rfl⟩ := List.mem_map.mp ha
      cases hd
      exact left d hd' o
  next =>
    refine ⟨cold, fun a ha d o hd => ?_⟩
    cases List.mem_singleton.mp ha
    cases hd
  next => exact ⟨cold, fun a ha => nomatch ha⟩
  next => exact ⟨cold, fun a ha => nomatch ha⟩

theorem Worker.Cold.receiveAck {w : Worker} (cold : w.Cold) (reply : Option Frame) :
    (w.receiveAck reply).1.Cold := by
  unfold Worker.receiveAck
  split
  · exact cold
  · split
    · exact cold
    · split
      · exact cold
      · split <;> exact cold

namespace Network

open Function

/-- The step is the coordinator's acceptance of the successful WARM_RESULT `d` on `c`. -/
inductive Completes (s : Network) : NetStep → ConnId → Warmed → Prop
  | mk {c : ConnId} {now : Nat → Timestamp} {rest : List Letter} {d : Warmed} {res : WarmResult}
      {info : AttemptInfo} (next : s.inbox c = .answer (.warmed d) :: rest)
      (ready : s.threads.ready c true = true)
      (decoded : decodePayload decodeWarmResult (encodeWarmResult d.result) = some res)
      (success : res.success = true)
      (accepted : s.threads.sys.coord.acceptedAttempt c res = some info) :
      Completes s (.deliver c now) c d

/-- What the coordinator takes for warmed, the worker's command has left execution-ready, of the
generation the result is stamped with. -/
def Agrees (s : Network) (a : NetStep) : Prop :=
  ∀ c d, s.Completes a c d →
    ∃ o, d.left = some o ∧ o.executionReady = true ∧ o.warmthGen = ⟨d.result.warmthGen⟩

def ColdLetters (letters : List Letter) : Prop :=
  ∀ letter ∈ letters, ∀ d o, letter.warmed? = some d → d.left = some o → o.state = .cold

/-- No worker has brought an object out of COLD. -/
structure Cold (s : Network) : Prop where
  workers : ∀ i, (s.peers i).worker.Cold
  letters : ∀ c, ColdLetters (s.inbox c)

theorem cold_init (cfgs : Nat → WorkerConfig) : (init cfgs).Cold := by
  refine ⟨fun i id o found => ?_, fun c letter hl => nomatch hl⟩
  simp [init] at found

theorem Cold.become {s : Network} (inv : s.Cold) (t : Threads) : (s.become t).Cold :=
  ⟨inv.workers, inv.letters⟩

theorem Cold.setPeer {s : Network} (inv : s.Cold) (i : Nat) {p : Peer} (hp : p.worker.Cold) :
    (s.setPeer i p).Cold :=
  ⟨(forall_update_iff s.peers fun _ p => p.worker.Cold).mpr ⟨hp, fun j _ => inv.workers j⟩,
    inv.letters⟩

theorem Cold.post {s : Network} (inv : s.Cold) (c : ConnId) {letters : List Letter}
    (h : ColdLetters letters) : (s.post c letters).Cold := by
  refine ⟨inv.workers, (forall_update_iff s.inbox fun _ => ColdLetters).mpr ⟨fun letter hl => ?_, ?_⟩⟩
  · rcases List.mem_append.mp hl with hl | hl
    · exact inv.letters c letter hl
    · exact h letter hl
  · exact fun c' _ => inv.letters c'

theorem coldLetters_of_none (letter : Letter) (h : letter.warmed? = none) :
    ColdLetters [letter] := by
  intro l hl d o hd
  rw [List.mem_singleton.mp hl, h] at hd
  cases hd

theorem Cold.receive {s : Network} (inv : s.Cold) (i : Nat) (c : ConnId) (f : Frame)
    (hook : Nat → HookOutcome) (now : Nat → Nat → Timestamp) :
    (s.receive i c f hook now).Cold := by
  have before : (s.take c).Cold := ⟨inv.workers, inv.letters⟩
  unfold Network.receive
  split
  next => exact inv
  next => exact before.setPeer i ((inv.workers i).receiveAck (some f))
  next =>
    obtain ⟨next, left⟩ := (inv.workers i).handleFrame f hook now
    refine (before.setPeer i next).post c fun letter hl => ?_
    obtain ⟨a, ha, rfl⟩ := List.mem_map.mp hl
    exact left a ha

theorem Cold.connect {s : Network} (inv : s.Cold) (i : Nat) : (s.connect i).Cold := by
  have before : (s.openFresh i).Cold := ⟨inv.workers, inv.letters⟩
  simp only [Network.connect]
  split
  · have opened := before.setPeer i
      (p := { s.peers i with conn := some s.made, phase := .awaiting }) (inv.workers i)
    exact opened.post s.made (coldLetters_of_none (.hello _) rfl)
  · exact before.setPeer i (p := { s.peers i with conn := some s.made }) (inv.workers i)

theorem Cold.step {s : Network} (inv : s.Cold) (a : NetStep) : (s.step a).Cold := by
  have went := s.went_step a
  generalize s.step a = t at went
  cases went with
  | idle => exact inv
  | connect => exact inv.connect _
  | read => exact inv.receive _ _ _ _ _
  | @lose i | @flag i => exact inv.setPeer i (inv.workers i)
  | @shutdown i =>
    have asked := inv.setPeer i (p := (s.peers i).requestShutdown) (inv.workers i)
    exact asked.post _ (coldLetters_of_none .shutdown rfl)
  | @deliver c now letter rest next =>
    refine ⟨inv.workers, (forall_update_iff s.inbox fun _ => ColdLetters).mpr ⟨?_, ?_⟩⟩
    · exact fun l hl => inv.letters c l (next ▸ List.mem_cons_of_mem _ hl)
    · exact fun c' _ => inv.letters c'
  | coordinator => exact inv.become _

theorem Cold.disagrees {s : Network} (inv : s.Cold) {a : NetStep} {c : ConnId} {d : Warmed}
    (h : s.Completes a c d) : ¬ s.Agrees a := by
  intro agrees
  obtain ⟨o, left, ready, -⟩ := agrees c d h
  cases h with
  | mk next =>
    have cold := inv.letters c (.answer (.warmed d)) (next ▸ List.mem_cons_self) d o rfl left
    simp [WarmthObject.executionReady, isExecutionReady, cold] at ready

theorem Cold.hello {s : Network} (inv : s.Cold) (i : Nat) :
    ∀ o ∈ (s.peers i).worker.hello.observed, o.executionReady = false := by
  intro o ho
  obtain ⟨⟨id, o'⟩, mem, rfl⟩ := List.mem_map.mp ho
  have cold := inv.workers i id o' (ExtTreeMap.mem_toList_iff_getElem?_eq_some.mp mem)
  simp [WarmthObject.executionReady, isExecutionReady, cold]

/-- The coordinator and the worker never agree on a completed warming: they do only as long as
none is accepted, and no HELLO reports an object ready. -/
theorem completed_warming_disagreed (cfgs : Nat → WorkerConfig) (steps : List NetStep) :
    (Runs.Along step Agrees (init cfgs) steps ↔
      Runs.Along step (fun s a => ∀ c d, ¬ s.Completes a c d) (init cfgs) steps) ∧
    ∀ i, ∀ o ∈ ((Runs.run step (init cfgs) steps).peers i).worker.hello.observed,
      o.executionReady = false := by
  refine ⟨Runs.along_congr (I := Cold) (fun _ a inv => inv.step a) (fun s a inv => ?_)
    (cold_init cfgs), fun i => ?_⟩
  · constructor
    · exact fun agrees c d completes => inv.disagrees completes agrees
    · exact fun none c d completes => absurd completes (none c d)
  · have inv := Runs.reachable_invariant (I := Cold) (cold_init cfgs)
      (fun _ a inv => inv.step a) (Runs.reachable_run steps)
    exact inv.hello i

theorem warmedBy_disagreed :
    ¬ ∀ cfgs steps, Runs.Along step Agrees (init cfgs) steps := by
  intro h
  have agrees := h everyWorker ((joined ++ warmedBy ⟨0, 9⟩) ++ [.deliver 0 fun _ => 0])
  rw [Runs.along_append] at agrees
  have cold : (Runs.run step (init everyWorker) (joined ++ warmedBy ⟨0, 9⟩)).Cold :=
    Runs.reachable_invariant (cold_init everyWorker) (fun _ a inv => inv.step a)
      (Runs.reachable_run _)
  let res : WarmResult :=
    { boot := ⟨0, 1⟩, object := ⟨0, 9⟩, action := .loadModel, attempt := 1, success := true }
  have waiting : ((Runs.run step (init everyWorker) (joined ++ warmedBy ⟨0, 9⟩)).inbox 0).map
      (fun l => l.warmed?.map Warmed.result) = [some res] := by decide +kernel
  have ready : (Runs.run step (init everyWorker) (joined ++ warmedBy ⟨0, 9⟩)).threads.ready 0 true =
      true := by decide +kernel
  have accepted : ((Runs.run step (init everyWorker)
      (joined ++ warmedBy ⟨0, 9⟩)).threads.sys.coord.acceptedAttempt 0 res).isSome = true := by
    decide +kernel
  generalize Runs.run step (init everyWorker) (joined ++ warmedBy ⟨0, 9⟩) = s
    at agrees cold waiting ready accepted
  obtain ⟨d, inbox, result⟩ := inbox_of_results waiting
  obtain ⟨info, accepted⟩ := Option.isSome_iff_exists.mp accepted
  have decoded := decodePayload_of_reads (reads_warmResult (r := d.result) (by rw [result]; decide))
  rw [← result] at accepted
  exact cold.disagrees (.mk inbox ready decoded (by rw [result]) accepted) agrees.2.1

end Network

end Warmth
