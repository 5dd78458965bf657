import Warmth.Lanes

namespace Warmth

open Codec Std

/-- One call of the warming hook, with the result that the worker sends for it. -/
structure Execution where
  conn : ConnId
  cmd : WarmCmd
  outcome : HookOutcome
  result : WarmResult
  answers : result.attempt = cmd.attempt
  concerns : result.object = cmd.object
  reports : result.success = outcome.success

/-- A WARM_RESULT that the coordinator takes off a connection. -/
structure Reading where
  conn : ConnId
  result : WarmResult
  accepted : Bool

def Execution.attempt (e : Execution) : AttemptId := ⟨e.cmd.attempt⟩

def Reading.attempt (r : Reading) : AttemptId := ⟨r.result.attempt⟩

inductive Happening
  | executed (e : Execution)
  | read (r : Reading)

def Happening.executed? : Happening → Option Execution
  | .executed e => some e
  | .read _ => none

def Happening.read? : Happening → Option Reading
  | .executed _ => none
  | .read r => some r

def executions (h : List Happening) : List Execution := h.filterMap Happening.executed?

def readings (h : List Happening) : List Reading := h.filterMap Happening.read?

def executionsOn (h : List Happening) (c : ConnId) : List Execution :=
  (executions h).filter fun e => e.conn == c

def readingsOn (h : List Happening) (c : ConnId) : List Reading :=
  (readings h).filter fun r => r.conn == c

def Frame.commands (f : Frame) : List WarmCmd :=
  match f.type with
  | .warmTopic => (decodePayload decodeWarmTopic f.payload).elim [] WarmTopic.cmds
  | _ => []

def Letter.result? (l : Letter) : Option WarmResult := l.warmed?.map Warmed.result

/-- The hook's calls for the commands of one frame; `hook k` belongs to the `k`-th. -/
def Worker.executions (w : Worker) (c : ConnId) (cmds : List WarmCmd) (hook : Nat → HookOutcome) :
    List Execution :=
  cmds.zipIdx.map fun p =>
    { conn := c, cmd := p.1, outcome := hook p.2, result := w.resultOf p.1 (hook p.2)
      answers := rfl, concerns := rfl, reports := rfl }

theorem Frame.commands_of_type {f : Frame} (h : f.type ≠ .warmTopic) : f.commands = [] := by
  unfold Frame.commands
  split
  · contradiction
  · rfl

theorem Frame.attempts_eq (f : Frame) :
    f.attempts = f.commands.map fun cmd => ⟨cmd.attempt⟩ := by
  by_cases type : f.type = .warmTopic
  · simp only [Frame.attempts, Frame.commands, type]
  · rw [Frame.attempts_of_type type, Frame.commands_of_type type]
    rfl

section
variable (h : List Happening) (c : ConnId) (es : List Execution) (rs : List Reading)

theorem executions_append_executed :
    executions (h ++ es.map .executed) = executions h ++ es := by
  simp [executions, List.filterMap_map, Function.comp_def, Happening.executed?]

theorem executions_append_read : executions (h ++ rs.map .read) = executions h := by
  simp [executions, List.filterMap_map, Function.comp_def, Happening.executed?]

theorem readings_append_executed : readings (h ++ es.map .executed) = readings h := by
  simp [readings, List.filterMap_map, Function.comp_def, Happening.read?]

theorem readings_append_read : readings (h ++ rs.map .read) = readings h ++ rs := by
  simp [readings, List.filterMap_map, Function.comp_def, Happening.read?]

end

namespace Worker

variable (w : Worker) (c : ConnId) (cmds : List WarmCmd) (hook : Nat → HookOutcome)

theorem executions_cmds : (w.executions c cmds hook).map Execution.cmd = cmds := by
  rw [executions, List.map_map]
  exact List.zipIdx_map_fst 0 cmds

theorem executions_conn {e : Execution} (h : e ∈ w.executions c cmds hook) : e.conn = c := by
  obtain ⟨p, -, rfl⟩ := List.mem_map.mp h
  rfl

/-- The answers to a frame are the results of the calls it makes the worker run. -/
theorem handleFrame_results (f : Frame) (now : Nat → Nat → Timestamp) :
    ((w.handleFrame f hook now).2.map Letter.answer).filterMap Letter.result? =
      (w.executions c f.commands hook).map Execution.result := by
  unfold handleFrame
  split
  next type =>
    unfold Frame.commands
    rw [type]
    split
    next undecoded =>
      rw [undecoded]
      rfl
    next topic decoded =>
      have results := w.warmAll_results hook now 0 topic.cmds
      have answers : ((w.warmAll hook now 0 topic.cmds).2.map Answer.warmed).map Letter.answer =
          (w.warmAll hook now 0 topic.cmds).2.map fun d => Letter.answer (.warmed d) := List.map_map
      have read : ((w.warmAll hook now 0 topic.cmds).2.map fun d => Letter.answer (.warmed d)).filterMap
          Letter.result? = (w.warmAll hook now 0 topic.cmds).2.map Warmed.result := by
        rw [List.filterMap_map]
        exact congrFun List.filterMap_eq_map _
      rw [decoded, answers, read, results, executions, List.map_map]
      rfl
  next type => rw [Frame.commands_of_type (by rw [type]; decide)]; rfl
  next type => rw [Frame.commands_of_type (by rw [type]; decide)]; rfl
  next other _ _ => rw [Frame.commands_of_type other]; rfl

end Worker

namespace Network

open Function

def executes (s : Network) (i : Nat) (hook : Nat → HookOutcome) : List Execution :=
  match (s.peers i).conn with
  | none => []
  | some c =>
    match (s.threads.wire c)[s.taken c]? with
    | none => []
    | some f =>
      if (s.peers i).phase = .running then (s.peers i).worker.executions c f.commands hook else []

def reading (s : Network) (c : ConnId) (letter : Letter) : List Reading :=
  (letter.result?.map fun res =>
    { conn := c, result := res
      accepted := (s.threads.sys.coord.acceptedAttempt c res).isSome : Reading }).toList

def reads (s : Network) (c : ConnId) : List Reading :=
  match s.inbox c with
  | [] => []
  | letter :: _ =>
    if s.threads.ready c letter.frame.takesMutex then s.reading c letter else []

/-- The hook calls and the results read in one step. -/
def happens (s : Network) : NetStep → List Happening
  | .read i hook _ => (s.executes i hook).map .executed
  | .deliver c _ => (s.reads c).map .read
  | _ => []

/-- What a step can do, with what happens in it. -/
inductive Happened (s : Network) : NetStep → Network → List Happening → Prop
  | idle {a : NetStep} : Happened s a s []
  | connect {i : Nat} (idle : (s.peers i).phase = .idle) : Happened s (.connect i) (s.connect i) []
  | acknowledge {i : Nat} {hook : Nat → HookOutcome} {now : Nat → Nat → Timestamp} {c : ConnId}
      {f : Frame} (reader : (s.peers i).conn = some c)
      (next : (s.threads.wire c)[s.taken c]? = some f) (awaiting : (s.peers i).phase = .awaiting) :
      Happened s (.read i hook now) ((s.take c).setPeer i ((s.peers i).receiveAck f)) []
  | execute {i : Nat} {hook : Nat → HookOutcome} {now : Nat → Nat → Timestamp} {c : ConnId}
      {f : Frame} (reader : (s.peers i).conn = some c)
      (next : (s.threads.wire c)[s.taken c]? = some f) (running : (s.peers i).phase = .running) :
      Happened s (.read i hook now)
        (((s.take c).setPeer i ((s.peers i).handleFrame f hook now).1).post c
          (((s.peers i).handleFrame f hook now).2.map .answer))
        (((s.peers i).worker.executions c f.commands hook).map .executed)
  | lose {i : Nat} : Happened s (.lose i) (s.setPeer i { s.peers i with phase := .idle }) []
  | shutdown {i : Nat} {c : ConnId} (writer : (s.peers i).conn = some c) :
      Happened s (.requestShutdown i) ((s.setPeer i (s.peers i).requestShutdown).post c [.shutdown]) []
  | flag {i : Nat} (unconnected : (s.peers i).conn = none) :
      Happened s (.requestShutdown i) (s.setPeer i (s.peers i).requestShutdown) []
  | deliver {c : ConnId} {now : Nat → Timestamp} {letter : Letter} {rest : List Letter}
      (next : s.inbox c = letter :: rest)
      (ready : s.threads.ready c letter.frame.takesMutex = true) :
      Happened s (.deliver c now)
        { s.become (s.threads.step (.frame c letter.frame now)) with
          inbox := update s.inbox c rest } ((s.reading c letter).map .read)
  | coordinator {a : ThreadStep} (unframed : ∀ c f now, a ≠ .frame c f now) :
      Happened s (.coordinator a) (s.become (s.threads.step a)) []

theorem happened_read (s : Network) (i : Nat) (hook : Nat → HookOutcome)
    (now : Nat → Nat → Timestamp) :
    s.Happened (.read i hook now) (s.step (.read i hook now)) (s.happens (.read i hook now)) := by
  simp only [step, happens, executes]
  cases reader : (s.peers i).conn with
  | none => exact .idle
  | some c =>
    simp only
    cases next : (s.threads.wire c)[s.taken c]? with
    | none => exact .idle
    | some f =>
      simp only
      cases phase : (s.peers i).phase with
      | idle =>
        rw [receive_idle c f hook now phase, if_neg (by decide)]
        exact .idle
      | awaiting =>
        rw [receive_awaiting c f hook now phase, if_neg (by decide)]
        exact .acknowledge reader next phase
      | running =>
        rw [receive_running c f hook now phase, if_pos rfl]
        exact .execute reader next phase

theorem happened_deliver (s : Network) (c : ConnId) (now : Nat → Timestamp) :
    s.Happened (.deliver c now) (s.step (.deliver c now)) (s.happens (.deliver c now)) := by
  simp only [step, happens, reads]
  cases next : s.inbox c with
  | nil => exact .idle
  | cons letter rest =>
    simp only
    split
    next ready => exact .deliver next ready
    next => exact .idle

theorem happened_step (s : Network) (a : NetStep) : s.Happened a (s.step a) (s.happens a) := by
  have went := s.went_step a
  cases a with
  | read i hook now => exact s.happened_read i hook now
  | deliver c now => exact s.happened_deliver c now
  | connect i =>
    simp only [happens]
    generalize s.step (.connect i) = t at went
    cases went with
    | idle => exact .idle
    | connect idle => exact .connect idle
  | lose i => exact .lose
  | requestShutdown i =>
    simp only [happens]
    generalize s.step (.requestShutdown i) = t at went
    cases went with
    | idle => exact .idle
    | shutdown writer => exact .shutdown writer
    | flag unconnected => exact .flag unconnected
  | coordinator a =>
    simp only [happens]
    generalize s.step (.coordinator a) = t at went
    cases went with
    | idle => exact .idle
    | coordinator unframed => exact .coordinator unframed

/-- How far a worker in the phase has read its connection. -/
def PeerPhase.Read : PeerPhase → Nat → Prop
  | .idle, _ => True
  | .awaiting, n => n = 0
  | .running, n => 0 < n

/-- What has happened so far against the connections as they are. -/
structure Ordered (h : List Happening) (s : Network) : Prop where
  taken : ∀ c, s.taken c ≤ (s.threads.wire c).length
  phase : ∀ i c, (s.peers i).conn = some c → PeerPhase.Read (s.peers i).phase (s.taken c)
  commands : ∀ c, (executionsOn h c).map Execution.cmd =
    ((s.threads.wire c).take (s.taken c)).tail.flatMap Frame.commands
  results : ∀ c, (executionsOn h c).map Execution.result =
    (readingsOn h c).map Reading.result ++ (s.inbox c).filterMap Letter.result?

theorem ordered_init (cfgs : Nat → WorkerConfig) : Ordered [] (init cfgs) := by
  refine ⟨fun c => Nat.le_refl 0, fun i c reader => ?_, fun c => rfl, fun c => rfl⟩
  cases reader

section
variable {cfgs : Nat → WorkerConfig} {h : List Happening} {s : Network}

theorem Ordered.post (inv : Ordered h s) (c : ConnId) {letters : List Letter}
    (quiet : letters.filterMap Letter.result? = []) : Ordered h (s.post c letters) := by
  refine ⟨inv.taken, inv.phase, inv.commands, fun c' => ?_⟩
  rw [inv.results c']
  by_cases hc : c' = c
  · subst hc
    simp only [Network.post, update_self, List.filterMap_append, quiet, List.append_nil]
  · simp only [Network.post, update_of_ne hc]

theorem Ordered.setPeer (inv : Ordered h s) (i : Nat) {p : Peer}
    (phase : ∀ c, p.conn = some c → PeerPhase.Read p.phase (s.taken c)) :
    Ordered h (s.setPeer i p) := by
  refine ⟨inv.taken, fun j c reader => ?_, inv.commands, inv.results⟩
  by_cases hj : j = i
  · subst hj
    simp only [Network.setPeer, update_self] at reader ⊢
    exact phase c reader
  · simp only [Network.setPeer, update_of_ne hj] at reader ⊢
    exact inv.phase j c reader

theorem Ordered.openFresh (inv : Ordered h s) (i : Nat) : Ordered h (s.openFresh i) :=
  ⟨inv.taken, inv.phase, inv.commands, inv.results⟩

theorem Ordered.connect (inv : Ordered h s) (who : Senders cfgs s) {i : Nat}
    (idle : (s.peers i).phase = .idle) : Ordered h (s.connect i) := by
  have unread : s.taken s.made = 0 := (who.fresh s.made (Nat.le_refl _)).2.2
  simp only [Network.connect]
  split
  · have opened := (inv.openFresh i).setPeer i
      (p := { s.peers i with conn := some s.made, phase := .awaiting }) (fun c own => ?_)
    · exact opened.post s.made rfl
    · cases own
      exact unread
  · refine (inv.openFresh i).setPeer i fun c own => ?_
    rw [show (s.peers i).phase = .idle from idle]
    trivial

/-- The next frame of a connection is read by the worker at its other end. -/
theorem Ordered.take (inv : Ordered h s) (who : Senders cfgs s) {i : Nat} {c : ConnId} {f : Frame}
    (reader : (s.peers i).conn = some c) (next : (s.threads.wire c)[s.taken c]? = some f)
    {p : Peer} (own : p.conn = some c) (phase : PeerPhase.Read p.phase (s.taken c + 1))
    {es : List Execution} (conns : ∀ e ∈ es, e.conn = c)
    (commands : es.map Execution.cmd = if 0 < s.taken c then f.commands else []) :
    let t := (s.take c).setPeer i p
    (∀ c, t.taken c ≤ (t.threads.wire c).length) ∧
    (∀ j c, (t.peers j).conn = some c → PeerPhase.Read (t.peers j).phase (t.taken c)) ∧
    ∀ c, (executionsOn (h ++ es.map .executed) c).map Execution.cmd =
      ((t.threads.wire c).take (t.taken c)).tail.flatMap Frame.commands := by
  have lt := (List.getElem?_eq_some_iff.mp next).1
  refine ⟨taken_take next inv.taken, fun j c' reader' => ?_, fun c' => ?_⟩
  · by_cases hj : j = i
    · subst hj
      simp only [Network.setPeer, update_self] at reader' ⊢
      cases own.symm.trans reader'
      simp only [Network.take, update_self]
      exact phase
    · simp only [Network.setPeer, update_of_ne hj] at reader' ⊢
      have other : c' ≠ c := by
        intro same
        subst same
        exact hj ((who.conn j c' reader').2.symm.trans (who.conn i c' reader).2)
      simp only [Network.take, update_of_ne other]
      exact inv.phase j c' reader'
  · have old := inv.commands c'
    by_cases hc : c' = c
    · subst hc
      have all : es.filter (fun e => e.conn == c') = es :=
        List.filter_eq_self.mpr fun e he => beq_iff_eq.mpr (conns e he)
      have now : ((s.threads.wire c').take (s.taken c' + 1)).tail.flatMap Frame.commands =
          ((s.threads.wire c').take (s.taken c')).tail.flatMap Frame.commands ++
            (if 0 < s.taken c' then f.commands else []) := by
        rw [List.take_add_one, next]
        rcases Nat.eq_zero_or_pos (s.taken c') with zero | more
        · rw [zero]
          rfl
        · have nonempty : (s.threads.wire c').take (s.taken c') ≠ [] := by
            intro empty
            have length := congrArg List.length empty
            rw [List.length_take, List.length_nil] at length
            omega
          rw [if_pos more, List.tail_append_of_ne_nil nonempty, List.flatMap_append]
          simp
      simp only [executionsOn, executions_append_executed, List.filter_append, all, List.map_append,
        commands]
      simp only [executionsOn] at old
      simp only [Network.setPeer, Network.take, update_self, now, old]
    · have none : es.filter (fun e => e.conn == c') = [] := by
        refine List.filter_eq_nil_iff.mpr fun e he => ?_
        rw [conns e he, beq_iff_eq]
        exact Ne.symm hc
      simp only [executionsOn, executions_append_executed, List.filter_append, none, List.append_nil]
      simp only [executionsOn] at old
      simp only [Network.setPeer, Network.take, update_of_ne hc, old]

theorem Ordered.acknowledge (inv : Ordered h s) (who : Senders cfgs s) {i : Nat} {c : ConnId}
    {f : Frame} (reader : (s.peers i).conn = some c)
    (next : (s.threads.wire c)[s.taken c]? = some f) (awaiting : (s.peers i).phase = .awaiting) :
    Ordered h ((s.take c).setPeer i ((s.peers i).receiveAck f)) := by
  have unread : s.taken c = 0 := by
    have phase := inv.phase i c reader
    rwa [awaiting] at phase
  have begun : PeerPhase.Read ((s.peers i).receiveAck f).phase (s.taken c + 1) := by
    simp only [Peer.receiveAck]
    split
    · exact Nat.succ_pos _
    · trivial
  have none (e : Execution) (he : e ∈ []) : e.conn = c := absurd he List.not_mem_nil
  obtain ⟨taken, phase, commands⟩ := inv.take who reader next
    (p := (s.peers i).receiveAck f) reader begun none (by rw [unread]; rfl)
  refine ⟨taken, phase, fun c' => ?_, inv.results⟩
  rw [← commands c', List.map_nil, List.append_nil]

theorem Ordered.execute (inv : Ordered h s) (who : Senders cfgs s) {i : Nat} {c : ConnId}
    {f : Frame} (reader : (s.peers i).conn = some c)
    (next : (s.threads.wire c)[s.taken c]? = some f) (running : (s.peers i).phase = .running)
    (hook : Nat → HookOutcome) (now : Nat → Nat → Timestamp) :
    Ordered (h ++ ((s.peers i).worker.executions c f.commands hook).map .executed)
      (((s.take c).setPeer i ((s.peers i).handleFrame f hook now).1).post c
        (((s.peers i).handleFrame f hook now).2.map .answer)) := by
  have begun : 0 < s.taken c := by
    have phase := inv.phase i c reader
    rwa [running] at phase
  have going : PeerPhase.Read ((s.peers i).handleFrame f hook now).1.phase (s.taken c + 1) := by
    simp only [Peer.handleFrame]
    split
    · trivial
    · exact Nat.succ_pos _
  have conns {e : Execution} := (s.peers i).worker.executions_conn c f.commands hook (e := e)
  obtain ⟨taken, phase, commands⟩ := inv.take who reader next
    (p := ((s.peers i).handleFrame f hook now).1) reader going (fun e => conns)
    (by rw [Worker.executions_cmds, if_pos begun])
  refine ⟨taken, phase, commands, fun c' => ?_⟩
  have answers := (s.peers i).worker.handleFrame_results c hook f now
  have old := inv.results c'
  by_cases hc : c' = c
  · subst hc
    have all : ((s.peers i).worker.executions c' f.commands hook).filter (fun e => e.conn == c') =
        (s.peers i).worker.executions c' f.commands hook :=
      List.filter_eq_self.mpr fun e he => beq_iff_eq.mpr (conns he)
    simp only [executionsOn, readingsOn, executions_append_executed, readings_append_executed,
      List.filter_append, all, List.map_append] at old ⊢
    rw [old, ← answers]
    simp only [Network.post, update_self, List.filterMap_append, List.append_assoc]
    rfl
  · have none : ((s.peers i).worker.executions c f.commands hook).filter
        (fun e => e.conn == c') = [] := by
      refine List.filter_eq_nil_iff.mpr fun e he => ?_
      rw [conns he, beq_iff_eq]
      exact Ne.symm hc
    simp only [executionsOn, readingsOn, executions_append_executed, readings_append_executed,
      List.filter_append, none, List.append_nil] at old ⊢
    rw [old]
    simp only [Network.post, update_of_ne hc]
    rfl

theorem Ordered.deliver (inv : Ordered h s) {c : ConnId} {letter : Letter} {rest : List Letter}
    (next : s.inbox c = letter :: rest) (now : Nat → Timestamp) :
    Ordered (h ++ (s.reading c letter).map .read)
      { s.become (s.threads.step (.frame c letter.frame now)) with
        inbox := update s.inbox c rest } := by
  obtain ⟨-, -, wire⟩ := s.threads.step_frame c letter.frame now
  refine ⟨fun c' => ?_, inv.phase, fun c' => ?_, fun c' => ?_⟩
  · exact (congrArg List.length (congrFun wire c')).symm ▸ inv.taken c'
  · have old := inv.commands c'
    simp only [executionsOn, executions_append_read, Network.become, wire] at old ⊢
    exact old
  · have old := inv.results c'
    have came : (s.reading c letter).map Reading.result = letter.result?.toList := by
      cases result : letter.result? <;> simp [reading, result]
    by_cases hc : c' = c
    · subst hc
      have all : (s.reading c' letter).filter (fun r => r.conn == c') = s.reading c' letter := by
        cases result : letter.result? <;> simp [reading, result]
      simp only [executionsOn, readingsOn, executions_append_read, readings_append_read,
        List.filter_append, all, List.map_append, came, update_self] at old ⊢
      rw [old, next, List.append_assoc]
      cases result : letter.result? <;> simp [result]
    · have none : (s.reading c letter).filter (fun r => r.conn == c') = [] := by
        cases result : letter.result? <;> simp [reading, result, Ne.symm hc]
      simp only [executionsOn, readingsOn, executions_append_read, readings_append_read,
        List.filter_append, none, List.append_nil, update_of_ne hc] at old ⊢
      exact old

theorem Ordered.coordinator (inv : Ordered h s) (a : ThreadStep) :
    Ordered h (s.become (s.threads.step a)) := by
  refine ⟨fun c => ?_, inv.phase, fun c => ?_, inv.results⟩
  · obtain ⟨more, wire⟩ := s.threads.step_wire a c
    simp only [Network.become, wire, List.length_append]
    exact Nat.le_add_right_of_le (inv.taken c)
  · obtain ⟨more, wire⟩ := s.threads.step_wire a c
    simp only [Network.become, wire, List.take_append_of_le_length (inv.taken c)]
    exact inv.commands c

theorem Ordered.step (inv : Ordered h s) (who : Senders cfgs s) (a : NetStep) :
    Ordered (h ++ s.happens a) (s.step a) := by
  have happened := s.happened_step a
  generalize s.step a = t, s.happens a = new at happened
  cases happened with
  | idle => rwa [List.append_nil]
  | connect idle =>
    rw [List.append_nil]
    exact inv.connect who idle
  | acknowledge reader next awaiting =>
    rw [List.append_nil]
    exact inv.acknowledge who reader next awaiting
  | execute reader next running => exact inv.execute who reader next running _ _
  | @lose i =>
    rw [List.append_nil]
    exact inv.setPeer i fun c _ => trivial
  | @shutdown i =>
    rw [List.append_nil]
    have asked := inv.setPeer i (p := (s.peers i).requestShutdown)
      fun c reader => inv.phase i c reader
    exact asked.post _ rfl
  | @flag i =>
    rw [List.append_nil]
    exact inv.setPeer i fun c reader => inv.phase i c reader
  | deliver next => exact inv.deliver next _
  | coordinator =>
    rw [List.append_nil]
    exact inv.coordinator _

end

/-- What happens along a run from unconnected workers. -/
def history (cfgs : Nat → WorkerConfig) (steps : List NetStep) : List Happening :=
  Runs.emitted step happens (init cfgs) steps

/-- On every connection the worker runs the commands of the frames it reads after the
acknowledgement, each once and in the order they were sent, and the coordinator reads the results in
that order, with none lost and none twice. -/
theorem commands_run_in_order (cfgs : Nat → WorkerConfig) (steps : List NetStep) (c : ConnId) :
    let s := Runs.run step (init cfgs) steps
    let h := history cfgs steps
    (executionsOn h c).map Execution.cmd =
        ((s.threads.wire c).take (s.taken c)).tail.flatMap Frame.commands ∧
      (executionsOn h c).map Execution.result =
        (readingsOn h c).map Reading.result ++ (s.inbox c).filterMap Letter.result? := by
  have keep (h : List Happening) (s : Network) (a : NetStep) (inv : Ordered h s ∧ Senders cfgs s)
      (_ : True) : Ordered (h ++ s.happens a) (s.step a) ∧ Senders cfgs (s.step a) :=
    ⟨inv.1.step inv.2 a, inv.2.step a⟩
  have inv := Runs.emitted_invariant keep ⟨ordered_init cfgs, senders_init cfgs⟩
    (Runs.along_true steps)
  exact ⟨inv.1.commands c, inv.1.results c⟩

end Network

end Warmth
