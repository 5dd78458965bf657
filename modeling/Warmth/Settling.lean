import Warmth.Stopping

namespace Warmth

open Codec Std

namespace Network

open Function

/-! What goes on by itself: frames and letters on their way are read, handlers and calls of
`issue_warm` go on to their ends, and a `roll_epoch` that holds the mutex gives it back. -/

inductive Drains (s : Network) : NetStep → Prop
  | read {i : Nat} {hook : Nat → HookOutcome} {now : Nat → Nat → Timestamp} {c : ConnId} {f : Frame}
      (known : c < s.made) (reader : (s.peers i).conn = some c) (attends : (s.peers i).phase ≠ .idle)
      (next : (s.threads.wire c)[s.taken c]? = some f) : Drains s (.read i hook now)
  | deliver {c : ConnId} {now : Nat → Timestamp} {letter : Letter} {rest : List Letter}
      (known : c < s.made) (next : s.inbox c = letter :: rest)
      (ready : s.threads.ready c letter.frame.takesMutex = true) : Drains s (.deliver c now)
  | load {c : ConnId} {ack : HelloAck} {phase : LoadPhase} (known : c < s.made)
      (pending : s.threads.handlers c = some (.acknowledging ack phase)) (more : phase ≠ .loaded) :
      Drains s (.coordinator (.load c))
  | reply {c : ConnId} {sent : Bool} {h : Handler} {f : Frame} (known : c < s.made)
      (pending : s.threads.handlers c = some h) (made : h.outgoing = some f) :
      Drains s (.coordinator (.reply c sent))
  | send {call : Nat} {sent : Bool} {conn : ConnId} {topic : WarmTopic}
      (pending : s.threads.sending call = some (conn, topic)) : Drains s (.coordinator (.send call sent))
  | cleanup {call : Nat} {w : WarmCall} (pending : s.threads.sys.calls[call]? = some w)
      (failed : w.phase = .sendFailed) (free : s.threads.rolling = none) :
      Drains s (.coordinator (.cleanup call))
  | roll (held : s.threads.rolling ≠ none) : Drains s (.coordinator .rollEpoch)

/-! How much there is left to do. -/

/-- At most so many answers does a worker give to the frame. -/
def answersTo (f : Frame) : Nat :=
  match f.type with
  | .ping => 1
  | _ => f.commands.length

/-- A frame that has not been read: its reading, and its answers' way back. -/
def frameWork (f : Frame) : Nat := 1 + 6 * answersTo f

def handlerWork : Handler → Nat
  | .acknowledging _ phase => Service.loadsLeft phase + 1
  | .replying f => 1 + frameWork f

def connWork (s : Network) (c : ConnId) : Nat :=
  (((s.threads.wire c).drop (s.taken c)).map frameWork).sum + 6 * (s.inbox c).length +
    ((s.threads.handlers c).map handlerWork).getD 0

def callWork : CallPhase → Nat
  | .reserved => 2
  | .sendFailed => 1

def rollWork : Option RollPhase → Nat
  | none => 0
  | some .warmthStored => 1
  | some .epochStored => 2

/-- What the calls of `issue_warm` and `roll_epoch` have left to do. -/
def callsWork (t : Threads) : Nat :=
  (t.sys.calls.map fun w => callWork w.phase).sum + (t.topics.map fun m => frameWork (topicFrame m)).sum +
    rollWork t.rolling

def work (s : Network) : Nat := (Finset.range s.made).sum s.connWork + callsWork s.threads

theorem answersTo_eq_zero {f : Frame} (topic : f.type ≠ .warmTopic) (ping : f.type ≠ .ping) :
    answersTo f = 0 := by
  unfold answersTo
  split
  next type => exact absurd type ping
  next => rw [Frame.commands_of_type topic, List.length_nil]

theorem handleFrame_length (w : Worker) (f : Frame) (hook : Nat → HookOutcome)
    (now : Nat → Nat → Timestamp) : (w.handleFrame f hook now).2.length ≤ answersTo f := by
  unfold Worker.handleFrame answersTo
  split
  next type =>
    rw [type]
    unfold Frame.commands
    rw [type]
    split
    next => exact Nat.zero_le _
    next topic decoded =>
      have results := congrArg List.length (w.warmAll_results hook now 0 topic.cmds)
      rw [List.length_map, List.length_map, List.length_zipIdx] at results
      simp only [decoded, List.length_map, results, Option.elim_some]
      exact Nat.le_refl _
  next type => rw [type]; exact Nat.le_refl 1
  next => exact Nat.zero_le _
  next => exact Nat.zero_le _

theorem handleFrame_reply_type {c : Coordinator} {cs : ConnId} {f g : Frame} {now : Nat → Timestamp}
    (h : (c.handleFrame cs f now).2.reply = some g) : g.type ≠ .ping := by
  cases Coordinator.handleFrame_replies h with
  | error | mismatch | ack | pong => exact fun same => by cases same

/-- What the coordinator sends in return asks the worker for nothing. -/
theorem handlerOf_work (c : Coordinator) (cs : ConnId) (f : Frame) (now : Nat → Timestamp) :
    ((c.handlerOf cs f now).map handlerWork).getD 0 ≤ 5 := by
  unfold Coordinator.handlerOf
  split
  next => exact Nat.le_refl 5
  next =>
    cases made : (c.handleFrame cs f now).2.reply with
    | none => exact Nat.zero_le 5
    | some g =>
      have quiet := answersTo_eq_zero (Coordinator.handleFrame_reply made) (handleFrame_reply_type made)
      simp [handlerWork, frameWork, quiet]

theorem outgoing_work {h : Handler} {f : Frame} (made : h.outgoing = some f) :
    frameWork f < handlerWork h := by
  cases h with
  | replying g =>
    cases made
    exact Nat.lt_add_of_pos_left Nat.one_pos
  | acknowledging ack phase =>
    cases phase with
    | loaded =>
      cases made
      have quiet : answersTo (Coordinator.helloAckFrame ack) = 0 :=
        answersTo_eq_zero (fun type => by cases type) fun type => by cases type
      simp [frameWork, quiet, handlerWork, Service.loadsLeft]
    | locked | epochLoaded | warmthLoaded => cases made

theorem note_callsWork (t : Threads) : callsWork t.note = callsWork t := by
  unfold Threads.note
  split <;> rfl

theorem put_callsWork (t : Threads) (c : ConnId) (f : Frame) (sent : Bool) :
    callsWork (t.put c f sent) = callsWork t := by
  unfold Threads.put
  split <;> rfl

theorem put_handlers (t : Threads) (c : ConnId) (f : Frame) (sent : Bool) :
    (t.put c f sent).handlers = t.handlers := by
  unfold Threads.put
  split <;> rfl

theorem put_wire_of_ne (t : Threads) {c i : ConnId} (f : Frame) (sent : Bool) (hi : i ≠ c) :
    (t.put c f sent).wire i = t.wire i := by
  unfold Threads.put
  split
  · exact update_of_ne hi _ _
  · rfl

section
variable {s t : Network} {c : ConnId}

theorem connWork_congr (wire : t.threads.wire c = s.threads.wire c) (taken : t.taken c = s.taken c)
    (inbox : t.inbox c = s.inbox c) (handlers : t.threads.handlers c = s.threads.handlers c) :
    t.connWork c = s.connWork c := by
  rw [connWork, wire, taken, inbox, handlers, connWork]

/-- The coordinator's threads change a connection through its wire and its handler only. -/
theorem connWork_become (t : Threads) (c : ConnId) :
    (s.become t.note).connWork c =
      (((t.wire c).drop (s.taken c)).map frameWork).sum + 6 * (s.inbox c).length +
        ((t.handlers c).map handlerWork).getD 0 := by
  simp only [connWork, become, Threads.note_wire, Threads.note_handlers]

theorem connWork_become_congr {t : Threads} (wire : t.wire c = s.threads.wire c)
    (handlers : t.handlers c = s.threads.handlers c) :
    (s.become t.note).connWork c = s.connWork c := by
  rw [connWork_become, wire, handlers, connWork]

/-- Progress on one connection. -/
theorem work_lt_of_conn (made : t.made = s.made) (known : c < s.made)
    (others : ∀ i, i ≠ c → t.connWork i = s.connWork i) (fewer : t.connWork c < s.connWork c)
    (calls : callsWork t.threads = callsWork s.threads) : t.work < s.work := by
  rw [work, work, made, calls]
  refine Nat.add_lt_add_right (Finset.sum_lt_sum (fun i _ => ?_) ⟨c, Finset.mem_range.mpr known, fewer⟩) _
  by_cases hi : i = c
  · subst hi
    exact Nat.le_of_lt fewer
  · exact Nat.le_of_eq (others i hi)

/-- Progress of a call, which may put one frame on one connection. -/
theorem work_lt_of_calls (made : t.made = s.made) {k : Nat}
    (others : ∀ i, i ≠ c → t.connWork i = s.connWork i) (here : t.connWork c ≤ s.connWork c + k)
    (calls : callsWork t.threads + k < callsWork s.threads) : t.work < s.work := by
  have conns : (Finset.range s.made).sum t.connWork ≤ (Finset.range s.made).sum s.connWork + k := by
    by_cases known : c ∈ Finset.range s.made
    · have rest : ((Finset.range s.made).erase c).sum t.connWork =
          ((Finset.range s.made).erase c).sum s.connWork :=
        Finset.sum_congr rfl fun i hi => others i (Finset.ne_of_mem_erase hi)
      have before : s.connWork c + ((Finset.range s.made).erase c).sum s.connWork =
          (Finset.range s.made).sum s.connWork := Finset.add_sum_erase _ _ known
      have after : t.connWork c + ((Finset.range s.made).erase c).sum t.connWork =
          (Finset.range s.made).sum t.connWork := Finset.add_sum_erase _ _ known
      rw [rest] at after
      omega
    · have same : (Finset.range s.made).sum t.connWork = (Finset.range s.made).sum s.connWork := by
        refine Finset.sum_congr rfl fun i hi => others i ?_
        rintro rfl
        exact known hi
      omega
  rw [work, work, made]
  omega

theorem sum_eraseIdx {α : Type} (f : α → Nat) {xs : List α} {k : Nat} {x : α} (h : xs[k]? = some x) :
    f x + ((xs.eraseIdx k).map f).sum = (xs.map f).sum := by
  obtain ⟨hk, rfl⟩ := List.getElem?_eq_some_iff.mp h
  have mapped : k < (xs.map f).length := by rwa [List.length_map]
  have all := List.CommMonoid.add_sum_eraseIdx mapped
  rwa [List.getElem_map, List.eraseIdx_map] at all

theorem sum_set {α : Type} (f : α → Nat) {xs : List α} {k : Nat} {x : α} (h : xs[k]? = some x) (y : α) :
    ((xs.set k y).map f).sum + f x = f y + (xs.map f).sum := by
  obtain ⟨hk, -⟩ := List.getElem?_eq_some_iff.mp h
  have perm := (List.set_perm_cons_eraseIdx hk y).map f
  rw [List.map_cons] at perm
  rw [perm.sum_eq, List.sum_cons, ← sum_eraseIdx f h]
  omega

end

section
variable {s : Network} {c : ConnId}

theorem drop_taken {f : Frame} (next : (s.threads.wire c)[s.taken c]? = some f) :
    (s.threads.wire c).drop (s.taken c) = f :: (s.threads.wire c).drop (s.taken c + 1) := by
  obtain ⟨lt, same⟩ := List.getElem?_eq_some_iff.mp next
  rw [← same]
  exact List.drop_eq_getElem_cons lt

theorem read_descends {i : Nat} {hook : Nat → HookOutcome} {now : Nat → Nat → Timestamp} {f : Frame}
    (known : c < s.made) (reader : (s.peers i).conn = some c) (attends : (s.peers i).phase ≠ .idle)
    (next : (s.threads.wire c)[s.taken c]? = some f) : (s.step (.read i hook now)).work < s.work := by
  have stepped : s.step (.read i hook now) = s.receive i c f hook now := by
    simp only [step, reader, next]
  have left := drop_taken next
  rw [stepped]
  cases phase : (s.peers i).phase with
  | idle => exact absurd phase attends
  | awaiting =>
    rw [receive_awaiting c f hook now phase]
    refine work_lt_of_conn (c := c) rfl known (fun i hi => ?_) ?_ rfl
    · exact connWork_congr rfl (update_of_ne hi _ _) rfl rfl
    · simp only [connWork, setPeer, take, update_self, left, List.map_cons, List.sum_cons, frameWork]
      omega
  | running =>
    have few := handleFrame_length (s.peers i).worker f hook now
    rw [receive_running c f hook now phase]
    refine work_lt_of_conn (c := c) rfl known (fun i hi => ?_) ?_ rfl
    · exact connWork_congr rfl (update_of_ne hi _ _) (update_of_ne hi _ _) rfl
    · simp only [connWork, post, setPeer, take, update_self, left, List.map_cons, List.sum_cons,
        frameWork, List.length_append, List.length_map, Peer.handleFrame]
      omega

theorem deliver_descends {now : Nat → Timestamp} {letter : Letter} {rest : List Letter}
    (known : c < s.made) (next : s.inbox c = letter :: rest)
    (ready : s.threads.ready c letter.frame.takesMutex = true) :
    (s.step (.deliver c now)).work < s.work := by
  obtain ⟨-, reading, -⟩ := Threads.ready_iff.mp ready
  have received : s.threads.step (.frame c letter.frame now) =
      (s.threads.receive c letter.frame now).note := by
    simp only [Threads.step, Threads.act, ready, if_true]
  have stepped : s.step (.deliver c now) =
      { s.become (s.threads.receive c letter.frame now).note with inbox := update s.inbox c rest } := by
    simp only [step, next, ready, if_true, received]
  have few := handlerOf_work s.threads.sys.coord c letter.frame now
  rw [stepped]
  refine work_lt_of_conn (c := c) rfl known (fun i hi => ?_) ?_ ?_
  · refine connWork_congr ?_ rfl (update_of_ne hi _ _) ?_
    · simp only [become, Threads.note_wire, Threads.receive]
    · simp only [become, Threads.note_handlers, Threads.receive, update_of_ne hi]
  · simp only [connWork, become, Threads.note_wire, Threads.note_handlers, Threads.receive, update_self,
      next, List.length_cons, reading, Option.map_none, Option.getD_none]
    omega
  · have calls := s.threads.receive_calls c letter.frame now
    refine (note_callsWork _).trans ?_
    simp only [callsWork, calls]
    rfl

theorem load_descends {ack : HelloAck} {phase : LoadPhase} (known : c < s.made)
    (pending : s.threads.handlers c = some (.acknowledging ack phase)) (more : phase ≠ .loaded) :
    (s.step (.coordinator (.load c))).work < s.work := by
  have stepped : s.step (.coordinator (.load c)) = s.become { s.threads with
      handlers := update s.threads.handlers c (some (s.threads.loadNext ack phase)) }.note := by
    simp only [step, Threads.step, Threads.act, pending]
  have loads : handlerWork (s.threads.loadNext ack phase) < handlerWork (.acknowledging ack phase) := by
    cases phase with
    | locked | epochLoaded | warmthLoaded => exact Nat.le_refl _
    | loaded => exact absurd rfl more
  rw [stepped]
  refine work_lt_of_conn (c := c) rfl known (fun i hi => ?_) ?_ (note_callsWork _)
  · exact connWork_become_congr rfl (update_of_ne hi _ _)
  · rw [connWork_become]
    simp only [connWork, update_self, pending, Option.map_some, Option.getD_some]
    omega

/-- A frame that is put on a wire is one more to read there. -/
theorem put_work (t : Threads) (d : ConnId) (f : Frame) (sent : Bool) {taken : Nat}
    (le : taken ≤ (t.wire c).length) :
    ((((t.put d f sent).wire c).drop taken).map frameWork).sum ≤
      (((t.wire c).drop taken).map frameWork).sum + if c = d ∧ sent = true then frameWork f else 0 := by
  unfold Threads.put
  by_cases hc : c = d
  · subst hc
    cases sent with
    | true => simp [List.drop_append_of_le_length le]
    | false => simp
  · cases sent <;> simp [hc]

theorem reply_descends (taken : ∀ c, s.taken c ≤ (s.threads.wire c).length) {sent : Bool} {h : Handler}
    {f : Frame} (known : c < s.made) (pending : s.threads.handlers c = some h)
    (made : h.outgoing = some f) : (s.step (.coordinator (.reply c sent))).work < s.work := by
  have stepped : s.step (.coordinator (.reply c sent)) = s.become
      { s.threads.put c f sent with
        handlers := update s.threads.handlers c none }.note := by
    simp only [step, Threads.step, Threads.act, pending, Option.bind_some, made]
  have cheaper := outgoing_work made
  rw [stepped]
  refine work_lt_of_conn (c := c) rfl known (fun i hi => ?_) ?_ ?_
  · exact connWork_become_congr (put_wire_of_ne _ _ _ hi) (update_of_ne hi _ _)
  · have one := put_work (c := c) s.threads c f sent (taken c)
    have most : (if c = c ∧ sent = true then frameWork f else 0) ≤
        frameWork f := by
      split
      · exact Nat.le_refl _
      · exact Nat.zero_le _
    rw [connWork_become]
    simp only [connWork, update_self, pending, Option.map_some, Option.map_none, Option.getD_some,
      Option.getD_none]
    omega
  · exact (note_callsWork _).trans (put_callsWork s.threads c f sent)

theorem send_descends (taken : ∀ c, s.taken c ≤ (s.threads.wire c).length) {call : Nat} {sent : Bool}
    {topic : WarmTopic} (pending : s.threads.sending call = some (c, topic)) :
    (s.step (.coordinator (.send call sent))).work < s.work := by
  obtain ⟨attempt, reserved, message⟩ := Threads.sending_some pending
  obtain ⟨-, rolling⟩ := Service.put_frame s.threads c (topicFrame topic) sent
  have stepped : s.step (.coordinator (.send call sent)) = s.become
      { s.threads.put c (topicFrame topic) sent with
        sys := s.threads.sys.step (.send call sent)
        topics := if sent then s.threads.topics.eraseIdx call
          else s.threads.topics }.note := by
    simp only [step, Threads.step, Threads.act, pending]
  have one := put_work (c := c) s.threads c (topicFrame topic) sent (taken c)
  have fewerCalls := sum_eraseIdx (fun w : WarmCall => callWork w.phase) reserved
  have fewerTopics := sum_eraseIdx (fun m => frameWork (topicFrame m)) message
  have failed := sum_set (fun w : WarmCall => callWork w.phase) reserved ⟨attempt, c, .sendFailed⟩
  rw [stepped]
  refine work_lt_of_calls (c := c)
    (k := if sent = true then frameWork (topicFrame topic) else 0)
    rfl (fun i hi => ?_) ?_ ?_
  · exact connWork_become_congr (put_wire_of_ne _ _ _ hi) (congrFun (put_handlers _ _ _ _) i)
  · rw [connWork_become]
    simp only [connWork, put_handlers]
    simp only [true_and] at one
    omega
  · refine (congrArg (· + _) (note_callsWork _)).trans_lt ?_
    simp only [callsWork, rolling, System.step, reserved]
    cases sent with
    | true =>
      simp only [callWork, if_true] at fewerCalls ⊢
      omega
    | false =>
      simp only [callWork, Bool.false_eq_true, if_false] at failed ⊢
      omega

theorem cleanup_descends {call : Nat} {w : WarmCall} (pending : s.threads.sys.calls[call]? = some w)
    (failed : w.phase = .sendFailed) (free : s.threads.rolling = none) :
    (s.step (.coordinator (.cleanup call))).work < s.work := by
  obtain ⟨attempt, conn, phase⟩ := w
  cases failed
  have stepped : s.step (.coordinator (.cleanup call)) = s.become
      { s.threads with
        sys := s.threads.sys.step (.cleanup call), topics := s.threads.topics.eraseIdx call }.note := by
    simp only [step, Threads.step, Threads.act, pending, free, Option.isSome_none, Bool.false_eq_true,
      if_false]
  have calls : (s.threads.sys.step (.cleanup call)).calls = s.threads.sys.calls.eraseIdx call := by
    simp only [System.step, pending]
    rfl
  have fewerCalls := sum_eraseIdx (fun w : WarmCall => callWork w.phase) pending
  have fewerTopics : ((s.threads.topics.eraseIdx call).map fun m => frameWork (topicFrame m)).sum ≤
      (s.threads.topics.map fun m => frameWork (topicFrame m)).sum :=
    List.Sublist.sum_le_sum ((List.eraseIdx_sublist _ _).map _) fun _ _ => Nat.zero_le _
  rw [stepped]
  refine work_lt_of_calls (c := 0) (k := 0) rfl (fun i _ => connWork_become_congr rfl rfl)
    (Nat.le_of_eq (connWork_become_congr rfl rfl)) ?_
  refine (note_callsWork _).trans_lt ?_
  simp only [callsWork, calls]
  simp only [callWork] at fewerCalls ⊢
  omega

theorem roll_descends (held : s.threads.rolling ≠ none) :
    (s.step (.coordinator .rollEpoch)).work < s.work := by
  cases rolling : s.threads.rolling with
  | none => exact absurd rolling held
  | some phase =>
    cases phase with
    | epochStored =>
      have stepped : s.step (.coordinator .rollEpoch) =
          s.become { s.threads with rolling := some .warmthStored }.note := by
        simp only [step, Threads.step, Threads.act, rolling]
      rw [stepped]
      refine work_lt_of_calls (c := 0) (k := 0) rfl (fun i _ => connWork_become_congr rfl rfl)
        (Nat.le_of_eq (connWork_become_congr rfl rfl)) ?_
      refine (note_callsWork _).trans_lt ?_
      simp only [callsWork, rolling, rollWork]
      omega
    | warmthStored =>
      have stepped : s.step (.coordinator .rollEpoch) = s.become { s.threads with
          sys := s.threads.sys.step .rollEpoch, rolling := none, rolls := s.threads.rolls + 1 }.note := by
        simp only [step, Threads.step, Threads.act, rolling]
      have calls : (s.threads.sys.step .rollEpoch).calls = s.threads.sys.calls := rfl
      rw [stepped]
      refine work_lt_of_calls (c := 0) (k := 0) rfl (fun i _ => connWork_become_congr rfl rfl)
        (Nat.le_of_eq (connWork_become_congr rfl rfl)) ?_
      refine (note_callsWork _).trans_lt ?_
      simp only [callsWork, calls, rolling, rollWork]
      omega

/-- Everything that goes on by itself brings the end nearer. -/
theorem Drains.descends (taken : ∀ c, s.taken c ≤ (s.threads.wire c).length) {a : NetStep}
    (m : s.Drains a) : (s.step a).work < s.work := by
  cases m with
  | read known reader attends next => exact read_descends known reader attends next
  | deliver known next ready => exact deliver_descends known next ready
  | load known pending more => exact load_descends known pending more
  | reply known pending made => exact reply_descends taken known pending made
  | send pending => exact send_descends taken pending
  | cleanup pending failed free => exact cleanup_descends pending failed free
  | roll held => exact roll_descends held

end

end Network

end Warmth
