import Warmth.Sending

namespace Warmth

open Codec

/-! The reader at the other end. -/

namespace Wire

open Function

theorem torn_step {s : Wire} (a : WireStep) (torn : s.Torn) : (s.step a).Torn := by
  have went := s.went_step a
  generalize s.step a = s' at went
  obtain ⟨e, he, part⟩ := torn
  cases went with
  | refuse | finish => exact ⟨e, List.mem_append_left _ he, part⟩
  | idle | call | lock | take | close | read | failed => exact ⟨e, he, part⟩

/-- A frame that has been delivered stays so, and behind a torn frame no more are delivered. -/
theorem Sound.delivered_step {s : Wire} (sound : s.Sound) (a : WireStep) :
    s.delivered <+: (s.step a).delivered ∧ (s.Torn → (s.step a).delivered = s.delivered) := by
  rcases (sound.step a).2 with same | ⟨e, part, more⟩ | ⟨e, e', part, before, after⟩
  · rw [delivered, delivered, same]
    exact ⟨List.prefix_rfl, fun _ => rfl⟩
  · rw [delivered, delivered, more, whole_concat_part _ part]
    exact ⟨List.prefix_rfl, fun _ => rfl⟩
  · rw [delivered, delivered, before, after, whole_concat_part _ part]
    exact ⟨whole_grows _ _, fun torn => whole_append_torn _ torn⟩

/-- While no frame has been left torn, what follows the delivered frames is less than a frame. -/
theorem Sound.sent_split {s : Wire} (sound : s.Sound) (intact : ¬s.Torn) :
    ∃ g tail, g.payload.length ≤ kMaxPayload ∧ tail <+: frameBytes g ∧ tail ≠ frameBytes g ∧
      s.sent = s.delivered.flatMap frameBytes ++ tail := by
  have split := sound.stream.trans (written_split sound.entries)
  have clean : ∀ e ∈ s.returned, (!e.torn) = true := by
    intro e he
    rw [Sending.untorn intact e he]
    rfl
  have last : s.entered.dropWhile (fun e => !e.torn) = s.current.dropWhile fun e => !e.torn := by
    rw [entered, List.dropWhile_append_of_pos clean]
  rw [last] at split
  have short : s.current.dropWhile (fun e => !e.torn) = [] ∨
      ∃ e ∈ s.entered, e.torn = true ∧ s.current.dropWhile (fun e => !e.torn) = [e] := by
    have one : s.current = [] ∨ ∃ e, s.current = [e] := by
      unfold current
      split
      next => exact .inl rfl
      next =>
        split
        next => exact .inr ⟨_, rfl⟩
        next => exact .inl rfl
    rcases one with nobody | ⟨e, writer⟩
    · exact .inl (by rw [nobody]; rfl)
    · cases ht : e.torn with
      | true => exact .inr ⟨e, by simp [entered, writer], ht, by simp [writer, ht]⟩
      | false => exact .inl (by simp [writer, ht])
  rcases short with none_ | ⟨e, he, torn, one⟩
  · rw [none_] at split
    exact ⟨{}, [], Nat.zero_le _, List.nil_prefix, (frameBytes_ne_nil {}).symm, split⟩
  · rw [one, List.flatMap_cons, List.flatMap_nil, List.append_nil] at split
    simp only [Sending.torn, Bool.and_eq_true, Bool.not_eq_true', List.isEmpty_eq_false_iff] at torn
    have entry := sound.entries e he
    exact ⟨e.frame, e.written, entry.size torn.2, entry.written_front, entry.written_cut torn.1,
      split⟩

/-- What has been read are the first of the delivered frames; only behind a torn frame is anything
else read. -/
def Reads (s : Wire) : Prop :=
  s.got <+: s.delivered ∧ s.consumed = (s.got.flatMap frameBytes).length ∨
    s.Torn ∧ s.delivered <+: s.got

theorem Sound.read {s : Wire} (sound : s.Sound) (reads : s.Reads) {c c' : TcpConnection} {f : Frame}
    (arrived : c.pending <+: s.sent.drop s.consumed) (one : FrameReader.read c = (some f, c')) :
    Reads { s with
      got := s.got ++ [f], consumed := s.consumed + (c.pending.length - c'.pending.length) } := by
  rcases reads with ⟨⟨more, first⟩, consumed⟩ | ⟨torn, past⟩
  · obtain ⟨size, taken, -⟩ := read_some one
    have sent : s.sent.drop s.consumed = more.flatMap frameBytes ++
        (s.entered.dropWhile fun e => !e.torn).flatMap Sending.written := by
      rw [sound.stream, written_split sound.entries]
      change ((s.delivered).flatMap frameBytes ++ _).drop s.consumed = _
      rw [← first, List.flatMap_append, List.append_assoc, consumed, List.drop_left]
    cases more with
    | cons g more =>
      -- the next of the delivered frames has arrived
      have known : g ∈ s.delivered := by rw [← first]; simp
      have fits := size_of_whole sound.entries g known
      obtain ⟨rest, arrived⟩ := arrived
      rw [sent, taken, List.flatMap_cons, List.append_assoc, List.append_assoc] at arrived
      obtain ⟨rfl, -⟩ := frameBytes_append_inj size fits arrived
      have count : c.pending.length - c'.pending.length = (frameBytes f).length := by
        rw [taken, List.length_append, Nat.add_sub_cancel]
      refine .inl ⟨⟨more, ?_⟩, ?_⟩
      · rw [List.append_assoc]
        exact first
      · simp only [count, consumed, List.flatMap_append, List.length_append, List.flatMap_cons,
          List.flatMap_nil, List.append_nil]
    | nil =>
      rw [List.append_nil] at first
      by_cases torn : s.Torn
      · exact .inr ⟨torn, by rw [first]; exact List.prefix_append _ _⟩
      · obtain ⟨g, tail, fits, shorter, cut, split⟩ := sound.sent_split torn
        rw [split, ← first, consumed, List.drop_left] at arrived
        have part : c.pending ≠ frameBytes g := by
          intro all
          rw [all] at arrived
          exact cut (List.IsPrefix.eq_of_length_le shorter arrived.length_le)
        have fails := read_cut fits (arrived.trans shorter) part
        rw [one] at fails
        cases fails
  · exact .inr ⟨torn, past.trans (List.prefix_append _ _)⟩

theorem Sound.reads_step {s : Wire} (sound : s.Sound) (reads : s.Reads) (a : WireStep) :
    (s.step a).Reads := by
  have kept := sound.delivered_step a
  have torn := torn_step (s := s) a
  have went := s.went_step a
  generalize s.step a = s' at went kept torn
  have unread (got : s'.got = s.got) (consumed : s'.consumed = s.consumed) : s'.Reads := by
    unfold Reads
    rw [got, consumed]
    rcases reads with ⟨first, count⟩ | ⟨h, past⟩
    · exact .inl ⟨first.trans kept.1, count⟩
    · exact .inr ⟨torn h, by rw [kept.2 h]; exact past⟩
  cases went with
  | idle | call | lock | take | refuse | finish | close | failed => exact unread rfl rfl
  | read arrived one => exact sound.read reads arrived one

/-! Each thread's calls. -/

/-- The thread's calls so far are those that have returned and the one it is in. -/
def InOrder (calls : List (Nat × Frame)) (s : Wire) : Prop :=
  ∀ t, (calls.filter fun call => call.1 == t).map Prod.snd =
    ((s.returned.filter fun e => e.thread == t).map Sending.frame) ++
      ((s.calls t).map SendCall.frame).toList

theorem InOrder.moved {calls : List (Nat × Frame)} {s : Wire} (h : InOrder calls s) {t : Nat}
    {old : SendCall} (before : s.calls t = some old) {new : SendCall} {s' : Wire}
    (after : s'.calls = update s.calls t (some new)) (same : new.frame = old.frame)
    (returned : s'.returned = s.returned) : InOrder calls s' := by
  intro u
  rw [h u, after, returned]
  by_cases hu : u = t
  · subst hu
    rw [update_self, before, Option.map_some, Option.map_some, same]
  · rw [update_of_ne hu]

theorem InOrder.leave {calls : List (Nat × Frame)} {s : Wire} (h : InOrder calls s) {t : Nat}
    {e : Sending} {call : SendCall} (here : s.calls t = some call) (thread : e.thread = t)
    (frame : e.frame = call.frame) : InOrder calls (s.leave t e) := by
  intro u
  rw [h u]
  simp only [Wire.leave, List.filter_append, List.map_append]
  by_cases hu : u = t
  · subst hu
    rw [here]
    simp [thread, frame]
  · have other : (e.thread == u) = false := by
      rw [thread]
      exact beq_eq_false_iff_ne.mpr fun same => hu same.symm
    simp [other, update_of_ne hu]

theorem InOrder.step {calls : List (Nat × Frame)} {s : Wire} (h : InOrder calls s) (a : WireStep) :
    InOrder (calls ++ s.made a) (s.step a) := by
  have went := s.went_step a
  generalize s.step a = s' at went
  have quiet (silent : s.made a = []) (next : InOrder calls s') : InOrder (calls ++ s.made a) s' := by
    rw [silent, List.append_nil]
    exact next
  cases went with
  | idle silent => exact quiet silent h
  | @call t f free =>
    have one : s.made (.call t f) = [(t, f)] := by simp [made, free]
    rw [one]
    intro u
    rw [List.filter_append, List.map_append, h u]
    by_cases hu : u = t
    · subst hu
      simp [free, SendCall.frame]
    · have other : (t == u) = false := beq_eq_false_iff_ne.mpr fun same => hu same.symm
      simp [other, update_of_ne hu]
  | lock waiting => exact quiet rfl (h.moved waiting rfl rfl rfl)
  | take writing => exact quiet rfl (h.moved writing rfl rfl rfl)
  | refuse writing | finish writing => exact quiet rfl (h.leave writing rfl rfl)
  | close | read | failed => exact quiet rfl h

/-! `FrameWriter::write` is such a sequence of steps. -/

/-- Pieces one after the other, up to the first that is not written. -/
def writePieces : List Bytes → TcpConnection → Bool × TcpConnection
  | [], conn => (true, conn)
  | piece :: rest, conn =>
    match conn.writeAll piece with
    | (false, conn) => (false, conn)
    | (true, conn) => writePieces rest conn

theorem writePieces_singleton (piece : Bytes) (conn : TcpConnection) :
    writePieces [piece] conn = conn.writeAll piece := by
  rw [writePieces]
  rcases conn.writeAll piece with ⟨_ | _, conn'⟩ <;> rfl

theorem write_eq (f : Frame) (conn : TcpConnection) :
    FrameWriter.write f conn =
      if kMaxPayload < f.payload.length then (false, conn) else writePieces (framePieces f) conn := by
  unfold FrameWriter.write framePieces
  by_cases size : kMaxPayload < f.payload.length
  · simp only [if_pos size]
  · simp only [if_neg size, writePieces]
    rcases conn.writeAll (frameHeader f.type f.flags f.payload.length) with ⟨_ | _, c₁⟩
    · rfl
    · cases f.payload with
      | nil => exact (writePieces_singleton _ c₁).symm
      | cons b bs =>
        simp only [List.isEmpty_cons, Bool.false_eq_true, if_false, List.cons_append,
          List.nil_append, writePieces]
        rcases c₁.writeAll (b :: bs) with ⟨_ | _, c₂⟩
        · rfl
        · exact (writePieces_singleton _ c₂).symm

/-- The connection with `more` sent by the thread that holds the mutex. -/
def handOver (s : Wire) (t : Nat) (f : Frame) (more : Bytes) (left : List Bytes) : Wire :=
  { s with sent := s.sent ++ more, calls := update s.calls t (some (.writing f left)) }

section
variable {t : Nat} {f : Frame}

theorem handOver_nil {s : Wire} {left : List Bytes} (here : s.calls t = some (.writing f left)) :
    s.handOver t f [] left = s := by
  have same : update s.calls t (some (.writing f left)) = s.calls := by
    rw [← here, update_eq_self]
  rw [handOver, same, List.append_nil]

theorem handOver_handOver (s : Wire) (more more' : Bytes) (left left' : List Bytes) :
    (s.handOver t f more left).handOver t f more' left' = s.handOver t f (more ++ more') left' := by
  simp [handOver]

theorem handOver_calls (s : Wire) (more : Bytes) (left : List Bytes) :
    (s.handOver t f more left).calls t = some (.writing f left) := update_self _ _ _

theorem step_take {s : Wire} {piece : Bytes} {rest : List Bytes} {n : Nat} (valid : s.valid = true)
    (size : f.payload.length ≤ kMaxPayload) (here : s.calls t = some (.writing f (piece :: rest)))
    (more : n < piece.length) :
    s.step (.take t n) = s.handOver t f (piece.take (n + 1)) (sendRest piece rest n) := by
  have enabled : (s.valid && decide (f.payload.length ≤ kMaxPayload) &&
      decide (n < piece.length)) = true := by simp [valid, size, more]
  simp only [step, here]
  exact if_pos enabled

/-- What the loop of `write_all` has yet to send, in front of the pieces behind it. -/
def loopLeft (data : Bytes) (sent : Nat) (rest : List Bytes) : List Bytes :=
  if sent < data.length then data.drop sent :: rest else rest

theorem writeLoop_run (size : f.payload.length ≤ kMaxPayload) {data : Bytes} {sent : Nat}
    {rest : List Bytes} {c c' : TcpConnection} {b : Bool} (le : sent ≤ data.length)
    (loop : TcpConnection.writeLoop data sent c = (b, c')) {s : Wire} (valid : s.valid = true)
    (here : s.calls t = some (.writing f (loopLeft data sent rest))) :
    ∃ (steps : List WireStep) (more : Bytes) (left : List Bytes),
      Runs.run step s steps = s.handOver t f more left ∧ c'.sent = c.sent ++ more ∧
        c'.valid = c.valid ∧ (b = true → left = rest) ∧ (b = false → left ≠ []) := by
  induction hk : data.length - sent using Nat.strong_induction_on generalizing sent c s with
  | _ k ih =>
    rw [TcpConnection.writeLoop] at loop
    by_cases hs : sent < data.length
    · rw [loopLeft, if_pos hs] at here
      rw [if_pos hs] at loop
      have length : (data.drop sent).length = data.length - sent := List.length_drop
      cases hm : min (c.takes 0) (data.drop sent).length with
      | zero =>
        simp only [TcpConnection.send, hm] at loop
        cases loop
        refine ⟨[], [], data.drop sent :: rest, (handOver_nil here).symm, by simp, rfl, ?_, ?_⟩
        · intro success
          cases success
        · intro _ nil
          cases nil
      | succ m =>
        have bound : m + 1 ≤ data.length - sent := by
          rw [← length, ← hm]
          exact Nat.min_le_right _ _
        simp only [TcpConnection.send, hm] at loop
        have shorter : m < (data.drop sent).length := by omega
        have taken := step_take valid size here shorter
        have left : sendRest (data.drop sent) rest m = loopLeft data (sent + (m + 1)) rest := by
          by_cases all : sent + (m + 1) < data.length
          · rw [sendRest, loopLeft, if_pos all, if_neg (by omega), List.drop_drop]
          · rw [sendRest, loopLeft, if_neg all, if_pos (by omega)]
        rw [left] at taken
        obtain ⟨steps, more, pieces, run, sent', valid', success, failure⟩ :=
          ih (data.length - (sent + (m + 1))) (by omega) (by omega) loop
            (s := s.handOver t f ((data.drop sent).take (m + 1)) (loopLeft data (sent + (m + 1)) rest))
            valid (handOver_calls _ _ _) rfl
        refine ⟨.take t m :: steps, (data.drop sent).take (m + 1) ++ more, pieces, ?_, ?_, valid',
          success, failure⟩
        · rw [Runs.run_cons, taken, run, handOver_handOver]
        · rw [sent', List.append_assoc]
    · rw [loopLeft, if_neg hs] at here
      rw [if_neg hs] at loop
      cases loop
      refine ⟨[], [], rest, (handOver_nil here).symm, by simp, rfl, fun _ => rfl, ?_⟩
      intro failure
      cases failure

theorem writePieces_run (size : f.payload.length ≤ kMaxPayload) {pieces : List Bytes}
    (full : ∀ p ∈ pieces, p ≠ []) {c c' : TcpConnection} {b : Bool}
    (written : writePieces pieces c = (b, c')) {s : Wire} (valid : s.valid = c.valid)
    (here : s.calls t = some (.writing f pieces)) :
    ∃ (steps : List WireStep) (more : Bytes) (left : List Bytes),
      Runs.run step s steps = s.handOver t f more left ∧ c'.sent = c.sent ++ more ∧
        (b = true → left = []) ∧ (b = false → left ≠ []) := by
  induction pieces generalizing c s with
  | nil =>
    cases written
    refine ⟨[], [], [], (handOver_nil here).symm, by simp, fun _ => rfl, ?_⟩
    intro failure
    cases failure
  | cons piece rest ih =>
    rw [List.forall_mem_cons] at full
    rw [writePieces, TcpConnection.writeAll] at written
    cases open_ : c.valid with
    | false =>
      rw [open_] at written
      cases written
      refine ⟨[], [], piece :: rest, (handOver_nil here).symm, by simp, ?_, fun _ => List.cons_ne_nil _ _⟩
      intro success
      cases success
    | true =>
      rw [open_] at written valid
      have nonempty : 0 < piece.length := List.length_pos_iff.mpr full.1
      have start : loopLeft piece 0 rest = piece :: rest := by
        rw [loopLeft, if_pos nonempty, List.drop_zero]
      rw [← start] at here
      cases loop : TcpConnection.writeLoop piece 0 c with
      | mk done c₁ =>
        simp only [Bool.not_true, Bool.false_eq_true, if_false, loop] at written
        obtain ⟨steps, more, left, run, sent, kept, success, failure⟩ :=
          writeLoop_run size (Nat.zero_le _) loop valid here
        cases done with
        | false =>
          cases written
          refine ⟨steps, more, left, run, sent, ?_, failure⟩
          intro done
          cases done
        | true =>
          rw [success rfl] at run
          obtain ⟨steps', more', left', run', sent', success', failure'⟩ :=
            ih full.2 written (s := s.handOver t f more rest) (by rw [kept, open_]; exact valid)
              (handOver_calls _ _ _)
          refine ⟨steps ++ steps', more ++ more', left', ?_, ?_, success', failure'⟩
          · rw [Runs.run_append, run, run', handOver_handOver]
          · rw [sent', sent, List.append_assoc]

/-- Whatever `FrameWriter::write` does on a connection, the call that holds the mutex can do step by
step, and nothing else is touched. -/
theorem write_run {c c' : TcpConnection} {b : Bool} (written : FrameWriter.write f c = (b, c'))
    {s : Wire} (valid : s.valid = c.valid) (here : s.calls t = some (.writing f (framePieces f))) :
    ∃ (steps : List WireStep) (more : Bytes) (left : List Bytes),
      Runs.run step s steps = { s with sent := s.sent ++ more }.leave t ⟨t, f, b, left⟩ ∧
        c'.sent = c.sent ++ more := by
  have leave (more : Bytes) (left : List Bytes) :
      (s.handOver t f more left).leave t ⟨t, f, b, left⟩ =
        { s with sent := s.sent ++ more }.leave t ⟨t, f, b, left⟩ := by
    simp [handOver, Wire.leave]
  rw [write_eq] at written
  split at written
  next =>
    cases written
    refine ⟨[.refuse t], [], framePieces f, ?_, by simp⟩
    have stays : { s with sent := s.sent ++ [] } = s := by simp
    rw [stays]
    simp only [Runs.run_cons, Runs.run_nil, step, here, framePieces]
  next size =>
    obtain ⟨steps, more, left, run, sent, success, failure⟩ :=
      writePieces_run (by omega) (fun p hp => framePieces_ne_nil hp) written valid here
    cases b with
    | false =>
      cases left with
      | nil => exact absurd rfl (failure rfl)
      | cons piece rest =>
        refine ⟨steps ++ [.refuse t], more, piece :: rest, ?_, sent⟩
        rw [Runs.run_concat, run, ← leave]
        simp only [step, handOver_calls]
    | true =>
      rw [success rfl] at run
      refine ⟨steps ++ [.finish t], more, [], ?_, sent⟩
      rw [Runs.run_concat, run, ← leave]
      simp only [step, handOver_calls]

end

theorem sound_run (steps : List WireStep) : Sound (Runs.run step init steps) :=
  Runs.invariant (P := fun _ _ => True) (fun _ a sound _ => (sound.step a).1) sound_init
    (Runs.along_true steps)

theorem reads_run (steps : List WireStep) : Reads (Runs.run step init steps) := by
  have start : Sound init ∧ Reads init := ⟨sound_init, .inl ⟨List.prefix_rfl, rfl⟩⟩
  refine (Runs.invariant (I := fun s : Wire => s.Sound ∧ s.Reads) (P := fun _ _ => True) ?_ start
    (Runs.along_true steps)).2
  intro s a h _
  exact ⟨(h.1.step a).1, h.1.reads_step h.2 a⟩

theorem inOrder_run (steps : List WireStep) :
    InOrder (Runs.emitted step made init steps) (Runs.run step init steps) := by
  refine Runs.emitted_invariant (I := InOrder) (P := fun _ _ => True) (fun _ _ a h _ => h.step a) ?_
    (Runs.along_true steps)
  intro t
  rfl

/-- While no frame has been left torn, every frame whose sending returned true is delivered. -/
theorem delivered_of_intact {s : Wire} (intact : ¬s.Torn) (sound : s.Sound) :
    (s.returned.filter fun e => e.result).map Sending.frame <+: s.delivered := by
  have all : s.returned.takeWhile (fun e => !e.torn) = s.returned := by
    refine List.takeWhile_eq_self_iff.mpr fun e he => ?_
    rw [Sending.untorn intact e he]
    rfl
  have results : s.returned.filter (fun e => e.result) =
      s.returned.filter fun e => e.left.isEmpty := by
    refine List.filter_congr fun e he => ?_
    exact (sound.entries e (List.mem_append_left _ he)).result
  have returned : whole s.returned =
      (s.returned.filter fun e => e.result).map Sending.frame := by
    rw [whole, all, results]
  rw [← returned]
  exact whole_grows _ _

/-- What has arrived and is yet to be read are the delivered frames that have not been read, in
their order. -/
theorem delivers_rest {s : Wire} (sound : s.Sound) (intact : ¬s.Torn) (reads : s.Reads)
    {c : TcpConnection} (valid : c.valid = true) (all : c.pending = s.sent.drop s.consumed) :
    FrameReader.Delivers c (s.delivered.drop s.got.length) := by
  obtain ⟨g, tail, fits, shorter, cut, split⟩ := sound.sent_split intact
  rcases reads with ⟨⟨more, first⟩, consumed⟩ | ⟨torn, -⟩
  · have rest : s.delivered.drop s.got.length = more := by rw [← first, List.drop_left]
    have sizes : ∀ f ∈ more, f.payload.length ≤ kMaxPayload := by
      intro f hf
      refine size_of_whole sound.entries f ?_
      change f ∈ s.delivered
      rw [← first]
      exact List.mem_append_right _ hf
    have pending : c.pending = more.flatMap frameBytes ++ tail := by
      rw [all, split, ← first, List.flatMap_append, List.append_assoc, consumed, List.drop_left]
    rw [rest]
    exact delivers_frames sizes valid fits shorter cut pending
  · exact absurd torn intact

/-- However many threads send on a connection, and however the sends, the reader's reads and a close
fall between each other: each thread's calls return in the order they are made; as long as no write
has stopped within a frame, the reader has read the first of the frames sent, every frame whose
sending returned true is one of them, and with all the bytes there it reads the others; and behind
a torn frame it has read at least all the frames before it, or nothing but some of them. -/
theorem reader_gets_frames_sent (steps : List WireStep) :
    let s := Runs.run step init steps
    InOrder (Runs.emitted step made init steps) s ∧
      (¬s.Torn → s.got <+: s.delivered ∧
        (s.returned.filter fun e => e.result).map Sending.frame <+: s.delivered ∧
        ∀ c : TcpConnection, c.valid = true → c.pending = s.sent.drop s.consumed →
          FrameReader.Delivers c (s.delivered.drop s.got.length)) ∧
      (s.Torn → s.got <+: s.delivered ∨ s.delivered <+: s.got) := by
  intro s
  have sound : s.Sound := sound_run steps
  have reads : s.Reads := reads_run steps
  refine ⟨inOrder_run steps, fun intact => ⟨?_, delivered_of_intact intact sound, ?_⟩, fun _ => ?_⟩
  · rcases reads with ⟨first, -⟩ | ⟨torn, -⟩
    · exact first
    · exact absurd torn intact
  · intro c valid all
    exact delivers_rest sound intact reads valid all
  · exact reads.imp And.left And.right

end Wire

end Warmth
