import Warmth.MessageRoundTrip
import Warmth.Runs
import Warmth.Threads
import Warmth.Worker

namespace Warmth

open Codec Std

/-- What the coordinator's threads do on one connection. -/
structure Line where
  handler : Option Handler
  wire : List Frame
  lost : List Frame
  hellos : Nat
  mark : Option Nat

/-- A frame that ends a worker's `connect` successfully. -/
def Frame.Welcomes (f : Frame) : Prop :=
  ∃ ack : HelloAck, f = Coordinator.helloAckFrame ack ∧ ack.accepted = true ∧
    ∀ w : Worker, (w.receiveAck (some f)).2 = .connected

theorem welcomes_ack {ack : HelloAck} (accepted : ack.accepted = true) (reason : ack.reason = []) :
    (Coordinator.helloAckFrame ack).Welcomes := by
  refine ⟨ack, rfl, accepted, fun w => ?_⟩
  have decoded := decodePayload_of_reads (reads_helloAck (a := ack) (by simp [reason]))
  simp only [Worker.receiveAck, Coordinator.helloAckFrame, decoded, accepted]
  rfl

theorem not_welcomes_of_type {f : Frame} (h : f.type ≠ .helloAck) : ¬ f.Welcomes := by
  rintro ⟨ack, rfl, -⟩
  exact h rfl

theorem not_welcomes_topic (t : WarmTopic) : ¬ (topicFrame t).Welcomes :=
  not_welcomes_of_type fun same => by cases same

theorem accepted_of_welcomes {ack : HelloAck} (h : (Coordinator.helloAckFrame ack).Welcomes) :
    ack.accepted = true := by
  obtain ⟨ack', same, accepted, -⟩ := h
  have payload : encodeHelloAck ack = encodeHelloAck ack' := congrArg Frame.payload same
  have first := congrArg List.head? payload
  cases refused : ack.accepted with
  | true => rfl
  | false => simp [encodeHelloAck, refused, accepted] at first

/-- Only a HELLO that gets to the locked section is welcomed. -/
theorem not_welcomes_reply {c : Coordinator} {cs : ConnId} {f g : Frame} {now : Nat → Timestamp}
    (stale : f.currentHello = none) (h : (c.handleFrame cs f now).2.reply = some g) :
    ¬ g.Welcomes := by
  cases Coordinator.handleFrame_replies h with
  | error | pong => exact not_welcomes_of_type fun same => by cases same
  | mismatch =>
    intro yes
    cases accepted_of_welcomes yes
  | ack ack current => cases stale.symm.trans current

namespace Line

def put (l : Line) (f : Frame) (sent : Bool) : Line :=
  if sent then { l with wire := l.wire ++ [f] } else { l with lost := l.lost ++ [f] }

/-- The accepted HELLO has not been answered yet. -/
def Pending (l : Line) : Prop :=
  ∃ ack phase, l.handler = some (.acknowledging ack phase) ∧ ack.accepted = true

/-- The answer to an accepted HELLO could not be sent. -/
def Unwelcomed (l : Line) : Prop := ∃ f ∈ l.lost, f.Welcomes

/-- What a step can do on one connection, and the frame that it puts on the wire. -/
inductive Moves (l : Line) : Option Frame → Line → Prop
  | stay : Moves l none l
  | greet {ack : HelloAck} (reading : l.handler = none)
      (reason : ack.accepted = true → ack.reason = []) :
      Moves l none
        { l with
          handler := some (.acknowledging ack .locked)
          hellos := l.hellos + 1
          mark := if ack.accepted then some l.wire.length else l.mark }
  | hear {r : Option Frame} {n : Nat} (reading : l.handler = none) (more : l.hellos ≤ n)
      (plain : ∀ f, r = some f → ¬ f.Welcomes) :
      Moves l none { l with handler := r.map .replying, hellos := n }
  | load {ack ack' : HelloAck} {phase phase' : LoadPhase}
      (pending : l.handler = some (.acknowledging ack phase))
      (accepted : ack'.accepted = ack.accepted) (reason : ack'.reason = ack.reason) :
      Moves l none { l with handler := some (.acknowledging ack' phase') }
  | reply {h : Handler} {f : Frame} {sent : Bool} (pending : l.handler = some h)
      (made : h.outgoing = some f) :
      Moves l (if sent then some f else none) { l.put f sent with handler := none }
  | topic {t : WarmTopic} {sent : Bool} :
      Moves l (if sent then some (topicFrame t) else none) (l.put (topicFrame t) sent)

/-- On a connection with one HELLO the first frame after its registration is the HELLO's
acknowledgement. -/
def AckFirst (l : Line) : Prop :=
  l.hellos ≤ 1 → ∀ n f, l.mark = some n → l.wire[n]? = some f → f.Welcomes

/-- The frame gets ahead of the acknowledgement of the one HELLO: it is a WARM_TOPIC and the
acknowledgement has yet to be sent, or the acknowledgement could not be sent. -/
def Overtakes (l : Line) (f : Frame) : Prop :=
  l.hellos ≤ 1 ∧ (f.type = .warmTopic ∧ l.Pending ∨ l.Unwelcomed)

structure Ordered (l : Line) : Prop where
  unmarked : l.hellos = 0 → l.mark = none ∧ ¬ l.Unwelcomed
  reason : ∀ ack phase, l.handler = some (.acknowledging ack phase) → ack.accepted = true →
    ack.reason = []
  plain : ∀ f, l.handler = some (.replying f) → ¬ f.Welcomes
  waiting : l.hellos ≤ 1 → l.Pending ∨ l.Unwelcomed →
    ∃ n, l.mark = some n ∧ n ≤ l.wire.length ∧ ∀ f ∈ l.wire.drop n, ¬ f.Welcomes
  apart : l.hellos ≤ 1 → l.Pending → ¬ l.Unwelcomed
  settled : l.hellos ≤ 1 → ∀ n, l.mark = some n →
    l.Pending ∨ l.Unwelcomed ∨ n < l.wire.length

section
variable {l l' : Line} {f : Frame} {o : Option Frame}

/-- What a handler sends welcomes the worker just where it answers an accepted HELLO. -/
theorem Ordered.outgoing (inv : l.Ordered) {h : Handler} (pending : l.handler = some h)
    (made : h.outgoing = some f) : f.Welcomes ∧ l.Pending ∨ ¬ f.Welcomes ∧ ¬ l.Pending := by
  cases h with
  | replying g =>
    cases made
    refine Or.inr ⟨inv.plain f pending, ?_⟩
    rintro ⟨ack, phase, before, -⟩
    cases pending.symm.trans before
  | acknowledging ack phase =>
    cases phase with
    | loaded =>
      cases made
      cases accepted : ack.accepted with
      | true =>
        have reason := inv.reason ack .loaded pending accepted
        exact Or.inl ⟨welcomes_ack accepted reason, ack, .loaded, pending, accepted⟩
      | false =>
        refine Or.inr ⟨fun yes => ?_, ?_⟩
        · rw [accepted_of_welcomes yes] at accepted
          cases accepted
        · rintro ⟨ack', phase, before, yes⟩
          cases pending.symm.trans before
          rw [yes] at accepted
          cases accepted
    | locked | epochLoaded | warmthLoaded => cases made

theorem Ordered.put (inv : l.Ordered) (other : ¬ f.Welcomes) (sent : Bool) :
    (l.put f sent).Ordered := by
  cases sent with
  | true =>
    refine ⟨inv.unmarked, inv.reason, inv.plain, fun one unanswered => ?_, inv.apart,
      fun one n marked => ?_⟩
    · obtain ⟨n, marked, le, quiet⟩ := inv.waiting one unanswered
      refine ⟨n, marked, by simp [Line.put]; omega, ?_⟩
      simp only [Line.put, if_true, List.drop_append_of_le_length le, List.mem_append,
        List.mem_singleton]
      rintro g (hg | rfl)
      · exact quiet g hg
      · exact other
    · obtain pending | unwelcomed | lt := inv.settled one n marked
      · exact Or.inl pending
      · exact Or.inr (Or.inl unwelcomed)
      · exact Or.inr (Or.inr (by simpa [Line.put] using Nat.lt_succ_of_lt lt))
  | false =>
    have same : (l.put f false).Unwelcomed ↔ l.Unwelcomed := by
      simp [Line.put, Unwelcomed, or_and_right, exists_or, other]
    refine ⟨fun zero => ?_, inv.reason, inv.plain, fun one unanswered => ?_,
      fun one pending unwelcomed => inv.apart one pending (same.mp unwelcomed), fun one n marked => ?_⟩
    · exact (inv.unmarked zero).imp_right (mt same.mp)
    · exact inv.waiting one (unanswered.imp_right same.mp)
    · exact (inv.settled one n marked).imp_right (Or.imp_left same.mpr)

theorem not_pending_of_idle (idle : l.handler = none) : ¬ l.Pending := by
  rintro ⟨ack, phase, pending, -⟩
  rw [idle] at pending
  cases pending

/-- Without a handler under way only an acknowledgement that could not be sent is missing. -/
theorem Ordered.of_idle (idle : l.handler = none)
    (unmarked : l.hellos = 0 → l.mark = none ∧ ¬ l.Unwelcomed)
    (waiting : l.hellos ≤ 1 → l.Unwelcomed →
      ∃ n, l.mark = some n ∧ n ≤ l.wire.length ∧ ∀ f ∈ l.wire.drop n, ¬ f.Welcomes)
    (settled : l.hellos ≤ 1 → ∀ n, l.mark = some n → l.Unwelcomed ∨ n < l.wire.length) :
    l.Ordered := by
  have quiet := not_pending_of_idle idle
  have nothing {h : Handler} : l.handler ≠ some h := by
    rw [idle]
    exact fun same => by cases same
  refine ⟨unmarked, ?_, ?_, ?_, ?_, ?_⟩
  · exact fun _ _ pending => absurd pending nothing
  · exact fun _ pending => absurd pending nothing
  · exact fun one unanswered => waiting one (unanswered.resolve_left quiet)
  · exact fun _ pending => absurd pending quiet
  · exact fun one n marked => Or.inr (settled one n marked)

/-- A handler that does not answer an accepted HELLO ends. -/
theorem Ordered.rest (inv : l.Ordered) (idle : ¬ l.Pending) :
    Ordered { l with handler := none } := by
  refine .of_idle rfl inv.unmarked (fun one unwelcomed => ?_) fun one n marked => ?_
  · exact inv.waiting one (Or.inr unwelcomed)
  · exact (inv.settled one n marked).resolve_left idle

/-- The acknowledgement is sent, or its sending fails. -/
theorem Ordered.answer (inv : l.Ordered) (pending : l.Pending) (welcomes : f.Welcomes)
    (sent : Bool) : Ordered { l.put f sent with handler := none } := by
  have waiting (one : l.hellos ≤ 1) := inv.waiting one (Or.inl pending)
  cases sent with
  | true =>
    refine .of_idle rfl inv.unmarked (fun one unwelcomed => ?_) fun one n here => ?_
    · exact absurd unwelcomed (inv.apart one pending)
    · obtain ⟨m, there, le, -⟩ := waiting one
      cases there.symm.trans here
      exact Or.inr (by simpa [Line.put] using Nat.lt_succ_of_le le)
  | false =>
    refine .of_idle rfl (fun zero => ?_) (fun one _ => waiting one) fun _ _ _ => ?_
    · obtain ⟨m, there, -⟩ := waiting (Nat.le_trans (Nat.le_of_eq zero) (Nat.zero_le 1))
      cases (inv.unmarked zero).1.symm.trans there
    · exact Or.inl ⟨f, by simp [Line.put], welcomes⟩

theorem Ordered.greet (inv : l.Ordered) {ack : HelloAck}
    (reason : ack.accepted = true → ack.reason = []) :
    Ordered { l with
      handler := some (.acknowledging ack .locked)
      hellos := l.hellos + 1
      mark := if ack.accepted then some l.wire.length else l.mark } := by
  have new (one : l.hellos + 1 ≤ 1) : l.mark = none ∧ ¬ l.Unwelcomed := inv.unmarked (by omega)
  refine ⟨fun zero => absurd zero (Nat.succ_ne_zero _), ?_, ?_, fun one unanswered => ?_, fun one _ => (new one).2,
    fun one n marked => ?_⟩
  · intro a phase pending accepted
    cases pending
    exact reason accepted
  · intro g pending
    cases pending
  · obtain ⟨a, phase, pending, accepted⟩ := unanswered.resolve_right (new one).2
    cases pending
    exact ⟨l.wire.length, by simp [accepted], Nat.le_refl _, by simp⟩
  · cases accepted : ack.accepted with
    | true => exact Or.inl ⟨ack, .locked, rfl, accepted⟩
    | false => simp [accepted, (new one).1] at marked

theorem Ordered.hear (inv : l.Ordered) (reading : l.handler = none) {r : Option Frame} {n : Nat}
    (more : l.hellos ≤ n) (plain : ∀ f, r = some f → ¬ f.Welcomes) :
    Ordered { l with handler := r.map .replying, hellos := n } := by
  have unread {a : HelloAck} {phase : LoadPhase} (q : Prop) :
      r.map Handler.replying = some (.acknowledging a phase) → q := by
    intro pending
    obtain ⟨g, -, hg⟩ := Option.map_eq_some_iff.mp pending
    cases hg
  refine ⟨fun zero => inv.unmarked (Nat.le_zero.mp (zero ▸ more)), fun _ _ pending => unread _ pending,
    ?_, fun one unanswered => ?_, ?_, fun one m marked => ?_⟩
  · intro g pending
    obtain ⟨g', made, same⟩ := Option.map_eq_some_iff.mp pending
    cases same
    exact plain g made
  · refine inv.waiting (Nat.le_trans more one) (Or.inr (unanswered.resolve_left ?_))
    rintro ⟨a, phase, pending, -⟩
    exact unread _ pending
  · rintro - ⟨a, phase, pending, -⟩
    exact unread _ pending
  · obtain ⟨a, phase, pending, -⟩ | settled := inv.settled (Nat.le_trans more one) m marked
    · cases reading.symm.trans pending
    · exact Or.inr settled

theorem Ordered.load (inv : l.Ordered) {ack ack' : HelloAck} {phase phase' : LoadPhase}
    (pending : l.handler = some (.acknowledging ack phase))
    (accepted : ack'.accepted = ack.accepted) (reason : ack'.reason = ack.reason) :
    Ordered { l with handler := some (.acknowledging ack' phase') } := by
  have same : Pending { l with handler := some (.acknowledging ack' phase') } ↔ l.Pending := by
    constructor
    · rintro ⟨a, p, now, yes⟩
      cases now
      exact ⟨ack, phase, pending, accepted ▸ yes⟩
    · rintro ⟨a, p, before, yes⟩
      cases pending.symm.trans before
      exact ⟨ack', phase', rfl, accepted.trans yes⟩
  refine ⟨inv.unmarked, ?_, ?_, fun one unanswered => ?_, fun one now => ?_, fun one n marked => ?_⟩
  · intro a p now yes
    cases now
    rw [reason]
    exact inv.reason ack phase pending (accepted ▸ yes)
  · intro g now
    cases now
  · exact inv.waiting one (unanswered.imp_left same.mp)
  · exact inv.apart one (same.mp now)
  · exact (inv.settled one n marked).imp_left same.mpr

theorem Ordered.moves (inv : l.Ordered) (h : l.Moves o l') : l'.Ordered := by
  cases h with
  | stay => exact inv
  | greet reading reason => exact inv.greet reason
  | hear reading more plain => exact inv.hear reading more plain
  | load pending accepted reason => exact inv.load pending accepted reason
  | @reply h f sent pending made =>
    obtain ⟨welcomes, waiting⟩ | ⟨other, idle⟩ := inv.outgoing pending made
    · exact inv.answer waiting welcomes sent
    · exact (inv.put other sent).rest (by cases sent <;> exact idle)
  | topic => exact inv.put (not_welcomes_topic _) _

theorem getElem?_concat_cases {α : Type} {xs : List α} {x y : α} {n : Nat}
    (h : (xs ++ [x])[n]? = some y) : xs[n]? = some y ∨ n = xs.length ∧ y = x := by
  rcases Nat.lt_or_ge n xs.length with lt | ge
  · rw [List.getElem?_append_left lt] at h
    exact Or.inl h
  · rw [List.getElem?_append_right ge] at h
    obtain ⟨hn, hy⟩ := List.getElem?_eq_some_iff.mp h
    simp only [List.length_singleton] at hn
    exact Or.inr ⟨by omega, by simpa [show n - xs.length = 0 by omega] using hy.symm⟩

theorem AckFirst.put (first : l.AckFirst) {sent : Bool}
    (next : sent = true → l.hellos ≤ 1 → l.mark = some l.wire.length → f.Welcomes) :
    (l.put f sent).AckFirst := by
  cases sent with
  | false => exact first
  | true =>
    intro one n g marked at_n
    obtain before | ⟨rfl, rfl⟩ := getElem?_concat_cases at_n
    · exact first one n g marked before
    · exact next rfl one marked

/-- Where nothing has followed the registration, the acknowledgement is yet to come. -/
theorem Ordered.unanswered (inv : l.Ordered) (one : l.hellos ≤ 1)
    (marked : l.mark = some l.wire.length) : l.Pending ∨ l.Unwelcomed := by
  obtain pending | unwelcomed | lt := inv.settled one _ marked
  · exact Or.inl pending
  · exact Or.inr unwelcomed
  · exact absurd lt (Nat.lt_irrefl _)

/-- Only a frame that overtakes the acknowledgement can come before it. -/
theorem AckFirst.moves (first : l.AckFirst) (inv : l.Ordered) (h : l.Moves o l')
    (quiet : ∀ f, o = some f → ¬ l.Overtakes f) : l'.AckFirst := by
  cases h with
  | stay => exact first
  | @greet ack reading reason =>
    intro one n f marked at_n
    have none := (inv.unmarked (Nat.le_zero.mp (Nat.le_of_succ_le_succ one))).1
    cases accepted : ack.accepted with
    | true =>
      simp only [accepted, if_true, Option.some.injEq] at marked
      subst marked
      simp at at_n
    | false => simp [accepted, none] at marked
  | hear reading more => exact fun one => first (Nat.le_trans more one)
  | load pending accepted reason => exact first
  | @reply h f sent pending made =>
    refine AckFirst.put (f := f) first fun yes one marked => ?_
    obtain waiting | unwelcomed := inv.unanswered one marked
    · obtain ⟨welcomes, -⟩ | ⟨-, idle⟩ := inv.outgoing pending made
      · exact welcomes
      · exact absurd waiting idle
    · exact absurd ⟨one, Or.inr unwelcomed⟩ (quiet f (if_pos yes))
  | @topic t sent =>
    refine first.put fun yes one marked => ?_
    have overtakes := (inv.unanswered one marked).imp_left fun waiting =>
      And.intro (rfl : (topicFrame t).type = .warmTopic) waiting
    exact absurd ⟨one, overtakes⟩ (quiet _ (if_pos yes))

/-- A frame that is put on the wire is a WARM_TOPIC or what the handler sends. -/
theorem Moves.puts (h : l.Moves (some f) l') :
    (l'.wire = l.wire ++ [f] ∧ l'.mark = l.mark ∧ l'.hellos = l.hellos) ∧
      ((∃ t, f = topicFrame t) ∨ ∃ g, l.handler = some g ∧ g.outgoing = some f) := by
  generalize put : some f = o at h
  cases h with
  | stay | greet | hear | load => cases put
  | @reply g _ sent pending made =>
    cases sent with
    | false => cases put
    | true =>
      cases put
      exact ⟨⟨rfl, rfl, rfl⟩, Or.inr ⟨g, pending, made⟩⟩
  | @topic t sent =>
    cases sent with
    | false => cases put
    | true =>
      cases put
      exact ⟨⟨rfl, rfl, rfl⟩, Or.inl ⟨t, rfl⟩⟩

theorem AckFirst.overtaken (first : l.AckFirst) (inv : l.Ordered) (h : l.Moves (some f) l')
    (overtakes : l.Overtakes f) : ¬ l'.AckFirst := by
  intro after
  obtain ⟨one, unanswered⟩ := overtakes
  obtain ⟨n, marked, le, quiet⟩ := inv.waiting one (unanswered.imp_left And.right)
  have last : n = l.wire.length := by
    by_contra before
    have lt : n < l.wire.length := by omega
    have at_n : l.wire[n]? = some l.wire[n] := List.getElem?_eq_getElem lt
    refine quiet _ ?_ (first one n _ marked at_n)
    rw [List.drop_eq_getElem_cons lt]
    exact List.mem_cons_self
  obtain ⟨⟨wire, mark, hellos⟩, source⟩ := h.puts
  have welcomes : f.Welcomes := by
    refine after (hellos ▸ one) n f (mark.trans marked) ?_
    rw [wire, last]
    simp
  obtain ⟨t, rfl⟩ | ⟨g, pending, made⟩ := source
  · exact not_welcomes_topic t welcomes
  · obtain ⟨-, waiting⟩ | ⟨other, -⟩ := inv.outgoing pending made
    · obtain ⟨topic, -⟩ | unwelcomed := unanswered
      · exact not_welcomes_of_type (by rw [topic]; exact fun same => by cases same) welcomes
      · exact inv.apart one waiting unwelcomed
    · exact other welcomes

end

end Line

namespace Threads

open Function

def line (s : Threads) (c : ConnId) : Line :=
  ⟨s.handlers c, s.wire c, s.lost c, s.hellos c, s.mark c⟩

/-- The frame that the step puts on the wire of the connection. -/
def puts (s : Threads) (c : ConnId) : ThreadStep → Option Frame
  | .reply cs sent => if sent && cs == c then (s.handlers c).bind Handler.outgoing else none
  | .send call sent =>
    match s.sending call with
    | some (conn, topic) => if sent && conn == c then some (topicFrame topic) else none
    | none => none
  | _ => none

/-- On every connection with one HELLO the acknowledgement comes first. -/
def AckFirst (s : Threads) : Prop := ∀ c, (s.line c).AckFirst

/-- An `issue_warm` call sends between the registration of its target and the acknowledgement, or
something is sent on a connection whose acknowledgement could not be sent. -/
def Overtakes (s : Threads) (a : ThreadStep) : Prop :=
  ∃ c f, s.puts c a = some f ∧ (s.line c).Overtakes f

theorem line_put_self (s : Threads) (c : ConnId) (f : Frame) (sent : Bool) :
    (s.put c f sent).line c = (s.line c).put f sent := by
  cases sent <;> simp [put, line, Line.put]

theorem line_put_of_ne {s : Threads} {c i : ConnId} (hne : i ≠ c) (f : Frame) (sent : Bool) :
    (s.put c f sent).line i = s.line i := by
  cases sent <;> simp [put, line, hne]

theorem line_receive_of_ne {s : Threads} {c i : ConnId} (hne : i ≠ c) (f : Frame)
    (now : Nat → Timestamp) : (s.receive c f now).line i = s.line i := by
  simp only [line, receive, update_of_ne hne, Line.mk.injEq, true_and]
  constructor <;> split <;> simp [hne]

theorem currentHello_type {f : Frame} {h : Hello} (hf : f.currentHello = some h) :
    f.type = .hello := by
  unfold Frame.currentHello at hf
  split at hf
  · assumption
  · cases hf

theorem moves_receive {s : Threads} {c : ConnId} {f : Frame} (reading : s.handlers c = none)
    (now : Nat → Timestamp) : (s.line c).Moves none ((s.receive c f now).line c) := by
  cases hf : f.currentHello with
  | some h =>
    have next : (s.receive c f now).line c =
        { s.line c with
          handler := some (.acknowledging (s.sys.coord.handleHello c h).2 .locked)
          hellos := (s.line c).hellos + 1
          mark := if (s.sys.coord.handleHello c h).2.accepted then some (s.line c).wire.length
            else (s.line c).mark } := by
      have accepted : (s.sys.coord.handleHello c h).2.accepted = !s.sys.coord.bootClash h := by
        unfold Coordinator.handleHello
        split <;> simp_all
      simp only [line, receive, Coordinator.handlerOf, hf, currentHello_type hf, accepted,
        Option.any_some, update_self, if_true]
      cases s.sys.coord.bootClash h <;> simp
    rw [next]
    refine .greet reading fun yes => ?_
    unfold Coordinator.handleHello at yes ⊢
    split at yes
    · cases yes
    next noClash => rw [if_neg noClash]
  | none =>
    have next : (s.receive c f now).line c =
        { s.line c with
          handler := (s.sys.coord.handleFrame c f now).2.reply.map .replying
          hellos := if f.type = .hello then s.hellos c + 1 else s.hellos c } := by
      simp only [line, receive, Coordinator.handlerOf, hf, Option.any_none, update_self]
      split <;> simp
    rw [next]
    refine .hear reading ?_ fun g reply => not_welcomes_reply hf reply
    split
    · exact Nat.le_succ _
    · exact Nat.le_refl _

theorem moves_mapBetween (s : Threads) (g : Between → Between) (c : ConnId) :
    (s.line c).Moves none ((s.mapBetween g).line c) := by
  have next : (s.mapBetween g).line c =
      { s.line c with handler := (s.handlers c).map (Handler.mapBetween g) } := rfl
  rw [next]
  cases pending : s.handlers c with
  | none =>
    have same : { s.line c with handler := none } = s.line c := by simp [line, pending]
    rw [Option.map_none, same]
    exact .stay
  | some h =>
    cases h with
    | acknowledging ack phase => exact .load pending rfl rfl
    | replying f =>
      have same : { s.line c with handler := some (.replying f) } = s.line c := by
        simp [line, pending]
      rw [Option.map_some, Handler.mapBetween, same]
      exact .stay

theorem loadNext_ack (s : Threads) (ack : HelloAck) (phase : LoadPhase) :
    ∃ ack' phase', s.loadNext ack phase = .acknowledging ack' phase' ∧
      ack'.accepted = ack.accepted ∧ ack'.reason = ack.reason := by
  cases phase <;> exact ⟨_, _, rfl, rfl, rfl⟩

/-- A step that neither replies nor sends moves every connection's line and puts no frame on it. -/
theorem moves_acted {s t : Threads} {a : ThreadStep} (acted : s.Acted a t)
    (noReply : ∀ cs b, a ≠ .reply cs b) (noSend : ∀ k b, a ≠ .send k b) (c : ConnId) :
    (s.line c).Moves none (t.line c) := by
  cases acted with
  | @receive cs f now up reading free =>
    by_cases hc : c = cs
    · subst hc
      exact moves_receive reading now
    · rw [line_receive_of_ne hc]
      exact .stay
  | @load cs ack phase pending =>
    by_cases hc : c = cs
    · subst hc
      obtain ⟨ack', phase', loaded, accepted, reason⟩ := s.loadNext_ack ack phase
      have next : (s.line c).Moves none
          { s.line c with handler := some (.acknowledging ack' phase') } :=
        .load pending accepted reason
      simpa [line, loaded] using next
    · have same : Threads.line
          { s with handlers := update s.handlers cs (some (s.loadNext ack phase)) } c = s.line c := by
        simp [line, hc]
      rw [same]
      exact .stay
  | reply => exact absurd rfl (noReply _ _)
  | send => exact absurd rfl (noSend _ _)
  | bumpWarmth => exact moves_mapBetween _ _ c
  | bumpDependency => exact moves_mapBetween _ _ c
  | idle | disconnect | refuse | issue | cleanup | storeEpoch | storeWarmth | rollEpoch => exact .stay

theorem moves_reply (s : Threads) (cs : ConnId) (sent : Bool) (c : ConnId) :
    (s.line c).Moves (s.puts c (.reply cs sent)) ((s.act (.reply cs sent)).line c) := by
  by_cases hc : c = cs
  · subst hc
    simp only [puts, act, beq_self_eq_true, Bool.and_true]
    cases made : (s.handlers c).bind Handler.outgoing with
    | none =>
      rw [ite_self]
      exact .stay
    | some f =>
      obtain ⟨h, pending, made⟩ := Option.bind_eq_some_iff.mp made
      have next : (s.line c).Moves (if sent then some f else none)
          { (s.line c).put f sent with handler := none } := .reply pending made
      rw [← line_put_self] at next
      simpa [line] using next
  · have other : (cs == c) = false := beq_false_of_ne (Ne.symm hc)
    simp only [puts, act, other, Bool.and_false, Bool.false_eq_true, if_false]
    cases (s.handlers cs).bind Handler.outgoing with
    | none => exact .stay
    | some f =>
      have same : Threads.line { s.put cs f sent with handlers := update s.handlers cs none } c =
          s.line c := by
        rw [← line_put_of_ne hc f sent]
        cases sent <;> simp [line, put, hc]
      rw [same]
      exact .stay

theorem moves_send (s : Threads) (call : Nat) (sent : Bool) (c : ConnId) :
    (s.line c).Moves (s.puts c (.send call sent)) ((s.act (.send call sent)).line c) := by
  simp only [puts, act]
  cases s.sending call with
  | none => exact .stay
  | some p =>
    obtain ⟨conn, topic⟩ := p
    by_cases hc : c = conn
    · subst hc
      have next : (s.line c).Moves (if sent then some (topicFrame topic) else none)
          ((s.line c).put (topicFrame topic) sent) := .topic
      rw [← line_put_self] at next
      simpa [line] using next
    · have same := line_put_of_ne hc (topicFrame topic) sent (s := s)
      have other : (conn == c) = false := beq_false_of_ne (Ne.symm hc)
      simp only [other, Bool.and_false, Bool.false_eq_true, if_false]
      rw [← same]
      exact .stay

theorem line_note (s : Threads) (c : ConnId) : s.note.line c = s.line c := by
  unfold note
  split <;> rfl

theorem moves_step (s : Threads) (a : ThreadStep) (c : ConnId) :
    (s.line c).Moves (s.puts c a) ((s.step a).line c) := by
  rw [step, line_note]
  cases a with
  | reply cs sent => exact moves_reply s cs sent c
  | send call sent => exact moves_send s call sent c
  | _ => exact moves_acted (acted_act s _) (by intro k b h; cases h) (by intro k b h; cases h) c

def Ordered (s : Threads) : Prop := ∀ c, (s.line c).Ordered

theorem Ordered.step {s : Threads} (inv : s.Ordered) (a : ThreadStep) : (s.step a).Ordered :=
  fun c => (inv c).moves (moves_step s a c)

theorem AckFirst.step {s : Threads} {a : ThreadStep} (first : s.AckFirst) (inv : s.Ordered)
    (h : ¬ s.Overtakes a) : (s.step a).AckFirst := by
  intro c
  refine (first c).moves (inv c) (moves_step s a c) fun f puts overtakes => ?_
  exact h ⟨c, f, puts, overtakes⟩

theorem ordered_init : init.Ordered := by
  intro c
  have nothing : ¬ (init.line c).Unwelcomed := by
    rintro ⟨f, lost, -⟩
    cases lost
  refine .of_idle rfl (fun _ => ⟨rfl, nothing⟩) (fun _ unwelcomed => absurd unwelcomed nothing) ?_
  intro one n marked
  cases marked

theorem ackFirst_init : init.AckFirst := by
  intro c one n f marked
  cases marked

/-- The acknowledgement comes first, after every step, in exactly the runs in which nothing
overtakes it. -/
theorem ack_comes_first (steps : List ThreadStep) :
    Runs.Along step (fun s a => (s.step a).AckFirst) init steps ↔
      Runs.Along step (fun s a => ¬ s.Overtakes a) init steps := by
  constructor
  · refine Runs.along_of_invariant (I := fun s => s.Ordered ∧ s.AckFirst)
      (fun s a inv after => ⟨inv.1.step a, after⟩) (fun s a inv after => ?_)
      ⟨ordered_init, ackFirst_init⟩
    rintro ⟨c, f, puts, overtakes⟩
    have moves := moves_step s a c
    rw [puts] at moves
    exact (inv.2 c).overtaken (inv.1 c) moves overtakes (after c)
  · exact Runs.along_of_invariant (I := fun s => s.Ordered ∧ s.AckFirst)
      (fun s a inv h => ⟨inv.1.step a, inv.2.step inv.1 h⟩) (fun s a inv h => inv.2.step inv.1 h)
      ⟨ordered_init, ackFirst_init⟩

/-- A command is issued and sent while the handler has yet to load the authority. -/
def issuedBeforeAck : List ThreadStep := [
  .frame 0 (helloFrame { worker := ⟨0, 1⟩, boot := ⟨0, 1⟩ }) fun _ => 0,
  .reserve ⟨0, 9⟩ .loadModel none, .send 0 true, .load 0, .load 0, .load 0, .reply 0 true]

theorem issuedBeforeAck_overtaken : ¬ ∀ s, Runs.Reachable step init s → s.AckFirst := by
  intro h
  have first := h _ (Runs.reachable_run issuedBeforeAck) 0
  have wire : ((Runs.run step init issuedBeforeAck).wire 0).map Frame.type =
      [.warmTopic, .helloAck] := by decide +kernel
  have marked : (Runs.run step init issuedBeforeAck).mark 0 = some 0 := by decide +kernel
  have one : (Runs.run step init issuedBeforeAck).hellos 0 = 1 := by decide +kernel
  generalize Runs.run step init issuedBeforeAck = t at first wire marked one
  have sent : t.wire 0 ≠ [] := by
    intro none
    rw [none] at wire
    cases wire
  obtain ⟨f, rest, sent⟩ := List.exists_cons_of_ne_nil sent
  obtain ⟨ack, rfl, -⟩ := first (Nat.le_of_eq one) 0 f marked (by simp [line, sent])
  rw [sent] at wire
  cases wire

end Threads

end Warmth
