import Mathlib.Data.List.Perm.Basic
import Warmth.Attempts
import Warmth.MessageRoundTrip
import Warmth.Threads

namespace Warmth

open Codec Std

namespace Coordinator

theorem eligible_registered {c : Coordinator} {preferred : Option WorkerId} {cs : ConnId}
    (h : c.eligible preferred = some cs) : (c.conns cs).registered = true := by
  unfold eligible at h
  exact (Option.filter_eq_some_iff.mp h).2

/-- The message of an `issue_warm` call is its attempt's command and nothing else. -/
theorem issueWarm_topic {c c' : Coordinator} {object : WarmthObjectId} {action : WarmthAction}
    {preferred : Option WorkerId} {i : Issue}
    (h : c.issueWarm object action preferred = (c', some i)) :
    i.topic.cmds = [{ object, action, attempt := i.attempt.value }] := by
  unfold issueWarm at h
  cases he : c.eligible preferred with
  | none => rw [he] at h; cases h
  | some target =>
    rw [he] at h
    rcases h1 : c.budget.reserve .deviceMemory kDefaultWarmBytes (text "warm") with ⟨id₁, e₁, b⟩
    rcases h2 : b.reserve .concurrentWarmingOps 1 (text "warm") with ⟨id₂, e₂, b'⟩
    simp only [h1, h2] at h
    split at h
    next => cases h
    next =>
      cases h
      rfl

theorem handleFrame_reply {c : Coordinator} {cs : ConnId} {f g : Frame} {now : Nat → Timestamp}
    (h : (c.handleFrame cs f now).2.reply = some g) : g.type ≠ .warmTopic := by
  cases handleFrame_replies h with
  | error | mismatch | ack | pong => exact fun same => by cases same

end Coordinator

namespace Threads

open Function

/-- The message is the command of an attempt that was issued to the connection. -/
def Carries (s : Threads) (c : ConnId) (t : WarmTopic) (a : AttemptId) : Prop :=
  ∃ cmd r, t.cmds = [cmd] ∧ cmd.attempt = a.value ∧ r ∈ s.sys.issues ∧ r.conn = c ∧
    r.attempt = a ∧ r.info.object = cmd.object

/-- What a step other than a frame does to the attempts on their way to the workers. -/
inductive TicketStep (s t : Threads) : Prop
  | quiet (calls : t.sys.calls = s.sys.calls) (topics : t.topics = s.topics)
      (issues : t.sys.issues = s.sys.issues) (inFlight : t.sys.coord.inFlight = s.sys.coord.inFlight)
      (authority : t.sys.coord.authority = s.sys.coord.authority)
      (wire : ∀ c, t.wire c = s.wire c ∨ ∃ f, t.wire c = s.wire c ++ [f] ∧
        ∃ h, s.handlers c = some h ∧ h.outgoing = some f)
  | raise (calls : t.sys.calls = s.sys.calls) (topics : t.topics = s.topics)
      (issues : t.sys.issues = s.sys.issues) (wire : t.wire = s.wire)
      (authority : t.sys.coord.authority ≠ s.sys.coord.authority)
  | issue {r : IssueRecord} {topic : WarmTopic}
      (calls : t.sys.calls = ⟨r.attempt, r.conn, .reserved⟩ :: s.sys.calls)
      (topics : t.topics = topic :: s.topics) (issues : t.sys.issues = r :: s.sys.issues)
      (inFlight : t.sys.coord.inFlight = s.sys.coord.inFlight.insert r.attempt r.info)
      (authority : t.sys.coord.authority = s.sys.coord.authority) (wire : t.wire = s.wire)
      (message : t.Carries r.conn topic r.attempt)
  | sent {call : Nat} {attempt : AttemptId} {conn : ConnId} {topic : WarmTopic}
      (pending : s.sys.calls[call]? = some ⟨attempt, conn, .reserved⟩)
      (message : s.topics[call]? = some topic)
      (calls : t.sys.calls = s.sys.calls.eraseIdx call)
      (topics : t.topics = s.topics.eraseIdx call) (issues : t.sys.issues = s.sys.issues)
      (inFlight : t.sys.coord.inFlight = s.sys.coord.inFlight)
      (authority : t.sys.coord.authority = s.sys.coord.authority)
      (wire : t.wire = update s.wire conn (s.wire conn ++ [topicFrame topic]))
  | unsent {call : Nat} {attempt : AttemptId} {conn : ConnId}
      (pending : s.sys.calls[call]? = some ⟨attempt, conn, .reserved⟩)
      (calls : t.sys.calls = s.sys.calls.set call ⟨attempt, conn, .sendFailed⟩)
      (topics : t.topics = s.topics) (issues : t.sys.issues = s.sys.issues)
      (inFlight : t.sys.coord.inFlight = s.sys.coord.inFlight)
      (authority : t.sys.coord.authority = s.sys.coord.authority) (wire : t.wire = s.wire)
  | cleanup {call : Nat} {w : WarmCall} (pending : s.sys.calls[call]? = some w)
      (calls : t.sys.calls = s.sys.calls.eraseIdx call)
      (topics : t.topics = s.topics.eraseIdx call) (issues : t.sys.issues = s.sys.issues)
      (inFlight : ∀ b : AttemptId, b ≠ w.attempt →
        t.sys.coord.inFlight[b]? = s.sys.coord.inFlight[b]?)
      (authority : t.sys.coord.authority = s.sys.coord.authority) (wire : t.wire = s.wire)

theorem ticketStep_disconnect (s : Threads) (cs : ConnId) (now : WarmthObjectId → Timestamp) :
    s.TicketStep { s with sys := s.sys.step (.disconnect cs now) } := by
  refine .quiet ?_ rfl ?_ ?_ (System.step_authority rfl) fun _ => Or.inl rfl
  all_goals simp only [System.step]; split
  all_goals first | rfl | rw [Coordinator.onDisconnect_frame]

theorem ticketStep_cleanup {s : Threads} {call : Nat} {w : WarmCall}
    (pending : s.sys.calls[call]? = some w) (failed : w.phase = .sendFailed) :
    s.TicketStep
      { s with sys := s.sys.step (.cleanup call), topics := s.topics.eraseIdx call } := by
  obtain ⟨attempt, conn, phase⟩ := w
  cases failed
  have next : s.sys.step (.cleanup call) =
      { s.sys with calls := s.sys.calls.eraseIdx call }.after (s.sys.coord.cleanup attempt) := by
    simp only [System.step, pending]
  refine .cleanup pending (by simp only [next]; rfl) rfl ?_ ?_ (System.step_authority rfl) rfl
  · simp only [next, System.issues_after]
    rfl
  · intro b hb
    simp only [next, System.after, Coordinator.cleanup]
    split
    · rfl
    · exact TreeMaps.getElem?_erase_of_ne hb

theorem authority_ne_of_raises {s : System} {a : Step} (h : a.changesAuthority = true) :
    (s.step a).coord.authority ≠ s.coord.authority := by
  intro same
  simp only [Coordinator.authority, Prod.mk.injEq] at same
  obtain ⟨warmth, dep⟩ := System.step_generations s a
  rw [same.2.1] at warmth
  rw [same.2.2] at dep
  simp only [Step.changesAuthority, Bool.or_eq_true] at h
  obtain h | h := h
  · simp [h] at warmth
  · simp [h] at dep

theorem ticketStep_raise {s t : Threads} {a : Step} (h : a.changesAuthority = true)
    (sys : t.sys = s.sys.step a) (topics : t.topics = s.topics) (wire : t.wire = s.wire) :
    s.TicketStep t := by
  refine .raise ?_ topics ?_ wire (sys ▸ authority_ne_of_raises h)
  · rw [sys]
    cases a with
    | rollEpoch | bumpWarmthGeneration | bumpDependencyGeneration => rfl
    | _ => cases h
  · rw [sys]
    cases a with
    | rollEpoch => exact System.issues_after s.sys _
    | bumpWarmthGeneration | bumpDependencyGeneration => rfl
    | _ => cases h

theorem Acted.ticketStep {s t : Threads} {a : ThreadStep} (acted : s.Acted a t)
    (h : ∀ cs f now, a ≠ .frame cs f now) : s.TicketStep t := by
  cases acted with
  | idle => exact .quiet rfl rfl rfl rfl rfl fun _ => Or.inl rfl
  | receive => exact absurd rfl (h _ _ _)
  | load => exact .quiet rfl rfl rfl rfl rfl fun _ => Or.inl rfl
  | @reply cs sent hd f pending made =>
    cases hs : sent with
    | false => exact .quiet rfl rfl rfl rfl rfl fun _ => Or.inl rfl
    | true =>
      refine .quiet rfl rfl rfl rfl rfl fun c => ?_
      by_cases hc : c = cs
      · subst hc
        exact Or.inr ⟨f, by simp [put], hd, pending, made⟩
      · exact Or.inl (by simp [put, hc])
  | disconnect => exact ticketStep_disconnect s _ _
  | @refuse object action preferred free refused =>
    rcases hi : s.sys.coord.issueWarm object action preferred with ⟨c, i⟩
    rw [hi] at refused
    cases refused
    have next : s.sys.step (.reserve object action preferred) = { s.sys with coord := c } := by
      simp only [System.step, hi]
    rw [next]
    obtain rfl | ⟨e, b, -, rfl⟩ := Coordinator.issueWarm_none hi
    all_goals exact .quiet rfl rfl rfl rfl rfl fun _ => Or.inl rfl
  | @issue object action preferred i free issued =>
    rcases hi : s.sys.coord.issueWarm object action preferred with ⟨c, i'⟩
    rw [hi] at issued
    cases issued
    have next : s.sys.step (.reserve object action preferred) = s.sys.issue c i := by
      simp only [System.step, hi]
    have topic := Coordinator.issueWarm_topic hi
    obtain ⟨-, -, ho, -, b, e₁, b', e₂, -, -, -, rfl⟩ := Coordinator.issueWarm_some hi
    rw [next]
    refine .issue (r := ⟨i.attempt, i.info, i.target, _, _⟩) rfl rfl rfl rfl rfl rfl ?_
    exact ⟨_, _, topic, rfl, List.mem_cons_self, rfl, rfl, ho⟩
  | @send call sent conn topic pending =>
    obtain ⟨attempt, pending, message⟩ := sending_some pending
    have next (b : Bool) : s.sys.step (.send call b) =
        { s.sys with calls := if b then s.sys.calls.eraseIdx call
            else s.sys.calls.set call ⟨attempt, conn, .sendFailed⟩ } := by
      simp only [System.step, pending]
    rw [next]
    cases sent with
    | true => exact .sent pending message rfl rfl rfl rfl rfl rfl
    | false => exact .unsent pending rfl rfl rfl rfl rfl rfl
  | cleanup pending failed => exact ticketStep_cleanup pending failed
  | storeEpoch => exact .quiet rfl rfl rfl rfl rfl fun _ => Or.inl rfl
  | storeWarmth => exact .quiet rfl rfl rfl rfl rfl fun _ => Or.inl rfl
  | rollEpoch => exact ticketStep_raise (a := .rollEpoch) rfl rfl rfl rfl
  | bumpWarmth => exact ticketStep_raise (a := .bumpWarmthGeneration) rfl rfl rfl rfl
  | bumpDependency => exact ticketStep_raise (a := .bumpDependencyGeneration) rfl rfl rfl rfl

theorem TicketStep.note {s t : Threads} (h : s.TicketStep t) : s.TicketStep t.note := by
  unfold Threads.note
  split
  next =>
    cases h with
    | quiet calls topics issues inFlight authority wire =>
      exact .quiet calls topics issues inFlight authority wire
    | raise calls topics issues wire authority => exact .raise calls topics issues wire authority
    | issue calls topics issues inFlight authority wire message =>
      exact .issue calls topics issues inFlight authority wire message
    | sent pending message calls topics issues inFlight authority wire =>
      exact .sent pending message calls topics issues inFlight authority wire
    | unsent pending calls topics issues inFlight authority wire =>
      exact .unsent pending calls topics issues inFlight authority wire
    | cleanup pending calls topics issues inFlight authority wire =>
      exact .cleanup pending calls topics issues inFlight authority wire
  next => exact h

theorem step_ticketStep (s : Threads) {a : ThreadStep} (h : ∀ cs f now, a ≠ .frame cs f now) :
    s.TicketStep (s.step a) := ((acted_act s a).ticketStep h).note

theorem TicketStep.issues_subset {s t : Threads} (h : s.TicketStep t) :
    s.sys.issues ⊆ t.sys.issues := by
  cases h with
  | issue _ _ issues => exact issues ▸ List.subset_cons_self _ _
  | quiet _ _ issues | raise _ _ issues | sent _ _ _ _ issues | unsent _ _ _ issues
  | cleanup _ _ _ issues => exact issues ▸ fun _ h => h

theorem TicketStep.wire_grows {s t : Threads} (h : s.TicketStep t) (c : ConnId) :
    (s.wire c).length ≤ (t.wire c).length := by
  have append (f : Frame) : (s.wire c).length ≤ (s.wire c ++ [f]).length := by
    rw [List.length_append]
    exact Nat.le_add_right _ _
  cases h with
  | quiet _ _ _ _ _ wire =>
    obtain same | ⟨f, same, -⟩ := wire c
    · exact Nat.le_of_eq (congrArg List.length same.symm)
    · exact same ▸ append f
  | @sent call attempt conn topic _ _ _ _ _ _ _ wire =>
    rw [wire]
    by_cases hc : c = conn
    · subst hc
      rw [update_self]
      exact append (topicFrame topic)
    · rw [update_of_ne hc]
  | raise _ _ _ wire | issue _ _ _ _ _ wire | unsent _ _ _ _ _ _ wire | cleanup _ _ _ _ _ _ wire =>
    rw [wire]

theorem Carries.mono {s t : Threads} {c : ConnId} {topic : WarmTopic} {a : AttemptId}
    (h : s.Carries c topic a) (issues : s.sys.issues ⊆ t.sys.issues) : t.Carries c topic a := by
  obtain ⟨cmd, r, one, attempt, known, rest⟩ := h
  exact ⟨cmd, r, one, attempt, issues known, rest⟩

/-- Every command that is kept for a call or is on a wire is one that was issued there. -/
structure Commands (s : Threads) : Prop where
  replies : ∀ c f, s.handlers c = some (.replying f) → f.type ≠ .warmTopic
  calls : ∀ (k : Nat) w, s.sys.calls[k]? = some w →
    ∃ t, s.topics[k]? = some t ∧ s.Carries w.conn t w.attempt
  wire : ∀ c, ∀ f ∈ s.wire c, f.type = .warmTopic → ∃ t a, f = topicFrame t ∧ s.Carries c t a

theorem commands_init : init.Commands :=
  ⟨fun _ _ h => (nomatch h), fun k w h => (nomatch (h : ([] : List WarmCall)[k]? = some w)),
    fun _ _ h => (nomatch h)⟩

theorem Commands.outgoing {s : Threads} (inv : s.Commands) {c : ConnId} {h : Handler} {f : Frame}
    (pending : s.handlers c = some h) (made : h.outgoing = some f) : f.type ≠ .warmTopic := by
  cases h with
  | replying g =>
    cases made
    exact inv.replies c f pending
  | acknowledging ack phase =>
    cases phase with
    | loaded => cases made; nofun
    | _ => cases made

theorem Acted.replies {s t : Threads} {a : ThreadStep} (acted : s.Acted a t)
    (inv : ∀ c f, s.handlers c = some (.replying f) → f.type ≠ .warmTopic) {c : ConnId} {f : Frame}
    (h : t.handlers c = some (.replying f)) : f.type ≠ .warmTopic := by
  cases acted with
  | @receive cs g now =>
    by_cases hc : c = cs
    · subst hc
      simp only [Threads.receive, update_self, Coordinator.handlerOf] at h
      split at h
      · cases h
      · obtain ⟨reply, hr, same⟩ := Option.map_eq_some_iff.mp h
        cases same
        exact Coordinator.handleFrame_reply hr
    · simp only [Threads.receive, update_of_ne hc] at h
      exact inv c f h
  | @load cs ack phase pending =>
    by_cases hc : c = cs
    · subst hc
      simp only [update_self, Option.some.injEq] at h
      cases phase <;> cases h
    · simp only [update_of_ne hc] at h
      exact inv c f h
  | @reply cs =>
    by_cases hc : c = cs
    · subst hc
      simp only [update_self] at h
      cases h
    · simp only [update_of_ne hc] at h
      exact inv c f h
  | send =>
    refine inv c f ?_
    revert h
    unfold put
    split <;> exact id
  | bumpWarmth | bumpDependency =>
    obtain ⟨before, pending, same⟩ := Option.map_eq_some_iff.mp h
    cases before with
    | replying g =>
      cases same
      exact inv c f pending
    | acknowledging ack phase => cases same
  | idle | disconnect | refuse | issue | cleanup | storeEpoch | storeWarmth | rollEpoch =>
    exact inv c f h

/-- Both lists lose the same entry. -/
theorem getElem?_eraseIdx_both {α β : Type} {xs : List α} {ys : List β} {P : α → β → Prop}
    (h : ∀ (k : Nat) x, xs[k]? = some x → ∃ y, ys[k]? = some y ∧ P x y) (n k : Nat) (x : α)
    (hx : (xs.eraseIdx n)[k]? = some x) : ∃ y, (ys.eraseIdx n)[k]? = some y ∧ P x y := by
  rw [List.getElem?_eraseIdx] at hx ⊢
  split at hx
  next lt => rw [if_pos lt]; exact h k x hx
  next ge => rw [if_neg ge]; exact h (k + 1) x hx

theorem Commands.calls_kept {s t : Threads} (inv : s.Commands) (h : s.TicketStep t) (k : Nat)
    (w : WarmCall) (hk : s.sys.calls[k]? = some w) :
    ∃ topic, s.topics[k]? = some topic ∧ t.Carries w.conn topic w.attempt := by
  obtain ⟨topic, message, carries⟩ := inv.calls k w hk
  exact ⟨topic, message, carries.mono h.issues_subset⟩

theorem Commands.calls_next {s t : Threads} (inv : s.Commands) (h : s.TicketStep t) :
    ∀ (k : Nat) w, t.sys.calls[k]? = some w →
      ∃ topic, t.topics[k]? = some topic ∧ t.Carries w.conn topic w.attempt := by
  have calls := inv.calls_kept h
  cases h with
  | quiet calls' topics' | raise calls' topics' =>
    rw [calls', topics']
    exact calls
  | issue calls' topics' _ _ _ _ message =>
    rw [calls', topics']
    rintro (_ | k) w hk
    · cases hk
      exact ⟨_, rfl, message⟩
    · exact calls k w hk
  | sent _ _ calls' topics' | cleanup _ calls' topics' =>
    rw [calls', topics']
    exact getElem?_eraseIdx_both calls _
  | @unsent call attempt conn pending calls' topics' =>
    rw [calls', topics']
    intro k w hk
    rw [List.getElem?_set] at hk
    split at hk
    next same =>
      subst same
      split at hk
      next => cases hk; exact calls call ⟨attempt, conn, .reserved⟩ pending
      next => cases hk
    next => exact calls k w hk

theorem Commands.wire_next {s t : Threads} (inv : s.Commands) (h : s.TicketStep t) :
    ∀ c, ∀ f ∈ t.wire c, f.type = .warmTopic →
      ∃ topic a, f = topicFrame topic ∧ t.Carries c topic a := by
  intro c f hf type
  have wire (old : f ∈ s.wire c) : ∃ topic a, f = topicFrame topic ∧ t.Carries c topic a := by
    obtain ⟨topic, a, same, carries⟩ := inv.wire c f old type
    exact ⟨topic, a, same, carries.mono h.issues_subset⟩
  have calls := inv.calls_kept h
  cases h with
  | quiet _ _ _ _ _ moved =>
    obtain same | ⟨g, same, h, pending, made⟩ := moved c
    · exact wire (same ▸ hf)
    · rw [same] at hf
      rcases List.mem_append.mp hf with hf | hf
      · exact wire hf
      · cases List.mem_singleton.mp hf
        exact absurd type (inv.outgoing pending made)
  | @sent call attempt conn topic pending message _ _ _ _ _ wire' =>
    rw [wire'] at hf
    by_cases hc : c = conn
    · subst hc
      rw [update_self] at hf
      rcases List.mem_append.mp hf with hf | hf
      · exact wire hf
      · cases List.mem_singleton.mp hf
        obtain ⟨topic', message', carries⟩ := calls _ _ pending
        cases message.symm.trans message'
        exact ⟨topic, attempt, rfl, carries⟩
    · rw [update_of_ne hc] at hf
      exact wire hf
  | raise _ _ _ wire' | issue _ _ _ _ _ wire' | unsent _ _ _ _ _ _ wire'
  | cleanup _ _ _ _ _ _ wire' => exact wire (wire' ▸ hf)

theorem Commands.ticketStep {s t : Threads} (inv : s.Commands) (h : s.TicketStep t)
    (replies : ∀ c f, t.handlers c = some (.replying f) → f.type ≠ .warmTopic) : t.Commands :=
  ⟨replies, inv.calls_next h, inv.wire_next h⟩

theorem receive_calls (s : Threads) (cs : ConnId) (f : Frame) (now : Nat → Timestamp) :
    (s.receive cs f now).sys.calls = s.sys.calls := by
  simp only [receive, System.step]
  split <;> rfl

theorem receive_issues (s : Threads) (cs : ConnId) (f : Frame) (now : Nat → Timestamp) :
    (s.receive cs f now).sys.issues = s.sys.issues := by
  simp only [receive, System.step]
  split
  · rfl
  · exact System.issues_after s.sys _

/-- Attempts are issued by `reserve` alone, each under the next number and to a registered
connection. -/
theorem step_issues (s : Threads) (a : ThreadStep) :
    (s.step a).sys.issues = s.sys.issues ∨ ∃ object action preferred r,
      a = .reserve object action preferred ∧ (s.step a).sys.issues = r :: s.sys.issues ∧
      r.attempt = ⟨s.sys.coord.attemptCounter⟩ ∧ (s.sys.coord.conns r.conn).registered = true ∧
      r.info.worker = (s.sys.coord.conns r.conn).id ∧ r.info.reservationId ≠ 0 := by
  rw [step, note_sys]
  have acted := acted_act s a
  generalize s.act a = t at acted
  have other {b : Step} (hb : ∀ o act p, b ≠ .reserve o act p) :
      (s.sys.step b).issues = s.sys.issues := (System.step_inFlight hb).1
  cases acted with
  | receive => exact Or.inl (receive_issues s _ _ _)
  | disconnect | cleanup | rollEpoch | bumpWarmth | bumpDependency =>
    exact Or.inl (other (by intro o act p; nofun))
  | send =>
    refine Or.inl ?_
    exact other (by intro o act p; nofun)
  | reply =>
    refine Or.inl ?_
    unfold put
    split <;> rfl
  | idle | load | storeEpoch | storeWarmth => exact Or.inl rfl
  | @refuse object action preferred free refused =>
    refine Or.inl ?_
    rcases hi : s.sys.coord.issueWarm object action preferred with ⟨c, i⟩
    rw [hi] at refused
    cases refused
    simp only [System.step, hi]
    rfl
  | @issue object action preferred i free issued =>
    rcases hi : s.sys.coord.issueWarm object action preferred with ⟨c, i'⟩
    rw [hi] at issued
    cases issued
    have next : s.sys.step (.reserve object action preferred) = s.sys.issue c i := by
      simp only [System.step, hi]
    obtain ⟨target, number, -, worker, b, e₁, b', e₂, -, reserved, -, -⟩ :=
      Coordinator.issueWarm_some hi
    exact Or.inr ⟨object, action, preferred, _, rfl, congrArg System.issues next, number,
      Coordinator.eligible_registered target, worker, reserved⟩

theorem step_frame (s : Threads) (cs : ConnId) (f : Frame) (now : Nat → Timestamp) :
    (s.step (.frame cs f now)).sys.calls = s.sys.calls ∧
      (s.step (.frame cs f now)).sys.issues = s.sys.issues ∧
      (s.step (.frame cs f now)).wire = s.wire := by
  rw [step, note_sys, note_wire, act]
  split
  · exact ⟨receive_calls s cs f now, receive_issues s cs f now, rfl⟩
  · exact ⟨rfl, rfl, rfl⟩

/-- A frame takes the attempt of its WARM_RESULT out of flight and no other. -/
theorem step_frame_inFlight (s : Threads) (cs : ConnId) (f : Frame) (now : Nat → Timestamp) :
    (s.step (.frame cs f now)).sys.coord.inFlight = s.sys.coord.inFlight ∨
      ∃ res, f.type = .warmResult ∧ decodePayload decodeWarmResult f.payload = some res ∧
        (s.step (.frame cs f now)).sys.coord.inFlight =
          s.sys.coord.inFlight.erase (⟨res.attempt⟩ : AttemptId) := by
  rw [step, note_sys, act]
  split
  next =>
    have stepped := s.sys.stepped_frame cs f now
    simp only [receive]
    generalize s.sys.step (.frame cs f now) = t at stepped
    cases stepped with
    | idle => exact Or.inl rfl
    | hello => exact Or.inl (by rw [Coordinator.acceptHello_frame]; rfl)
    | report => exact Or.inl (by rw [Coordinator.acceptReport_frame])
    | result up type decoded =>
      refine Or.inr ⟨_, type, decoded, ?_⟩
      simp only [System.after, Coordinator.acceptResult, Coordinator.settle]
      rw [Coordinator.applyResult_frame]
  next => exact Or.inl rfl

theorem Commands.receive {s : Threads} (inv : s.Commands) {cs : ConnId} {f : Frame}
    {now : Nat → Timestamp}
    (replies : ∀ c g, (s.receive cs f now).handlers c = some (.replying g) → g.type ≠ .warmTopic) :
    (s.receive cs f now).Commands := by
  have issues : s.sys.issues ⊆ (s.receive cs f now).sys.issues := by
    rw [receive_issues]
    exact fun _ h => h
  refine ⟨replies, fun k w hk => ?_, fun c g hg type => ?_⟩
  · obtain ⟨topic, message, carries⟩ := inv.calls k w (receive_calls s cs f now ▸ hk)
    exact ⟨topic, message, carries.mono issues⟩
  · obtain ⟨topic, a, same, carries⟩ := inv.wire c g hg type
    exact ⟨topic, a, same, carries.mono issues⟩

theorem commands_note {s : Threads} : s.note.Commands ↔ s.Commands := by
  unfold note
  split
  · exact ⟨fun h => ⟨h.1, h.2, h.3⟩, fun h => ⟨h.1, h.2, h.3⟩⟩
  · exact Iff.rfl

theorem Commands.step {s : Threads} (inv : s.Commands) (a : ThreadStep) : (s.step a).Commands := by
  have acted := acted_act s a
  have replies (c f) : (s.act a).handlers c = some (.replying f) → f.type ≠ .warmTopic :=
    acted.replies inv.replies
  rw [Threads.step, commands_note]
  generalize s.act a = t at acted replies
  by_cases framed : ∀ cs f now, a ≠ .frame cs f now
  · exact inv.ticketStep (acted.ticketStep framed) replies
  · cases acted with
    | receive => exact inv.receive replies
    | idle => exact inv
    | _ => exact absurd (by intro cs f now; nofun) framed

end Threads

end Warmth
