import Warmth.Deliveries
import Warmth.Runs
import Warmth.Tickets

namespace Warmth

open Codec Std TreeMaps

/-- The attempts whose commands the frame carries. -/
def Frame.attempts (f : Frame) : List AttemptId :=
  match f.type with
  | .warmTopic =>
    ((decodePayload decodeWarmTopic f.payload).elim [] WarmTopic.cmds).map fun cmd => ⟨cmd.attempt⟩
  | _ => []

/-- The attempts whose results the letter brings. -/
def Letter.attempts (l : Letter) : List AttemptId :=
  (l.warmed?.map fun d => ⟨d.result.attempt⟩).toList

def callAttempts (calls : List WarmCall) (c : ConnId) : List AttemptId :=
  (calls.filter fun w => w.conn == c).map WarmCall.attempt

theorem Frame.attempts_of_type {f : Frame} (h : f.type ≠ .warmTopic) : f.attempts = [] := by
  unfold Frame.attempts
  split
  · contradiction
  · rfl

theorem topicFrame_attempts {t : WarmTopic} {cmd : WarmCmd} (one : t.cmds = [cmd]) :
    (topicFrame t).attempts = [⟨cmd.attempt⟩] := by
  have decoded := decodePayload_of_reads (reads_warmTopic (t := t) (by simp [one]))
  simp [Frame.attempts, topicFrame, decoded, one]

theorem callAttempts_cons (w : WarmCall) (calls : List WarmCall) (c : ConnId) :
    callAttempts (w :: calls) c =
      (if w.conn = c then [w.attempt] else []) ++ callAttempts calls c := by
  by_cases hc : w.conn = c <;> simp [callAttempts, hc]

theorem callAttempts_perm {calls : List WarmCall} {k : Nat} {w : WarmCall}
    (h : calls[k]? = some w) (c : ConnId) :
    (callAttempts calls c).Perm
      ((if w.conn = c then [w.attempt] else []) ++ callAttempts (calls.eraseIdx k) c) := by
  obtain ⟨hk, same⟩ := List.getElem?_eq_some_iff.mp h
  have perm := (List.getElem_cons_eraseIdx_perm hk).symm
  rw [same] at perm
  rw [← callAttempts_cons]
  exact (perm.filter _).map _

theorem callAttempts_set {calls : List WarmCall} {k : Nat} {a : AttemptId} {c' : ConnId}
    {p p' : CallPhase} (h : calls[k]? = some ⟨a, c', p⟩) (c : ConnId) :
    (callAttempts (calls.set k ⟨a, c', p'⟩) c).Perm (callAttempts calls c) := by
  obtain ⟨hk, same⟩ := List.getElem?_eq_some_iff.mp h
  refine List.Perm.trans ?_ (callAttempts_perm h c).symm
  have perm := (List.set_perm_cons_eraseIdx hk ⟨a, c', p'⟩).filter fun w => w.conn == c
  refine (perm.map WarmCall.attempt).trans (List.Perm.of_eq ?_)
  exact callAttempts_cons ⟨a, c', p'⟩ (calls.eraseIdx k) c

namespace Network

open Function

/-- The attempts on their way to the worker of the connection and back. -/
def lane (s : Network) (c : ConnId) : List AttemptId :=
  callAttempts s.threads.sys.calls c ++
    (((s.threads.wire c).drop (s.taken c)).flatMap Frame.attempts ++
      (s.inbox c).flatMap Letter.attempts)

/-- The call picks an attempt id that has been issued before. -/
def Reissues (s : Network) (a : NetStep) : Prop :=
  ∃ object action preferred, a = .coordinator (.reserve object action preferred) ∧
    ∃ r ∈ s.threads.sys.issues, r.attempt = ⟨s.threads.sys.coord.attemptCounter⟩

structure Lanes (s : Network) : Prop where
  commands : s.threads.Commands
  taken : ∀ c, s.taken c ≤ (s.threads.wire c).length
  once : ∀ c, (s.lane c).Nodup
  answers : ∀ c d, .answer (.warmed d) ∈ s.inbox c → ∃ r ∈ s.threads.sys.issues, r.conn = c ∧
    r.attempt = ⟨d.result.attempt⟩ ∧ r.info.object = d.result.object
  distinct : (s.threads.sys.issues.map IssueRecord.attempt).Nodup
  current : s.current ⊆ s.threads.sys.issues
  inFlight : ∀ r ∈ s.current, r.attempt ∈ s.lane r.conn →
    s.threads.sys.coord.inFlight[r.attempt]? = some r.info

theorem Lanes.known {s : Network} (inv : s.Lanes) {c : ConnId} {a : AttemptId}
    (h : a ∈ s.lane c) : ∃ r ∈ s.threads.sys.issues, r.conn = c ∧ r.attempt = a := by
  simp only [lane, List.mem_append, List.mem_flatMap] at h
  obtain h | ⟨f, hf, ha⟩ | ⟨letter, hl, ha⟩ := h
  · obtain ⟨w, hw, rfl⟩ := List.mem_map.mp h
    obtain ⟨mem, conn⟩ := List.mem_filter.mp hw
    obtain ⟨k, hk⟩ := List.mem_iff_getElem?.mp mem
    obtain ⟨t, -, cmd, r, -, -, issued, own, attempt, -⟩ := inv.commands.calls k w hk
    exact ⟨r, issued, own.trans (beq_iff_eq.mp conn), attempt⟩
  · have type : f.type = .warmTopic := by
      by_contra other
      rw [Frame.attempts_of_type other] at ha
      cases ha
    obtain ⟨t, b, rfl, cmd, r, one, attempt, issued, own, same, -⟩ :=
      inv.commands.wire c f (List.mem_of_mem_drop hf) type
    rw [topicFrame_attempts one, List.mem_singleton] at ha
    exact ⟨r, issued, own, by rw [same, ha, attempt]⟩
  · obtain ⟨d, hd, rfl⟩ : ∃ d, letter.warmed? = some d ∧ a = ⟨d.result.attempt⟩ := by
      simp only [Letter.attempts, Option.mem_toList, Option.map_eq_some_iff] at ha
      obtain ⟨d, hd, rfl⟩ := ha
      exact ⟨d, hd, rfl⟩
    obtain ⟨r, issued, own, attempt, -⟩ := inv.answers c d (Letter.eq_of_warmed hd ▸ hl)
    exact ⟨r, issued, own, attempt⟩

/-- An attempt is on the way of the connection it was issued to and on no other. -/
theorem Lanes.conn_eq {s : Network} (inv : s.Lanes) {r : IssueRecord} {c : ConnId}
    (issued : r ∈ s.threads.sys.issues) (h : r.attempt ∈ s.lane c) : r.conn = c := by
  obtain ⟨r', issued', own, same⟩ := inv.known h
  rw [List.inj_on_of_nodup_map inv.distinct issued issued' same.symm]
  exact own

/-- The lanes after a step that issues nothing. -/
theorem Lanes.move {s t : Network} (inv : s.Lanes) (commands : t.threads.Commands)
    (taken : ∀ c, t.taken c ≤ (t.threads.wire c).length)
    (lanes : ∀ c, (t.lane c).Subperm (s.lane c))
    (answers : ∀ c d, .answer (.warmed d) ∈ t.inbox c → ∃ r ∈ s.threads.sys.issues, r.conn = c ∧
      r.attempt = ⟨d.result.attempt⟩ ∧ r.info.object = d.result.object)
    (issues : t.threads.sys.issues = s.threads.sys.issues) (current : t.current ⊆ s.current)
    (inFlight : ∀ r ∈ t.current, r.attempt ∈ t.lane r.conn →
      t.threads.sys.coord.inFlight[r.attempt]? = s.threads.sys.coord.inFlight[r.attempt]?) :
    t.Lanes := by
  refine ⟨commands, taken, fun c => ?_, ?_, ?_, ?_, fun r hr hl => ?_⟩
  · obtain ⟨l, perm, sub⟩ := lanes c
    exact perm.nodup_iff.mp ((inv.once c).sublist sub)
  · rw [issues]
    exact answers
  · rw [issues]
    exact inv.distinct
  · rw [issues]
    exact fun r hr => inv.current (current hr)
  · rw [inFlight r hr hl]
    exact inv.inFlight r (current hr) ((lanes r.conn).subset hl)

theorem lane_congr {s t : Network} {c : ConnId}
    (calls : callAttempts t.threads.sys.calls c = callAttempts s.threads.sys.calls c)
    (wire : t.threads.wire c = s.threads.wire c) (taken : t.taken c = s.taken c)
    (inbox : t.inbox c = s.inbox c) : t.lane c = s.lane c := by
  rw [lane, calls, wire, taken, inbox, lane]

theorem lane_post_self (s : Network) (c : ConnId) (letters : List Letter) :
    (s.post c letters).lane c = s.lane c ++ letters.flatMap Letter.attempts := by
  simp [lane, post]

theorem lane_post_of_ne (s : Network) {c c' : ConnId} (hc : c' ≠ c) (letters : List Letter) :
    (s.post c letters).lane c' = s.lane c' :=
  lane_congr rfl rfl rfl (by simp [post, hc])

theorem lane_post_quiet (s : Network) (c c' : ConnId) {letters : List Letter}
    (quiet : letters.flatMap Letter.attempts = []) : (s.post c letters).lane c' = s.lane c' := by
  by_cases hc : c' = c
  · subst hc
    rw [lane_post_self, quiet, List.append_nil]
  · exact lane_post_of_ne s hc letters

/-- What is taken off the wire is taken off the lane. -/
theorem lane_take {s : Network} {c : ConnId} {f : Frame}
    (next : (s.threads.wire c)[s.taken c]? = some f) :
    (s.lane c).Perm ((s.take c).lane c ++ f.attempts) := by
  obtain ⟨lt, same⟩ := List.getElem?_eq_some_iff.mp next
  simp only [lane, take, update_self, List.drop_eq_getElem_cons lt, same, List.flatMap_cons,
    List.append_assoc]
  refine List.Perm.append_left _ ?_
  exact List.perm_append_comm.trans (List.Perm.of_eq (List.append_assoc _ _ _))

theorem lane_take_of_ne {s : Network} {c c' : ConnId} (hc : c' ≠ c) :
    (s.take c).lane c' = s.lane c' :=
  lane_congr rfl rfl (by simp [take, hc]) rfl

theorem warmed_attempts (ds : List Warmed) :
    ((ds.map Worker.Answer.warmed).map Letter.answer).flatMap Letter.attempts =
      ds.map fun d => ⟨d.result.attempt⟩ := by
  induction ds with
  | nil => rfl
  | cons d ds ih =>
    rw [List.map_cons, List.map_cons, List.flatMap_cons, ih]
    rfl

/-- A worker answers the attempts of the frame it reads, each once. -/
theorem handleFrame_attempts (w : Worker) (f : Frame) (hook : Nat → HookOutcome)
    (now : Nat → Nat → Timestamp) :
    ((w.handleFrame f hook now).2.map Letter.answer).flatMap Letter.attempts = f.attempts := by
  unfold Worker.handleFrame
  split
  next type =>
    unfold Frame.attempts
    rw [type]
    split
    next undecoded => rw [undecoded]; rfl
    next topic decoded =>
      have results := congrArg (List.map fun r : WarmResult => (⟨r.attempt⟩ : AttemptId))
        (Worker.warmAll_results w hook now 0 topic.cmds)
      rw [List.map_map, List.map_map] at results
      rw [decoded, warmed_attempts]
      have cmds := congrArg (List.map fun cmd : WarmCmd => (⟨cmd.attempt⟩ : AttemptId))
        (List.zipIdx_map_fst 0 topic.cmds)
      rw [List.map_map] at cmds
      exact results.trans cmds
  next type => rw [Frame.attempts_of_type (by rw [type]; nofun)]; rfl
  next type => rw [Frame.attempts_of_type (by rw [type]; nofun)]; rfl
  next other _ _ => rw [Frame.attempts_of_type other]; rfl

section
variable {s : Network}

theorem Lanes.post (inv : s.Lanes) {c : ConnId} {letters : List Letter}
    (quiet : letters.flatMap Letter.attempts = []) : (s.post c letters).Lanes := by
  refine inv.move inv.commands inv.taken
    (fun c' => (List.Perm.of_eq (lane_post_quiet s c c' quiet)).subperm) (fun c' d mem => ?_) rfl
    (fun _ h => h) fun _ _ _ => rfl
  by_cases hc : c' = c
  · subst hc
    simp only [Network.post, update_self, List.mem_append] at mem
    obtain mem | mem := mem
    · exact inv.answers c' d mem
    · have none := List.flatMap_eq_nil_iff.mp quiet _ mem
      cases none
  · simp only [Network.post, update_of_ne hc] at mem
    exact inv.answers c' d mem

theorem Lanes.setPeer (inv : s.Lanes) (i : Nat) (p : Peer) : (s.setPeer i p).Lanes :=
  ⟨inv.commands, inv.taken, inv.once, inv.answers, inv.distinct, inv.current, inv.inFlight⟩

theorem Lanes.openFresh (inv : s.Lanes) (i : Nat) : (s.openFresh i).Lanes :=
  ⟨inv.commands, inv.taken, inv.once, inv.answers, inv.distinct, inv.current, inv.inFlight⟩

theorem Lanes.connect (inv : s.Lanes) (i : Nat) : (s.connect i).Lanes := by
  simp only [Network.connect]
  split
  · exact ((inv.openFresh i).setPeer i _).post rfl
  · exact (inv.openFresh i).setPeer i _

theorem taken_take {c : ConnId} {f : Frame} (next : (s.threads.wire c)[s.taken c]? = some f)
    (inv : ∀ c, s.taken c ≤ (s.threads.wire c).length) (c' : ConnId) :
    (s.take c).taken c' ≤ (s.threads.wire c').length := by
  by_cases hc : c' = c
  · subst hc
    simp only [Network.take, update_self]
    exact (List.getElem?_eq_some_iff.mp next).1
  · simp only [Network.take, update_of_ne hc]
    exact inv c'

theorem Lanes.take (inv : s.Lanes) {c : ConnId} {f : Frame}
    (next : (s.threads.wire c)[s.taken c]? = some f) : (s.take c).Lanes := by
  refine inv.move inv.commands (taken_take next inv.taken) (fun c' => ?_) inv.answers rfl
    (fun _ h => h) fun _ _ _ => rfl
  by_cases hc : c' = c
  · subst hc
    exact (List.sublist_append_left _ _).subperm.trans (lane_take next).symm.subperm
  · exact (List.Perm.of_eq (lane_take_of_ne hc)).subperm

/-- A frame's attempts leave the wire and come back as the results for it. -/
theorem Lanes.answer (inv : s.Lanes) {i : Nat} {c : ConnId} {f : Frame}
    (next : (s.threads.wire c)[s.taken c]? = some f) (hook : Nat → HookOutcome)
    (now : Nat → Nat → Timestamp) :
    ((s.take c).post c
      (((s.peers i).worker.handleFrame f hook now).2.map .answer)).Lanes := by
  refine inv.move inv.commands (taken_take next inv.taken) (fun c' => ?_) (fun c' d mem => ?_) rfl
    (fun _ h => h) fun _ _ _ => rfl
  · by_cases hc : c' = c
    · subst hc
      rw [lane_post_self, handleFrame_attempts]
      exact (lane_take next).symm.subperm
    · rw [lane_post_of_ne _ hc, lane_take_of_ne hc]
  · by_cases hc : c' = c
    · subst hc
      simp only [Network.post, Network.take, update_self, List.mem_append] at mem
      obtain mem | mem := mem
      · exact inv.answers c' d mem
      · obtain ⟨a, ha, hd⟩ := List.mem_map.mp mem
        cases hd
        obtain ⟨type, topic, decoded, cmd, hc, r, result⟩ := Worker.handleFrame_speaks ha
        obtain ⟨t, b, rfl, cmd', ir, one, attempt, issued, own, same, object⟩ :=
          inv.commands.wire c' f (List.mem_of_getElem? next) type
        have round := decodePayload_of_reads (reads_warmTopic (t := t) (by simp [one]))
        cases round.symm.trans decoded
        rw [one, List.mem_singleton] at hc
        subst hc
        exact ⟨ir, issued, own, by rw [same, result]; cases b; exact congrArg _ attempt.symm,
          by rw [object, result]; rfl⟩
    · simp only [Network.post, Network.take, update_of_ne hc] at mem
      exact inv.answers c' d mem

theorem become_current {t : Threads} (issues : t.sys.issues = s.threads.sys.issues) :
    (s.become t).current =
      if t.sys.coord.authority = s.threads.sys.coord.authority then s.current else [] := by
  simp [Network.become, issues]

theorem become_current_subset {t : Threads} (issues : t.sys.issues = s.threads.sys.issues) :
    (s.become t).current ⊆ s.current := by
  rw [become_current issues]
  split
  · exact fun _ h => h
  · exact List.nil_subset _

theorem lane_become {t : Threads} {c : ConnId} (wire : t.wire c = s.threads.wire c) :
    (s.become t).lane c = callAttempts t.sys.calls c ++
      (((s.threads.wire c).drop (s.taken c)).flatMap Frame.attempts ++
        (s.inbox c).flatMap Letter.attempts) := by
  rw [lane, ← wire]
  rfl

theorem lane_become_append {t : Threads} {c : ConnId} {f : Frame}
    (taken : s.taken c ≤ (s.threads.wire c).length) (wire : t.wire c = s.threads.wire c ++ [f]) :
    (s.become t).lane c = callAttempts t.sys.calls c ++
      (((s.threads.wire c).drop (s.taken c)).flatMap Frame.attempts ++
        (f.attempts ++ (s.inbox c).flatMap Letter.attempts)) := by
  have drop : ((s.become t).threads.wire c).drop ((s.become t).taken c) =
      (s.threads.wire c).drop (s.taken c) ++ [f] := by
    simp only [Network.become, wire, List.drop_append_of_le_length taken]
  rw [lane, drop]
  simp [Network.become]

theorem perm_to_front {α : Type} (xs ys zs ws : List α) :
    (xs ++ (ys ++ (zs ++ ws))).Perm (zs ++ xs ++ (ys ++ ws)) := by
  have inner := (List.perm_append_comm_assoc ys zs ws).append_left xs
  have outer := List.perm_append_comm_assoc xs zs (ys ++ ws)
  exact (inner.trans outer).trans (List.Perm.of_eq (List.append_assoc _ _ _).symm)

/-- A command that is sent stays on its lane. -/
theorem Lanes.sent (inv : s.Lanes) {k : Nat} {attempt : AttemptId} {conn : ConnId}
    {topic : WarmTopic} {t : Threads}
    (pending : s.threads.sys.calls[k]? = some ⟨attempt, conn, .reserved⟩)
    (message : s.threads.topics[k]? = some topic)
    (calls : t.sys.calls = s.threads.sys.calls.eraseIdx k)
    (wire : t.wire = update s.threads.wire conn (s.threads.wire conn ++ [topicFrame topic]))
    (c : ConnId) : ((s.become t).lane c).Perm (s.lane c) := by
  have before := (callAttempts_perm pending c).append_right
    (((s.threads.wire c).drop (s.taken c)).flatMap Frame.attempts ++
      (s.inbox c).flatMap Letter.attempts)
  refine List.Perm.trans ?_ before.symm
  by_cases hc : c = conn
  · subst hc
    obtain ⟨topic', message', cmd, r, one, same, -⟩ := inv.commands.calls k _ pending
    cases message.symm.trans message'
    have carried : (topicFrame topic).attempts = [attempt] := by
      rw [topicFrame_attempts one, same]
    rw [lane_become_append (inv.taken c) (by rw [wire, update_self]), calls, carried, if_pos rfl]
    exact perm_to_front _ _ _ _
  · rw [lane_become (by rw [wire, update_of_ne hc]), calls, if_neg (Ne.symm hc)]
    exact List.Perm.refl _

/-- An attempt that is issued sets out on the lane of its connection. -/
theorem Lanes.issue (inv : s.Lanes) {r : IssueRecord} {t : Threads}
    (calls : t.sys.calls = ⟨r.attempt, r.conn, .reserved⟩ :: s.threads.sys.calls)
    (issues : t.sys.issues = r :: s.threads.sys.issues)
    (inFlight : t.sys.coord.inFlight = s.threads.sys.coord.inFlight.insert r.attempt r.info)
    (authority : t.sys.coord.authority = s.threads.sys.coord.authority)
    (wire : t.wire = s.threads.wire) (commands : t.Commands)
    (fresh : r.attempt ∉ s.threads.sys.issues.map IssueRecord.attempt) : (s.become t).Lanes := by
  have lanes (c : ConnId) :
      (s.become t).lane c = (if r.conn = c then [r.attempt] else []) ++ s.lane c := by
    rw [lane_become (congrFun wire c), calls, callAttempts_cons, List.append_assoc]
    rfl
  have unused (c : ConnId) : r.attempt ∉ s.lane c := by
    intro mem
    obtain ⟨r', issued, -, same⟩ := inv.known mem
    exact fresh (same ▸ List.mem_map_of_mem issued)
  have current : (s.become t).current = r :: s.current := by
    simp [Network.become, issues, authority]
  have issued : (s.become t).threads.sys.issues = r :: s.threads.sys.issues := issues
  refine ⟨commands, fun c => ?_, fun c => ?_, fun c d mem => ?_, ?_, ?_, fun r' hr hl => ?_⟩
  · exact (congrArg List.length (congrFun wire c)).symm ▸ inv.taken c
  · rw [lanes]
    split
    · exact List.nodup_cons.mpr ⟨unused c, inv.once c⟩
    · exact inv.once c
  · obtain ⟨r', hr', rest⟩ := inv.answers c d mem
    exact ⟨r', issued ▸ List.mem_cons_of_mem _ hr', rest⟩
  · rw [issued]
    exact List.nodup_cons.mpr ⟨fresh, inv.distinct⟩
  · rw [current, issued]
    exact List.cons_subset_cons r inv.current
  · rw [current] at hr
    have entry : (s.become t).threads.sys.coord.inFlight[r'.attempt]? =
        (s.threads.sys.coord.inFlight.insert r.attempt r.info)[r'.attempt]? := by rw [← inFlight]; rfl
    rw [entry]
    rcases List.mem_cons.mp hr with rfl | old
    · exact ExtTreeMap.getElem?_insert_self
    · have other : r'.attempt ≠ r.attempt := by
        intro same
        exact fresh (same ▸ List.mem_map_of_mem (inv.current old))
      rw [getElem?_insert_of_ne other]
      refine inv.inFlight r' old ?_
      rw [lanes] at hl
      rcases List.mem_append.mp hl with new | hl
      · split at new
        · exact absurd (List.mem_singleton.mp new) other
        · cases new
      · exact hl

/-- A cleaned-up attempt is on no lane any more. -/
theorem lane_cleaned {k : Nat} {w : WarmCall} {t : Threads}
    (pending : s.threads.sys.calls[k]? = some w) (calls : t.sys.calls = s.threads.sys.calls.eraseIdx k)
    (wire : t.wire = s.threads.wire) (c : ConnId) :
    (s.lane c).Perm ((if w.conn = c then [w.attempt] else []) ++ (s.become t).lane c) := by
  rw [lane_become (congrFun wire c), calls, lane]
  exact ((callAttempts_perm pending c).append_right _).trans
    (List.Perm.of_eq (List.append_assoc _ _ _))

theorem Lanes.become (inv : s.Lanes) {t : Threads} (h : s.threads.TicketStep t)
    (commands : t.Commands)
    (fresh : ∀ r, t.sys.issues = r :: s.threads.sys.issues →
      r.attempt ∉ s.threads.sys.issues.map IssueRecord.attempt) : (s.become t).Lanes := by
  have taken (c : ConnId) : s.taken c ≤ (t.wire c).length :=
    Nat.le_trans (inv.taken c) (h.wire_grows c)
  cases h with
  | quiet calls topics issues inFlight authority wire =>
    refine inv.move commands taken (fun c => ?_) inv.answers issues
      (become_current_subset issues) fun r _ _ => by rw [← inFlight]; rfl
    obtain same | ⟨f, same, h, pending, made⟩ := wire c
    · rw [lane_become same, calls]
      exact List.Subperm.refl _
    · rw [lane_become_append (inv.taken c) same, calls,
        Frame.attempts_of_type (inv.commands.outgoing pending made)]
      exact List.Subperm.refl _
  | raise calls topics issues wire authority =>
    have none : (s.become t).current = [] := by rw [become_current issues, if_neg authority]
    refine inv.move commands taken (fun c => ?_) inv.answers issues
      (none ▸ List.nil_subset _) fun r hr _ => ?_
    · rw [lane_become (congrFun wire c), calls]
      exact List.Subperm.refl _
    · rw [none] at hr
      cases hr
  | @issue r topic calls topics issues inFlight authority wire =>
    exact inv.issue calls issues inFlight authority wire commands (fresh r issues)
  | @sent call attempt conn topic pending message calls topics issues inFlight authority wire =>
    exact inv.move commands taken (fun c => (inv.sent pending message calls wire c).subperm)
      inv.answers issues (become_current_subset issues) fun r _ _ => by rw [← inFlight]; rfl
  | @unsent call attempt conn pending calls topics issues inFlight authority wire =>
    refine inv.move commands taken (fun c => ?_) inv.answers issues
      (become_current_subset issues) fun r _ _ => by rw [← inFlight]; rfl
    rw [lane_become (congrFun wire c), calls]
    exact ((callAttempts_set pending c).append_right _).subperm
  | @cleanup call w pending calls topics issues inFlight authority wire =>
    refine inv.move commands taken (fun c => ?_) inv.answers issues
      (become_current_subset issues) fun r hr hl => inFlight r.attempt ?_
    · exact (List.sublist_append_right _ _).subperm.trans
        (lane_cleaned pending calls wire c).symm.subperm
    · intro same
      have perm := lane_cleaned pending calls wire w.conn
      rw [if_pos rfl] at perm
      have mine : r.attempt ∈ s.lane w.conn := by
        rw [same]
        exact perm.mem_iff.mpr (List.mem_append_left _ (List.mem_singleton_self _))
      have issued := inv.current (become_current_subset issues hr)
      rw [inv.conn_eq issued mine, same] at hl
      have once := perm.nodup_iff.mp (inv.once w.conn)
      exact (List.nodup_cons.mp once).1 hl

theorem Lanes.receive (inv : s.Lanes) {i : Nat} {c : ConnId} {f : Frame}
    (next : (s.threads.wire c)[s.taken c]? = some f) (hook : Nat → HookOutcome)
    (now : Nat → Nat → Timestamp) : (s.receive i c f hook now).Lanes := by
  cases phase : (s.peers i).phase with
  | idle =>
    rw [receive_idle c f hook now phase]
    exact inv
  | awaiting =>
    rw [receive_awaiting c f hook now phase]
    exact (inv.take next).setPeer i _
  | running =>
    rw [receive_running c f hook now phase]
    exact (inv.answer next hook now).setPeer i _

theorem Letter.warmed_of_type {letter : Letter} (h : letter.frame.type = .warmResult) :
    ∃ d, letter = .answer (.warmed d) := by
  cases letter with
  | answer a =>
    cases a with
    | warmed d => exact ⟨d, rfl⟩
    | pong => cases h
  | hello | shutdown => cases h

/-- A WARM_RESULT is read as it was written. -/
theorem Senders.decoded {cfgs : Nat → WorkerConfig} (who : Senders cfgs s) {c : ConnId} {d : Warmed}
    (mem : .answer (.warmed d) ∈ s.inbox c) :
    decodePayload decodeWarmResult (encodeWarmResult d.result) = some d.result :=
  decodePayload_of_reads (reads_warmResult (who.results c d mem).2)

theorem Lanes.deliver {cfgs : Nat → WorkerConfig} (inv : s.Lanes) (who : Senders cfgs s) {c : ConnId}
    {letter : Letter} {rest : List Letter} (next : s.inbox c = letter :: rest)
    (now : Nat → Timestamp) :
    Lanes { s.become (s.threads.step (.frame c letter.frame now)) with
      inbox := update s.inbox c rest } := by
  obtain ⟨calls, issues, wire⟩ := s.threads.step_frame c letter.frame now
  have commands := inv.commands.step (.frame c letter.frame now)
  have inFlight := s.threads.step_frame_inFlight c letter.frame now
  generalize s.threads.step (.frame c letter.frame now) = t at calls issues wire commands inFlight
  have here : (s.lane c).Perm
      (letter.attempts ++ lane { s.become t with inbox := update s.inbox c rest } c) := by
    simp only [lane, Network.become, next, update_self, calls, wire, List.flatMap_cons]
    have front := perm_to_front (callAttempts s.threads.sys.calls c)
      (((s.threads.wire c).drop (s.taken c)).flatMap Frame.attempts) letter.attempts
      (rest.flatMap Letter.attempts)
    exact front.trans (List.Perm.of_eq (by simp only [List.append_assoc]))
  have there (c' : ConnId) (hc : c' ≠ c) :
      lane { s.become t with inbox := update s.inbox c rest } c' = s.lane c' := by
    simp only [lane, Network.become, update_of_ne hc, calls, wire]
  refine inv.move commands (fun c' => ?_) (fun c' => ?_) (fun c' d mem => ?_) issues
    (become_current_subset issues) fun r hr hl => ?_
  · exact (congrArg List.length (congrFun wire c')).symm ▸ inv.taken c'
  · by_cases hc : c' = c
    · subst hc
      exact (List.sublist_append_right _ _).subperm.trans here.symm.subperm
    · rw [there c' hc]
  · by_cases hc : c' = c
    · subst hc
      simp only [update_self] at mem
      exact inv.answers c' d (next ▸ List.mem_cons_of_mem _ mem)
    · simp only [update_of_ne hc] at mem
      exact inv.answers c' d mem
  · obtain same | ⟨res, type, decoded, same⟩ := inFlight
    · exact congrArg (·[r.attempt]?) same
    · have other : r.attempt ≠ ⟨res.attempt⟩ := by
        intro mine
        obtain ⟨d, rfl⟩ := Letter.warmed_of_type type
        cases (who.decoded (next ▸ List.mem_cons_self)).symm.trans decoded
        have carried : r.attempt ∈ s.lane c := by
          rw [here.mem_iff, mine]
          exact List.mem_append_left _ (List.mem_singleton_self _)
        rw [inv.conn_eq (inv.current (become_current_subset issues hr)) carried, mine] at hl
        have once := here.nodup_iff.mp (inv.once c)
        exact (List.nodup_cons.mp once).1 hl
      exact (congrArg (·[r.attempt]?) same).trans (getElem?_erase_of_ne other)

theorem Lanes.coordinator (inv : s.Lanes) {a : ThreadStep} (framed : ∀ cs f now, a ≠ .frame cs f now)
    (fresh : ¬ s.Reissues (.coordinator a)) : (s.become (s.threads.step a)).Lanes := by
  refine inv.become (s.threads.step_ticketStep framed) (inv.commands.step a) fun r issued mem => ?_
  obtain same | ⟨object, action, preferred, r', rfl, issued', number, -⟩ := s.threads.step_issues a
  · exact List.cons_ne_self _ _ (issued.symm.trans same)
  · cases issued.symm.trans issued'
    obtain ⟨old, known, same⟩ := List.mem_map.mp mem
    exact fresh ⟨object, action, preferred, rfl, old, known, same.trans number⟩

theorem Lanes.step {cfgs : Nat → WorkerConfig} (inv : s.Lanes) (who : Senders cfgs s) {a : NetStep}
    (fresh : ¬ s.Reissues a) : (s.step a).Lanes := by
  have went := s.went_step a
  generalize s.step a = t at went
  cases went with
  | idle => exact inv
  | connect => exact inv.connect _
  | read _ next => exact inv.receive next _ _
  | lose | flag => exact inv.setPeer _ _
  | shutdown => exact (inv.setPeer _ _).post rfl
  | deliver next => exact inv.deliver who next _
  | coordinator unframed => exact inv.coordinator unframed fresh

theorem lanes_init (cfgs : Nat → WorkerConfig) : (init cfgs).Lanes :=
  ⟨Threads.commands_init, fun _ => Nat.le_refl 0, fun _ => List.nodup_nil,
    fun _ _ h => (nomatch h), List.nodup_nil, fun _ h => h, fun _ h => (nomatch h)⟩

end

end Network

end Warmth
