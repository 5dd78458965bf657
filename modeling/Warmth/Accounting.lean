import Mathlib.Data.List.Pairwise
import Warmth.SystemSteps

namespace Warmth

open Codec Std TreeMaps

namespace System

/-- The books agree with the history: `n` reservation ids have been handed out, what is
outstanding is what the attempts in flight hold, and every id an attempt ever held is either
still held or has been released once. -/
structure Accounts (s : System) (n : Nat) : Prop where
  ids : s.coord.budget.Issued n
  few : n ≤ 2 * s.issues.length
  outstanding : s.coord.budget.ids.Perm s.coord.held
  count : s.coord.inFlightCount.toNat = s.coord.inFlight.size
  counter : s.coord.attemptCounter.toNat = s.issues.length + 1
  known : ∀ a info, s.coord.inFlight[a]? = some info →
    ∃ r ∈ s.issues, r.attempt = a ∧ r.info = info
  attempts : ∀ r ∈ s.issues, r.attempt.value.toNat ≤ s.issues.length
  distinct : (s.issues.map IssueRecord.attempt).Nodup
  bounded : ∀ r ∈ s.issues, ∀ id ∈ r.info.held, 1 ≤ id.toNat ∧ id.toNat ≤ n
  once : (s.issues.flatMap fun r => r.info.held).Nodup
  settled : (s.issues.flatMap fun r => r.info.held).Perm (s.releases.map Prod.fst ++ s.coord.held)
  clean : ∀ r ∈ s.releases, r.2 = .none

end System

structure Coordinator.SameBooks (c c' : Coordinator) : Prop where
  budget : c'.budget = c.budget
  inFlight : c'.inFlight = c.inFlight
  inFlightCount : c'.inFlightCount = c.inFlightCount
  attemptCounter : c'.attemptCounter = c.attemptCounter

namespace System

theorem Accounts.same {s t : System} {n : Nat} (acc : s.Accounts n)
    (books : s.coord.SameBooks t.coord) (issues : t.issues = s.issues)
    (releases : t.releases = s.releases) : t.Accounts n := by
  have held : t.coord.held = s.coord.held := by
    rw [Coordinator.held, books.inFlight]
    rfl
  obtain ⟨ids, few, outstanding, count, counter, known, attempts, distinct, bounded, once, settled,
    clean⟩ := acc
  constructor <;> simp only [books.budget, books.inFlight, books.inFlightCount,
    books.attemptCounter, held, issues, releases] <;> assumption

/-- A section that releases the reservations of the attempts it takes out of flight. -/
theorem Accounts.release {s : System} {n : Nat} (acc : s.Accounts n) {c : Coordinator}
    {e : Effects} {out : List UInt64}
    (split : s.coord.held.Perm (out ++ c.held))
    (budget : c.budget = (s.coord.budget.releaseAll out).2)
    (released : e.released = (s.coord.budget.releaseAll out).1)
    (fewer : ∀ (a : AttemptId) info, c.inFlight[a]? = some info →
      s.coord.inFlight[a]? = some info)
    (count : c.inFlightCount.toNat = c.inFlight.size)
    (counter : c.attemptCounter = s.coord.attemptCounter) : (s.after (c, e)).Accounts n := by
  obtain ⟨oks, left, issued⟩ := BudgetTracker.releaseAll_held acc.ids (acc.outstanding.trans split)
  have back : (s.after (c, e)).releases.map Prod.fst = out.reverse ++ s.releases.map Prod.fst := by
    rw [releases_after, released, oks, List.map_append, List.map_reverse, List.map_map]
    congr 2
    exact List.map_id' out
  constructor
  · exact budget ▸ issued
  · simpa using acc.few
  · exact budget ▸ left
  · exact count
  · rw [issues_after]
    exact counter ▸ acc.counter
  · intro a info ha
    rw [issues_after]
    exact acc.known a info (fewer a info ha)
  · simpa using acc.attempts
  · simpa using acc.distinct
  · simpa using acc.bounded
  · simpa using acc.once
  · rw [issues_after, back]
    have moved : (s.releases.map Prod.fst ++ s.coord.held).Perm
        (s.releases.map Prod.fst ++ (out ++ c.held)) := split.append_left _
    refine acc.settled.trans (moved.trans ?_)
    rw [← List.append_assoc]
    exact (List.perm_append_comm.trans ((List.reverse_perm out).symm.append_right _)).append_right _
  · intro r hr
    rw [releases_after, released, oks] at hr
    rcases List.mem_append.mp hr with hr | hr
    · obtain ⟨id, _, rfl⟩ := List.mem_map.mp (List.mem_reverse.mp hr)
      rfl
    · exact acc.clean r hr

theorem Accounts.settle {s : System} {n : Nat} (acc : s.Accounts n) {a : AttemptId}
    {info : AttemptInfo} (ha : s.coord.inFlight[a]? = some info) {c : Coordinator} {e : Effects}
    (books : (s.coord.settle a info).1.SameBooks c)
    (released : e.released = (s.coord.settle a info).2) : (s.after (c, e)).Accounts n := by
  have perm : s.coord.inFlight.toList.Perm ((a, info) :: (s.coord.inFlight.erase a).toList) :=
    toList_erase_perm ha
  have size := size_erase_of_some ha
  have positive : 0 < s.coord.inFlightCount := by
    rw [UInt64.lt_iff_toNat_lt, acc.count, UInt64.toNat_zero]
    omega
  have split : s.coord.held.Perm (info.held ++ c.held) := by
    rw [Coordinator.held, Coordinator.held, books.inFlight]
    exact perm.flatMap_right _
  refine acc.release split books.budget released ?_ ?_ books.attemptCounter
  · intro b i hb
    rw [books.inFlight] at hb
    exact (getElem?_erase_some hb).2
  · rw [books.inFlightCount, books.inFlight]
    have less : (s.coord.settle a info).1.inFlightCount = s.coord.inFlightCount - 1 := by
      simp [Coordinator.settle, positive]
    have one : (1 : UInt64) ≤ s.coord.inFlightCount := by
      rw [UInt64.lt_iff_toNat_lt, UInt64.toNat_zero] at positive
      rw [UInt64.le_iff_toNat_le, UInt64.toNat_one]
      omega
    rw [less, UInt64.toNat_sub_of_le _ _ one, acc.count, UInt64.toNat_one]
    change _ = (s.coord.inFlight.erase a).size
    omega

theorem Accounts.rollEpoch {s : System} {n : Nat} (acc : s.Accounts n) :
    (s.after s.coord.rollEpoch).Accounts n := by
  have none_held : s.coord.rollEpoch.1.held = [] := by
    change (∅ : ExtTreeMap AttemptId AttemptInfo).toList.flatMap (fun kv => kv.2.held) = []
    simp
  refine acc.release (c := s.coord.rollEpoch.1) (e := s.coord.rollEpoch.2) ?_ rfl rfl ?_ ?_ rfl
  · rw [none_held, List.append_nil]
  · intro a info ha
    cases ha
  · change (if s.coord.inFlight.isEmpty then s.coord.inFlightCount else 0).toNat =
      (∅ : ExtTreeMap AttemptId AttemptInfo).size
    rw [ExtTreeMap.size_empty]
    split
    next he =>
      have := acc.count
      rw [ExtTreeMap.isEmpty_iff.mp he] at this
      simpa using this
    next => rfl

theorem reserve_pair {t b b' : BudgetTracker} {n : Nat} (h : t.Issued n) (room : n + 3 < 2 ^ 64)
    {info : AttemptInfo} {e₁ e₂ : BudgetError} {k₁ k₂ : WarmthBudgetKind} {a₁ a₂ : UInt64}
    {tag : CString} (h₁ : t.reserve k₁ a₁ tag = (info.reservationId, e₁, b))
    (nonzero : info.reservationId ≠ 0) (h₂ : b.reserve k₂ a₂ tag = (info.opReservationId, e₂, b')) :
    ∃ m, n ≤ m ∧ m ≤ n + 2 ∧ b'.Issued m ∧ b'.ids.Perm (info.held ++ t.ids) ∧ info.held.Nodup ∧
      ∀ id ∈ info.held, n < id.toNat ∧ id.toNat ≤ m := by
  have first := BudgetTracker.reserve_cases h k₁ a₁ tag
  rw [h₁] at first
  simp only at first
  obtain ⟨hz, _⟩ | ⟨val, _, perm, issued⟩ := first
  · exact absurd hz nonzero
  have issued := issued (by omega)
  have second := BudgetTracker.reserve_cases issued k₂ a₂ tag
  rw [h₂] at second
  simp only at second
  obtain ⟨hz, same⟩ | ⟨val', fresh, perm', issued'⟩ := second
  · have held : info.held = [info.reservationId] := by simp_all [AttemptInfo.held]
    rw [held, same]
    refine ⟨n + 1, by omega, by omega, issued, perm, by simp, ?_⟩
    intro id hid
    cases List.mem_singleton.mp hid
    exact ⟨by omega, by omega⟩
  · have op : info.opReservationId ≠ 0 := by
      intro hz
      rw [hz] at val'
      simp at val'
    have held : info.held = [info.reservationId, info.opReservationId] := by
      simp [AttemptInfo.held, op]
    have ne : info.reservationId ≠ info.opReservationId := by
      intro he
      rw [he] at val
      omega
    rw [held]
    refine ⟨n + 2, by omega, by omega, issued' (by omega), ?_, by simp [ne], ?_⟩
    · exact perm'.trans ((perm.cons _).trans (List.Perm.swap _ _ _))
    · intro id hid
      simp only [List.mem_cons, List.not_mem_nil, or_false] at hid
      obtain rfl | rfl := hid
      · exact ⟨by omega, by omega⟩
      · exact ⟨by omega, by omega⟩

theorem held_length (info : AttemptInfo) : 1 ≤ info.held.length ∧ info.held.length ≤ 2 := by
  unfold AttemptInfo.held
  split <;> simp

/-- Everything in flight was issued, so there is always room to count it. -/
theorem Accounts.size_le {s : System} {n : Nat} (acc : s.Accounts n) :
    s.coord.inFlight.size ≤ 2 * s.issues.length := by
  have lower : ∀ l : List (AttemptId × AttemptInfo),
      l.length ≤ (l.flatMap fun kv => kv.2.held).length := by
    intro l
    induction l with
    | nil => simp
    | cons kv l ih =>
      have := (held_length kv.2).1
      simp only [List.flatMap_cons, List.length_append, List.length_cons]
      omega
  have upper : ∀ l : List IssueRecord,
      (l.flatMap fun r => r.info.held).length ≤ 2 * l.length := by
    intro l
    induction l with
    | nil => simp
    | cons r l ih =>
      have := (held_length r.info).2
      simp only [List.flatMap_cons, List.length_append, List.length_cons]
      omega
  have total := acc.settled.length_eq
  have low := lower s.coord.inFlight.toList
  have up := upper s.issues
  rw [List.length_append] at total
  rw [ExtTreeMap.length_toList] at low
  change _ ≤ s.coord.held.length at low
  omega

/-- The next attempt id is not in flight. -/
theorem Accounts.unused {s : System} {n : Nat} (acc : s.Accounts n) :
    s.coord.inFlight[(⟨s.coord.attemptCounter⟩ : AttemptId)]? = none := by
  cases hi : s.coord.inFlight[(⟨s.coord.attemptCounter⟩ : AttemptId)]? with
  | none => rfl
  | some info =>
    obtain ⟨r, hr, he, _⟩ := acc.known _ _ hi
    have old : s.coord.attemptCounter.toNat ≤ s.issues.length := by
      simpa only [he] using acc.attempts r hr
    have next := acc.counter
    omega

/-- Ids that have yet to be handed out belong to no attempt. -/
theorem Accounts.apart {s : System} {n : Nat} (acc : s.Accounts n) {held : List UInt64}
    (new : ∀ id ∈ held, n < id.toNat) :
    ∀ id ∈ held, id ∉ s.issues.flatMap fun r => r.info.held := by
  intro id hid old
  obtain ⟨r, hr, hm⟩ := List.mem_flatMap.mp old
  have bound := (acc.bounded r hr id hm).2
  have above := new id hid
  omega

/-- The attempt gets an id and reservations no attempt had before, while fewer than 2^63
attempts have been issued. -/
theorem Accounts.issue {s : System} {n : Nat} (acc : s.Accounts n) {c : Coordinator}
    {i : Coordinator.Issue} {object : WarmthObjectId} {action : WarmthAction}
    {preferred : Option WorkerId} (h : s.coord.issueWarm object action preferred = (c, some i))
    (few : (s.issue c i).issues.length < 2 ^ 63) : ∃ m, (s.issue c i).Accounts m := by
  rw [issues_issue, List.length_cons] at few
  have hn := acc.few
  obtain ⟨_, ha, _, _, b, e₁, b', e₂, h₁, nonzero, h₂, rfl⟩ := Coordinator.issueWarm_some h
  obtain ⟨m, hnm, hm, issued, perm, nodup, new⟩ := reserve_pair acc.ids (by omega) h₁ nonzero h₂
  have value : i.attempt.value.toNat = s.issues.length + 1 := by rw [ha]; exact acc.counter
  have fresh : s.coord.inFlight[i.attempt]? = none := by rw [ha]; exact acc.unused
  have entries : (s.coord.inFlight.insert i.attempt i.info).toList.Perm
      ((i.attempt, i.info) :: s.coord.inFlight.toList) := toList_insert_perm fresh
  have heldPerm := entries.flatMap_right fun kv => kv.2.held
  rw [List.flatMap_cons] at heldPerm
  refine ⟨m, {
    ids := issued, few := ?few, outstanding := ?outstanding, count := ?count, counter := ?counter
    known := ?known, attempts := ?attempts, distinct := ?distinct, bounded := ?bounded
    once := ?once, settled := ?settled, clean := acc.clean }⟩
  case few =>
    rw [issues_issue, List.length_cons]
    omega
  case outstanding => exact perm.trans ((acc.outstanding.append_left _).trans heldPerm.symm)
  case count =>
    have := acc.count
    have hle := acc.size_le
    change (s.coord.inFlightCount + 1).toNat = (s.coord.inFlight.insert i.attempt i.info).size
    rw [size_insert_of_none fresh, UInt64.toNat_add, UInt64.toNat_one]
    omega
  case counter =>
    rw [issues_issue, List.length_cons]
    change (s.coord.attemptCounter + 1).toNat = _
    rw [UInt64.toNat_add, acc.counter, UInt64.toNat_one]
    omega
  case known =>
    intro a info hin
    rcases getElem?_insert_some hin with ⟨rfl, rfl⟩ | ⟨_, hin⟩
    · exact ⟨_, List.mem_cons_self, rfl, rfl⟩
    · obtain ⟨r, hr, he⟩ := acc.known a info hin
      exact ⟨r, List.mem_cons_of_mem _ hr, he⟩
  case attempts =>
    intro r hr
    rw [issues_issue, List.length_cons]
    rcases List.mem_cons.mp hr with rfl | hr
    · exact Nat.le_of_eq value
    · have := acc.attempts r hr
      omega
  case distinct =>
    rw [issues_issue, List.map_cons]
    refine List.nodup_cons.mpr ⟨fun hm => ?_, acc.distinct⟩
    obtain ⟨r, hr, he⟩ := List.mem_map.mp hm
    have := acc.attempts r hr
    rw [he] at this
    simp only at this
    omega
  case bounded =>
    intro r hr id hid
    rcases List.mem_cons.mp hr with rfl | hr
    · have := new id hid
      omega
    · have := acc.bounded r hr id hid
      omega
  case once =>
    rw [issues_issue, List.flatMap_cons]
    have apart := acc.apart fun id hid => (new id hid).1
    exact List.nodup_append'.mpr ⟨nodup, acc.once, fun id hid => apart id hid⟩
  case settled =>
    rw [issues_issue, List.flatMap_cons, releases_issue]
    refine (acc.settled.append_left _).trans ?_
    rw [← List.append_assoc]
    refine (List.perm_append_comm.append_right _).trans ?_
    rw [List.append_assoc]
    exact heldPerm.symm.append_left _

theorem sameBooks_acceptHello (c : Coordinator) (cs : ConnId) (h : Hello) :
    c.SameBooks (c.acceptHello cs h) := by
  rw [Coordinator.acceptHello_frame]
  exact ⟨rfl, rfl, rfl, rfl⟩

theorem sameBooks_acceptReport (c : Coordinator) (cs : ConnId) (p : ReportPayload)
    (now : Nat → Timestamp) : c.SameBooks (c.acceptReport cs p now) := by
  rw [Coordinator.acceptReport_frame]
  exact ⟨rfl, rfl, rfl, rfl⟩

theorem sameBooks_onDisconnect (c : Coordinator) (cs : ConnId) (now : WarmthObjectId → Timestamp) :
    c.SameBooks (c.onDisconnect cs now) := by
  rw [Coordinator.onDisconnect_frame]
  exact ⟨rfl, rfl, rfl, rfl⟩

theorem sameBooks_acceptResult (c : Coordinator) (cs : ConnId) (res : WarmResult)
    (info : AttemptInfo) (now : Nat → Timestamp) :
    (c.settle ⟨res.attempt⟩ info).1.SameBooks (c.acceptResult cs res info now).1 ∧
      (c.acceptResult cs res info now).2.released = (c.settle ⟨res.attempt⟩ info).2 := by
  rw [Coordinator.acceptResult, Coordinator.applyResult_frame]
  exact ⟨⟨rfl, rfl, rfl, rfl⟩, rfl⟩

theorem Accounts.quiet {s : System} {n : Nat} (acc : s.Accounts n) {c : Coordinator} {e : Effects}
    (books : s.coord.SameBooks c) (nothing : e.released = []) : (s.after (c, e)).Accounts n :=
  acc.same books (issues_after s _) (by rw [releases_after, nothing]; rfl)

theorem Accounts.cleanup {s : System} {n : Nat} (acc : s.Accounts n) (a : AttemptId) :
    (s.after (s.coord.cleanup a)).Accounts n := by
  unfold Coordinator.cleanup
  split
  next => exact acc.quiet ⟨rfl, rfl, rfl, rfl⟩ rfl
  next info ha => exact acc.settle ha ⟨rfl, rfl, rfl, rfl⟩ rfl

theorem issues_le_step (s : System) (a : Step) : s.issues.length ≤ (s.step a).issues.length := by
  have stepped := stepped_step s a
  generalize s.step a = t at stepped
  cases stepped with
  | result | rollEpoch => rw [issues_after]
  | cleanup =>
    rw [issues_after]
    exact Nat.le_refl _
  | issue =>
    rw [issues_issue, List.length_cons]
    exact Nat.le_succ _
  | _ => exact Nat.le_refl _

theorem Accounts.step {s : System} {n : Nat} (acc : s.Accounts n) (a : Step)
    (few : (s.step a).issues.length < 2 ^ 63) : ∃ m, (s.step a).Accounts m := by
  have stepped := stepped_step s a
  generalize s.step a = t at stepped few
  cases stepped with
  | idle => exact ⟨n, acc⟩
  | hello => exact ⟨n, acc.same (sameBooks_acceptHello _ _ _) rfl rfl⟩
  | report => exact ⟨n, acc.same (sameBooks_acceptReport _ _ _ _) rfl rfl⟩
  | @result cs f now res info up type decoded accepted =>
    obtain ⟨books, released⟩ := sameBooks_acceptResult s.coord cs res info now
    exact ⟨n, acc.settle (Coordinator.acceptedAttempt_inFlight accepted) books released⟩
  | disconnect => exact ⟨n, acc.same (sameBooks_onDisconnect _ _ _) rfl rfl⟩
  | refuse refusal =>
    have refused := BudgetTracker.reserve_cases acc.ids .deviceMemory kDefaultWarmBytes (text "warm")
    rw [refusal] at refused
    obtain ⟨_, same⟩ | ⟨val, _⟩ := refused
    · exact ⟨n, acc.same ⟨same, rfl, rfl, rfl⟩ rfl rfl⟩
    · simp at val
  | issue issued => exact acc.issue issued few
  | send | bumpWarmth | bumpDependency => exact ⟨n, acc.same ⟨rfl, rfl, rfl, rfl⟩ rfl rfl⟩
  | @cleanup call w =>
    have trimmed : ({ s with calls := s.calls.eraseIdx call } : System).Accounts n :=
      acc.same ⟨rfl, rfl, rfl, rfl⟩ rfl rfl
    exact ⟨n, trimmed.cleanup w.attempt⟩
  | rollEpoch => exact ⟨n, acc.rollEpoch⟩

theorem accounts_init : init.Accounts 0 := by
  have none_held : init.coord.held = [] := by
    change (∅ : ExtTreeMap AttemptId AttemptInfo).toList.flatMap (fun kv => kv.2.held) = []
    simp
  constructor
  · exact BudgetTracker.issued_init {}
  · exact Nat.zero_le _
  · rw [none_held]
    change (∅ : ExtTreeMap UInt64 Res).toList.map Prod.fst |>.Perm []
    simp
  · rfl
  · rfl
  · intro a info ha
    cases ha
  · intro r hr
    cases hr
  · exact List.nodup_nil
  · intro r hr
    cases hr
  · exact List.nodup_nil
  · rw [none_held]
    exact List.Perm.nil
  · intro r hr
    cases hr

theorem accounts_of_reached {s : System} (h : Reached s) (few : s.issues.length < 2 ^ 63) :
    ∃ n, s.Accounts n := by
  refine Runs.reachable_invariant (I := fun s => s.issues.length < 2 ^ 63 → ∃ n, s.Accounts n)
    (fun _ => ⟨0, accounts_init⟩) ?_ h few
  intro t a ht hfew
  obtain ⟨n, acc⟩ := ht (Nat.lt_of_le_of_lt (issues_le_step t a) hfew)
  exact acc.step a hfew

def nonzeroIds (info : AttemptInfo) : List UInt64 :=
  [info.reservationId, info.opReservationId].filter (· != 0)

theorem held_eq_nonzeroIds {info : AttemptInfo} (h : info.reservationId ≠ 0) :
    info.held = nonzeroIds info := by
  cases ho : info.opReservationId != 0 <;> simp [AttemptInfo.held, nonzeroIds, h, ho]

theorem Accounts.issued_nonzero {s : System} {n : Nat} (acc : s.Accounts n) {r : IssueRecord}
    (hr : r ∈ s.issues) : r.info.held = nonzeroIds r.info := by
  apply held_eq_nonzeroIds
  intro h0
  have := (acc.bounded r hr r.info.reservationId List.mem_cons_self).1
  rw [h0] at this
  simp at this

theorem Accounts.inFlight_nonzero {s : System} {n : Nat} (acc : s.Accounts n) :
    s.coord.held = s.coord.inFlight.toList.flatMap fun kv => nonzeroIds kv.2 := by
  refine List.flatMap_congr fun kv hkv => ?_
  obtain ⟨r, hr, _, he⟩ := acc.known _ _ (ExtTreeMap.mem_toList_iff_getElem?_eq_some.mp hkv)
  rw [← he]
  exact acc.issued_nonzero hr

theorem count_pair_of_snd {α β : Type} [DecidableEq α] [DecidableEq β] {l : List (α × β)} {b : β}
    (h : ∀ p ∈ l, p.2 = b) (a : α) : l.count (a, b) = (l.map Prod.fst).count a := by
  induction l with
  | nil => rfl
  | cons p l ih =>
    obtain ⟨x, y⟩ := p
    have hy : y = b := h (x, y) List.mem_cons_self
    rw [List.map_cons, List.count_cons, List.count_cons, hy,
      ih fun q hq => h q (List.mem_cons_of_mem _ hq)]
    by_cases hx : x = a <;> simp [hx]

theorem disjoint_of_nodup_flatMap {α β : Type} {l : List α} {f : α → List β}
    (h : (l.flatMap f).Nodup) {a b : α} (ha : a ∈ l) (hb : b ∈ l) (hne : a ≠ b) {x : β} :
    x ∈ f a → x ∉ f b := by
  have symm : Std.Symm (Function.onFun (List.Disjoint (α := β)) f) := ⟨fun _ _ hd _ h h' => hd h' h⟩
  exact fun hxa hxb => (List.nodup_flatMap.mp h).2.forall ha hb hne hxa hxb

/-- Each id of an issued attempt is released once if the attempt has left the books and not yet
if it is in flight. -/
theorem Accounts.count_releases {s : System} {n : Nat} (acc : s.Accounts n) {r : IssueRecord}
    (hr : r ∈ s.issues) {id : UInt64} (hid : id ∈ r.info.held) :
    (s.releases.map Prod.fst).count id =
      if (s.coord.inFlight[r.attempt]?).isSome then 0 else 1 := by
  have total : (s.releases.map Prod.fst).count id + s.coord.held.count id = 1 := by
    rw [← List.count_append, ← acc.settled.count_eq]
    exact List.count_eq_one_of_mem acc.once (List.mem_flatMap.mpr ⟨r, hr, hid⟩)
  cases hi : s.coord.inFlight[r.attempt]? with
  | some info =>
    have same : info = r.info := by
      obtain ⟨r', hr', ha, he⟩ := acc.known _ _ hi
      rw [← he, List.inj_on_of_nodup_map acc.distinct hr' hr ha]
    have held : id ∈ s.coord.held :=
      List.mem_flatMap.mpr ⟨(r.attempt, info), ExtTreeMap.mem_toList_iff_getElem?_eq_some.mpr hi,
        same ▸ hid⟩
    have := List.count_pos_iff.mpr held
    simp only [Option.isSome_some, if_true]
    omega
  | none =>
    have gone : id ∉ s.coord.held := by
      intro hm
      obtain ⟨⟨a, info⟩, hkv, hin⟩ := List.mem_flatMap.mp hm
      have ha := ExtTreeMap.mem_toList_iff_getElem?_eq_some.mp hkv
      obtain ⟨r', hr', he, hinfo⟩ := acc.known _ _ ha
      have same : r' = r := by
        by_contra hne
        refine disjoint_of_nodup_flatMap acc.once hr' hr hne ?_ hid
        rw [hinfo]
        exact hin
      rw [same] at he
      rw [he, ha] at hi
      cases hi
    rw [List.count_eq_zero.mpr gone] at total
    simpa using total

/-- The accounts of the coordinator: what is outstanding in the budget is the disjoint union of
the nonzero ids that the attempts in flight hold, the separate counter counts these attempts,
and each reservation of an issued attempt has been released once, successfully, if the attempt
is no longer in flight, and not at all if it is. -/
structure Balanced (s : System) : Prop where
  outstanding : s.coord.budget.ids.Perm (s.coord.inFlight.toList.flatMap fun kv => nonzeroIds kv.2)
  disjoint : (s.coord.inFlight.toList.flatMap fun kv => nonzeroIds kv.2).Nodup
  counted : s.coord.inFlightCount.toNat = s.coord.inFlight.size
  attempts : (s.issues.map IssueRecord.attempt).Nodup
  releasedOnce : ∀ r ∈ s.issues, nonzeroIds r.info ≠ [] ∧ ∀ id ∈ nonzeroIds r.info,
    s.releases.count (id, .none) = (if (s.coord.inFlight[r.attempt]?).isSome then 0 else 1) ∧
    ∀ err, (id, err) ∈ s.releases → err = .none
  empty : s.coord.inFlight.isEmpty = true → s.coord.outstandingBudget = 0

/-- Every reachable state is balanced, whichever path settles an attempt and in whatever order
they race, while fewer than 2^63 attempts have been issued. -/
theorem coordinator_accounting {s : System} (h : Reached s) (few : s.issues.length < 2 ^ 63) :
    s.Balanced := by
  obtain ⟨n, acc⟩ := accounts_of_reached h few
  have same := acc.inFlight_nonzero
  constructor
  · exact same ▸ acc.outstanding
  · exact same ▸ acc.outstanding.nodup_iff.mp (BudgetTracker.nodup_ids _)
  · exact acc.count
  · exact acc.distinct
  · intro r hr
    rw [← acc.issued_nonzero hr]
    refine ⟨List.cons_ne_nil _ _, fun id hid => ⟨?_, fun err he => acc.clean _ he⟩⟩
    rw [← acc.count_releases hr hid]
    exact count_pair_of_snd acc.clean id
  · intro he
    have none_held : s.coord.held = [] := by
      rw [Coordinator.held, ExtTreeMap.isEmpty_iff.mp he]
      simp
    rw [Coordinator.outstandingBudget, BudgetTracker.outstanding_eq, acc.outstanding.length_eq,
      none_held]
    rfl

/-- A roll between the reserving section of `issue_warm` and the cleanup of its failed send. -/
def rolledBeforeCleanup : List Step := [
  .frame 0 (helloFrame { worker := ⟨0, 1⟩, boot := ⟨0, 1⟩ }) fun _ => 0,
  .reserve ⟨0, 9⟩ .loadModel none,
  .rollEpoch,
  .send 0 false,
  .cleanup 0]

theorem coordinator_accounting_rolled : (Runs.run step init rolledBeforeCleanup).Balanced :=
  coordinator_accounting (Runs.reachable_run rolledBeforeCleanup) (by decide)

end System

end Warmth
