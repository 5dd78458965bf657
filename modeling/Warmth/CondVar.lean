import Mathlib.Data.List.Basic

namespace CondVar

/-- Where a thread is in `wait(lock, predicate)`; it owns the mutex while `testing` or `refused`. -/
inductive Phase
  | arriving | testing | refused | blocked | woken | returned
deriving DecidableEq, Repr

inductive Act
  | arrive
  | lock (k : Nat)
  | test (k : Nat)
  | block (k : Nat)
deriving DecidableEq, Repr

def held (ws : List Phase) : Bool := ws.any fun p => p == .testing || p == .refused

/-- A step of one waiting thread, where `holds` is the value of the predicate. -/
def act (holds : Bool) (ws : List Phase) : Act → List Phase
  | .arrive => ws ++ [.arriving]
  | .lock k =>
    if (ws[k]? = some .arriving ∨ ws[k]? = some .woken) ∧ held ws = false then ws.set k .testing
    else ws
  | .test k =>
    if ws[k]? = some .testing then ws.set k (if holds then .returned else .refused) else ws
  | .block k => if ws[k]? = some .refused then ws.set k .blocked else ws

def wake (p : Phase) : Phase := if p = .blocked then .woken else p

def notifyAll (ws : List Phase) : List Phase := ws.map wake

/-- No thread needs a notification to go on. -/
def Quiet (ws : List Phase) : Prop := ∀ p ∈ ws, p ≠ .blocked ∧ p ≠ .refused

theorem Quiet.set {ws : List Phase} (h : Quiet ws) (k : Nat) {p : Phase} (hb : p ≠ .blocked)
    (hr : p ≠ .refused) : Quiet (ws.set k p) := by
  intro q hq
  rcases List.mem_or_eq_of_mem_set hq with hq | rfl
  · exact h q hq
  · exact ⟨hb, hr⟩

/-- While the predicate holds the waiting threads do nothing that calls for a notification. -/
theorem Quiet.act {ws : List Phase} (h : Quiet ws) (a : Act) : Quiet (act true ws a) := by
  cases a with
  | arrive =>
    intro p hp
    rcases List.mem_append.mp hp with hp | hp
    · exact h p hp
    · cases List.mem_singleton.mp hp
      exact ⟨nofun, nofun⟩
  | lock k =>
    simp only [CondVar.act]
    split
    · exact h.set k nofun nofun
    · exact h
  | test k =>
    simp only [CondVar.act]
    split
    · exact h.set k nofun nofun
    · exact h
  | block k =>
    simp only [CondVar.act]
    split
    next refused => exact absurd rfl (h .refused (List.mem_of_getElem? refused)).2
    next => exact h

theorem Quiet.notifyAll {ws : List Phase} (h : .refused ∉ ws) : Quiet (notifyAll ws) := by
  intro p hp
  obtain ⟨q, hq, rfl⟩ := List.mem_map.mp hp
  unfold wake
  split
  · exact ⟨nofun, nofun⟩
  next hb =>
    refine ⟨hb, ?_⟩
    rintro rfl
    exact h hq

theorem refused_mem_notifyAll {ws : List Phase} : .refused ∈ notifyAll ws ↔ .refused ∈ ws := by
  constructor
  · intro hp
    obtain ⟨q, hq, hw⟩ := List.mem_map.mp hp
    unfold wake at hw
    split at hw
    · cases hw
    · exact hw ▸ hq
  · intro hp
    exact List.mem_map.mpr ⟨_, hp, rfl⟩

/-- A thread that has found the predicate false blocks in one step. -/
theorem exists_block {ws : List Phase} (h : .refused ∈ ws) (holds : Bool) :
    ∃ k, .blocked ∈ act holds ws (.block k) := by
  obtain ⟨k, hk⟩ := List.mem_iff_getElem?.mp h
  have hlt : k < ws.length := (List.getElem?_eq_some_iff.mp hk).1
  refine ⟨k, ?_⟩
  rw [act, if_pos hk]
  exact List.mem_iff_getElem?.mpr ⟨k, by simp [hlt]⟩

end CondVar
