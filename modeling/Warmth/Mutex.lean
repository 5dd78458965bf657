import Mathlib.Tactic.TypeStar

/-! A mutex that one thread of control may not lock twice, and programs over a state it guards. -/

namespace Mutex

inductive Fault
  | relocked | notHeld
deriving DecidableEq, Repr

/-- A call over the guarded state `σ`; the flag tells whether the call holds the mutex. -/
abbrev Call (σ : Type) := StateT (σ × Bool) (Except Fault)

variable {σ α β : Type}

/-- Locking while the same call holds the mutex never returns: the fault stands for it. -/
def acquire : Call σ Unit := fun (s, held) =>
  if held then .error .relocked else .ok ((), (s, true))

def release : Call σ Unit := fun (s, held) =>
  if held then .ok ((), (s, false)) else .error .notHeld

/-- The scope of a lock guard: every way out of the body goes through the release. -/
def guarded (body : Call σ α) : Call σ α := do
  acquire
  let a ← body
  release
  pure a

def view (f : σ → α) : Call σ α := fun (s, held) => .ok (f s, (s, held))

def act (f : σ → σ × α) : Call σ α := fun (s, held) => .ok ((f s).2, ((f s).1, held))

/-- Started in any state with the mutex as `held` says, the call returns with the mutex so. -/
def Keeps (held : Bool) (m : Call σ α) : Prop :=
  ∀ s, ∃ a t, m (s, held) = .ok (a, (t, held))

/-- Started in any state with the mutex as `held` says, the call locks it a second time. -/
def Relocks (held : Bool) (m : Call σ α) : Prop := ∀ s, m (s, held) = .error .relocked

theorem bind_ok {m : Call σ α} {f : α → Call σ β} {x y : σ × Bool} {a : α}
    (h : m x = .ok (a, y)) : (m >>= f) x = f a y := by
  change (m x >>= fun p => f p.1 p.2) = f a y
  rw [h]
  rfl

theorem bind_error {m : Call σ α} {f : α → Call σ β} {x : σ × Bool} {e : Fault}
    (h : m x = .error e) : (m >>= f) x = .error e := by
  change (m x >>= fun p => f p.1 p.2) = .error e
  rw [h]
  rfl

theorem keeps_pure (held : Bool) (a : α) : Keeps held (pure a : Call σ α) :=
  fun s => ⟨a, s, rfl⟩

theorem keeps_view (held : Bool) (f : σ → α) : Keeps held (view f) := fun s => ⟨f s, s, rfl⟩

theorem keeps_act (held : Bool) (f : σ → σ × α) : Keeps held (act f) :=
  fun s => ⟨(f s).2, (f s).1, rfl⟩

theorem Keeps.bind {held : Bool} {m : Call σ α} {f : α → Call σ β} (hm : Keeps held m)
    (hf : ∀ a, Keeps held (f a)) : Keeps held (m >>= f) := by
  intro s
  obtain ⟨a, t, h⟩ := hm s
  obtain ⟨b, u, k⟩ := hf a t
  exact ⟨b, u, (bind_ok h).trans k⟩

/-- A body that leaves the mutex held makes a call that leaves it free. -/
theorem Keeps.guarded {body : Call σ α} (h : Keeps true body) : Keeps false (guarded body) := by
  intro s
  obtain ⟨a, t, run⟩ := h s
  refine ⟨a, t, ?_⟩
  have locked : acquire (s, false) = Except.ok ((), (s, true)) := rfl
  have unlocked : release (t, true) = Except.ok ((), (t, false)) := rfl
  rw [Mutex.guarded, bind_ok locked, bind_ok run, bind_ok unlocked]
  rfl

theorem relocks_guarded (body : Call σ α) : Relocks true (guarded body) := by
  intro s
  have locked : acquire (s, true) = Except.error Fault.relocked := rfl
  rw [Mutex.guarded, bind_error locked]

theorem Relocks.bind {held : Bool} {m : Call σ α} (h : Relocks held m) (f : α → Call σ β) :
    Relocks held (m >>= f) := fun s => bind_error (h s)

theorem Relocks.after {held : Bool} {m : Call σ α} {f : α → Call σ β} (hm : Keeps held m)
    (hf : ∀ a, Relocks held (f a)) : Relocks held (m >>= f) := by
  intro s
  obtain ⟨a, t, h⟩ := hm s
  rw [bind_ok h, hf a t]

theorem Relocks.guarded {body : Call σ α} (h : Relocks true body) :
    Relocks false (guarded body) := by
  intro s
  have locked : acquire (s, false) = Except.ok ((), (s, true)) := rfl
  rw [Mutex.guarded, bind_ok locked, bind_error (h s)]

end Mutex
