import Warmth.Attribution
import Warmth.JustifiedReadiness
import Warmth.Registry

namespace Warmth

open Codec Std

def Letter.isHello : Letter → Bool
  | .hello _ => true
  | _ => false

theorem Letter.isHello_of_type {letter : Letter} (h : letter.frame.type = .hello) :
    letter.isHello = true := by
  obtain ⟨g, rfl⟩ := Network.Letter.hello_of_type h
  rfl

namespace Network

open Function

/-- A HELLO is under way only on a connection that has not been registered, and only one. -/
def SingleHello (s : Network) : Prop :=
  ∀ c, (s.inbox c).countP Letter.isHello +
    (if (s.threads.sys.coord.conns c).registered then 1 else 0) ≤ 1

theorem singleHello_init (cfgs : Nat → WorkerConfig) : (init cfgs).SingleHello := fun _ => Nat.zero_le 1

section
variable {cfgs : Nat → WorkerConfig} {s : Network}

theorem SingleHello.post (inv : s.SingleHello) (c : ConnId) {letters : List Letter}
    (quiet : letters.countP Letter.isHello = 0) : (s.post c letters).SingleHello := by
  intro c'
  have before := inv c'
  by_cases hc : c' = c
  · subst hc
    simp only [Network.post, update_self, List.countP_append, quiet, Nat.add_zero]
    exact before
  · simp only [Network.post, update_of_ne hc]
    exact before

theorem SingleHello.connect (inv : s.SingleHello) (who : Senders cfgs s) (i : Nat) :
    (s.connect i).SingleHello := by
  simp only [Network.connect]
  split
  · intro c
    have before := inv c
    by_cases hc : c = s.made
    · subst hc
      obtain ⟨empty, unregistered, -⟩ := who.fresh s.made (Nat.le_refl _)
      simp only [Network.post, Network.setPeer, Network.openFresh, update_self, empty]
      rw [unregistered]
      exact Nat.le_refl 1
    · simp only [Network.post, Network.setPeer, Network.openFresh, update_of_ne hc]
      exact before
  · exact inv

theorem SingleHello.become (inv : s.SingleHello) {a : ThreadStep}
    (unframed : ∀ c f now, a ≠ .frame c f now) : (s.become (s.threads.step a)).SingleHello := by
  obtain same | ⟨cs, f, now, h, framed, -⟩ := s.threads.step_conns a
  · intro c
    have before := inv c
    simp only [Network.become, same]
    exact before
  · exact absurd framed (unframed cs f now)

theorem SingleHello.deliver (inv : s.SingleHello) {c : ConnId} {letter : Letter} {rest : List Letter}
    (next : s.inbox c = letter :: rest) (now : Nat → Timestamp) :
    SingleHello { s.become (s.threads.step (.frame c letter.frame now)) with
      inbox := update s.inbox c rest } := by
  have here := inv c
  rw [next, List.countP_cons] at here
  obtain same | ⟨cs, f, now', h, framed, type, -, same⟩ :=
    s.threads.step_conns (.frame c letter.frame now)
  · intro c'
    have before := inv c'
    simp only [Network.become, same]
    by_cases hc : c' = c
    · subst hc
      simp only [update_self]
      omega
    · simp only [update_of_ne hc]
      exact before
  · cases framed
    rw [Letter.isHello_of_type type, if_pos rfl] at here
    intro c'
    have before := inv c'
    simp only [Network.become, same]
    by_cases hc : c' = c
    · subst hc
      simp only [update_self]
      split <;> omega
    · rw [System.register_conns_of_ne hc]
      simp only [update_of_ne hc]
      exact before

theorem SingleHello.receive (inv : s.SingleHello) (i : Nat) (c : ConnId) (f : Frame)
    (hook : Nat → HookOutcome) (now : Nat → Nat → Timestamp) :
    (s.receive i c f hook now).SingleHello := by
  have taken (p : Peer) : ((s.take c).setPeer i p).SingleHello := inv
  unfold Network.receive
  split
  next => exact inv
  next => exact taken _
  next =>
    refine (taken _).post c (List.countP_eq_zero.mpr fun letter mem => ?_)
    obtain ⟨answer, -, rfl⟩ := List.mem_map.mp mem
    exact Bool.false_ne_true

theorem SingleHello.step (inv : s.SingleHello) (who : Senders cfgs s) (a : NetStep) :
    (s.step a).SingleHello := by
  have went := s.went_step a
  generalize s.step a = t at went
  cases went with
  | idle => exact inv
  | connect => exact inv.connect who _
  | read => exact inv.receive _ _ _ _ _
  | lose | flag => exact inv
  | shutdown => exact SingleHello.post (s := s.setPeer _ _) inv _ rfl
  | deliver next => exact inv.deliver next _
  | coordinator unframed => exact inv.become unframed

/-- The HELLO that the coordinator takes is the first of its connection. -/
theorem SingleHello.registersFresh (inv : s.SingleHello) {c : ConnId} {letter : Letter}
    {rest : List Letter} (next : s.inbox c = letter :: rest) (now : Nat → Timestamp) :
    s.threads.sys.RegistersFresh (.frame c letter.frame now) := by
  intro cs h registers
  cases registers with
  | hello _ type =>
    have here := inv c
    rw [next, List.countP_cons, Letter.isHello_of_type type, if_pos rfl] at here
    by_contra registered
    rw [Bool.eq_true_of_not_eq_false registered, if_pos rfl] at here
    omega

end

/-- What a step of the network is to its coordinator: nothing, or one step that brings no second
HELLO and no HOT object. -/
theorem step_refines {cfgs : Nat → WorkerConfig} {s : Network} (who : Senders cfgs s)
    (introduced : s.Introduced) (single : s.SingleHello) (a : NetStep) :
    (s.step a).threads.sys = s.threads.sys ∨
      ∃ b, (s.threads.sys.RegistersFresh b ∧ ¬ s.threads.sys.BringsHot b) ∧
        (s.step a).threads.sys = s.threads.sys.step b := by
  have went := s.went_step a
  generalize s.step a = t at went
  cases went with
  | connect =>
    refine Or.inl ?_
    simp only [Network.connect]
    split <;> rfl
  | read =>
    refine Or.inl ?_
    unfold Network.receive
    split <;> rfl
  | idle | lose | shutdown | flag => exact Or.inl rfl
  | @deliver c now letter rest next =>
    rcases s.threads.step_frame_sys c letter.frame now with same | same
    · exact Or.inl same
    · exact Or.inr ⟨.frame c letter.frame now,
        ⟨single.registersFresh next now, introduced.not_bringsHot who next now⟩, same⟩
  | coordinator unframed =>
    rcases s.threads.step_sys unframed with same | ⟨b, other, -, same⟩
    · exact Or.inl same
    · refine Or.inr ⟨b, ⟨fun cs h registers => ?_, ?_⟩, same⟩
      · obtain ⟨f, now, framed, -⟩ := registers.frame
        exact absurd framed (other cs f now)
      · rintro ⟨os, id, carries, -⟩
        cases carries <;> exact other _ _ _ rfl

end Network

namespace System

theorem RegistersFresh.not_rebinds {s : System} {a : Step} (inv : s.Consistent)
    (fresh : s.RegistersFresh a) : ¬ s.Rebinds a := by
  rintro ⟨cs, h, w, registers, entry, -⟩
  have unregistered := fresh cs h registers
  rw [(inv w cs entry).1] at unregistered
  cases unregistered

end System

namespace Network

/-- Among workers the registry always names open connections that still go by their id, only those
block a boot, and every ready object belongs to one of them. -/
theorem registry_serves_workers (cfgs : Nat → WorkerConfig) (steps : List NetStep) :
    let s := (Runs.run step (init cfgs) steps).threads.sys
    s.Consistent ∧ s.BlockedByLive ∧ s.Attributed := by
  let J (s : System) : Prop := s.Consistent ∧ s.coord.policy = .defaults ⟨1⟩ ∧ s.Attributed
  have keep (s : System) (a : Step) (inv : J s) (fresh : s.RegistersFresh a) : J (s.step a) := by
    obtain ⟨consistent, policy, attributed⟩ := inv
    refine ⟨consistent.step (fresh.not_rebinds consistent),
      (System.stepped_policy (System.stepped_step s a)).trans policy, ?_⟩
    exact attributed.step (by rw [policy]; rfl) fresh
  let I (s : Network) : Prop := Senders cfgs s ∧ s.Introduced ∧ s.SingleHello ∧ J s.threads.sys
  have next (s : Network) (a : NetStep) (inv : I s) : I (s.step a) := by
    obtain ⟨who, introduced, single, served⟩ := inv
    refine ⟨who.step a, introduced.step a, single.step who a, ?_⟩
    rcases step_refines who introduced single a with same | ⟨b, ⟨fresh, -⟩, same⟩
    · rw [same]
      exact served
    · rw [same]
      exact keep s.threads.sys b served fresh
  have start : I (init cfgs) := ⟨senders_init cfgs, introduced_init cfgs, singleHello_init cfgs,
    System.consistent_init, rfl, System.attributed_init⟩
  obtain ⟨-, -, -, consistent, -, attributed⟩ :=
    Runs.reachable_invariant start next (Runs.reachable_run steps)
  exact ⟨consistent, consistent.blockedByLive, attributed⟩

end Network

end Warmth
