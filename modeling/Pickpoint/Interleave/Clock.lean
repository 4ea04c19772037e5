import Pickpoint.Interleave.Rules

/-!
# Machines with a Clock

Runs in which time passes.

A machine knows no time. An input may hold a reading of a clock, but nothing
ties the reading of one step to that of the next, and a step that reads no
clock happens at no time at all. `clocked` keeps the time of the last step
beside the shared state. Every input comes with the time of its step, and
`shows` says which inputs are possible then: a clock that is read shows the
present. Time passes between steps, and `onTime` is the condition that it never
runs backwards.

The clock only adds to a machine. A run with a clock is a run without one
(`clocked_reach`), so whatever holds of every pool reached holds here too.

## Main definitions

* `Machine.clocked`: A machine whose steps have a time.
* `Machine.onTime`: Time does not run backwards.
* `Label.stamped`: A step at a given time.

## Theorems

* `clocked_act`: What a task does at a time.
* `clocked_reach`: A run with a clock is a run.
-/

namespace Interleave

/-- A step at a given time. -/
def Label.stamped {τ κ T : Type} (now : T) : Label τ κ → Label τ (κ × T)
  | .resume i c => .resume i (c, now)
  | .spawn t => .spawn t

namespace Machine

variable {σ τ κ T : Type}

/-- The machine with the time of the last step beside its shared state. An input
    `c` is possible at the time `now` when `shows c now`. -/
def clocked (m : Machine σ τ κ) (shows : κ → T → Bool) : Machine (σ × T) τ (κ × T) where
  Op α := m.Op α × T
  run op s := (((m.run op.1 s.1).1, op.2), (m.run op.1 s.1).2)
  act t c := if shows c.1 c.2 then (m.act t c.1).map fun a => ⟨(a.op, c.2), a.next⟩ else none
  entry s t := m.entry s.1 t

/-- Time does not run backwards. -/
def onTime [LE T] (m : Machine σ τ κ) (shows : κ → T → Bool) (p : Pool (σ × T) τ)
    (a : Act (m.clocked shows).Op τ) : Prop :=
  p.shared.2 ≤ a.op.2

instance [LE T] [DecidableLE T] (m : Machine σ τ κ) (shows : κ → T → Bool)
    (p : Pool (σ × T) τ) (a : Act (m.clocked shows).Op τ) : Decidable (m.onTime shows p a) :=
  inferInstanceAs (Decidable (p.shared.2 ≤ a.op.2))

section Clocked

variable (m : Machine σ τ κ) (shows : κ → T → Bool)

/-- What a task does at a time is what it does. -/
theorem clocked_act (t : τ) (c : κ × T) (a : Act (m.clocked shows).Op τ)
    (h : (m.clocked shows).act t c = some a) :
    shows c.1 c.2 = true ∧ a.op.2 = c.2 ∧ ∃ a', m.act t c.1 = some a' ∧
      ∀ s, (m.clocked shows).heir a s = m.heir a' s.1 ∧
        (m.clocked shows).spawned a s = m.spawned a' s.1 ∧
        (m.clocked shows).after a s = (m.after a' s.1, c.2) := by
  unfold clocked at h
  by_cases hshows : shows c.1 c.2 = true
  · simp only [hshows, if_true] at h
    rcases Option.map_eq_some_iff.mp h with ⟨a', ha', rfl⟩
    exact ⟨hshows, rfl, a', ha', fun s => ⟨rfl, rfl, rfl⟩⟩
  · simp only [hshows] at h
    cases h

/-- A run with a clock is a run. -/
theorem clocked_reach (init : Pool σ τ → Prop) (init' : Pool (σ × T) τ → Prop)
    (h0 : ∀ p, init' p → init ⟨p.shared.1, p.tasks⟩)
    (ok : Pool (σ × T) τ → Label τ (κ × T) → Prop) (p : Pool (σ × T) τ)
    (h : (m.clocked shows).Reach init' ok p) : m.Reach init anyStep ⟨p.shared.1, p.tasks⟩ := by
  induction h with
  | init p hp => exact Reach.init _ (h0 p hp)
  | step p q l _ _ hs ih =>
      cases l with
      | resume i c =>
          rcases (step_resume_iff _ p q i c).mp hs with ⟨t, a, ht, ha, rfl⟩
          rcases m.clocked_act shows t c a ha with ⟨_, _, a', ha', hafter⟩
          rcases hafter p.shared with ⟨hheir, hspawned, hshared⟩
          refine Reach.step _ _ (.resume i c.1) ih trivial
            ((m.step_resume_iff _ _ i c.1).mpr ⟨t, a', ht, ha', ?_⟩)
          rw [resumed_tasks, hheir, hspawned]
          exact congrArg (fun s => Pool.mk s _) (congrArg Prod.fst hshared)
      | spawn t =>
          rcases (step_spawn_iff _ p q t).mp hs with ⟨hent, rfl⟩
          exact Reach.step _ _ (.spawn t) ih trivial ((m.step_spawn_iff _ _ t).mpr ⟨hent, rfl⟩)

end Clocked

end Machine

end Interleave
