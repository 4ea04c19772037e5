import Pickpoint.Interleave.Clock
import Pickpoint.Interleave.Tally

/-!
# Gates

Limiting how often tasks may do something.

A gate is a time in the shared state. A section that wants to pass reads the clock,
finds the gate open, and moves it `d` past the present, in one go; nothing else
moves it back. Any two passes are then `d` apart, however many tasks there are and
however long each of them is suspended in between, even when the clock that is read
runs backwards: a gate does not know what passed it but for its time.

## Main definitions

* `Act.base`: A section without its time.
* `Gate`: A time in the shared state, and what passes it.
* `Gate.note`: The passes of a run.

## Theorems

* `clocked_base`: What a task does at a time.
* `gate_spaced`: Passes are apart.
-/

namespace Interleave

/-- The same section without its time. -/
def Act.base {Op : Type → Type} {τ T : Type} (a : Act (fun α => Op α × T) τ) : Act Op τ :=
  ⟨a.op.1, a.next⟩

namespace Machine

variable {σ τ κ : Type}

/-- A section at a time is one of the machine, issued at that time. -/
theorem clocked_base {T : Type} (m : Machine σ τ κ) (shows : κ → T → Bool) (t : τ) (c : κ × T)
    (a : Act (m.clocked shows).Op τ) (h : (m.clocked shows).act t c = some a) :
    shows c.1 c.2 = true ∧ a.op.2 = c.2 ∧ m.act t c.1 = some a.base := by
  unfold clocked at h
  by_cases hshows : shows c.1 c.2 = true
  · simp only [hshows, if_true] at h
    rcases Option.map_eq_some_iff.mp h with ⟨a', ha', rfl⟩
    exact ⟨hshows, rfl, ha'⟩
  · simp only [hshows] at h
    cases h

/-- When something may be done again: what passes finds the time to have come and
    puts it off by `d`, and nothing brings it forward. -/
structure Gate (m : Machine σ τ κ) (shows : κ → Nat → Bool) (d : Nat) where
  opens : σ → Nat
  passes : σ → Act m.Op τ → Bool
  asks : ∀ t c a s now, m.act t c = some a → shows c now = true → passes s a = true →
    opens s ≤ now ∧ opens (m.after a s) = now + d
  keeps : ∀ t c a s, m.act t c = some a → opens s ≤ opens (m.after a s)

namespace Gate

variable {m : Machine σ τ κ} {shows : κ → Nat → Bool} {d : Nat} (g : Gate m shows d)

/-- Note who passes, and when, newest first. -/
def note (p : Pool (σ × Nat) τ) (i : Nat) (_ : τ) (a : Act (m.clocked shows).Op τ)
    (log : List (Nat × Nat)) : List (Nat × Nat) :=
  if g.passes p.shared.1 a.base then (i, a.op.2) :: log else log

/-- The passes are apart, and the gate is past them all: the next one to pass will
    be as far from the last. -/
structure Spaces (p : Pool (σ × Nat) τ) (log : List (Nat × Nat)) : Prop where
  apart : log.Pairwise fun x y => y.2 + d ≤ x.2
  past : ∀ x ∈ log, x.2 + d ≤ g.opens p.shared.1

theorem step_spaces (p : Pool (σ × Nat) τ) (i : Nat) (c : κ × Nat) (t : τ)
    (a : Act (m.clocked shows).Op τ) (log : List (Nat × Nat))
    (ha : (m.clocked shows).act t c = some a) (h : g.Spaces p log) :
    g.Spaces ((m.clocked shows).resumed p i a) (g.note p i t a log) := by
  rcases m.clocked_base shows t c a ha with ⟨hshows, hnow, hbase⟩
  have hshared : ((m.clocked shows).resumed p i a).shared.1 = m.after a.base p.shared.1 := rfl
  have hforward : ∀ x ∈ log, x.2 + d ≤ g.opens ((m.clocked shows).resumed p i a).shared.1 :=
    fun x hx => Nat.le_trans (h.past x hx) (hshared ▸ g.keeps t c.1 a.base p.shared.1 hbase)
  by_cases hpass : g.passes p.shared.1 a.base = true
  · rcases g.asks t c.1 a.base p.shared.1 c.2 hbase hshows hpass with ⟨hopen, hmoved⟩
    rw [note, if_pos hpass]
    refine ⟨List.pairwise_cons.mpr ⟨fun x hx => ?_, h.apart⟩, fun x hx => ?_⟩
    · show x.2 + d ≤ a.op.2
      rw [hnow]
      exact Nat.le_trans (h.past x hx) hopen
    · rcases List.mem_cons.mp hx with rfl | hx
      · rw [hshared, hmoved]
        exact Nat.le_of_eq (congrArg (· + d) hnow)
      · exact hforward x hx
  · rw [note, if_neg hpass]
    exact ⟨h.apart, hforward⟩

/-- Whatever passes a gate is apart from what passed it before, in every run. -/
theorem gate_spaced (init : Pool (σ × Nat) τ → Prop)
    (C : List (Nat × Nat) → Pool (σ × Nat) τ → Nat → τ → Act (m.clocked shows).Op τ → Prop)
    (p : Pool (σ × Nat) τ) (log : List (Nat × Nat))
    (h : (m.clocked shows).Tallied init C g.note [] p log) : g.Spaces p log := by
  refine (m.clocked shows).tallied_inv init C g.note [] (fun _ => True) (fun _ _ => trivial)
    g.Spaces ?_ ?_ ?_ p log h
  · exact fun p _ => ⟨.nil, fun x hx => absurd hx List.not_mem_nil⟩
  · exact fun p i c t a log _ ha _ _ hI => g.step_spaces p i c t a log ha hI
  · exact fun p t log _ _ hI => ⟨hI.apart, hI.past⟩

end Gate

end Machine

end Interleave
