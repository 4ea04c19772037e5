import Mathlib.Algebra.GroupWithZero.Nat
import Pickpoint.Interleave.Rules

/-!
# Runs with a Tally

How to say how often something happened in a run.

A pool only knows the present. `Tallied` is reachability with a value kept
beside the pool, which every step may update from what it sees: the pool
before it, the task that resumes and the section it issues. The tally starts at
a given value, no section reads it, and the step condition may depend on it.

Counting tasks goes with it. `resumed_countP` says how a step changes the
number of tasks of a kind, so a tally can be balanced against the tasks that
will still add to it. `resumed_sum` does the same for tasks that may add more
than one.

## Main definitions

* `Machine.noting`: One step's update of a tally.
* `Machine.Tallied`: Pools reached, with their tally.
* `Machine.replayNoting`: Running a list of labels with a tally.

## Theorems

* `tallied_inv`: Induction along a run with a tally.
* `tallied_reach`, `reach_tallied`: A run with a tally is a run, and any run has one.
* `tallied_of_replay`, `exists_tallied`: A replay shows reachability.
* `resumed_countP`, `resumed_sum`: How a step changes the number of tasks of a
  kind, and what the tasks weigh.
* `resumed_flatMap`, `flatMap_single`: What the tasks carry together.
-/

namespace Interleave

namespace Machine

variable {σ τ κ β : Type}

/-- Update a tally with a step: what task `i` saw and issued, if one resumed. -/
def noting (m : Machine σ τ κ) (f : Pool σ τ → Nat → τ → Act m.Op τ → β → β) (p : Pool σ τ) :
    Label τ κ → β → β
  | .resume i c, b =>
    match p.tasks[i]? with
    | none => b
    | some t =>
      match m.act t c with
      | none => b
      | some a => f p i t a b
  | .spawn _, b => b

theorem noting_resume (m : Machine σ τ κ) (f : Pool σ τ → Nat → τ → Act m.Op τ → β → β)
    (p : Pool σ τ) (i : Nat) (c : κ) (t : τ) (a : Act m.Op τ) (b : β)
    (ht : p.tasks[i]? = some t) (ha : m.act t c = some a) :
    m.noting f p (.resume i c) b = f p i t a b := by
  simp only [noting, ht, ha]

/-- The pools reached by steps that meet `C`, and the tally each was reached
    with. -/
inductive Tallied (m : Machine σ τ κ) (init : Pool σ τ → Prop)
    (C : β → Pool σ τ → Nat → τ → Act m.Op τ → Prop)
    (f : Pool σ τ → Nat → τ → Act m.Op τ → β → β) (b₀ : β) : Pool σ τ → β → Prop where
  | init (p : Pool σ τ) (h : init p) : Tallied m init C f b₀ p b₀
  | step (p q : Pool σ τ) (b : β) (l : Label τ κ) (hp : Tallied m init C f b₀ p b)
      (hok : m.whenever (C b) p l) (hs : m.step p l = some q) :
      Tallied m init C f b₀ q (m.noting f p l b)

section Rules

variable (m : Machine σ τ κ) (init : Pool σ τ → Prop)
  (C : β → Pool σ τ → Nat → τ → Act m.Op τ → Prop)
  (f : Pool σ τ → Nat → τ → Act m.Op τ → β → β) (b₀ : β)

/-- A run with a tally is a run. -/
theorem tallied_reach (p : Pool σ τ) (b : β) (h : m.Tallied init C f b₀ p b) :
    m.Reach init (m.whenever fun _ _ _ _ => True) p := by
  induction h with
  | init p hp => exact Reach.init p hp
  | step p q b l _ _ hs ih =>
      refine Reach.step p q l ih ?_ hs
      cases l with
      | resume i c => exact fun _ _ _ _ => trivial
      | spawn t => trivial

/-- Any run can be watched. -/
theorem reach_tallied (p : Pool σ τ) (h : m.Reach init anyStep p) :
    ∃ b, m.Tallied init (fun _ _ _ _ _ => True) f b₀ p b := by
  induction h with
  | init p hp => exact ⟨b₀, .init p hp⟩
  | step p q l _ _ hs ih =>
      rcases ih with ⟨b, hb⟩
      refine ⟨m.noting f p l b, .step p q b l hb ?_ hs⟩
      cases l with
      | resume i c => exact fun _ _ _ _ => trivial
      | spawn t => trivial

/-- A property of pool and tally holds throughout when every section issued
    preserves it and new calls do. What is known of every pool reached is at
    hand. -/
theorem tallied_inv (J : Pool σ τ → Prop)
    (hJ : ∀ p, m.Reach init (m.whenever fun _ _ _ _ => True) p → J p)
    (I : Pool σ τ → β → Prop) (h0 : ∀ p, init p → I p b₀)
    (hresume : ∀ p i c t a b, p.tasks[i]? = some t → m.act t c = some a → C b p i t a → J p →
      I p b → I (m.resumed p i a) (f p i t a b))
    (hspawn : ∀ p t b, m.entry p.shared t = true → J p → I p b →
      I { p with tasks := p.tasks ++ [t] } b)
    (p : Pool σ τ) (b : β) (h : m.Tallied init C f b₀ p b) : I p b := by
  induction h with
  | init p hp => exact h0 p hp
  | step p q b l hp hok hs ih =>
      have hknown : J p := hJ p (m.tallied_reach init C f b₀ p b hp)
      cases l with
      | resume i c =>
          rcases (m.step_resume_iff p q i c).mp hs with ⟨t, a, ht, ha, rfl⟩
          rw [m.noting_resume f p i c t a b ht ha]
          exact hresume p i c t a b ht ha (hok t a ht ha) hknown ih
      | spawn t =>
          rcases (m.step_spawn_iff p q t).mp hs with ⟨hent, rfl⟩
          exact hspawn p t b hent hknown ih

/-- Run a list of labels with a tally, checking every step. -/
def replayNoting (check : β → Pool σ τ → Nat → τ → Act m.Op τ → Bool) :
    Pool σ τ → β → List (Label τ κ) → Option (Pool σ τ × β)
  | p, b, [] => some (p, b)
  | p, b, l :: ls =>
    if m.watch (check b) p l then
      match m.step p l with
      | none => none
      | some q => replayNoting check q (m.noting f p l b) ls
    else none

/-- A successful replay out of a reached pool ends in a reached pool with the
    tally it computed, for any condition the check guarantees. -/
theorem tallied_of_replay (check : β → Pool σ τ → Nat → τ → Act m.Op τ → Bool)
    (hle : ∀ b p i t a, check b p i t a = true → C b p i t a) :
    ∀ (ls : List (Label τ κ)) (p q : Pool σ τ) (b b' : β), m.Tallied init C f b₀ p b →
      m.replayNoting f check p b ls = some (q, b') → m.Tallied init C f b₀ q b' := by
  intro ls
  induction ls with
  | nil =>
      intro p q b b' hp h
      simp only [replayNoting, Option.some.injEq, Prod.mk.injEq] at h
      rwa [← h.1, ← h.2]
  | cons l ls ih =>
      intro p q b b' hp h
      simp only [replayNoting] at h
      by_cases hok : m.watch (check b) p l = true
      · rw [if_pos hok] at h
        rcases hs : m.step p l with _ | p'
        · simp only [hs, reduceCtorEq] at h
        · simp only [hs] at h
          have hchecked := m.whenever_of_watch (check b) p l hok
          have hmet : m.whenever (C b) p l := by
            cases l with
            | resume i c => exact fun t a ht ha => hle b p i t a (hchecked t a ht ha)
            | spawn t => trivial
          exact ih p' q _ b' (Tallied.step p p' b l hp hmet hs) h
      · rw [if_neg hok] at h
        cases h

/-- A replay out of an initial pool whose end passes `P` shows that a pool and a
    tally passing `P` are reached. -/
theorem exists_tallied (check : β → Pool σ τ → Nat → τ → Act m.Op τ → Bool)
    (hle : ∀ b p i t a, check b p i t a = true → C b p i t a) (ls : List (Label τ κ))
    (p₀ : Pool σ τ) (h0 : init p₀) (P : Pool σ τ → β → Bool)
    (h : (m.replayNoting f check p₀ b₀ ls).any (fun r => P r.1 r.2) = true) :
    ∃ p b, m.Tallied init C f b₀ p b ∧ P p b = true := by
  rcases Option.any_eq_true _ _ |>.mp h with ⟨⟨p, b⟩, hp, hP⟩
  exact ⟨p, b, m.tallied_of_replay init C f b₀ check hle ls p₀ p b₀ b (.init p₀ h0) hp, hP⟩

/-- How a step changes the number of tasks of a kind. -/
theorem resumed_countP (p : Pool σ τ) (i : Nat) (a : Act m.Op τ) (t : τ)
    (ht : p.tasks[i]? = some t) (k : τ → Bool) :
    (m.resumed p i a).tasks.countP k + (if k t then 1 else 0) =
      p.tasks.countP k + (if k (m.heir a p.shared) then 1 else 0) +
        (m.spawned a p.shared).countP k := by
  rcases List.getElem?_eq_some_iff.mp ht with ⟨hi, hget⟩
  have hset := List.countP_set (p := k) (l := p.tasks) (i := i) (a := m.heir a p.shared) hi
  rw [hget] at hset
  rw [resumed_tasks, List.countP_append, hset]
  -- A task that counts is itself among those counted.
  have hpos : (if k t then 1 else 0) ≤ p.tasks.countP k := by
    by_cases hk : k t = true
    · rw [if_pos hk]
      exact List.countP_pos_iff.mpr ⟨t, List.mem_of_getElem? ht, hk⟩
    · rw [if_neg hk]
      exact Nat.zero_le _
  omega

/-- The sum of a list that differs at one place. -/
theorem sum_set (f : τ → Nat) (ts : List τ) (i : Nat) (t u : τ) (ht : ts[i]? = some t) :
    ((ts.set i u).map f).sum + f t = (ts.map f).sum + f u := by
  induction ts generalizing i with
  | nil => cases ht
  | cons x ts ih =>
      cases i with
      | zero =>
          cases ht
          simp only [List.set_cons_zero, List.map_cons, List.sum_cons]
          omega
      | succ i =>
          have h := ih i ht
          simp only [List.set_cons_succ, List.map_cons, List.sum_cons]
          omega

/-- How a step changes what the tasks weigh together. -/
theorem resumed_sum (p : Pool σ τ) (i : Nat) (a : Act m.Op τ) (t : τ)
    (ht : p.tasks[i]? = some t) (f : τ → Nat) :
    ((m.resumed p i a).tasks.map f).sum + f t =
      (p.tasks.map f).sum + f (m.heir a p.shared) + ((m.spawned a p.shared).map f).sum := by
  have h := sum_set f p.tasks i t (m.heir a p.shared) ht
  rw [resumed_tasks, List.map_append, List.sum_append]
  omega

/-! ### What the tasks carry -/

/-- What the tasks carry together changes when just one of them carries anything
    else than before. -/
theorem flatMap_set {γ : Type} (f : τ → List γ) (ts : List τ) (i : Nat) (t u : τ)
    (ht : ts[i]? = some t) (hu : f u = f t) : (ts.set i u).flatMap f = ts.flatMap f := by
  induction ts generalizing i with
  | nil => cases ht
  | cons x ts ih =>
      cases i with
      | zero =>
          cases ht
          simp only [List.set_cons_zero, List.flatMap_cons, hu]
      | succ i => simp only [List.set_cons_succ, List.flatMap_cons, ih i ht]

/-- A step of a task that goes on carrying the same leaves what is carried. -/
theorem resumed_flatMap {γ : Type} (p : Pool σ τ) (i : Nat) (a : Act m.Op τ) (t : τ)
    (ht : p.tasks[i]? = some t) (f : τ → List γ) (hheir : f (m.heir a p.shared) = f t)
    (hnew : ∀ u ∈ m.spawned a p.shared, f u = []) :
    (m.resumed p i a).tasks.flatMap f = p.tasks.flatMap f := by
  rw [resumed_tasks, List.flatMap_append, List.flatMap_eq_nil_iff.mpr hnew, List.append_nil]
  exact flatMap_set f p.tasks i t _ ht hheir

/-- When only one task carries anything, that is what is carried. -/
theorem flatMap_single {γ : Type} (f : τ → List γ) (ts : List τ) (i : Nat) (t : τ)
    (ht : ts[i]? = some t) (hothers : ∀ (j : Nat) u, j ≠ i → ts[j]? = some u → f u = []) :
    ts.flatMap f = f t := by
  induction ts generalizing i with
  | nil => cases ht
  | cons x ts ih =>
      cases i with
      | zero =>
          cases ht
          have hrest : ts.flatMap f = [] := by
            refine List.flatMap_eq_nil_iff.mpr fun u hu => ?_
            rcases List.mem_iff_getElem?.mp hu with ⟨j, hj⟩
            exact hothers (j + 1) u (Nat.succ_ne_zero j) hj
          rw [List.flatMap_cons, hrest, List.append_nil]
      | succ i =>
          rw [List.flatMap_cons, hothers 0 x (Nat.succ_ne_zero i).symm rfl, List.nil_append]
          exact ih i ht fun j u hji hu => hothers (j + 1) u (fun h => hji (Nat.succ.inj h)) hu

end Rules

end Machine

end Interleave
