import Pickpoint.Interleave.Machine

/-!
# Invariant Rules

How to prove something of every pool a machine reaches.

`whenever C` is the step condition saying that whichever task resumes, the
section it issues meets `C`. The rules below are stated for runs under such a
condition, so what the condition gives is at hand in every preservation
proof.

`reach_shared` is for a property of the shared state alone: every section has
to preserve it. `reach_tasks` adds a property of each task relative to the
shared state. Its two obligations are the usual ones for concurrent programs:
a task's own step establishes the property for what the task becomes and for
what it spawns, and no step of another task destroys it. `reach_distinct` is
for a relation between any two different tasks, such as never holding the same
token.

## Main definitions

* `Machine.whenever`, `Machine.watch`: A condition on the sections issued, and
  its check.

## Theorems

* `resumed_get_self`, `resumed_get_other`: The tasks after a step.
* `resumed_get_cases`, `entered_get_cases`: Where a task of the next pool comes from.
* `entered_get_old`: The tasks after a call came in.
* `exists_task_iff`, `exists_resumed_iff`: Whether there is a task of a kind.
* `reach_inv`, `reach_pool`: Induction along a run.
* `reach_knowing`: Known invariants as step conditions.
* `reach_any`: Runs without a condition.
* `reach_trans`: Runs one after the other.
* `reach_shared`: Invariants of the shared state.
* `reach_tasks`: Invariants of every task.
* `reach_distinct`: Invariants of every two tasks.
-/

namespace Interleave

namespace Machine

variable {σ τ κ : Type}

/-- Whichever task resumes, the section it issues meets `C`. -/
def whenever (m : Machine σ τ κ) (C : Pool σ τ → Nat → τ → Act m.Op τ → Prop) :
    Pool σ τ → Label τ κ → Prop
  | p, .resume i c => ∀ t a, p.tasks[i]? = some t → m.act t c = some a → C p i t a
  | _, .spawn _ => True

/-- The check that whichever task resumes, the section it issues passes `C`. -/
def watch (m : Machine σ τ κ) (C : Pool σ τ → Nat → τ → Act m.Op τ → Bool) :
    Pool σ τ → Label τ κ → Bool
  | p, .resume i c =>
    match p.tasks[i]? with
    | none => true
    | some t =>
      match m.act t c with
      | none => true
      | some a => C p i t a
  | _, .spawn _ => true

theorem whenever_of_watch (m : Machine σ τ κ) (C : Pool σ τ → Nat → τ → Act m.Op τ → Bool)
    (p : Pool σ τ) (l : Label τ κ) (h : m.watch C p l = true) :
    m.whenever (fun p i t a => C p i t a = true) p l := by
  cases l with
  | resume i c =>
      intro t a ht ha
      simpa only [watch, ht, ha] using h
  | spawn t => trivial

/-- The shared state after the section of `a`. -/
def after (m : Machine σ τ κ) (a : Act m.Op τ) (s : σ) : σ := (m.run a.op s).1

/-- The task that issued the section of `a`, afterwards. -/
def heir (m : Machine σ τ κ) (a : Act m.Op τ) (s : σ) : τ := (a.next (m.run a.op s).2).1

/-- The tasks spawned after the section of `a`. -/
def spawned (m : Machine σ τ κ) (a : Act m.Op τ) (s : σ) : List τ :=
  (a.next (m.run a.op s).2).2

theorem resumed_tasks (m : Machine σ τ κ) (p : Pool σ τ) (i : Nat) (a : Act m.Op τ) :
    (m.resumed p i a).tasks = p.tasks.set i (m.heir a p.shared) ++ m.spawned a p.shared := rfl

theorem resumed_get_self (m : Machine σ τ κ) (p : Pool σ τ) (i : Nat) (a : Act m.Op τ)
    (t : τ) (ht : p.tasks[i]? = some t) :
    (m.resumed p i a).tasks[i]? = some (m.heir a p.shared) := by
  have hi : i < p.tasks.length := (List.getElem?_eq_some_iff.mp ht).1
  rw [resumed_tasks, List.getElem?_append_left (by rw [List.length_set]; exact hi),
    List.getElem?_set_self hi]

theorem resumed_get_other (m : Machine σ τ κ) (p : Pool σ τ) (i j : Nat) (a : Act m.Op τ)
    (u : τ) (hij : j ≠ i) (hu : p.tasks[j]? = some u) :
    (m.resumed p i a).tasks[j]? = some u := by
  have hj : j < p.tasks.length := (List.getElem?_eq_some_iff.mp hu).1
  rw [resumed_tasks, List.getElem?_append_left (by rw [List.length_set]; exact hj),
    List.getElem?_set_ne hij.symm, hu]

/-- A task of the next pool is the one that stepped, one that did not, or a
    spawned one. -/
theorem resumed_get_cases (m : Machine σ τ κ) (p : Pool σ τ) (i j : Nat) (a : Act m.Op τ)
    (t u : τ) (ht : p.tasks[i]? = some t) (hu : (m.resumed p i a).tasks[j]? = some u) :
    (j = i ∧ u = m.heir a p.shared) ∨ (j ≠ i ∧ p.tasks[j]? = some u) ∨
      (p.tasks.length ≤ j ∧
        (m.spawned a p.shared)[j - p.tasks.length]? = some u) := by
  have hi : i < p.tasks.length := (List.getElem?_eq_some_iff.mp ht).1
  by_cases hj : j < p.tasks.length
  · rw [resumed_tasks, List.getElem?_append_left (by rw [List.length_set]; exact hj)] at hu
    by_cases hij : j = i
    · subst hij
      rw [List.getElem?_set_self hi, Option.some.injEq] at hu
      exact Or.inl ⟨rfl, hu.symm⟩
    · rw [List.getElem?_set_ne (Ne.symm hij)] at hu
      exact Or.inr (Or.inl ⟨hij, hu⟩)
  · rw [resumed_tasks, List.getElem?_append_right (by rw [List.length_set]; omega),
      List.length_set] at hu
    exact Or.inr (Or.inr ⟨by omega, hu⟩)

/-- A task of the pool after a call came in is the call, or was there before. -/
theorem entered_get_cases (ts : List τ) (t u : τ) (j : Nat) (hu : (ts ++ [t])[j]? = some u) :
    ts[j]? = some u ∨ u = t := by
  rcases Nat.lt_or_ge j ts.length with hlt | hge
  · rw [List.getElem?_append_left hlt] at hu
    exact Or.inl hu
  · rw [List.getElem?_append_right hge] at hu
    exact Or.inr (List.mem_singleton.mp (List.mem_of_getElem? hu))

/-- A call that comes in leaves the other tasks where they are. -/
theorem entered_get_old (ts : List τ) (t u : τ) (j : Nat) (hu : ts[j]? = some u) :
    (ts ++ [t])[j]? = some u := by
  rw [List.getElem?_append_left (List.getElem?_eq_some_iff.mp hu).1]
  exact hu

/-- Whether some task is of a kind, seen from one of them. -/
theorem exists_task_iff (p : Pool σ τ) (i : Nat) (t : τ) (ht : p.tasks[i]? = some t)
    (P : τ → Prop) :
    (∃ u ∈ p.tasks, P u) ↔ P t ∨ ∃ (j : Nat) (u : τ), j ≠ i ∧ p.tasks[j]? = some u ∧ P u := by
  constructor
  · rintro ⟨u, hu, hP⟩
    rcases List.mem_iff_getElem?.mp hu with ⟨j, hj⟩
    by_cases hji : j = i
    · rw [hji, ht, Option.some.injEq] at hj
      exact Or.inl (hj ▸ hP)
    · exact Or.inr ⟨j, u, hji, hj, hP⟩
  · rintro (hP | ⟨j, u, _, hu, hP⟩)
    · exact ⟨t, List.mem_of_getElem? ht, hP⟩
    · exact ⟨u, List.mem_of_getElem? hu, hP⟩

/-- The same after a step that spawns no task of the kind. -/
theorem exists_resumed_iff (m : Machine σ τ κ) (p : Pool σ τ) (i : Nat) (a : Act m.Op τ) (t : τ)
    (ht : p.tasks[i]? = some t) (P : τ → Prop) (hnew : ∀ u ∈ m.spawned a p.shared, ¬ P u) :
    (∃ u ∈ (m.resumed p i a).tasks, P u) ↔
      P (m.heir a p.shared) ∨ ∃ (j : Nat) (u : τ), j ≠ i ∧ p.tasks[j]? = some u ∧ P u := by
  constructor
  · rintro ⟨u, hu, hP⟩
    rcases List.mem_iff_getElem?.mp hu with ⟨j, hj⟩
    rcases m.resumed_get_cases p i j a t u ht hj with ⟨_, rfl⟩ | ⟨hji, hu'⟩ | ⟨_, hu'⟩
    · exact Or.inl hP
    · exact Or.inr ⟨j, u, hji, hu', hP⟩
    · exact absurd hP (hnew u (List.mem_of_getElem? hu'))
  · rintro (hP | ⟨j, u, hji, hu, hP⟩)
    · exact ⟨_, List.mem_of_getElem? (m.resumed_get_self p i a t ht), hP⟩
    · exact ⟨u, List.mem_of_getElem? (m.resumed_get_other p i j a u hji hu), hP⟩

/-- Induction along a run. -/
theorem reach_inv (m : Machine σ τ κ) (init : Pool σ τ → Prop)
    (ok : Pool σ τ → Label τ κ → Prop) (I : Pool σ τ → Prop)
    (h0 : ∀ p, init p → I p)
    (hs : ∀ p q l, I p → ok p l → m.step p l = some q → I q) (p : Pool σ τ)
    (h : m.Reach init ok p) : I p := by
  induction h with
  | init p hp => exact h0 p hp
  | step p q l _ hok hstep ih => exact hs p q l ih hok hstep

/-- Induction along a run, one obligation for a task that resumes and one for a
    call that comes in. -/
theorem reach_pool (m : Machine σ τ κ) (init : Pool σ τ → Prop)
    (C : Pool σ τ → Nat → τ → Act m.Op τ → Prop) (I : Pool σ τ → Prop)
    (h0 : ∀ p, init p → I p)
    (hresume : ∀ p i c t a, p.tasks[i]? = some t → m.act t c = some a → C p i t a → I p →
      I (m.resumed p i a))
    (hspawn : ∀ p t, m.entry p.shared t = true → I p → I { p with tasks := p.tasks ++ [t] })
    (p : Pool σ τ) (h : m.Reach init (m.whenever C) p) : I p := by
  refine reach_inv m init (m.whenever C) I h0 ?_ p h
  intro p q l hI hok hstep
  cases l with
  | resume i c =>
      rcases (m.step_resume_iff p q i c).mp hstep with ⟨t, a, ht, ha, rfl⟩
      exact hresume p i c t a ht ha (hok t a ht ha) hI
  | spawn t =>
      rcases (m.step_spawn_iff p q t).mp hstep with ⟨hent, rfl⟩
      exact hspawn p t hent hI

/-- What is known of every pool reached may be used as a condition on every
    step taken from it. -/
theorem reach_knowing (m : Machine σ τ κ) (init : Pool σ τ → Prop)
    (C : Pool σ τ → Nat → τ → Act m.Op τ → Prop) (J : Pool σ τ → Prop)
    (hJ : ∀ p, m.Reach init (m.whenever C) p → J p) (p : Pool σ τ)
    (h : m.Reach init (m.whenever C) p) :
    m.Reach init (m.whenever fun p i t a => C p i t a ∧ J p) p := by
  induction h with
  | init p hp => exact Reach.init p hp
  | step p q l hp hok hstep ih =>
    refine Reach.step p q l ih ?_ hstep
    cases l with
    | resume i c => exact fun t a ht ha => ⟨hok t a ht ha, hJ p hp⟩
    | spawn t => trivial

/-- A run without a condition meets the empty one. -/
theorem reach_any (m : Machine σ τ κ) (init : Pool σ τ → Prop) (p : Pool σ τ)
    (h : m.Reach init anyStep p) : m.Reach init (m.whenever fun _ _ _ _ => True) p := by
  refine m.reach_mono init anyStep _ ?_ p h
  rintro p (⟨i, c⟩ | t) _
  · exact fun _ _ _ _ => trivial
  · trivial

/-- What is reached from a pool that is reached is reached. -/
theorem reach_trans (m : Machine σ τ κ) (init : Pool σ τ → Prop)
    (ok : Pool σ τ → Label τ κ → Prop) (p q : Pool σ τ) (hp : m.Reach init ok p)
    (hq : m.Reach (fun x => x = p) ok q) : m.Reach init ok q := by
  induction hq with
  | init q hq => exact hq ▸ hp
  | step r q l _ hok hs ih => exact Reach.step r q l ih hok hs

/-- A property of the shared state holds throughout when every section issued
    preserves it. -/
theorem reach_shared (m : Machine σ τ κ) (init : Pool σ τ → Prop)
    (C : Pool σ τ → Nat → τ → Act m.Op τ → Prop) (I : σ → Prop)
    (h0 : ∀ p, init p → I p.shared)
    (hop : ∀ p i c t a, p.tasks[i]? = some t → m.act t c = some a → C p i t a →
      I p.shared → I (m.after a p.shared)) (p : Pool σ τ)
    (h : m.Reach init (m.whenever C) p) : I p.shared := by
  refine reach_pool m init C (fun p => I p.shared) h0 ?_ (fun p t _ hI => hI) p h
  exact fun p i c t a ht ha hC hI => hop p i c t a ht ha hC hI

/-- A property of every task holds throughout when a task's own step
    establishes it for its heirs and no other task's step destroys it. -/
theorem reach_tasks (m : Machine σ τ κ) (init : Pool σ τ → Prop)
    (C : Pool σ τ → Nat → τ → Act m.Op τ → Prop) (I : σ → Prop) (Q : σ → τ → Prop)
    (h0 : ∀ p, init p → I p.shared ∧ ∀ t ∈ p.tasks, Q p.shared t)
    (hentry : ∀ s t, I s → m.entry s t = true → Q s t)
    (hown : ∀ p i c t a, p.tasks[i]? = some t → m.act t c = some a → C p i t a →
      I p.shared → Q p.shared t → (∀ (j : Nat) u, p.tasks[j]? = some u → Q p.shared u) →
      I (m.after a p.shared) ∧ Q (m.after a p.shared) (m.heir a p.shared) ∧
        ∀ u ∈ m.spawned a p.shared, Q (m.after a p.shared) u)
    (hother : ∀ p i j c t u a, p.tasks[i]? = some t → p.tasks[j]? = some u → j ≠ i →
      m.act t c = some a → C p i t a → I p.shared → Q p.shared t → Q p.shared u →
      Q (m.after a p.shared) u) (p : Pool σ τ)
    (h : m.Reach init (m.whenever C) p) :
    I p.shared ∧ ∀ (j : Nat) u, p.tasks[j]? = some u → Q p.shared u := by
  refine reach_pool m init C
    (fun p => I p.shared ∧ ∀ (j : Nat) u, p.tasks[j]? = some u → Q p.shared u) ?_ ?_ ?_ p h
  · intro p hp
    rcases h0 p hp with ⟨hI, hQ⟩
    exact ⟨hI, fun j u hu => hQ u (List.mem_of_getElem? hu)⟩
  · rintro p i c t a ht ha hC ⟨hI, hQ⟩
    rcases hown p i c t a ht ha hC hI (hQ i t ht) hQ with ⟨hI', hQ', hnew⟩
    refine ⟨hI', fun j u hu => ?_⟩
    -- The task that moved, one that did not, or one that was spawned.
    rcases m.resumed_get_cases p i j a t u ht hu with ⟨_, rfl⟩ | ⟨hji, hu'⟩ | ⟨_, hu'⟩
    · exact hQ'
    · exact hother p i j c t u a ht hu' hji ha hC hI (hQ i t ht) (hQ j u hu')
    · exact hnew u (List.mem_of_getElem? hu')
  · rintro p t hent ⟨hI, hQ⟩
    refine ⟨hI, fun j u hu => ?_⟩
    rcases List.mem_append.mp (List.mem_of_getElem? hu) with hu' | hu'
    · rcases List.mem_iff_getElem?.mp hu' with ⟨k, hk⟩
      exact hQ k u hk
    · rw [List.mem_singleton] at hu'
      rw [hu']
      exact hentry p.shared t hI hent

/-- Any two different tasks are related by `D`. -/
def Distinct (D : τ → τ → Prop) (p : Pool σ τ) : Prop :=
  ∀ (i j : Nat) t u, i ≠ j → p.tasks[i]? = some t → p.tasks[j]? = some u → D t u

/-- A symmetric relation between any two tasks holds throughout when a step
    relates its heirs to every bystander and to each other. -/
theorem reach_distinct (m : Machine σ τ κ) (init : Pool σ τ → Prop)
    (C : Pool σ τ → Nat → τ → Act m.Op τ → Prop) (D : τ → τ → Prop)
    (hsymm : ∀ t u, D t u → D u t)
    (h0 : ∀ p, init p → Distinct D p)
    (hentry : ∀ s t u, m.entry s t = true → D t u)
    (hheir : ∀ p i j c t u a, p.tasks[i]? = some t → p.tasks[j]? = some u → j ≠ i →
      m.act t c = some a → C p i t a → D t u → D (m.heir a p.shared) u)
    (hnew : ∀ p i j c t u a, p.tasks[i]? = some t → p.tasks[j]? = some u → j ≠ i →
      m.act t c = some a → C p i t a → D t u → ∀ n ∈ m.spawned a p.shared, D n u)
    (hself : ∀ p i c t a, p.tasks[i]? = some t → m.act t c = some a → C p i t a →
      (m.heir a p.shared :: m.spawned a p.shared).Pairwise D) (p : Pool σ τ)
    (h : m.Reach init (m.whenever C) p) : Distinct D p := by
  induction h with
  | init p hp => exact h0 p hp
  | step p q l _ hok hstep ih =>
    -- By symmetry only pairs in index order matter.
    suffices hlt : ∀ (i j : Nat) t u, i < j → q.tasks[i]? = some t → q.tasks[j]? = some u → D t u by
      intro i j t u hij ht hu
      rcases Nat.lt_or_gt_of_ne hij with hlt' | hgt
      · exact hlt i j t u hlt' ht hu
      · exact hsymm u t (hlt j i u t hgt hu ht)
    intro j k u v hjk hu hv
    cases l with
    | resume i c =>
        rcases (m.step_resume_iff p q i c).mp hstep with ⟨t, a, ht, ha, rfl⟩
        have hC := hok t a ht ha
        rcases List.pairwise_cons.mp (hself p i c t a ht ha hC) with ⟨hheads, htails⟩
        have hi : i < p.tasks.length := (List.getElem?_eq_some_iff.mp ht).1
        -- Each of the two is the heir, another task, or a new one.
        rcases m.resumed_get_cases p i j a t u ht hu with ⟨rfl, rfl⟩ | ⟨hji, hu'⟩ | ⟨hlen, hu'⟩
        · rcases m.resumed_get_cases p j k a t v ht hv with ⟨rfl, _⟩ | ⟨hkj, hv'⟩ | ⟨_, hv'⟩
          · omega
          · exact hheir p j k c t v a ht hv' hkj ha hC (ih j k t v (by omega) ht hv')
          · exact hheads v (List.mem_of_getElem? hv')
        · rcases m.resumed_get_cases p i k a t v ht hv with ⟨rfl, rfl⟩ | ⟨hki, hv'⟩ | ⟨_, hv'⟩
          · exact hsymm _ _ (hheir p k j c t u a ht hu' hji ha hC
              (ih k j t u (by omega) ht hu'))
          · exact ih j k u v (by omega) hu' hv'
          · exact hsymm _ _ (hnew p i j c t u a ht hu' hji ha hC
              (ih i j t u (Ne.symm hji) ht hu') v (List.mem_of_getElem? hv'))
        · rcases m.resumed_get_cases p i k a t v ht hv with ⟨rfl, _⟩ | ⟨_, hv'⟩ | ⟨hlen', hv'⟩
          · omega
          · have := (List.getElem?_eq_some_iff.mp hv').1
            omega
          · rcases List.getElem?_eq_some_iff.mp hu' with ⟨hju, rfl⟩
            rcases List.getElem?_eq_some_iff.mp hv' with ⟨hkv, rfl⟩
            exact List.pairwise_iff_getElem.mp htails _ _ hju hkv (by omega)
    | spawn t =>
        rcases (m.step_spawn_iff p q t).mp hstep with ⟨hent, rfl⟩
        have hk : k < p.tasks.length + 1 := by
          have := (List.getElem?_eq_some_iff.mp hv).1
          rwa [List.length_append, List.length_singleton] at this
        rw [List.getElem?_append_left (by omega)] at hu
        by_cases hkp : k < p.tasks.length
        · rw [List.getElem?_append_left hkp] at hv
          exact ih j k u v (by omega) hu hv
        · rw [List.getElem?_append_right (by omega),
            show k - p.tasks.length = 0 by omega, List.getElem?_cons_zero,
            Option.some.injEq] at hv
          rw [← hv]
          exact hsymm t u (hentry p.shared t u hent)

end Machine

end Interleave
