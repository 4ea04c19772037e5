import Mathlib.Data.List.Basic

/-!
# Interleaved Tasks

Concurrent tasks over one shared state, for programs whose shared accesses
all happen inside lock-held sections.

A section is an atomic operation: it reads and rewrites the shared state in
one go and hands a result back. Sections are the constructors of a type
family `Op : Type → Type`, indexed by what they return, so the code that
follows a section gets a value of the right type and no case is left over. A
task is what remains of an asynchronous function between two sections.
Resuming it with an input picks the next section (`act`), and the section's
result decides what the task becomes and which tasks it spawns.

`Machine.step` resumes one task of a pool. Nothing says which one, so a run
is any interleaving of any number of tasks. New calls enter through `spawn`,
guarded by `entry`.

`Reach ok` collects the pools reached by steps that all satisfy `ok`. Taking
`ok` to be `fun _ _ => True` gives plain reachability; taking it to be a
condition on the state before a step gives the runs that avoid whatever the
condition excludes. `replay` runs a concrete list of labels, checking each
step, and `reach_of_replay` turns a successful replay into reachability.

## Main definitions

* `Act`: The next section of a task and what follows it.
* `Machine`: Sections, their effect, and the tasks that issue them.
* `Pool`: A shared state and the tasks running over it.
* `Label`: One step of a run: which task resumes, or which call enters.
* `Machine.step`: The interleaving semantics.
* `Machine.Reach`: Pools reached by steps satisfying a condition.
* `Machine.replay`: Running a list of labels.

## Theorems

* `step_resume_iff`: What resuming a task amounts to.
* `step_spawn_iff`: What a new call amounts to.
* `reach_mono`: A weaker condition reaches more.
* `reach_of_replay`, `exists_reach`: A replay shows reachability.
-/

namespace Interleave

/-- The next section of a task, and what its result turns the task into:
    the task that continues and the tasks it spawns. -/
structure Act (Op : Type → Type) (τ : Type) where
  /-- What the section returns. -/
  {α : Type}
  /-- The section. -/
  op : Op α
  /-- The continuation. -/
  next : α → τ × List τ

/-- Tasks `τ`, resumed by inputs `κ`, issuing sections over a shared `σ`. A section
    is atomic and gives a result, from which the task and those it spawns go on. -/
structure Machine (σ τ κ : Type) where
  /-- The sections, indexed by what they return. -/
  Op : Type → Type
  /-- The effect of a section. -/
  run : {α : Type} → Op α → σ → σ × α
  /-- The section a task issues when resumed with an input. -/
  act : τ → κ → Option (Act Op τ)
  /-- Which tasks may enter from outside. -/
  entry : σ → τ → Bool

/-- A shared state and the tasks running over it. Tasks are never taken out, so an
    index names the same task for good. -/
structure Pool (σ τ : Type) where
  shared : σ
  tasks : List τ

/-- One step of a run: a task is resumed by an input, or a new one comes in. -/
inductive Label (τ κ : Type) where
  | resume (i : Nat) (c : κ)
  | spawn (t : τ)

namespace Machine

variable {σ τ κ : Type}

/-- The pool after task `i` issued the section of `a`. -/
def resumed (m : Machine σ τ κ) (p : Pool σ τ) (i : Nat) (a : Act m.Op τ) : Pool σ τ :=
  let r := m.run a.op p.shared
  let n := a.next r.2
  { shared := r.1, tasks := p.tasks.set i n.1 ++ n.2 }

/-- One step: resume a task, or let a new call in. -/
def step (m : Machine σ τ κ) (p : Pool σ τ) : Label τ κ → Option (Pool σ τ)
  | .resume i c =>
    match p.tasks[i]? with
    | none => none
    | some t =>
      match m.act t c with
      | none => none
      | some a => some (m.resumed p i a)
  | .spawn t => if m.entry p.shared t then some { p with tasks := p.tasks ++ [t] } else none

theorem step_resume_iff (m : Machine σ τ κ) (p q : Pool σ τ) (i : Nat) (c : κ) :
    m.step p (.resume i c) = some q ↔
      ∃ t a, p.tasks[i]? = some t ∧ m.act t c = some a ∧ q = m.resumed p i a := by
  unfold step
  constructor
  · intro h
    rcases ht : p.tasks[i]? with _ | t
    · simp only [ht, reduceCtorEq] at h
    · rcases ha : m.act t c with _ | a
      · simp only [ht, ha, reduceCtorEq] at h
      · simp only [ht, ha, Option.some.injEq] at h
        exact ⟨t, a, rfl, ha, h.symm⟩
  · rintro ⟨t, a, ht, ha, rfl⟩
    simp only [ht, ha]

/-- A task that takes a step and spawns nothing. -/
theorem step_one (m : Machine σ τ κ) (s : σ) (ts : List τ) (i : Nat) (c : κ) (t u : τ)
    (a : Act m.Op τ) (ht : ts[i]? = some t) (ha : m.act t c = some a)
    (hu : a.next (m.run a.op s).2 = (u, [])) :
    m.step ⟨s, ts⟩ (.resume i c) = some ⟨(m.run a.op s).1, ts.set i u⟩ := by
  refine (m.step_resume_iff _ _ i c).mpr ⟨t, a, ht, ha, ?_⟩
  simp only [resumed, hu, List.append_nil]

theorem step_spawn_iff (m : Machine σ τ κ) (p q : Pool σ τ) (t : τ) :
    m.step p (.spawn t) = some q ↔
      m.entry p.shared t = true ∧ q = { p with tasks := p.tasks ++ [t] } := by
  unfold step
  by_cases h : m.entry p.shared t = true
  · simp only [h, if_true, Option.some.injEq, true_and, eq_comm]
  · simp only [h, Bool.false_eq_true, if_false, reduceCtorEq, false_and]

/-- The pools reached from an initial one by steps that all satisfy `ok`. -/
inductive Reach (m : Machine σ τ κ) (init : Pool σ τ → Prop)
    (ok : Pool σ τ → Label τ κ → Prop) : Pool σ τ → Prop where
  | init (p : Pool σ τ) (h : init p) : Reach m init ok p
  | step (p q : Pool σ τ) (l : Label τ κ) (hp : Reach m init ok p) (hok : ok p l)
      (hs : m.step p l = some q) : Reach m init ok q

/-- The condition every step satisfies. -/
def anyStep (_ : Pool σ τ) (_ : Label τ κ) : Prop := True

/-- A weaker condition reaches at least as much. -/
theorem reach_mono (m : Machine σ τ κ) (init : Pool σ τ → Prop)
    (ok ok' : Pool σ τ → Label τ κ → Prop) (hle : ∀ p l, ok p l → ok' p l) (p : Pool σ τ)
    (h : m.Reach init ok p) : m.Reach init ok' p := by
  induction h with
  | init p hp => exact Reach.init p hp
  | step p q l _ hok hs ih => exact Reach.step p q l ih (hle p l hok) hs

/-- Run a list of labels, or `none` if one of them is not enabled or does not
    pass the check. -/
def replay (m : Machine σ τ κ) (ok : Pool σ τ → Label τ κ → Bool) :
    Pool σ τ → List (Label τ κ) → Option (Pool σ τ)
  | p, [] => some p
  | p, l :: ls =>
    if ok p l then
      match m.step p l with
      | none => none
      | some q => replay m ok q ls
    else none

/-- A replay that passes its first step goes on from there. -/
theorem replay_cons (m : Machine σ τ κ) (ok : Pool σ τ → Label τ κ → Bool) (p q : Pool σ τ)
    (l : Label τ κ) (ls : List (Label τ κ)) (hok : ok p l = true) (hs : m.step p l = some q) :
    m.replay ok p (l :: ls) = m.replay ok q ls := by
  rw [replay, if_pos hok, hs]

/-- A successful replay out of a reached pool ends in a reached pool, for any
    condition the check guarantees. -/
theorem reach_of_replay (m : Machine σ τ κ) (init : Pool σ τ → Prop)
    (check : Pool σ τ → Label τ κ → Bool) (ok : Pool σ τ → Label τ κ → Prop)
    (hle : ∀ p l, check p l = true → ok p l) :
    ∀ (ls : List (Label τ κ)) (p q : Pool σ τ), m.Reach init ok p →
      m.replay check p ls = some q → m.Reach init ok q := by
  intro ls
  induction ls with
  | nil =>
      intro p q hp h
      simp only [replay, Option.some.injEq] at h
      rwa [← h]
  | cons l ls ih =>
      intro p q hp h
      simp only [replay] at h
      by_cases hok : check p l = true
      · rw [if_pos hok] at h
        rcases hs : m.step p l with _ | p'
        · simp only [hs, reduceCtorEq] at h
        · simp only [hs] at h
          exact ih p' q (Reach.step p p' l hp (hle p l hok) hs) h
      · rw [if_neg hok] at h
        cases h

/-- A replay out of an initial pool whose end passes `P` shows that a pool passing
    `P` is reached. -/
theorem exists_reach (m : Machine σ τ κ) (init : Pool σ τ → Prop)
    (check : Pool σ τ → Label τ κ → Bool) (ok : Pool σ τ → Label τ κ → Prop)
    (hle : ∀ p l, check p l = true → ok p l) (ls : List (Label τ κ)) (p₀ : Pool σ τ)
    (h0 : init p₀) (P : Pool σ τ → Bool) (h : (m.replay check p₀ ls).any P = true) :
    ∃ p, m.Reach init ok p ∧ P p = true := by
  rcases Option.any_eq_true _ _ |>.mp h with ⟨p, hp, hP⟩
  exact ⟨p, m.reach_of_replay init check ok hle ls p₀ p (.init p₀ h0) hp, hP⟩

end Machine

end Interleave
