import Mathlib.Data.List.Basic

/-!
# Buffered Streams

A stream of tasks of which several are in flight at a time, and whose results
come out in the order in which the tasks end.

A task is given by what it comes to. Whoever reads such a stream sees one result
after another; what happens on the way is a list of `Event`s. `Buffered` says
which lists these can be: the tasks start in turn, one starts only while there
is room, and any of those in flight may be the next to end. Nothing is said about
which one it is.

## Main definitions

* `Event`: A task starts, or its result comes out.
* `inFlight`: The tasks that have started, and whose result is not out yet.
* `Buffered`: What a buffered stream may do until it has ended.
* `inTurn`: One task after the other.

## Theorems

* `inTurn_buffered`: A buffered stream may do that.
* `Buffered.inFlight_le`: No more tasks are in flight than the limit.
* `Buffered.yielded_get`: What comes out is the result of the task.
* `Buffered.yields`: Every task's result comes out.
* `first_bad`: The first result that is not as it should be.
-/

namespace Streaming

/-- A task starts, or its result comes out. -/
inductive Event (β : Type) where
  | started (k : Nat)
  | yielded (k : Nat) (x : β)
  deriving DecidableEq

/-- What an event makes of the tasks in flight. -/
def Event.track {β : Type} (running : List Nat) : Event β → List Nat
  | .started k => k :: running
  | .yielded k _ => running.erase k

variable {β : Type}

/-- The tasks that have started, and whose result is not out yet. -/
def inFlight (evs : List (Event β)) : List Nat :=
  evs.foldl Event.track []

/-- What a stream over `tasks` may do until it has ended, when `next` is the task
    to start next and `running` are in flight. -/
inductive Buffered (limit : Nat) (tasks : List β) : Nat → List Nat → List (Event β) → Prop where
  | ended : Buffered limit tasks tasks.length [] []
  | start (next : Nat) (running : List Nat) (evs : List (Event β))
      (more : next < tasks.length) (room : running.length < limit)
      (rest : Buffered limit tasks (next + 1) (next :: running) evs) :
      Buffered limit tasks next running (.started next :: evs)
  | yield (next k : Nat) (running : List Nat) (x : β) (evs : List (Event β))
      (flying : k ∈ running) (result : tasks[k]? = some x)
      (rest : Buffered limit tasks next (running.erase k) evs) :
      Buffered limit tasks next running (.yielded k x :: evs)

variable {limit next : Nat} {tasks : List β} {running : List Nat} {evs : List (Event β)}

/-- One task after the other, from the `k`th on. -/
def inTurn : Nat → List β → List (Event β)
  | _, [] => []
  | k, x :: xs => .started k :: .yielded k x :: inTurn (k + 1) xs

/-- That is something a buffered stream may do. -/
theorem inTurn_buffered (hlimit : 0 < limit) (done rest : List β) :
    Buffered limit (done ++ rest) done.length [] (inTurn done.length rest) := by
  induction rest generalizing done with
  | nil =>
      rw [List.append_nil]
      exact .ended
  | cons x rest ih =>
      have hnext := ih (done ++ [x])
      rw [List.append_assoc, List.singleton_append, List.length_append, List.length_singleton]
        at hnext
      have hlt : done.length < (done ++ x :: rest).length := by
        rw [List.length_append, List.length_cons]
        omega
      refine .start _ _ _ hlt hlimit (.yield _ _ _ x _ List.mem_cons_self ?_ ?_)
      · rw [List.getElem?_append_right (Nat.le_refl _), Nat.sub_self, List.getElem?_cons_zero]
      · rw [List.erase_cons_head]
        exact hnext

/-- However far the stream has come, no more tasks are in flight than the limit. -/
theorem Buffered.inFlight_le (h : Buffered limit tasks next running evs)
    (hrun : running.length ≤ limit) (pre : List (Event β)) (hpre : pre <+: evs) :
    (pre.foldl Event.track running).length ≤ limit := by
  -- Induction over what the stream does; a prefix of it is empty or begins alike.
  induction h generalizing pre with
  | ended =>
      rw [List.prefix_nil.mp hpre]
      exact hrun
  | start next running evs more room rest ih =>
      rcases pre with _ | ⟨ev, pre⟩
      · exact hrun
      · rcases List.cons_prefix_cons.mp hpre with ⟨rfl, htail⟩
        exact ih room pre htail
  | yield next k running x evs flying result rest ih =>
      rcases pre with _ | ⟨ev, pre⟩
      · exact hrun
      · rcases List.cons_prefix_cons.mp hpre with ⟨rfl, htail⟩
        exact ih (Nat.le_trans List.length_erase_le hrun) pre htail

/-- What comes out is the result of the task. -/
theorem Buffered.yielded_get (h : Buffered limit tasks next running evs) (k : Nat) (x : β)
    (hmem : .yielded k x ∈ evs) : tasks[k]? = some x := by
  induction h with
  | ended => exact absurd hmem List.not_mem_nil
  | start next running evs more room rest ih =>
      rcases List.mem_cons.mp hmem with heq | hmem
      · exact absurd heq (by simp only [reduceCtorEq, not_false_eq_true])
      · exact ih hmem
  | yield next k' running x' evs flying result rest ih =>
      rcases List.mem_cons.mp hmem with heq | hmem
      · cases heq
        exact result
      · exact ih hmem

/-- What is in flight, or has yet to start, comes to an end. -/
theorem Buffered.yields (h : Buffered limit tasks next running evs) (k : Nat)
    (hk : k ∈ running ∨ next ≤ k ∧ k < tasks.length) : ∃ x, .yielded k x ∈ evs := by
  -- What waits is started and what is started is yielded, until neither is left.
  induction h with
  | ended =>
      rcases hk with hk | ⟨hle, hlt⟩
      · exact absurd hk List.not_mem_nil
      · exact absurd hlt (Nat.not_lt.mpr hle)
  | start next running evs more room rest ih =>
      have hk' : k ∈ next :: running ∨ next + 1 ≤ k ∧ k < tasks.length := by
        rcases hk with hk | ⟨hle, hlt⟩
        · exact .inl (List.mem_cons_of_mem _ hk)
        · by_cases heq : k = next
          · exact .inl (heq ▸ List.mem_cons_self)
          · exact .inr ⟨by omega, hlt⟩
      rcases ih hk' with ⟨x, hx⟩
      exact ⟨x, List.mem_cons_of_mem _ hx⟩
  | yield next k' running x evs flying result rest ih =>
      by_cases heq : k = k'
      · exact ⟨x, heq ▸ List.mem_cons_self⟩
      · have hk' : k ∈ running.erase k' ∨ next ≤ k ∧ k < tasks.length := by
          rcases hk with hk | hk
          · exact .inl ((List.mem_erase_of_ne heq).mpr hk)
          · exact .inr hk
        rcases ih hk' with ⟨x', hx'⟩
        exact ⟨x', List.mem_cons_of_mem _ hx'⟩

/-- Either every result is as it should be, or there is a first one that is not. -/
theorem first_bad (p : β → Prop) (evs : List (Event β)) :
    (∀ k x, .yielded k x ∈ evs → p x) ∨
      ∃ pre k x post, evs = pre ++ .yielded k x :: post ∧ ¬ p x ∧
        ∀ j y, .yielded j y ∈ pre → p y := by
  induction evs with
  | nil => exact .inl fun k x hmem => absurd hmem List.not_mem_nil
  | cons ev evs ih =>
      by_cases hev : ∃ k x, ev = .yielded k x ∧ ¬ p x
      · rcases hev with ⟨k, x, rfl, hx⟩
        exact .inr ⟨[], k, x, evs, rfl, hx, fun j y hmem => absurd hmem List.not_mem_nil⟩
      · have hgood : ∀ k x, ev = .yielded k x → p x :=
          fun k x heq => by_contra fun hx => hev ⟨k, x, heq, hx⟩
        rcases ih with hall | ⟨pre, k, x, post, rfl, hx, hpre⟩
        · refine .inl fun k x hmem => ?_
          rcases List.mem_cons.mp hmem with heq | hmem
          · exact hgood k x heq.symm
          · exact hall k x hmem
        · refine .inr ⟨ev :: pre, k, x, post, rfl, hx, fun j y hmem => ?_⟩
          rcases List.mem_cons.mp hmem with heq | hmem
          · exact hgood j y heq.symm
          · exact hpre j y hmem

end Streaming
