import Pickpoint.Interleave.Rules

/-!
# Exclusion by a Flag

A flag in the shared state that a task sets when it finds it unset, and clears
when it is done.

`flag` reads the flag and `holds` says which tasks stand between setting it and
clearing it. `FlagStep` lists what a step may do: leave the flag and make nobody
a holder, take an unset flag, or stop holding. Then there is never more than one
holder, and the flag is set while there is one, whatever becomes of the flag once
its holder is gone: a holder that is dropped may leave it set.

## Main definitions

* `FlagStep`: What a step may do to the flag.
* `Exclusive`: One holder at most, and the flag is set while there is one.

## Theorems

* `step_exclusive`: What one step preserves.
* `step_held`: A set flag that has a holder goes on having one.
* `reach_exclusive`: What a run preserves.
* `Exclusive.free`: Nobody holds an unset flag.
* `Exclusive.others`: Nobody else holds a flag that is held.
-/

namespace Interleave

/-- What a step may do: keep the flag and make nobody a holder, take an unset
    flag, or stop holding. -/
inductive FlagStep (flag flag' hold hold' : Bool) : Prop where
  | keep (hflag : flag' = flag) (hhold : hold' = true → hold = true)
  | take (hfree : flag = false) (hset : flag' = true)
  | leave (hhold : hold = true) (hgone : hold' = false)

namespace Machine

variable {σ τ κ : Type}

/-- One holder at most, and the flag is set while there is one. The converse is not
    part of it: a flag may be set with nobody to clear it. -/
structure Exclusive (flag : σ → Bool) (holds : τ → Bool) (p : Pool σ τ) : Prop where
  held : ∀ (i : Nat) t, p.tasks[i]? = some t → holds t = true → flag p.shared = true
  single : ∀ (i j : Nat) t u, p.tasks[i]? = some t → p.tasks[j]? = some u → holds t = true →
    holds u = true → i = j

section Rules

variable (flag : σ → Bool) (holds : τ → Bool)

/-- Nobody holds an unset flag. -/
theorem Exclusive.free {p : Pool σ τ} (h : Exclusive flag holds p) (hflag : flag p.shared = false)
    (i : Nat) (t : τ) (ht : p.tasks[i]? = some t) : holds t = false := by
  by_contra hhold
  rw [Bool.not_eq_false] at hhold
  cases (h.held i t ht hhold).symm.trans hflag

/-- Nobody else holds a flag that is held. -/
theorem Exclusive.others {p : Pool σ τ} (h : Exclusive flag holds p) (i j : Nat) (t u : τ)
    (ht : p.tasks[i]? = some t) (hhold : holds t = true) (hu : p.tasks[j]? = some u)
    (hji : j ≠ i) : holds u = false := by
  by_contra hhold'
  rw [Bool.not_eq_false] at hhold'
  exact hji (h.single j i u t hu ht hhold' hhold)

theorem exclusive_of_none (p : Pool σ τ)
    (h : ∀ (i : Nat) t, p.tasks[i]? = some t → holds t = false) : Exclusive flag holds p := by
  constructor
  · intro i t ht hhold
    cases hhold.symm.trans (h i t ht)
  · intro i j t u ht _ hhold
    cases hhold.symm.trans (h i t ht)

variable (m : Machine σ τ κ)

/-- After a step a holder is the task that stepped, or held the flag before. -/
theorem exclusive_cases (p : Pool σ τ) (i j : Nat) (a : Act m.Op τ) (t u : τ)
    (ht : p.tasks[i]? = some t) (hnew : ∀ v ∈ m.spawned a p.shared, holds v = false)
    (hu : (m.resumed p i a).tasks[j]? = some u) (hhold : holds u = true) :
    (j = i ∧ holds (m.heir a p.shared) = true) ∨ (j ≠ i ∧ p.tasks[j]? = some u) := by
  rcases m.resumed_get_cases p i j a t u ht hu with ⟨hji, rfl⟩ | ⟨hji, hu'⟩ | ⟨_, hu'⟩
  · exact Or.inl ⟨hji, hhold⟩
  · exact Or.inr ⟨hji, hu'⟩
  · cases hhold.symm.trans (hnew u (List.mem_of_getElem? hu'))

/-- A set flag goes on having a holder, when the task that stepped holds it or did
    not hold the one that was set. -/
theorem step_held (p : Pool σ τ) (i : Nat) (a : Act m.Op τ) (t : τ) (ht : p.tasks[i]? = some t)
    (hstep : flag (m.after a p.shared) = true →
      holds (m.heir a p.shared) = true ∨ (holds t = false ∧ flag p.shared = true))
    (h : flag p.shared = true → ∃ u ∈ p.tasks, holds u = true)
    (hflag : flag (m.after a p.shared) = true) :
    ∃ u ∈ (m.resumed p i a).tasks, holds u = true := by
  rcases hstep hflag with hheir | ⟨hfree, hold⟩
  · exact ⟨_, List.mem_of_getElem? (m.resumed_get_self p i a t ht), hheir⟩
  · -- Somebody else held it before, and still does.
    rcases (exists_task_iff p i t ht fun u => holds u = true).mp (h hold) with
      hself | ⟨j, u, hji, hu, hhold⟩
    · cases hfree.symm.trans hself
    · exact ⟨u, List.mem_of_getElem? (m.resumed_get_other p i j a u hji hu), hhold⟩

/-- A step keeps the holders exclusive. -/
theorem step_exclusive (p : Pool σ τ) (i : Nat) (a : Act m.Op τ) (t : τ)
    (ht : p.tasks[i]? = some t) (hnew : ∀ v ∈ m.spawned a p.shared, holds v = false)
    (hstep : FlagStep (flag p.shared) (flag (m.after a p.shared)) (holds t)
      (holds (m.heir a p.shared)))
    (h : Exclusive flag holds p) : Exclusive flag holds (m.resumed p i a) := by
  cases hstep with
  | keep hflag hkeep =>
      -- Every holder held the flag before, at the same index.
      have hback : ∀ (j : Nat) u, (m.resumed p i a).tasks[j]? = some u → holds u = true →
          ∃ v, p.tasks[j]? = some v ∧ holds v = true := by
        intro j u hu hhold
        rcases exclusive_cases holds m p i j a t u ht hnew hu hhold with ⟨rfl, hheir⟩ | ⟨_, hu'⟩
        · exact ⟨t, ht, hkeep hheir⟩
        · exact ⟨u, hu', hhold⟩
      refine ⟨fun j u hu hhold => ?_, fun j k u v hu hv hhold hhold' => ?_⟩
      · rcases hback j u hu hhold with ⟨w, hw, hwhold⟩
        exact hflag.trans (h.held j w hw hwhold)
      · rcases hback j u hu hhold with ⟨w, hw, hwhold⟩
        rcases hback k v hv hhold' with ⟨x, hx, hxhold⟩
        exact h.single j k w x hw hx hwhold hxhold
  | take hfree hset =>
      -- Nobody held it, so only the heir may.
      have honly : ∀ (j : Nat) u, (m.resumed p i a).tasks[j]? = some u → holds u = true →
          j = i := by
        intro j u hu hhold
        rcases exclusive_cases holds m p i j a t u ht hnew hu hhold with ⟨hji, _⟩ | ⟨_, hu'⟩
        · exact hji
        · cases hhold.symm.trans (h.free flag holds hfree j u hu')
      exact ⟨fun _ _ _ _ => hset, fun j k u v hu hv hhold hhold' =>
        (honly j u hu hhold).trans (honly k v hv hhold').symm⟩
  | leave hhold hgone =>
      -- The only holder stopped, so there is none.
      have hnone : ∀ (j : Nat) u, (m.resumed p i a).tasks[j]? = some u → holds u = false := by
        intro j u hu
        by_contra hhold'
        rw [Bool.not_eq_false] at hhold'
        rcases exclusive_cases holds m p i j a t u ht hnew hu hhold' with ⟨_, hheir⟩ | ⟨hji, hu'⟩
        · cases hheir.symm.trans hgone
        · cases hhold'.symm.trans (h.others flag holds i j t u ht hhold hu' hji)
      exact exclusive_of_none flag holds _ hnone

/-- The holders of a flag exclude each other throughout a run whose steps keep
    to `FlagStep`. -/
theorem reach_exclusive (init : Pool σ τ → Prop)
    (C : Pool σ τ → Nat → τ → Act m.Op τ → Prop)
    (h0 : ∀ p, init p → ∀ t ∈ p.tasks, holds t = false)
    (hentry : ∀ s t, m.entry s t = true → holds t = false)
    (hstep : ∀ p i c t a, p.tasks[i]? = some t → m.act t c = some a → C p i t a →
      FlagStep (flag p.shared) (flag (m.after a p.shared)) (holds t)
          (holds (m.heir a p.shared)) ∧
        ∀ v ∈ m.spawned a p.shared, holds v = false) (p : Pool σ τ)
    (h : m.Reach init (m.whenever C) p) : Exclusive flag holds p := by
  refine m.reach_pool init C (Exclusive flag holds) ?_ ?_ ?_ p h
  · intro p hp
    have hnone : ∀ (i : Nat) t, p.tasks[i]? = some t → holds t = false :=
      fun i t ht => h0 p hp t (List.mem_of_getElem? ht)
    exact exclusive_of_none flag holds p hnone
  · intro p i c t a ht ha hC hI
    rcases hstep p i c t a ht ha hC with ⟨hflag, hnew⟩
    exact step_exclusive flag holds m p i a t ht hnew hflag hI
  · intro p n hent hI
    -- A new call holds nothing, so every holder was there before.
    have hback : ∀ (j : Nat) u, (p.tasks ++ [n])[j]? = some u → holds u = true →
        p.tasks[j]? = some u := by
      intro j u hu hhold
      rcases entered_get_cases p.tasks n u j hu with hold | rfl
      · exact hold
      · cases hhold.symm.trans (hentry p.shared u hent)
    exact ⟨fun j u hu hhold => hI.held j u (hback j u hu hhold) hhold,
      fun j k u v hu hv hhold hhold' =>
        hI.single j k u v (hback j u hu hhold) (hback k v hv hhold') hhold hhold'⟩

end Rules

end Machine

end Interleave
