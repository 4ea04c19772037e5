import Pickpoint.Theory.Refreshing

/-!
# Wakeups

Whether a caller that waits for a refresh is woken when it ends.

A caller that finds the flag set releases the lock and only then makes its
`Notified`. If the refresh ends in between, its `notify_waiters` comes too early,
and the caller waits for a wakeup nobody is going to issue
(`wakeup_lost`). When every `Notified` is made before that call, or while the
flag is set again (`parksInTime`), no wakeup is lost (`reach_noLostWakeup`).

`refresh` clears the flag and calls `notify_waiters` after it has released the
lock, with no await in between, so a caller that has cleared the flag is as good
as its wakeup.

## Main definitions

* `Task.notifies`: A caller that calls `notify_waiters` next.
* `WakeIssued`: A `Notified` has been woken, or is about to be.
* `NoLostWakeup`: Who waits will be woken.
* `parksInTime`: The `Notified` is made in time.

## Theorems

* `moves_waiting`: How a step makes a caller wait.
* `moves_awake`, `awake_recast`: What keeps everybody awake.
* `reach_noLostWakeup`: No wakeup is lost.
* `wakeup_lost`: Not so in general.
-/

namespace Pickpoint

namespace Auth

open Interleave

/-- The caller has cleared the flag and calls `notify_waiters` next. -/
def Task.notifies : Task → Bool
  | .refresh _ (.notify _) => true
  | _ => false

/-- The wakeup of a `Notified` made after `calls` calls has been issued, or the
    caller that issues it has left the lock. -/
def WakeIssued (p : Pool Shared Task) (calls : Nat) : Prop :=
  calls < p.shared.notifyCalls ∨ ∃ t ∈ p.tasks, t.notifies = true

/-- A refresh is running for everybody who waits, or their wakeup is issued. -/
def NoLostWakeup (p : Pool Shared Task) : Prop :=
  ∀ who calls, .refresh who (.waiting calls) ∈ p.tasks →
    p.shared.inner.refreshing = true ∨ WakeIssued p calls

/-- The caller makes its `Notified` while the flag is set, or before a caller
    that has cleared it calls `notify_waiters`. -/
def parksInTime (p : Pool Shared Task) (_ : Nat) (t : Task) (_ : Act Section Task) : Bool :=
  match t with
  | .refresh _ .gap => p.shared.inner.refreshing || p.tasks.any Task.notifies
  | _ => true

section Session

variable (parse : Bytes → Except String ClientAuth)

/-- A caller comes to wait when it makes its `Notified`, and stays waiting when
    it has not been woken. -/
theorem moves_waiting (s s' : Shared) (t : Task) (who : Caller) (calls : Nat)
    (h : Moves parse s t s' (.refresh who (.waiting calls))) :
    s' = s ∧ ((t = .refresh who .gap ∧ calls = s.notifyCalls) ∨
      t = .refresh who (.waiting calls)) := by
  generalize ht' : Task.refresh who (.waiting calls) = t' at h
  cases h with
  | parked who' =>
      cases ht'
      exact ⟨rfl, Or.inl ⟨rfl, rfl⟩⟩
  | asleep who' calls' =>
      cases ht'
      exact ⟨rfl, Or.inr rfl⟩
  | notified who' r => cases who' <;> cases r <;> cases ht'
  | settled who' => cases who' <;> cases ht'
  | _ => cases ht'

/-- A caller that has cleared the flag calls `notify_waiters`, and cannot be
    dropped before. -/
theorem moves_notifies (s s' : Shared) (t t' : Task) (h : Moves parse s t s' t')
    (hnotifies : t.notifies = true) : s'.notifyCalls = s.notifyCalls + 1 := by
  cases h with
  | notified => rfl
  | drop _ hawaits =>
      cases t with
      | refresh who pc => cases pc <;> first | (cases hnotifies; done) | cases hawaits
      | _ => cases hnotifies
  | _ => cases hnotifies

theorem moves_notifyCalls_le (s s' : Shared) (t t' : Task) (h : Moves parse s t s' t') :
    s.notifyCalls ≤ s'.notifyCalls := by
  cases h with
  | notified => exact Nat.le_succ _
  | _ => exact Nat.le_refl _

/-- Whoever clears the flag calls `notify_waiters` next. -/
theorem moves_clears (s s' : Shared) (t t' : Task) (h : Moves parse s t s' t')
    (hflag : s.inner.refreshing = true) (hflag' : s'.inner.refreshing = false) :
    t'.notifies = true := by
  cases h with
  | cleared => rfl
  | took => cases hflag'
  | _ => cases hflag.symm.trans hflag'

/-- What a waiting caller can count on: the flag is set, or the `notify_waiters`
    that will wake it has been called or is about to be. -/
structure Awake (p : Pool Shared Task) : Prop where
  counted : ∀ who calls, .refresh who (.waiting calls) ∈ p.tasks → calls ≤ p.shared.notifyCalls
  issued : NoLostWakeup p

/-- A running refresh, or an issued wakeup, is not lost when caller `i` takes a
    step. -/
theorem wake_kept (p : Pool Shared Task) (i : Nat) (t t' : Task) (s' : Shared)
    (ht : p.tasks[i]? = some t) (hmoves : Moves parse p.shared t s' t') (calls : Nat)
    (hle : calls ≤ p.shared.notifyCalls)
    (h : p.shared.inner.refreshing = true ∨ WakeIssued p calls) :
    s'.inner.refreshing = true ∨ WakeIssued ⟨s', p.tasks.set i t'⟩ calls := by
  have hi : i < p.tasks.length := (List.getElem?_eq_some_iff.mp ht).1
  -- Three things a caller may count on; each is kept or turns into the next.
  rcases h with hflag | hlt | ⟨u, hu, hnotifies⟩
  · rcases hflag' : s'.inner.refreshing with _ | _
    · have hheir := moves_clears parse _ _ _ _ hmoves hflag hflag'
      exact Or.inr (Or.inr ⟨t', List.mem_of_getElem? (List.getElem?_set_self hi), hheir⟩)
    · exact Or.inl rfl
  · have hmono := moves_notifyCalls_le parse _ _ _ _ hmoves
    exact Or.inr (Or.inl (Nat.lt_of_lt_of_le hlt hmono))
  · rcases List.mem_iff_getElem?.mp hu with ⟨k, hk⟩
    by_cases hki : k = i
    · -- The caller that clears the flag calls `notify_waiters` now.
      rw [hki, ht, Option.some.injEq] at hk
      subst hk
      have hcalls := moves_notifies parse _ _ _ _ hmoves hnotifies
      refine Or.inr (Or.inl ?_)
      show calls < s'.notifyCalls
      omega
    · have hold : (p.tasks.set i t')[k]? = some u := by
        rw [List.getElem?_set_ne (Ne.symm hki), hk]
      exact Or.inr (Or.inr ⟨u, List.mem_of_getElem? hold, hnotifies⟩)

/-- A step of caller `i` keeps everybody awake, if it makes its `Notified` in
    time. -/
theorem moves_awake (p : Pool Shared Task) (i : Nat) (t t' : Task) (s' : Shared)
    (ht : p.tasks[i]? = some t) (hmoves : Moves parse p.shared t s' t')
    (hparks : ∀ who, t = .refresh who .gap →
      p.shared.inner.refreshing = true ∨ ∃ u ∈ p.tasks, u.notifies = true)
    (hI : Awake p) : Awake ⟨s', p.tasks.set i t'⟩ := by
  -- What a waiting caller counted on before the step.
  have hbefore : ∀ who calls, .refresh who (.waiting calls) ∈ p.tasks.set i t' →
      calls ≤ p.shared.notifyCalls ∧
        (p.shared.inner.refreshing = true ∨ WakeIssued p calls) := by
    intro who calls hmem
    rcases List.mem_or_eq_of_mem_set hmem with hold | hheir
    · exact ⟨hI.counted who calls hold, hI.issued who calls hold⟩
    · rw [← hheir] at hmoves
      -- It has just made its `Notified`, in time, or it was waiting already.
      rcases moves_waiting parse _ _ _ _ _ hmoves with ⟨_, ⟨hgap, rfl⟩ | rfl⟩
      · refine ⟨Nat.le_refl _, ?_⟩
        rcases hparks who hgap with hflag | hany
        · exact Or.inl hflag
        · exact Or.inr (Or.inr hany)
      · exact ⟨hI.counted who calls (List.mem_of_getElem? ht),
          hI.issued who calls (List.mem_of_getElem? ht)⟩
  constructor
  · intro who calls hmem
    exact Nat.le_trans (hbefore who calls hmem).1 (moves_notifyCalls_le parse _ _ _ _ hmoves)
  · intro who calls hmem
    rcases hbefore who calls hmem with ⟨hle, hwake⟩
    exact wake_kept parse p i t t' s' ht hmoves calls hle hwake

/-- A call that comes in without waiting disturbs nobody. -/
theorem awake_spawn (p : Pool Shared Task) (t : Task)
    (hwaits : ∀ who calls, .refresh who (.waiting calls) ≠ t) (hI : Awake p) :
    Awake { p with tasks := p.tasks ++ [t] } := by
  have hold : ∀ who calls, .refresh who (.waiting calls) ∈ p.tasks ++ [t] →
      .refresh who (.waiting calls) ∈ p.tasks := by
    intro who calls hmem
    rcases List.mem_append.mp hmem with hmem | hmem
    · exact hmem
    · exact absurd (List.mem_singleton.mp hmem) (hwaits who calls)
  constructor
  · exact fun who calls hmem => hI.counted who calls (hold who calls hmem)
  · intro who calls hmem
    rcases hI.issued who calls (hold who calls hmem) with hflag | hlt | ⟨u, hu, hnotifies⟩
    · exact Or.inl hflag
    · exact Or.inr (Or.inl hlt)
    · exact Or.inr (Or.inr ⟨u, List.mem_append_left _ hu, hnotifies⟩)

/-- A caller that has nothing to do with wakeups may become another one. -/
theorem awake_recast (p : Pool Shared Task) (i : Nat) (t u : Task) (ht : p.tasks[i]? = some t)
    (hnotifies : t.notifies = false) (hwaits : ∀ who calls, .refresh who (.waiting calls) ≠ u)
    (hI : Awake p) : Awake { p with tasks := p.tasks.set i u } := by
  have hold : ∀ who calls, .refresh who (.waiting calls) ∈ p.tasks.set i u →
      .refresh who (.waiting calls) ∈ p.tasks := by
    intro who calls hmem
    rcases List.mem_or_eq_of_mem_set hmem with hmem | heq
    · exact hmem
    · exact absurd heq (hwaits who calls)
  constructor
  · exact fun who calls hmem => hI.counted who calls (hold who calls hmem)
  · intro who calls hmem
    rcases hI.issued who calls (hold who calls hmem) with hflag | hlt | ⟨v, hv, hvnotifies⟩
    · exact Or.inl hflag
    · exact Or.inr (Or.inl hlt)
    · rcases List.mem_iff_getElem?.mp hv with ⟨k, hk⟩
      have hki : i ≠ k := by
        rintro rfl
        rw [ht, Option.some.injEq] at hk
        rw [hk] at hnotifies
        cases hnotifies.symm.trans hvnotifies
      have hkeep : (p.tasks.set i u)[k]? = some v := by
        rw [List.getElem?_set_ne hki, hk]
      exact Or.inr (Or.inr ⟨v, List.mem_of_getElem? hkeep, hvnotifies⟩)

variable (initial : ClientAuth)

/-- In every run in which each `Notified` is made while a refresh runs or before its
    `notify_waiters`, who waits will be woken: a refresh is running, or the wakeup
    is issued. `notify_waiters` stores no permit, so a `Notified` made after it
    waits for the next refresh. -/
theorem reach_noLostWakeup (p : Pool Shared Task)
    (h : (tokenSession parse).Reach (Started initial)
      ((tokenSession parse).whenever fun p i t a => parksInTime p i t a = true) p) :
    NoLostWakeup p := by
  refine ((tokenSession parse).reach_pool (Started initial) _ Awake ?_ ?_ ?_ p h).issued
  · intro p hp
    have htasks := (started_pool initial p hp).2.2
    constructor
    · intro who calls hmem
      rw [htasks] at hmem
      cases hmem
    · intro who calls hmem
      rw [htasks] at hmem
      cases hmem
  · intro p i c t a ht ha hparks hI
    rcases act_moves parse t c a p.shared ha with ⟨hmoves, hspawned⟩
    have hnext := moves_awake parse p i t _ _ ht hmoves (by
      rintro who rfl
      rcases Bool.or_eq_true_iff.mp hparks with hflag | hany
      · exact Or.inl hflag
      · exact Or.inr (List.any_eq_true.mp hany)) hI
    rw [← List.append_nil (p.tasks.set i _), ← hspawned] at hnext
    exact hnext
  · intro p t hent hI
    have hcall : isCall p.shared.stored.length t = true := hent
    -- A call that comes in does not wait yet.
    refine awake_spawn p t (fun who calls hwaits => ?_) hI
    rw [← hwaits] at hcall
    cases who <;> cases hcall

end Session

/-! ## Concrete runs -/

/-- Two requests were refused. The first one refreshes, the second one finds the
    flag set. -/
def twoRefused : List (Label Task Input) :=
  refreshing ++ [.spawn (.refresh (.unauthorized 0) .lock), .resume 1 .go]

/-- The refresh of the first one fails and ends. -/
def firstFails : List (Label Task Input) :=
  [.resume 0 (.failed "timeout"), .resume 0 .go, .resume 0 .go]

/-- The second one waits, after `calls` calls to `notify_waiters`. -/
def secondWaits (calls : Nat) : Task := .refresh (.unauthorized 0) (.waiting calls)

/-- The second one makes its `Notified` first: it is woken. -/
theorem reach_noLostWakeup_woken :
    ∃ p : Pool Shared Task, p.tasks[1]? = some (secondWaits 0) ∧
      p.shared.inner.refreshing = false ∧ NoLostWakeup p := by
  rcases session_of_watched parksInTime (twoRefused ++ [.resume 1 .go] ++ firstFails)
    (fun p => decide (p.tasks[1]? = some (secondWaits 0) ∧ p.shared.inner.refreshing = false))
    (by decide) with ⟨p, hp, hrun⟩
  rcases of_decide_eq_true hrun with ⟨ht, hflag⟩
  exact ⟨p, ht, hflag, reach_noLostWakeup someParse somePair p hp⟩

/-- The second one makes its `Notified` last: nobody is left to wake it. -/
theorem wakeup_lost :
    ¬ ∀ p, (tokenSession someParse).Reach (Started somePair) Machine.anyStep p →
      NoLostWakeup p := by
  intro hall
  rcases session_of_replay (twoRefused ++ firstFails ++ [.resume 1 .go])
    (fun p => decide (p.shared.inner.refreshing = false ∧ p.shared.notifyCalls = 1 ∧
      p.tasks = [.returned (.unauthorized false), secondWaits 1]))
    (by decide) with ⟨p, hp, hrun⟩
  rcases of_decide_eq_true hrun with ⟨hflag, hcalls, htasks⟩
  have hmem : secondWaits 1 ∈ p.tasks := by
    rw [htasks]
    exact List.mem_cons_of_mem _ (List.mem_singleton_self _)
  -- The flag is unset, the only call to `notify_waiters` came before, and the one
  -- who made it has returned.
  rcases hall p hp _ _ hmem with h | h | ⟨t, ht, hnotifies⟩
  · cases hflag.symm.trans h
  · omega
  · rw [htasks] at ht
    simp only [List.mem_cons, List.not_mem_nil, or_false] at ht
    rcases ht with rfl | rfl <;> cases hnotifies

end Auth

end Pickpoint
