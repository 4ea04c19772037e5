import Pickpoint.Theory.Refreshing

/-!
# Outcomes

What the callers of a refresh are told.

The caller that refreshes returns what its refresh came to. A caller that waits
looks at the flag when it is woken, and returns `Ok` when it is clear, whatever
the refresh came to (`waiter_told_ok`). What it returns is right when whoever
clears the flag has served everybody who waits: a pair was stored after their
calls began (`reach_truthful`).

## Main definitions

* `Task.waits`: A caller that waits for another's refresh.
* `Truthful`: An `Ok` means that a pair was stored since the call began.
* `servesWaiters`: The flag is cleared when all who wait have been served.
* `Task.served`: What a call knows of the pairs stored since it began.

## Theorems

* `moves_served`: What a step makes of that.
* `reach_truthful`: An `Ok` can be trusted.
* `waiter_told_ok`: Not so in general.
-/

namespace Pickpoint

namespace Auth

open Interleave

/-- The caller has found the flag set and has not looked again. -/
def Task.waits : Task → Bool
  | .refresh _ .gap | .refresh _ (.waiting _) | .refresh _ .recheck => true
  | _ => false

/-- How many pairs had been stored when the call began to refresh. -/
def Task.since : Task → Nat
  | .refresh who _ => who.since
  | .tokenRead (some since) => since
  | _ => 0

/-- The result of `refresh` is `Ok` when the caller takes it for `Ok`. -/
theorem done_ok (who : Caller) (r : Except ApiError Unit) (h : who.done r = who.done (.ok ())) :
    r = .ok () := by
  cases r with
  | ok => rfl
  | error => cases who <;> cases h

theorem done_not_refresh (who who' : Caller) (pc : RefreshPc) (r : Except ApiError Unit) :
    .refresh who' pc ≠ who.done r := by
  cases who <;> cases r <;> rintro ⟨⟩

theorem done_not_dropped (who : Caller) (r : Except ApiError Unit) : .dropped ≠ who.done r := by
  cases who <;> cases r <;> rintro ⟨⟩

section Session

variable (parse : Bytes → Except String ClientAuth)

/-- Whenever `refresh` returns `Ok`, some pair was stored since it was called;
    and an access token that `token` returns after a refresh belongs to such a
    pair. -/
structure Truthful (p : Pool Shared Task) : Prop where
  refreshed : ∀ (i : Nat) c who pc a, p.tasks[i]? = some (.refresh who pc) →
    (Task.refresh who pc).act parse c = some a →
    (tokenSession parse).heir a p.shared = who.done (.ok ()) →
    who.since < p.shared.stored.length
  replaced : ∀ (i : Nat) c since a accessToken, p.tasks[i]? = some (.tokenRead (some since)) →
    (Task.tokenRead (some since)).act parse c = some a →
    (tokenSession parse).heir a p.shared = .returned (.token (.ok accessToken)) →
    ∃ pair ∈ p.shared.stored.take (p.shared.stored.length - since),
      pair.accessToken = accessToken

/-- Whoever clears the flag has served all who wait: a pair was stored since
    their calls began. -/
def servesWaiters (p : Pool Shared Task) (_ : Nat) (t : Task) (_ : Act Section Task) : Bool :=
  match t with
  | .refresh _ (.clear _) =>
    p.tasks.all fun u => !u.waits || decide (u.since < p.shared.stored.length)
  | _ => true

/-- What a call knows of the pairs stored since it began: one was stored when it
    comes to return `Ok`, and when a caller waits for nobody. -/
def Task.served (s : Shared) : Task → Prop
  | .refresh who (.clear (.ok _)) | .refresh who (.notify (.ok _)) => who.since < s.stored.length
  | .refresh who .gap | .refresh who (.waiting _) | .refresh who .recheck =>
    who.since ≤ s.stored.length ∧ (s.inner.refreshing = false → who.since < s.stored.length)
  | .refresh who _ => who.since ≤ s.stored.length
  | .tokenRead (some since) => since < s.stored.length
  | _ => True

/-- The access token of the session is that of the last pair stored. -/
def Current (s : Shared) : Prop :=
  ∀ pair, s.stored.head? = some pair → s.inner.accessToken = pair.accessToken

theorem moves_current (s s' : Shared) (t t' : Task) (h : Moves parse s t s' t')
    (hI : Current s) : Current s' := by
  cases h with
  | stored who pair now =>
      rintro pair' ⟨⟩
      rfl
  | _ => exact hI

/-- What the call that takes a step knows afterwards. -/
theorem moves_served (s s' : Shared) (t t' : Task) (h : Moves parse s t s' t')
    (hI : t.served s) : t'.served s' := by
  cases h with
  | drop => trivial
  | due => exact Nat.le_refl _
  | current => trivial
  | took who => exact hI
  | busy who hflag => exact ⟨hI, fun hno => by cases hflag.symm.trans hno⟩
  | unanswered who => exact hI
  | answered who => exact hI
  | refused who => exact hI
  | granted who => exact hI
  -- The store is what serves the caller that makes it; for the others it counts
  -- when the flag is cleared.
  | stored who pair now => exact Nat.lt_succ_of_le hI
  | cleared who r => cases r <;> exact hI
  | notified who r =>
      cases who with
      | token since =>
          cases r with
          | ok => exact hI
          | error => trivial
      | unauthorized since => trivial
  | parked who => exact hI
  | asleep who => exact hI
  | woken who => exact hI
  | again who => exact hI.1
  | settled who hflag =>
      cases who with
      | token since => exact hI.2 hflag
      | unauthorized since => trivial
  | read => trivial

/-- What a bystander knows afterwards, when it has been served before the flag
    was cleared. -/
theorem served_mono (s s' : Shared) (u : Task) (hlen : s.stored.length ≤ s'.stored.length)
    (hflag : u.waits = true → s'.inner.refreshing = false →
      s.inner.refreshing = false ∨ u.since < s.stored.length)
    (hI : u.served s) : u.served s' := by
  -- A caller that waits is served when the flag is clear.
  have hwaits : ∀ who : Caller, u.waits = true → u.since = who.since →
      (who.since ≤ s.stored.length ∧ (s.inner.refreshing = false → who.since < s.stored.length)) →
      who.since ≤ s'.stored.length ∧
        (s'.inner.refreshing = false → who.since < s'.stored.length) := by
    intro who hw hsince hold
    refine ⟨Nat.le_trans hold.1 hlen, fun hclear => ?_⟩
    rcases hflag hw hclear with hbefore | hlt
    · exact Nat.lt_of_lt_of_le (hold.2 hbefore) hlen
    · rw [hsince] at hlt
      exact Nat.lt_of_lt_of_le hlt hlen
  -- Everybody else knows a bound that only gets easier to meet.
  cases u with
  | refresh who pc =>
      cases pc with
      | gap => exact hwaits who rfl rfl hI
      | waiting calls => exact hwaits who rfl rfl hI
      | recheck => exact hwaits who rfl rfl hI
      | clear r =>
          cases r with
          | ok => exact Nat.lt_of_lt_of_le hI hlen
          | error => exact Nat.le_trans hI hlen
      | notify r =>
          cases r with
          | ok => exact Nat.lt_of_lt_of_le hI hlen
          | error => exact Nat.le_trans hI hlen
      | _ => exact Nat.le_trans hI hlen
  | tokenRead due =>
      cases due with
      | some since => exact Nat.lt_of_lt_of_le hI hlen
      | none => trivial
  | _ => trivial

theorem moves_stored_le (s s' : Shared) (t t' : Task) (h : Moves parse s t s' t') :
    s.stored.length ≤ s'.stored.length := by
  cases h with
  | stored => exact Nat.le_succ _
  | _ => exact Nat.le_refl _

variable (initial : ClientAuth)

/-- What every call knows, in a run in which whoever clears the flag has served
    all who wait. -/
theorem reach_served (p : Pool Shared Task)
    (h : (tokenSession parse).Reach (Started initial)
      ((tokenSession parse).whenever fun p i t a => servesWaiters p i t a = true) p) :
    Current p.shared ∧ ∀ (i : Nat) t, p.tasks[i]? = some t → t.served p.shared := by
  refine (tokenSession parse).reach_tasks (Started initial)
    (fun p i t a => servesWaiters p i t a = true) Current (fun s t => t.served s)
    ?_ ?_ ?_ ?_ p h
  · intro p hp
    rcases started_pool initial p hp with ⟨_, hstored, htasks⟩
    constructor
    · intro pair hpair
      rw [hstored] at hpair
      cases hpair
    · intro t ht
      rw [htasks] at ht
      cases ht
  · -- A call starts with the number of pairs stored then.
    intro s t _ hent
    have hcall : isCall s.stored.length t = true := hent
    cases t with
    | refresh who pc =>
        cases who <;> cases pc <;> first | cases hcall | exact Nat.le_of_eq (eq_of_beq hcall)
    | token => trivial
    | _ => cases hcall
  · intro p i c t a ht ha _ hcur hI _
    rcases act_moves parse t c a p.shared ha with ⟨hmoves, hspawned⟩
    refine ⟨moves_current parse _ _ _ _ hmoves hcur, moves_served parse _ _ _ _ hmoves hI, ?_⟩
    rw [hspawned]
    rintro u ⟨⟩
  · intro p i j c t u a _ hu _ ha hserves _ _ hI
    have hmoves := (act_moves parse t c a p.shared ha).1
    refine served_mono p.shared _ u (moves_stored_le parse _ _ _ _ hmoves) ?_ hI
    intro hwaits hclear
    generalize (tokenSession parse).after a p.shared = s' at hmoves hclear
    generalize (tokenSession parse).heir a p.shared = t' at hmoves
    -- The flag is cleared in one place only, where the condition is asked.
    cases hmoves with
    | took => cases hclear
    | cleared who r =>
        have hall := List.all_eq_true.mp hserves u (List.mem_of_getElem? hu)
        rw [hwaits, Bool.not_true, Bool.false_or, decide_eq_true_eq] at hall
        exact Or.inr hall
    | _ => exact Or.inl hclear

/-- In every run in which whoever clears the flag has served all who wait, an `Ok`
    means that a pair was stored since the call began. Who waited learns no more
    than that the refresh is over, so a failed one looks the same to it. -/
theorem reach_truthful (p : Pool Shared Task)
    (h : (tokenSession parse).Reach (Started initial)
      ((tokenSession parse).whenever fun p i t a => servesWaiters p i t a = true) p) :
    Truthful parse p := by
  rcases reach_served parse initial p h with ⟨hcur, hserved⟩
  constructor
  · intro i c who pc a ht ha hheir
    have hI := hserved i _ ht
    have hmoves := (act_moves parse _ c a p.shared ha).1
    generalize (tokenSession parse).after a p.shared = s' at hmoves
    rw [hheir] at hmoves
    generalize hdone : who.done (.ok ()) = t' at hmoves
    -- `refresh` returns `Ok` to the caller that refreshed, or at the second look.
    cases hmoves with
    | drop => exact absurd hdone.symm (done_not_dropped who _)
    | notified _ r =>
        rw [done_ok who r hdone.symm] at hI
        exact hI
    | settled _ hflag => exact hI.2 hflag
    | _ => exact absurd hdone.symm (done_not_refresh who _ _ _)
  · intro i c since a accessToken ht ha hheir
    have hlt : since < p.shared.stored.length := hserved i _ ht
    have hmoves := (act_moves parse _ c a p.shared ha).1
    generalize (tokenSession parse).after a p.shared = s' at hmoves
    rw [hheir] at hmoves
    cases hmoves with
    | read =>
        -- The token read is that of the last pair, which was stored since.
        rcases hstored : p.shared.stored with _ | ⟨pair, rest⟩
        · rw [hstored] at hlt
          cases hlt
        · have htake : 0 < (pair :: rest).length - since := by
            rw [hstored] at hlt
            omega
          refine ⟨pair, ?_, ?_⟩
          · rw [List.take_cons htake]
            exact List.mem_cons_self
          · exact (hcur pair (by rw [hstored]; rfl)).symm

end Session

/-! ## Concrete runs -/

/-- The first of two callers refreshes while the second one waits. -/
def secondParked : List (Label Task Input) :=
  [.spawn (.refresh (.unauthorized 0) .lock), .resume 0 .go,
    .spawn (.refresh (.unauthorized 0) .lock), .resume 1 .go, .resume 1 .go]

/-- The second caller has been woken and is about to look at the flag. -/
def secondWoken : Task := .refresh (.unauthorized 0) .recheck

/-- The refresh succeeds: the second caller is told so. -/
theorem reach_truthful_served :
    ∃ p : Pool Shared Task, p.tasks[1]? = some secondWoken ∧ p.shared.inner.refreshing = false ∧
      Truthful someParse p := by
  rcases session_of_watched servesWaiters
    (secondParked ++ [.resume 0 (.responded 200), .resume 0 (.body [1]), .resume 0 (.clock 0 0 0),
      .resume 0 .go, .resume 0 .go, .resume 1 .go])
    (fun p => decide (p.tasks[1]? = some secondWoken ∧ p.shared.inner.refreshing = false))
    (by decide) with ⟨p, hp, hrun⟩
  rcases of_decide_eq_true hrun with ⟨ht, hflag⟩
  exact ⟨p, ht, hflag, reach_truthful someParse somePair p hp⟩

/-- The refresh fails: the second caller is told that it succeeded. -/
theorem waiter_told_ok :
    ¬ ∀ p, (tokenSession someParse).Reach (Started somePair) Machine.anyStep p →
      Truthful someParse p := by
  intro hall
  rcases session_of_replay
    (secondParked ++ [.resume 0 (.failed "timeout"), .resume 0 .go, .resume 0 .go, .resume 1 .go])
    (fun p => decide (p.tasks[1]? = some secondWoken ∧ p.shared.inner.refreshing = false ∧
      p.shared.stored = [])) (by decide) with ⟨p, hp, hrun⟩
  rcases of_decide_eq_true hrun with ⟨ht, hflag, hstored⟩
  have hlt := (hall p hp).refreshed 1 .go (.unauthorized 0) .recheck _ ht rfl ?_
  · rw [hstored] at hlt
    cases hlt
  · have hrun : (tokenSession someParse).run Section.readRefreshing p.shared =
        (p.shared, p.shared.inner.refreshing) := rfl
    simp only [Machine.heir, hrun, hflag, Bool.false_eq_true, if_false]

end Auth

end Pickpoint
