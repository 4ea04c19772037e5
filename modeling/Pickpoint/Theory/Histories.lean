import Pickpoint.Theory.Retries

/-!
# Histories

What a request meets, described by the rounds it is tried again after and the
response it ends in.

All rounds before the last are network errors or server errors, or a `401` that a
refresh helped, and there are no more of them than the two budgets allow
(`EndsAfter`). Then the loop goes round once for each (`EndsAfter.goes_on`,
`EndsAfter.rest`), and what it returns depends on the last response alone
(`ends_result`).

## Main definitions

* `EndsAfter`, `EndsIn`: A history that ends within the retry budget.
* `requestResult`: What a request returns.

## Theorems

* `round_failure`, `round_refreshed`, `round_response`: The rounds of a history.
* `EndsAfter.goes_on`, `EndsAfter.rest`: A history without its first round.
* `ends_run`, `ends_result`: What comes of a history.
-/

namespace Pickpoint

namespace Http

open Looping

open Auth (ApiError Bytes)

/-- After `n` rounds that are within what is left of both budgets, the last one
    gets a response. -/
structure EndsAfter (tr : Transport) (st : Attempts) (w : Nat → Round) (n status : Nat)
    (raw : Bytes) : Prop where
  applied : ∀ k ≤ n, (w k).applied = .ok ()
  again : ∀ k < n, (w k).outcome.isFailure = true ∨ (w k).outcome.isUnauthorized = true ∧
    tr.auth.refreshAfterUnauthorized (w k).refreshed = true
  failures : (List.range n).countP (fun k => (w k).outcome.isFailure) ≤ st.left tr
  unauthorized : (List.range n).countP (fun k => (w k).outcome.isUnauthorized) ≤ st.authLeft
  response : (w n).outcome = .responded status raw

/-- The history of a request ends, within the retry budget, in this response. -/
def EndsIn (tr : Transport) (w : Nat → Round) (status : Nat) (raw : Bytes) : Prop :=
  ∃ n, EndsAfter tr {} w n status raw

section Rounds

variable (tr : Transport) (lib : Lib) (opts : RequestOpts)

/-- A failed round is tried again while attempts are left. -/
theorem round_failure (st : Attempts) (x : Round) (happlied : x.applied = .ok ())
    (hfail : x.outcome.isFailure = true) (hleft : 0 < st.left tr) :
    requestRound tr lib opts st x =
      ([.sent x.outcome], .inl { st with attempt := st.attempt + 1 }) := by
  have hlt : ¬ tr.maxRetries ≤ st.attempt := by
    unfold Attempts.left at hleft
    omega
  rcases x with ⟨applied, e | ⟨status, raw⟩, refreshed⟩
  · cases happlied
    simp only [requestRound, if_neg hlt]
  · cases happlied
    have h500 : 500 ≤ status ∧ status ≤ 599 := of_decide_eq_true hfail
    have h401 : ¬ status = 401 := by omega
    simp only [requestRound, if_neg h401, if_pos h500, if_neg hlt]

/-- A `401` that a refresh helped is tried again once. -/
theorem round_refreshed (st : Attempts) (x : Round) (happlied : x.applied = .ok ())
    (hauth : x.outcome.isUnauthorized = true)
    (hrefresh : tr.auth.refreshAfterUnauthorized x.refreshed = true) (hleft : 0 < st.authLeft) :
    requestRound tr lib opts st x =
      ([.sent x.outcome, .refreshed true], .inl { st with authRetried := true }) := by
  have hfresh : st.authRetried = false := by
    unfold Attempts.authLeft at hleft
    cases hretried : st.authRetried with
    | false => rfl
    | true =>
        rw [hretried] at hleft
        exact absurd hleft (Nat.lt_irrefl 0)
  have hbearer : tr.auth.isBearer = true := by
    cases hkind : tr.auth with
    | apiKey key =>
        rw [hkind] at hrefresh
        cases hrefresh
    | _ => rfl
  rcases x with ⟨applied, e | ⟨status, raw⟩, refreshed⟩
  · cases hauth
  · cases happlied
    have h401 : status = 401 := of_decide_eq_true hauth
    simp only [requestRound, if_pos h401, hfresh, hbearer, hrefresh, Bool.false_eq_true,
      not_false_eq_true, and_self, if_true]

/-- A response that is not tried again ends the loop. -/
theorem round_response (st : Attempts) (x : Round) (status : Nat) (raw : Bytes)
    (happlied : x.applied = .ok ()) (hresponse : x.outcome = .responded status raw)
    (h401 : status ≠ 401) (h500 : ¬ (500 ≤ status ∧ status ≤ 599)) :
    requestRound tr lib opts st x =
      ([.sent x.outcome], .inr (statusResult lib opts status raw)) := by
  rcases x with ⟨applied, outcome, refreshed⟩
  cases happlied
  cases hresponse
  simp only [requestRound, if_neg h401, if_neg h500]

variable {tr}

theorem countP_range_succ (p : Nat → Bool) (n : Nat) :
    (List.range (n + 1)).countP p =
      (List.range n).countP (fun k => p (k + 1)) + (if p 0 then 1 else 0) := by
  rw [List.range_succ_eq_map, List.countP_cons, List.countP_map]
  rfl

/-- A round before the last goes on. -/
theorem EndsAfter.goes_on {st : Attempts} {w : Nat → Round} {n status : Nat} {raw : Bytes}
    (h : EndsAfter tr st w (n + 1) status raw) :
    ∃ es st', requestRound tr lib opts st (w 0) = (es, .inl st') := by
  have happlied := h.applied 0 (Nat.zero_le _)
  rcases h.again 0 (Nat.succ_pos n) with hfail | ⟨hauth, hrefresh⟩
  · have hleft := h.failures
    rw [countP_range_succ, if_pos hfail] at hleft
    exact ⟨_, _, round_failure tr lib opts st (w 0) happlied hfail (by omega)⟩
  · have hleft := h.unauthorized
    rw [countP_range_succ, if_pos hauth] at hleft
    exact ⟨_, _, round_refreshed tr lib opts st (w 0) happlied hauth hrefresh (by omega)⟩

/-- The rounds after the first end in the same response. -/
theorem EndsAfter.rest {st st' : Attempts} {w : Nat → Round} {n status : Nat} {raw : Bytes}
    {es : List Event} (h : EndsAfter tr st w (n + 1) status raw)
    (hround : requestRound tr lib opts st (w 0) = (es, .inl st')) :
    EndsAfter tr st' (fun k => w (k + 1)) n status raw := by
  rcases again_spends tr lib opts st st' (w 0) es hround with ⟨hleft, hauth, _⟩
  have hfailures := h.failures
  have hunauthorized := h.unauthorized
  rw [countP_range_succ] at hfailures hunauthorized
  refine ⟨fun k hk => h.applied (k + 1) (Nat.succ_le_succ hk),
    fun k hk => h.again (k + 1) (Nat.succ_lt_succ hk), ?_, ?_, h.response⟩
  · omega
  · omega

/-- The rounds of a history come to what its last response does. -/
theorem ends_run (st : Attempts) (w : Nat → Round) (n status : Nat) (raw : Bytes)
    (h : EndsAfter tr st w n status raw) (h401 : status ≠ 401)
    (h500 : ¬ (500 ≤ status ∧ status ≤ 599)) :
    ∃ es, run (requestRound tr lib opts) (n + 1) st w =
      (es, some (statusResult lib opts status raw)) := by
  induction n generalizing st w with
  | zero =>
      refine ⟨[.sent (w 0).outcome], ?_⟩
      rw [run, round_response tr lib opts st (w 0) status raw (h.applied 0 (Nat.le_refl 0))
        h.response h401 h500]
  | succ n ih =>
      rcases h.goes_on lib opts with ⟨es, st', hround⟩
      rcases ih st' _ (h.rest lib opts hround) with ⟨es', hrest⟩
      refine ⟨es ++ es', ?_⟩
      rw [run, hround]
      simp only [hrest]

variable (tr)

/-- With as many rounds as the loop can take there is a result. -/
theorem doRequest_isSome (w : Nat → Round) :
    (doRequest tr lib opts (tr.maxRetries + 2) w).2.isSome = true := by
  rcases request_ends tr lib opts w with ⟨events, r, h⟩
  rw [h _ (Nat.le_refl _)]
  rfl

/-- What `do_request` returns when it meets `w`. -/
def requestResult (w : Nat → Round) : Except ApiError Bytes :=
  (doRequest tr lib opts (tr.maxRetries + 2) w).2.get (doRequest_isSome tr lib opts w)

theorem requestResult_eq (w : Nat → Round) (fuel : Nat) (es : List Event)
    (r : Except ApiError Bytes) (h : run (requestRound tr lib opts) fuel {} w = (es, some r)) :
    requestResult tr lib opts w = r := by
  rcases request_ends tr lib opts w with ⟨events, r', hends⟩
  have hmono := run_mono _ fuel (max fuel (tr.maxRetries + 2)) _ _ _ _ (Nat.le_max_left _ _) h
  have hsame := hends (max fuel (tr.maxRetries + 2)) (Nat.le_max_right _ _)
  rw [doRequest, hmono, Prod.mk.injEq, Option.some.injEq] at hsame
  have hresult : (doRequest tr lib opts (tr.maxRetries + 2) w).2 = some r := by
    rw [hends _ (Nat.le_refl _), hsame.2]
  rw [requestResult, Option.get_of_eq_some _ hresult]

/-- What comes of a history is what its last response comes to. -/
theorem ends_result (w : Nat → Round) (status : Nat) (raw : Bytes)
    (h : EndsIn tr w status raw) (h401 : status ≠ 401)
    (h500 : ¬ (500 ≤ status ∧ status ≤ 599)) :
    requestResult tr lib opts w = statusResult lib opts status raw := by
  rcases h with ⟨n, hn⟩
  rcases ends_run lib opts {} w n status raw hn h401 h500 with ⟨es, hrun⟩
  exact requestResult_eq tr lib opts w (n + 1) es _ hrun

end Rounds

end Http

end Pickpoint
