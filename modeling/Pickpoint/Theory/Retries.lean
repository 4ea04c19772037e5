import Pickpoint.Core.DoRequest
import Pickpoint.Theory.Requests

/-!
# Retries

How often `do_request` sends, and what it returns.

Two things make it send again, and each has its own budget: a network error or a
server error takes one of the attempts, a `401` that a refresh helped takes the
one retry it gets. A round that goes on takes from one of the two
(`round_again`), so both together bound the rounds, in whatever order the
outcomes come.

## Main definitions

* `Outcome.isFailure`, `Outcome.isUnauthorized`: What is sent again.
* `classify`: What a send comes to when it is the last.
* `outcomes`: The outcomes of the sends, in order.
* `Budget`: What holds of the rest of a request.
* `Call.place`, `InLoop`: A suspended request as a place in the loop.

## Theorems

* `round_cases`: What a round does.
* `round_again`, `round_done`: The same, from what comes of it.
* `request_budget`: The retry budget.
* `requests_refine`: The requests of a transport are runs of the loop.
-/

namespace Pickpoint

namespace Http

open Interleave Auth Looping

/-- A network error or a server error. -/
def Outcome.isFailure : Outcome → Bool
  | .failed _ => true
  | .responded status _ => decide (500 ≤ status ∧ status ≤ 599)

/-- A `401`. -/
def Outcome.isUnauthorized : Outcome → Bool
  | .failed _ => false
  | .responded status _ => decide (status = 401)

/-- What a send comes to when it is the last. -/
def classify (lib : Lib) (opts : RequestOpts) : Outcome → Except ApiError Bytes
  | .failed e => .error (networkError e)
  | .responded status raw =>
    if status = 401 then .error (unauthorizedError raw)
    else if 500 ≤ status ∧ status ≤ 599 then .error (serverError status raw)
    else statusResult lib opts status raw

/-- The outcome of a send. -/
def Event.outcome? : Event → Option Outcome
  | .sent o => some o
  | .refreshed _ => none

/-- The outcomes of the sends, in order. -/
def outcomes (events : List Event) : List Outcome := events.filterMap Event.outcome?

/-- What is left of the attempts. -/
def Attempts.left (tr : Transport) (st : Attempts) : Nat := tr.maxRetries - st.attempt

/-- What is left of the retry after a `401`. -/
def Attempts.authLeft (st : Attempts) : Nat := if st.authRetried then 0 else 1

/-- What holds of a request from a round on: how often it sends, and after what,
    how often it refreshes, and what it returns. Every send but the last is
    followed by another. -/
structure Budget (tr : Transport) (lib : Lib) (opts : RequestOpts) (st : Attempts)
    (w : Nat → Round) (events : List Event) (r : Except ApiError Bytes) : Prop where
  sends : (outcomes events).length ≤ st.left tr + st.authLeft + 1
  failures : (outcomes events).dropLast.countP Outcome.isFailure ≤ st.left tr
  unauthorized : (outcomes events).dropLast.countP Outcome.isUnauthorized ≤ st.authLeft
  others : ∀ o ∈ (outcomes events).dropLast, o.isFailure = true ∨ o.isUnauthorized = true
  refreshes : events.count (.refreshed true) ≤ st.authLeft
  keyed : tr.auth.isBearer = false → ∀ ok, Event.refreshed ok ∉ events
  met : ∀ (k : Nat) o, (outcomes events)[k]? = some o → o = (w k).outcome
  result : (∃ o, (outcomes events).getLast? = some o ∧ r = classify lib opts o ∧
      (w ((outcomes events).length - 1)).applied = .ok ()) ∨
    ∃ e, (w (outcomes events).length).applied = .error e ∧ r = .error e

section Rounds

variable (tr : Transport) (lib : Lib) (opts : RequestOpts)

/-- What a round does: `apply` fails; or the send does, and is tried again while
    attempts are left; or it gets a `401`, and the session may refresh once; or it
    is the last. -/
theorem round_cases (st : Attempts) (x : Round) :
    (∃ e, x.applied = .error e ∧ requestRound tr lib opts st x = ([], .inr (.error e))) ∨
    x.applied = .ok () ∧
      ((x.outcome.isFailure = true ∧ x.outcome.isUnauthorized = false ∧
          requestRound tr lib opts st x = ([.sent x.outcome],
            if tr.maxRetries ≤ st.attempt then .inr (classify lib opts x.outcome)
            else .inl { st with attempt := st.attempt + 1 })) ∨
        (x.outcome.isFailure = false ∧ x.outcome.isUnauthorized = true ∧
          st.authRetried = false ∧ tr.auth.isBearer = true ∧
          ∃ ok, requestRound tr lib opts st x = ([.sent x.outcome, .refreshed ok],
            if ok then .inl { st with authRetried := true }
            else .inr (classify lib opts x.outcome))) ∨
        requestRound tr lib opts st x =
          ([.sent x.outcome], .inr (classify lib opts x.outcome))) := by
  rcases x with ⟨e | ⟨⟩, outcome, refreshed⟩
  · exact Or.inl ⟨e, rfl, rfl⟩
  refine Or.inr ⟨rfl, ?_⟩
  rcases outcome with e | ⟨status, raw⟩
  · exact Or.inl ⟨rfl, rfl, rfl⟩
  -- The statuses are tested in the order of the source.
  by_cases h401 : status = 401
  · by_cases hretry : ¬ st.authRetried = true ∧ tr.auth.isBearer = true
    · have hfresh : st.authRetried = false := Bool.not_eq_true _ ▸ hretry.1
      refine Or.inr (Or.inl ⟨by rw [h401]; rfl, decide_eq_true h401, hfresh, hretry.2,
        tr.auth.refreshAfterUnauthorized refreshed, ?_⟩)
      simp only [requestRound, classify, if_pos h401, if_pos hretry]
    · refine Or.inr (Or.inr ?_)
      simp only [requestRound, classify, if_pos h401, if_neg hretry]
  · by_cases h500 : 500 ≤ status ∧ status ≤ 599
    · refine Or.inl ⟨decide_eq_true h500, decide_eq_false h401, ?_⟩
      simp only [requestRound, classify, if_neg h401, if_pos h500]
    · refine Or.inr (Or.inr ?_)
      simp only [requestRound, classify, if_neg h401, if_neg h500]

/-- A round that goes on takes from one of the two budgets. -/
theorem round_again (st st' : Attempts) (x : Round) (es : List Event)
    (h : requestRound tr lib opts st x = (es, .inl st')) :
    x.applied = .ok () ∧
      ((x.outcome.isFailure = true ∧ x.outcome.isUnauthorized = false ∧
          st.attempt < tr.maxRetries ∧ st' = { st with attempt := st.attempt + 1 } ∧
          es = [.sent x.outcome]) ∨
        (x.outcome.isFailure = false ∧ x.outcome.isUnauthorized = true ∧
          st.authRetried = false ∧ tr.auth.isBearer = true ∧
          st' = { st with authRetried := true } ∧ es = [.sent x.outcome, .refreshed true])) := by
  -- A round that goes on used an attempt, or refreshed.
  rcases round_cases tr lib opts st x with ⟨e, _, hround⟩ |
    ⟨happlied, ⟨hfail, hauth, hround⟩ | ⟨hfail, hauth, hfresh, hbearer, ok, hround⟩ | hround⟩
  · cases h.symm.trans hround
  · refine ⟨happlied, Or.inl ⟨hfail, hauth, ?_⟩⟩
    rw [h] at hround
    split at hround
    · cases hround
    · next hleft =>
      cases hround
      exact ⟨Nat.lt_of_not_le hleft, rfl, rfl⟩
  · refine ⟨happlied, Or.inr ⟨hfail, hauth, hfresh, hbearer, ?_⟩⟩
    rw [h] at hround
    rcases ok with _ | _
    · cases hround
    · cases hround
      exact ⟨rfl, rfl⟩
  · cases h.symm.trans hround

/-- A round that ends the loop returns the error of `apply`, or what the send
    comes to. -/
theorem round_done (st : Attempts) (x : Round) (es : List Event) (r : Except ApiError Bytes)
    (h : requestRound tr lib opts st x = (es, .inr r)) :
    (∃ e, x.applied = .error e ∧ r = .error e ∧ es = []) ∨
      (x.applied = .ok () ∧ r = classify lib opts x.outcome ∧
        (es = [.sent x.outcome] ∨
          (tr.auth.isBearer = true ∧ es = [.sent x.outcome, .refreshed false]))) := by
  -- What a round ends with is the class of its last send, or the error of `apply`.
  rcases round_cases tr lib opts st x with ⟨e, happlied, hround⟩ |
    ⟨happlied, ⟨_, _, hround⟩ | ⟨_, _, _, hbearer, ok, hround⟩ | hround⟩
  · cases h.symm.trans hround
    exact Or.inl ⟨e, happlied, rfl, rfl⟩
  · refine Or.inr ⟨happlied, ?_⟩
    rw [h] at hround
    split at hround
    · cases hround
      exact ⟨rfl, Or.inl rfl⟩
    · cases hround
  · refine Or.inr ⟨happlied, ?_⟩
    rw [h] at hround
    rcases ok with _ | _
    · cases hround
      exact ⟨rfl, Or.inr ⟨hbearer, rfl⟩⟩
    · cases hround
  · cases h.symm.trans hround
    exact Or.inr ⟨happlied, rfl, Or.inl rfl⟩

/-- A last round is within the budget. -/
theorem budget_last (st : Attempts) (w : Nat → Round) (es : List Event)
    (r : Except ApiError Bytes) (h : requestRound tr lib opts st (w 0) = (es, .inr r)) :
    Budget tr lib opts st w es r := by
  -- There is one send, or none when `apply` fails.
  rcases round_done tr lib opts st (w 0) es r h with
    ⟨e, happlied, hr, rfl⟩ | ⟨happlied, hr, hes⟩
  · refine ⟨Nat.zero_le _, Nat.zero_le _, Nat.zero_le _, ?_, Nat.zero_le _, ?_, ?_,
      Or.inr ⟨e, happlied, hr⟩⟩
    · rintro o ⟨⟩
    · rintro _ _ ⟨⟩
    · rintro k o ⟨⟩
  · have hout : outcomes es = [(w 0).outcome] := by rcases hes with rfl | ⟨_, rfl⟩ <;> rfl
    refine ⟨?_, ?_, ?_, ?_, ?_, ?_, ?_, Or.inl ⟨_, ?_, hr, ?_⟩⟩ <;> try rw [hout]
    · exact Nat.le_add_left _ _
    · exact Nat.zero_le _
    · exact Nat.zero_le _
    · rintro o ⟨⟩
    · rcases hes with rfl | ⟨_, rfl⟩ <;> exact Nat.zero_le _
    · intro hkey ok hmem
      rcases hes with rfl | ⟨hbearer, rfl⟩
      · rcases List.mem_singleton.mp hmem with ⟨⟩
      · rw [hkey] at hbearer
        cases hbearer
    · intro k o hk
      cases k with
      | zero => exact (Option.some.inj hk).symm
      | succ k => cases hk
    · rfl
    · exact happlied

/-- What a round that goes on takes. -/
theorem again_spends (st st' : Attempts) (x : Round) (es : List Event)
    (h : requestRound tr lib opts st x = (es, .inl st')) :
    st.left tr = st'.left tr + (if x.outcome.isFailure then 1 else 0) ∧
      st.authLeft = st'.authLeft + (if x.outcome.isUnauthorized then 1 else 0) ∧
      es.count (.refreshed true) = (if x.outcome.isUnauthorized then 1 else 0) ∧
      (x.outcome.isFailure = true ∨ x.outcome.isUnauthorized = true) ∧
      (tr.auth.isBearer = false → ∀ ok, Event.refreshed ok ∉ es) ∧
      outcomes es = [x.outcome] := by
  -- Either way one of the two budgets shrinks.
  rcases (round_again tr lib opts st st' x es h).2 with
    ⟨hfail, hauth, hlt, rfl, rfl⟩ | ⟨hfail, hauth, hfresh, hbearer, rfl, rfl⟩
  · simp only [hfail, hauth, if_true, Bool.false_eq_true, if_false, or_false, true_and]
    refine ⟨?_, rfl, rfl, ?_, rfl⟩
    · simp only [Attempts.left]
      omega
    · rintro _ ok hmem
      cases List.mem_singleton.mp hmem
  · simp only [hfail, hauth, if_true, Bool.false_eq_true, if_false, or_true, true_and]
    refine ⟨rfl, ?_, rfl, ?_, rfl⟩
    · simp only [Attempts.authLeft, hfresh, if_true, Bool.false_eq_true, if_false]
    · intro hkey
      rw [hkey] at hbearer
      cases hbearer

/-- The first send is followed by another one unless it is the last. -/
theorem dropLast_cons_cases (o : Outcome) (os : List Outcome) :
    (o :: os).dropLast = [] ∨ (o :: os).dropLast = o :: os.dropLast := by
  rcases os with _ | ⟨o', os⟩
  · exact Or.inl rfl
  · exact Or.inr rfl

/-- One send more, of which just one kind is counted. -/
theorem countP_dropLast_cons (f : Outcome → Bool) (o : Outcome) (os : List Outcome) :
    (o :: os).dropLast.countP f ≤ os.dropLast.countP f + (if f o then 1 else 0) := by
  rcases dropLast_cons_cases o os with h | h <;> rw [h]
  · exact Nat.zero_le _
  · exact Nat.le_of_eq List.countP_cons

/-- A round that goes on leaves the rest within what is left. -/
theorem budget_first (st : Attempts) (w : Nat → Round) (es : List Event) (st' : Attempts)
    (es' : List Event) (r : Except ApiError Bytes)
    (h : requestRound tr lib opts st (w 0) = (es, .inl st'))
    (hrest : Budget tr lib opts st' (fun k => w (k + 1)) es' r) :
    Budget tr lib opts st w (es ++ es') r := by
  rcases again_spends tr lib opts st st' (w 0) es h with
    ⟨hleft, hauth, hcount, hkind, hkeyed, hes⟩
  have hout : outcomes (es ++ es') = (w 0).outcome :: outcomes es' := by
    rw [outcomes, List.filterMap_append]
    exact congrArg (· ++ outcomes es') hes
  -- The first send is followed by another unless `apply` fails in the next round.
  refine ⟨?_, ?_, ?_, ?_, ?_, ?_, ?_, ?_⟩ <;> try rw [hout]
  · have hsends := hrest.sends
    have hone : 1 ≤ (if (w 0).outcome.isFailure then 1 else 0) +
        (if (w 0).outcome.isUnauthorized then 1 else 0) := by
      rcases hkind with hk | hk <;> rw [hk] <;> simp only [if_true] <;> omega
    rw [List.length_cons]
    omega
  · rw [hleft]
    exact Nat.le_trans (countP_dropLast_cons _ _ _) (Nat.add_le_add_right hrest.failures _)
  · rw [hauth]
    exact Nat.le_trans (countP_dropLast_cons _ _ _) (Nat.add_le_add_right hrest.unauthorized _)
  · intro o ho
    rcases dropLast_cons_cases (w 0).outcome (outcomes es') with hd | hd <;> rw [hd] at ho
    · cases ho
    · rcases List.mem_cons.mp ho with rfl | ho
      · exact hkind
      · exact hrest.others o ho
  · rw [List.count_append, hcount, hauth, Nat.add_comm]
    exact Nat.add_le_add_right hrest.refreshes _
  · intro hkey ok hmem
    rcases List.mem_append.mp hmem with hmem | hmem
    · exact hkeyed hkey ok hmem
    · exact hrest.keyed hkey ok hmem
  · intro k o hk
    cases k with
    | zero => exact (Option.some.inj hk).symm
    | succ k => exact hrest.met k o hk
  · refine hrest.result.imp ?_ id
    rintro ⟨o, hlast, hr, happlied⟩
    refine ⟨o, ?_, hr, ?_⟩
    · rw [List.getLast?_cons, hlast, Option.getD_some]
    · rcases hos : outcomes es' with _ | ⟨o', os⟩
      · rw [hos] at hlast
        cases hlast
      · rw [hos] at happlied
        exact happlied

/-- The rounds lower what is left of both budgets. -/
theorem round_measure (st : Attempts) (x : Round) (es : List Event) (st' : Attempts)
    (h : requestRound tr lib opts st x = (es, .inl st')) :
    st'.left tr + st'.authLeft < st.left tr + st.authLeft := by
  rcases again_spends tr lib opts st st' x es h with ⟨hleft, hauth, _, hkind, _⟩
  rcases hkind with hk | hk
  · rw [hk, if_pos rfl] at hleft
    omega
  · rw [hk, if_pos rfl] at hauth
    omega

/-- The loop ends. -/
theorem request_ends (w : Nat → Round) : ∃ events r, ∀ fuel, tr.maxRetries + 2 ≤ fuel →
    doRequest tr lib opts fuel w = (events, some r) :=
  run_ends (requestRound tr lib opts) (fun st => st.left tr + st.authLeft)
    (fun st x es st' h => round_measure tr lib opts st x es st' h) {} w

/-- The retry budget. Whatever it meets, `do_request` ends
    after `max_retries + 2` rounds at most, of which each sends once at most. At
    most `max_retries` sends follow a network error or a server error and one
    follows a `401`, none follows anything else; the session is refreshed once at
    most, and never for an API key; and what is returned is what the last send
    comes to, or the error of `apply`. -/
theorem request_budget (w : Nat → Round) :
    ∃ events r,
      (∀ fuel, tr.maxRetries + 2 ≤ fuel → doRequest tr lib opts fuel w = (events, some r)) ∧
      Budget tr lib opts {} w events r ∧
      (outcomes events).length ≤ tr.maxRetries + 2 ∧
      (outcomes events).dropLast.countP Outcome.isFailure ≤ tr.maxRetries ∧
      (outcomes events).dropLast.countP Outcome.isUnauthorized ≤ 1 ∧
      events.count (.refreshed true) ≤ 1 := by
  rcases request_ends tr lib opts w with ⟨events, r, hends⟩
  have hbudget : Budget tr lib opts {} w events r :=
    run_rule (requestRound tr lib opts) (fun st w es r => Budget tr lib opts st w es r)
      (budget_last tr lib opts) (budget_first tr lib opts) _ {} w events r
      (hends (tr.maxRetries + 2) (Nat.lt_succ_self _))
  exact ⟨events, r, hends, hbudget, hbudget.sends, hbudget.failures, hbudget.unauthorized,
    hbudget.refreshes⟩

end Rounds

/-! ## Requests of a transport -/

/-- Where a request is in the loop: at some place of a round with these locals, or
    at its end. -/
def Call.place : Call → Option (RequestOpts × (Attempts ⊕ Except ApiError Bytes))
  | .applying req _ | .sending req | .reading req _ | .refreshing req _ _ =>
    some (req.opts, .inl ⟨req.attempt, req.authRetried⟩)
  | .sleeping req => some (req.opts, .inl ⟨req.attempt + 1, req.authRetried⟩)
  | .returned req r => some (req.opts, .inr r)
  | .dropped => none

/-- A request is where rounds of the loop have brought it, and refreshes only
    when it may. -/
structure InLoop (tr : Transport) (lib : Lib) (t : Call) : Prop where
  place : ∀ opts place, t.place = some (opts, place) →
    ∃ xs es, follow (requestRound tr lib opts) {} xs = (es, place)
  refreshing : ∀ req raw auth, t = .refreshing req raw auth →
    req.authRetried = false ∧ tr.auth = .clientAuth

section Requests

variable (parse : Bytes → Except String ClientAuth) (tr : Transport) (lib : Lib)

/-- The next place in the same round. -/
theorem inLoop_stay (t t' : Call) (h : InLoop tr lib t) (hplace : t'.place = t.place)
    (hrefresh : ∀ req raw auth, t' ≠ .refreshing req raw auth) : InLoop tr lib t' where
  place opts place hp := h.place opts place (hplace ▸ hp)
  refreshing req raw auth ht := absurd ht (hrefresh req raw auth)

/-- A round ends. -/
theorem inLoop_round (t t' : Call) (h : InLoop tr lib t) (opts : RequestOpts) (st : Attempts)
    (x : Round) (hplace : t.place = some (opts, .inl st))
    (hnext : t'.place = some (opts, (requestRound tr lib opts st x).2))
    (hrefresh : ∀ req raw auth, t' ≠ .refreshing req raw auth) : InLoop tr lib t' := by
  refine ⟨fun opts' place hp => ?_, fun req raw auth ht => absurd ht (hrefresh req raw auth)⟩
  rcases h.place opts (.inl st) hplace with ⟨xs, es, hfollow⟩
  rw [hnext, Option.some.injEq, Prod.mk.injEq] at hp
  rw [← hp.1, ← hp.2]
  exact ⟨xs ++ [x], _, follow_snoc _ {} st xs x es hfollow⟩

/-- `apply` fails. -/
theorem inLoop_refused (t : Call) (req req' : Request) (e : ApiError) (h : InLoop tr lib t)
    (hplace : t.place = some (req.opts, .inl ⟨req.attempt, req.authRetried⟩))
    (hopts : req'.opts = req.opts) : InLoop tr lib (.returned req' (.error e)) := by
  refine inLoop_round tr lib t _ h req.opts ⟨req.attempt, req.authRetried⟩
    ⟨.error e, .failed "", false⟩ hplace ?_ (by rintro _ _ _ ⟨⟩)
  rw [Call.place, hopts]
  rfl

theorem inLoop_bearer (t : Call) (req : Request) (accessToken : String) (token : Nat)
    (h : InLoop tr lib t)
    (hplace : t.place = some (req.opts, .inl ⟨req.attempt, req.authRetried⟩)) :
    InLoop tr lib (Call.bearer lib req accessToken token) := by
  unfold Call.bearer
  split
  · exact inLoop_stay tr lib t _ h hplace.symm (by rintro _ _ _ ⟨⟩)
  · exact inLoop_refused tr lib t req req _ h hplace rfl

/-- A response ends the round, or makes the request refresh. -/
theorem inLoop_received (req : Request) (status : Nat) (raw : Bytes)
    (h : InLoop tr lib (.reading req status)) :
    InLoop tr lib (Call.received tr lib req status raw) := by
  unfold Call.received
  by_cases h401 : status = 401
  · rw [if_pos h401]
    -- Without a refresh that helps, a `401` is an error.
    have hends : ∀ req' : Request, req'.opts = req.opts →
        tr.auth.refreshAfterUnauthorized false = false →
        InLoop tr lib (.returned req' (.error (unauthorizedError raw))) := by
      intro req' hopts hfalse
      refine inLoop_round tr lib _ _ h req.opts ⟨req.attempt, req.authRetried⟩
        ⟨.ok (), .responded status raw, false⟩ rfl ?_ (by rintro _ _ _ ⟨⟩)
      simp only [Call.place, hopts, requestRound, if_pos h401, hfalse, Bool.false_eq_true, if_false]
      split <;> rfl
    have hfalse : tr.auth.refreshAfterUnauthorized false = false := by
      rcases tr.auth with _ | _ | _ <;> rfl
    split
    · next hretry =>
      split
      · next hkind =>
        refine ⟨h.place, ?_⟩
        rintro _ _ _ ⟨⟩
        exact ⟨Bool.not_eq_true _ ▸ hretry.1, hkind⟩
      · exact hends req rfl hfalse
    · exact hends req rfl hfalse
  · rw [if_neg h401]
    by_cases h500 : 500 ≤ status ∧ status ≤ 599
    · rw [if_pos h500]
      refine inLoop_round tr lib _ _ h req.opts ⟨req.attempt, req.authRetried⟩
        ⟨.ok (), .responded status raw, false⟩ rfl ?_ ?_
      · simp only [requestRound, if_neg h401, if_pos h500]
        split <;> rfl
      · split <;> rintro _ _ _ ⟨⟩
    · rw [if_neg h500]
      refine inLoop_round tr lib _ _ h req.opts ⟨req.attempt, req.authRetried⟩
        ⟨.ok (), .responded status raw, false⟩ rfl ?_ (by rintro _ _ _ ⟨⟩)
      simp only [requestRound, if_neg h401, if_neg h500]
      rfl

/-- A step of a request is one of the loop. -/
theorem steps_inLoop (s s' : Auth.Shared) (t t' : Call) (hs : Steps parse lib tr s t s' t')
    (h : InLoop tr lib t) : InLoop tr lib t' := by
  cases hs with
  | keyed req key =>
      split
      · exact inLoop_stay tr lib _ _ h rfl (by rintro _ _ _ ⟨⟩)
      · exact inLoop_refused tr lib _ req req _ h rfl rfl
  | fixed req accessToken => exact inLoop_bearer tr lib _ req accessToken 0 h rfl
  | bearer req due => exact inLoop_bearer tr lib _ req _ _ h rfl
  | applying req auth auth' =>
      unfold Call.applied
      split
      · exact inLoop_stay tr lib _ _ h rfl (by rintro _ _ _ ⟨⟩)
      · exact inLoop_refused tr lib _ req req _ h rfl rfl
      · exact ⟨by rintro _ _ ⟨⟩, by rintro _ _ _ ⟨⟩⟩
      · exact inLoop_stay tr lib _ _ h rfl (by rintro _ _ _ ⟨⟩)
  | unanswered req e =>
      refine inLoop_round tr lib _ _ h req.opts ⟨req.attempt, req.authRetried⟩
        ⟨.ok (), .failed e, false⟩ rfl ?_ ?_
      · simp only [requestRound, Call.unanswered]
        split <;> rfl
      · unfold Call.unanswered
        split <;> rintro _ _ _ ⟨⟩
  | responded req status => exact inLoop_stay tr lib _ _ h rfl (by rintro _ _ _ ⟨⟩)
  | received req status raw => exact inLoop_received tr lib req status raw h
  | refreshing req raw auth auth' =>
      rcases h.refreshing req raw auth rfl with ⟨hfresh, hkind⟩
      -- What the session makes of the `401` ends the round.
      have hround : ∀ ok, (requestRound tr lib req.opts ⟨req.attempt, req.authRetried⟩
          ⟨.ok (), .responded 401 raw, ok⟩).2 =
            if ok then .inl ⟨req.attempt, true⟩ else .inr (.error (unauthorizedError raw)) := by
        intro ok
        simp only [requestRound, if_true, hfresh, Bool.false_eq_true, not_false_eq_true, hkind,
          AuthKind.isBearer, and_self, AuthKind.refreshAfterUnauthorized]
      unfold Call.refreshed
      split
      · refine inLoop_round tr lib _ _ h req.opts ⟨req.attempt, req.authRetried⟩
          ⟨.ok (), .responded 401 raw, true⟩ rfl ?_ (by rintro _ _ _ ⟨⟩)
        rw [hround]
        rfl
      · refine inLoop_round tr lib _ _ h req.opts ⟨req.attempt, req.authRetried⟩
          ⟨.ok (), .responded 401 raw, false⟩ rfl ?_ (by rintro _ _ _ ⟨⟩)
        rw [hround]
        rfl
      · exact ⟨by rintro _ _ ⟨⟩, by rintro _ _ _ ⟨⟩⟩
      · refine ⟨h.place, ?_⟩
        rintro _ _ _ ⟨⟩
        exact ⟨hfresh, hkind⟩
  | slept req => exact inLoop_stay tr lib _ _ h rfl (by rintro _ _ _ ⟨⟩)
  | dropped t hover => exact ⟨by rintro _ _ ⟨⟩, by rintro _ _ _ ⟨⟩⟩

/-- In every run of a transport, whatever its requests meet and however they
    interleave, every request is somewhere in the loop, and what it returns is
    what the loop returns for something that it may meet. -/
theorem requests_refine (initial : ClientAuth) (p : Pool Auth.Shared Call)
    (h : (transport parse lib tr).Reach (Started initial) Machine.anyStep p) (i : Nat)
    (req : Request) (r : Except ApiError Bytes) (hi : p.tasks[i]? = some (.returned req r)) :
    ∃ w events, ∀ fuel, tr.maxRetries + 2 ≤ fuel →
      doRequest tr lib req.opts fuel w = (events, some r) := by
  have hloop := ((transport parse lib tr).reach_tasks (Started initial) (fun _ _ _ _ => True)
    (fun _ => True) (fun _ t => InLoop tr lib t) ?_ ?_ ?_ ?_ p
    ((transport parse lib tr).reach_any _ p h)).2 i _ hi
  · rcases hloop.place req.opts (.inr r) rfl with ⟨xs, es, hfollow⟩
    have hrun := run_of_follow _ ⟨.ok (), .failed "", false⟩ _ xs es r hfollow
    generalize (fun k => xs.getD k (⟨.ok (), .failed "", false⟩ : Round)) = w at hrun
    rcases request_ends tr lib req.opts w with ⟨events, r', hends⟩
    refine ⟨w, events, fun fuel hfuel => ?_⟩
    -- Enough fuel for both gives the two results at once.
    have hboth := run_mono _ xs.length (max xs.length fuel) _ _ _ _ (Nat.le_max_left _ _) hrun
    have hsame := hends (max xs.length fuel) (Nat.le_trans hfuel (Nat.le_max_right _ _))
    rw [doRequest, hboth, Prod.mk.injEq, Option.some.injEq] at hsame
    rw [hsame.2]
    exact hends fuel hfuel
  · intro p hp
    refine ⟨trivial, fun t ht => ?_⟩
    rw [(started_pool initial p hp).2.2] at ht
    cases ht
  · intro s t _ hent
    rcases isCall_auth t hent with ⟨opts, rfl⟩
    refine ⟨fun opts' place hp => ⟨[], [], ?_⟩, by rintro _ _ _ ⟨⟩⟩
    rcases hp with ⟨⟩
    rfl
  · intro p i c t a _ ha _ _ hQ _
    rcases act_steps parse lib tr t c a p.shared ha with ⟨hsteps, hspawned⟩
    refine ⟨trivial, steps_inLoop parse tr lib _ _ _ _ hsteps hQ, ?_⟩
    rw [hspawned]
    rintro u ⟨⟩
  · exact fun _ _ _ _ _ _ _ _ _ _ _ _ _ _ hQ => hQ

end Requests

end Http

end Pickpoint
