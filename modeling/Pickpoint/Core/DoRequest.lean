import Pickpoint.Core.Transport
import Pickpoint.Looping.Rounds

/-!
# The Loop of `do_request`

`do_request` seen from one caller: a loop that awaits `apply`, the send and its
body, and after a `401` the session's `refresh_after_unauthorized`. What these
await in turn, and the other requests of the transport, do not show here; a
round is given what they return.

`Core.Transport` cuts the same loop at its awaits. `Theory.Retries` says that
what comes of a request there is what comes of this loop.

## Main definitions

* `Outcome`, `Round`: What a round meets.
* `Event`: What can be seen of it.
* `requestRound`: One round.
* `doRequest`: The loop.
-/

namespace Pickpoint

namespace Http

open Auth Looping

/-- What becomes of a send. A body that could not be read is empty. -/
inductive Outcome where
  | failed (e : String)
  | responded (status : Nat) (raw : Bytes)
  deriving DecidableEq

/-- What a round meets, as far as it gets: the result of `apply`, what becomes of
    the send, and what a client session makes of a `401`. -/
structure Round where
  applied : Except ApiError Unit
  outcome : Outcome
  refreshed : Bool

/-- What can be seen of a round: the send, and the result of
    `refresh_after_unauthorized` if it is called. -/
inductive Event where
  | sent (outcome : Outcome)
  | refreshed (ok : Bool)
  deriving DecidableEq

/-- The locals of the loop: how many attempts were used, and whether a `401` has led
    to a refresh already. -/
structure Attempts where
  attempt : Nat := 0
  authRetried : Bool := false
  deriving DecidableEq

/-- `refresh_after_unauthorized`, when a client session returns `session`. -/
def AuthKind.refreshAfterUnauthorized (kind : AuthKind) (session : Bool) : Bool :=
  match kind with
  | .apiKey _ | .staticToken _ => false
  | .clientAuth => session

/-- One round of the loop. -/
def requestRound (tr : Transport) (lib : Lib) (opts : RequestOpts) :
    Body Attempts Round Event (Except ApiError Bytes)
  | st, x =>
    match x.applied with
    -- No credential to send with.
    | .error e => ([], .inr (.error e))
    | .ok _ =>
      match x.outcome with
      -- A network error uses an attempt.
      | .failed e =>
        ([.sent x.outcome],
          if tr.maxRetries ≤ st.attempt then .inr (.error (networkError e))
          else .inl { st with attempt := st.attempt + 1 })
      | .responded status raw =>
        if status = 401 then
          -- A session that has refreshed once is not asked again.
          if ¬ st.authRetried ∧ tr.auth.isBearer then
            let ok := tr.auth.refreshAfterUnauthorized x.refreshed
            ([.sent x.outcome, .refreshed ok],
              if ok then .inl { st with authRetried := true }
              else .inr (.error (unauthorizedError raw)))
          else ([.sent x.outcome], .inr (.error (unauthorizedError raw)))
        -- So does a server error.
        else if 500 ≤ status ∧ status ≤ 599 then
          ([.sent x.outcome],
            if tr.maxRetries ≤ st.attempt then .inr (.error (serverError status raw))
            else .inl { st with attempt := st.attempt + 1 })
        else ([.sent x.outcome], .inr (statusResult lib opts status raw))

/-- `do_request`, for at most `fuel` rounds that meet `w 0`, `w 1` and so on. -/
def doRequest (tr : Transport) (lib : Lib) (opts : RequestOpts) (fuel : Nat) (w : Nat → Round) :
    List Event × Option (Except ApiError Bytes) :=
  run (requestRound tr lib opts) fuel {} w

end Http

end Pickpoint
