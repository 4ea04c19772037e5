import Pickpoint.Core.Client
import Pickpoint.Core.DoRequest
import Pickpoint.Looping.Pauses

/-!
# Sleeping between Attempts

`sleep_backoff`, and `do_request` with its sleeps: before another attempt it waits a
random time, up to a bound that doubles with every attempt.

A random number of milliseconds from nothing to a bound is a draw, any number, modulo
what is to come out. A duration has seconds of 64 bits.

## Main definitions

* `sleepMax`: The longest a sleep may be.
* `sleepBackoff`: How long it is.
* `pacedRequest`: `do_request` with its sleeps.
-/

namespace Pickpoint

namespace Http

open Auth Looping

/-- `checked_mul` of a duration. -/
def checkedMul (d : Duration) (n : Nat) : Option Duration :=
  if d * n < 2 ^ 64 * (1000 * millisecond) then some (d * n) else none

/-- The longest a sleep before another attempt may be, in milliseconds of 64 bits. -/
def sleepMax (base : Duration) (attempt : Nat) : Nat :=
  let base := if base = 0 then defaultRetryBase else max base minRetryBase
  let longest := (checkedMul base (2 ^ min attempt 16)).getD (60000 * millisecond)
  longest / millisecond % 2 ^ 64

/-- How long `sleep_backoff` sleeps, in milliseconds. -/
def sleepBackoff (base : Duration) (attempt draw : Nat) : Nat :=
  draw % (sleepMax base attempt + 1)

/-- The sleep of a round. Another attempt is counted after it. -/
def attemptSleep (base : Duration) (st st' : Attempts) (draw : Nat) : Option Nat :=
  if st'.attempt = st.attempt + 1 then some (sleepBackoff base st.attempt draw) else none

/-- `do_request` of a client with its sleeps, for at most `fuel` rounds. -/
def pacedRequest (c : Client) (lib : Lib) (opts : RequestOpts) (fuel : Nat)
    (w : Nat → Round × Nat) : List (Event ⊕ Nat) × Option (Except ApiError Bytes) :=
  run (pausing (requestRound c.transport lib opts) (attemptSleep c.retryBase)) fuel {} w

end Http

end Pickpoint
