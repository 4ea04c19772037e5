import Pickpoint.Core.LocFrames
import Mathlib.Data.List.Dedup

/-!
# Session State

The fields a tracking session keeps under its lock, with the reconnect
backoff and the publish rate gate they use.

A waiter (`startWait`, `stopWait`, `resumeWait`) is the index of a oneshot
cell, and `outTx` is the index of the socket whose outbound channel the
session holds. Both live in the shared state of `Core.Shared`.

## Main definitions

* `Config`: Connection options.
* `BackoffState`, `nextDelay`, `resetBackoff`: Reconnect delays.
* `canAcceptPublish`, `nextPublishAllowedAt`: The publish rate gate.
* `ConnectionState`, `Inner`: The session.
-/

namespace Pickpoint

namespace Tracking

/-- A reading of the monotonic clock, in nanoseconds. -/
abbrev Instant := Nat

/-- Hard cap for publish calls a second. -/
def maxPublishHz : Nat := 50

/-- Minimum gap between accepted points, in nanoseconds. -/
def minPublishInterval : Nat := 1000 / maxPublishHz * 1000000

/-- Largest event payload. -/
def maxEventBytes : Nat := 4 * 1024

/-- Minimum gap between events, in nanoseconds. -/
def minEventInterval : Nat := 1000000000

/-- Whether `pointCount` points can be accepted at `now`. -/
def canAcceptPublish (nextAllowedAt now : Instant) (pointCount : Int) : Bool :=
  if pointCount ≤ 0 then true else decide (nextAllowedAt ≤ now)

/-- The gate after accepting `pointCount` points at `now`. -/
def nextPublishAllowedAt (nextAllowedAt now : Instant) (pointCount : Int) : Instant :=
  -- The gate never moves back.
  (if now < nextAllowedAt then nextAllowedAt else now) + minPublishInterval * pointCount.toNat

/-- Full-jitter exponential reconnect delays; durations in milliseconds. -/
structure BackoffState where
  attempt : Nat
  minDelay : Nat
  maxDelay : Nat
  maxAttempts : Nat
  deriving DecidableEq, Repr

def newBackoff (minDelay maxDelay maxAttempts : Nat) : BackoffState :=
  { attempt := 0
    -- Zero asks for the default.
    minDelay := if minDelay = 0 then 500 else minDelay
    maxDelay := if maxDelay = 0 then 30000 else maxDelay
    maxAttempts := maxAttempts }

/-- The next sleep, or `none` when the attempts are used up. -/
def nextDelay (b : BackoffState) (random : ℚ) : Option (Nat × BackoffState) :=
  if 0 < b.maxAttempts ∧ b.maxAttempts ≤ b.attempt then none
  else
    -- Full jitter: anything up to the delay for this attempt.
    let exp : ℚ := min (b.minDelay * 2 ^ b.attempt) b.maxDelay
    let r := max 0 (min random 1)
    some (⌊r * exp⌋.toNat, { b with attempt := b.attempt + 1 })

def resetBackoff (b : BackoffState) : BackoffState := { b with attempt := 0 }

inductive ConnectionState where
  | connecting
  | open
  | reconnecting
  | closed
  deriving DecidableEq, Repr

/-- Publisher device credentials. -/
structure DeviceAuth where
  clientId : String
  clientSecret : String
  deriving DecidableEq, Repr

/-- Listener credentials. -/
structure ListenerAuth where
  accessToken : String
  deriving DecidableEq, Repr

/-- Connection options. `refreshAuth` says whether a refresh callback was
    given; `reconnectMaxAttempts` zero means unlimited. -/
structure Config where
  endpoint : String
  device : Option DeviceAuth := none
  listener : Option ListenerAuth := none
  disableReconnect : Bool := false
  reconnectMinDelay : Nat := 0
  reconnectMaxDelay : Nat := 0
  reconnectMaxAttempts : Nat := 0
  refreshAuth : Bool := false
  maxQueueSize : Nat := 10000
  subscribe : List String := []

/-- What the session keeps under its lock. `out_tx` and the waiters are the indices
    of a socket and of oneshot cells, which the shared state holds. -/
structure Inner where
  cfg : Config
  state : ConnectionState
  trackUid : String
  lastAssignedSeq : Nat
  lastAckedSeq : Nat
  queue : OfflineQueue
  filter : NoiseFilter
  /-- Bound after TrackStarted / ResumeOk on this socket. -/
  sessionReady : Bool
  backoff : BackoffState
  nextPublishAt : Instant
  nextEventAt : Instant
  subscriptions : List String
  subByDevice : String → Option UInt8
  deviceBySub : UInt8 → Option String
  intentional : Bool
  dialGen : Nat
  outTx : Option Nat
  startWait : Option Nat
  stopWait : Option Nat
  resumeWait : Option Nat
  /-- TrackStart sent, waiting for TrackStarted. -/
  starting : Bool

/-- The session `connect` sets up at time `now`. -/
def Inner.new (cfg : Config) (now : Instant) : Inner where
  cfg := cfg
  state := .connecting
  trackUid := ""
  lastAssignedSeq := 0
  lastAckedSeq := 0
  queue := OfflineQueue.new cfg.maxQueueSize
  filter := {}
  sessionReady := false
  backoff := newBackoff cfg.reconnectMinDelay cfg.reconnectMaxDelay cfg.reconnectMaxAttempts
  nextPublishAt := now
  nextEventAt := now
  subscriptions := cfg.subscribe.dedup
  subByDevice := fun _ => none
  deviceBySub := fun _ => none
  intentional := false
  dialGen := 0
  outTx := none
  startWait := none
  stopWait := none
  resumeWait := none
  starting := false

end Tracking

end Pickpoint
