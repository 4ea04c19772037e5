import Pickpoint.Core.Filter

/-!
# Offline Queue

Points on their way to the server. Staging holds points with no sequence
number yet; InFlight holds numbered points waiting for an `Ack`. At most
`maxUnackedFrames` Loc frames may be unacknowledged at a time, which
`sentFrameSeqs` counts.

The capacity is positive by construction, as `OfflineQueue.new` replaces zero
by the default.

## Main definitions

* `QueuedPoint`: A numbered point and whether it was put in a frame.
* `OfflineQueue`: Staging, InFlight, and the send window.
* `OfflineQueue.enforceCap`: Drop the oldest points beyond the capacity.
-/

namespace Pickpoint

namespace Tracking

def defaultMaxQueue : Nat := 10000

/-- How many Loc frames may be unacknowledged. -/
def maxUnackedFrames : Nat := 8

/-- A point waiting for `Ack`, already numbered. `sent` says that a frame with it
    was built, until a new socket is to get it again. -/
structure QueuedPoint where
  seq : Nat
  point : LatLng
  sent : Bool
  deriving DecidableEq

/-- Staging (no seq) and InFlight (seq, waiting for `Ack`), and the numbers of the
    frames that fill the send window. -/
structure OfflineQueue where
  maxSize : Nat
  /-- The capacity holds at least one point. -/
  maxSize_pos : 0 < maxSize
  staging : List LatLng := []
  inflight : List QueuedPoint := []
  sentFrameSeqs : List Nat := []

namespace OfflineQueue

/-- An empty queue; zero asks for the default capacity. -/
def new (maxSize : Nat) : OfflineQueue :=
  { maxSize := if maxSize = 0 then defaultMaxQueue else maxSize
    maxSize_pos := by
      by_cases h : maxSize = 0
      · rw [if_pos h]
        decide
      · rw [if_neg h]
        exact Nat.pos_of_ne_zero h }

def size (q : OfflineQueue) : Nat := q.staging.length + q.inflight.length

def stagingLen (q : OfflineQueue) : Nat := q.staging.length

def lastAssignedSeq (q : OfflineQueue) : Nat := (q.inflight.getLast?.map (·.seq)).getD 0

/-- The body of the `enforce_cap` loop, at most `fuel` times. -/
def enforceCapLoop (geo : Geo) : Nat → OfflineQueue → OfflineQueue
  | 0, q => q
  | fuel + 1, q =>
    if q.maxSize < q.size then
      -- First thin out a straight stretch.
      match collapseOneCollinear geo q.staging with
      | some staging => enforceCapLoop geo fuel { q with staging := staging }
      | none =>
        if q.staging ≠ [] then
          -- Keep newest: drop oldest staging.
          enforceCapLoop geo fuel { q with staging := q.staging.tail }
        else if q.inflight ≠ [] then
          -- Keep newest: drop oldest InFlight.
          enforceCapLoop geo fuel { q with inflight := q.inflight.tail }
        else q
    else q

/-- Evict until the capacity holds. Every round drops a point, so the size
    bounds the number of rounds. -/
def enforceCap (geo : Geo) (q : OfflineQueue) : OfflineQueue :=
  enforceCapLoop geo q.size q

/-- A filtered point that cannot be sent yet. -/
def pushStaging (geo : Geo) (q : OfflineQueue) (point : LatLng) : OfflineQueue :=
  enforceCap geo { q with staging := q.staging ++ [point] }

/-- Consecutive numbers after `nextSeq` for a list of points, as unsent. -/
def numbered (nextSeq : Nat) : List LatLng → List QueuedPoint
  | [] => []
  | point :: points =>
    { seq := nextSeq + 1, point := point, sent := false } :: numbered (nextSeq + 1) points

/-- Number the next `n` staging points and append them to InFlight. -/
def assignFromStaging (q : OfflineQueue) (n nextSeq : Nat) : OfflineQueue × List QueuedPoint :=
  let out := numbered nextSeq (q.staging.take n)
  ({ q with staging := q.staging.drop n, inflight := q.inflight ++ out }, out)

/-- Append a numbered point that is being sent right away. -/
def enqueue (geo : Geo) (q : OfflineQueue) (seq : Nat) (point : LatLng) : OfflineQueue :=
  enforceCap geo { q with inflight := q.inflight ++ [{ seq := seq, point := point, sent := true }] }

/-- What `enqueue` returns: whether it evicted a point. -/
def enqueueEvicted (geo : Geo) (q : OfflineQueue) (seq : Nat) (point : LatLng) : Nat :=
  min (q.size + 1 - (q.enqueue geo seq point).size) 1

def pushInflightUnsent (geo : Geo) (q : OfflineQueue) (seq : Nat) (point : LatLng) :
    OfflineQueue :=
  enforceCap geo
    { q with inflight := q.inflight ++ [{ seq := seq, point := point, sent := false }] }

/-- Forget what was sent; every InFlight point has to go out again. -/
def markUnsent (q : OfflineQueue) : OfflineQueue :=
  { q with inflight := q.inflight.map fun p => { p with sent := false }, sentFrameSeqs := [] }

def windowFull (q : OfflineQueue) : Bool := decide (maxUnackedFrames ≤ q.sentFrameSeqs.length)

def windowRemaining (q : OfflineQueue) : Nat := maxUnackedFrames - q.sentFrameSeqs.length

/-- A frame goes out whose last point has number `lastSeq`. -/
def recordFrame (q : OfflineQueue) (lastSeq : Nat) : OfflineQueue :=
  { q with
    sentFrameSeqs := q.sentFrameSeqs ++ [lastSeq]
    inflight := q.inflight.map fun p => if p.seq ≤ lastSeq then { p with sent := true } else p }

/-- Drop InFlight points up to and including `ack`. -/
def ackThrough (q : OfflineQueue) (ack : Nat) : OfflineQueue :=
  { q with
    inflight := q.inflight.filter fun p => decide (ack < p.seq)
    sentFrameSeqs := q.sentFrameSeqs.filter fun s => decide (ack < s) }

def unsentInflight (q : OfflineQueue) : List QueuedPoint :=
  q.inflight.filter fun p => !p.sent

def clear (q : OfflineQueue) : OfflineQueue :=
  { q with staging := [], inflight := [], sentFrameSeqs := [] }

end OfflineQueue

end Tracking

end Pickpoint
