import Pickpoint.Core.Types
import Mathlib.Data.Rat.Floor

/-!
# Noise Filter

The device-side GPS filter. It passes roughly one sample a second plus the
samples where the path turns, and holds the rest back.

The two metre distances are trigonometric, so they are a parameter: a `Geo`
supplies them and everything else is computed. No theorem here or above
assumes anything about them.

## Main definitions

* `Geo`: The metre distances between samples.
* `NoiseFilter`: The filter's state.
* `NoiseFilter.shouldEmit`: Whether a sample passes.
* `NoiseFilter.push`: Offer a sample.
* `collapseOneCollinear`: Drop one sample from a straight stretch.
-/

namespace Pickpoint

namespace Tracking

/-- Distances in metres. The laws of the filter and of the queue hold for whatever
    the two functions return, so they are parameters. -/
structure Geo where
  /-- Great-circle distance between two samples. -/
  haversineM : LatLng → LatLng → ℚ
  /-- Distance from the third sample to the line through the first two. -/
  perpendicularM : LatLng → LatLng → LatLng → ℚ

def heartbeatMs : Int := 1000

def headingJumpDeg : ℚ := 25

def minMoveM : ℚ := 2

def motionEpsMs : ℚ := 1 / 2

/-- `i64::saturating_sub`. -/
def saturatingSub (a b : Int) : Int :=
  max (-2 ^ 63) (min (2 ^ 63 - 1) (a - b))

/-- The angle between two headings, at most half a turn. -/
def headingDeltaDeg (a b : ℚ) : ℚ :=
  let d := (b - a) - 360 * ⌊(b - a) / 360⌋
  if 180 < d then 360 - d else d

/-- What the filter remembers between samples: the point it emitted or was seeded
    with last and when, and the sample it held back last. -/
structure NoiseFilter where
  lastEmitted : Option LatLng := none
  candidate : Option LatLng := none
  lastEmitAt : Option Int := none
  deriving DecidableEq

namespace NoiseFilter

/-- Take the start point of a track as already emitted. -/
def seed (_ : NoiseFilter) (point : LatLng) : NoiseFilter :=
  { lastEmitted := some point, candidate := none,
    lastEmitAt := some (point.timestampMs.getD 0) }

def reset (_ : NoiseFilter) : NoiseFilter := {}

/-- Whether the sample passes: heartbeat, distance, corner, heading, or a
    change between standing and moving. -/
def shouldEmit (geo : Geo) (f : NoiseFilter) (current : LatLng) (now : Int) : Bool :=
  match f.lastEmitted with
  | none => true
  | some last =>
    let acc := current.accuracy.getD 0
    -- The heartbeat.
    decide (heartbeatMs ≤ saturatingSub now (f.lastEmitAt.getD now)) ||
    -- Farther from the last point than the noise of the sample.
    decide (max minMoveM (2 * acc) ≤ geo.haversineM last current) ||
    -- A corner: the sample before this one lies off the line between the two.
    (match f.candidate with
      | none => false
      | some cand =>
        let speed := current.speed.getD 0
        let eps := max (max minMoveM acc) (1 / 2 * speed)
        decide (eps ≤ geo.perpendicularM last current cand)) ||
    -- A turn, when both samples have a heading.
    (match last.heading, current.heading with
      | some h0, some h1 => decide (headingJumpDeg ≤ headingDeltaDeg h0 h1)
      | _, _ => false) ||
    -- It stood and moves now, or the other way round.
    (match last.speed, current.speed with
      | some s0, some s1 => decide (motionEpsMs < s0) != decide (motionEpsMs < s1)
      | _, _ => false)

/-- Remember the sample as emitted. -/
def emit (_ : NoiseFilter) (point : LatLng) (now : Int) : NoiseFilter :=
  { lastEmitted := some point, candidate := none, lastEmitAt := some now }

/-- Offer a sample. `none` means it is held back. -/
def push (geo : Geo) (f : NoiseFilter) (wall : Int) (current : LatLng) :
    NoiseFilter × Option LatLng :=
  -- A sample without a time takes that of the wall clock.
  let now := current.timestampMs.getD wall
  let current := { current with timestampMs := some now }
  if f.lastEmitted.isNone || f.shouldEmit geo current now then
    (f.emit current now, some current)
  else
    -- A sample that is held back is the corner the next one is tested for.
    ({ f with candidate := some current }, none)

end NoiseFilter

/-- Remove the first sample that lies within its accuracy of the line through
    its neighbours; `none` when there is none. -/
def collapseOneCollinear (geo : Geo) : List LatLng → Option (List LatLng)
  | a :: b :: c :: rest =>
    if geo.perpendicularM a c b < max minMoveM (b.accuracy.getD 0) then
      some (a :: c :: rest)
    else
      (collapseOneCollinear geo (b :: c :: rest)).map (a :: ·)
  | _ => none

end Tracking

end Pickpoint
