import Pickpoint.Core.Queue

/-!
# Loc Frames

Cutting a list of points into Loc frames. A frame carries one to a hundred
points; the first is absolute, every other one is a microdegree difference
that has to fit a signed 16-bit integer. The frame's `seq` is the number of
its last point, and the points before it count down from there.

The source walks the list with two nested index loops. Here the points are
consumed one at a time with the open chunk as an accumulator, which cuts at
the same places: a point joins the chunk when there is room and its difference
to the point before it fits, and otherwise starts the next one.

Frame numbers are computed the way `encode_loc_frames` does, in wrapping
64-bit arithmetic and then truncated to the 32-bit field.

## Main definitions

* `degToMicro`: Degrees to microdegrees.
* `microDeltaFits`: Whether a difference fits the wire.
* `locChunks`: The cut.
* `splitLocFrames`: The frames for a list of points.
-/

namespace Pickpoint

namespace Tracking

/-- The most points a Loc frame carries. -/
def maxLocPoints : Nat := 100

/-- `f64::round`: to the nearest integer, halves away from zero. -/
def roundHalfAway (q : ℚ) : Int :=
  if 0 ≤ q then ⌊q + 1 / 2⌋ else ⌈q - 1 / 2⌉

/-- Degrees to microdegrees, saturating at the bounds of `i32`. -/
def degToMicro (d : ℚ) : Int :=
  max (-2 ^ 31) (min (2 ^ 31 - 1) (roundHalfAway (d * 1000000)))

/-- Whether the difference of two microdegree positions fits `i16`. -/
def microDeltaFits (prevLat prevLon lat lon : Int) : Bool :=
  let dlat := lat - prevLat
  let dlon := lon - prevLon
  decide (-2 ^ 15 ≤ dlat ∧ dlat ≤ 2 ^ 15 - 1 ∧ -2 ^ 15 ≤ dlon ∧ dlon ≤ 2 ^ 15 - 1)

/-- Whether a point may follow another one inside a frame. -/
def deltaFits (prev p : LatLng) : Bool :=
  microDeltaFits (degToMicro prev.latitude) (degToMicro prev.longitude)
    (degToMicro p.latitude) (degToMicro p.longitude)

/-- Cut the remaining points, `chunk` being the open chunk and `prev` its
    last point. -/
def locChunksFrom (chunk : List LatLng) (prev : LatLng) : List LatLng → List (List LatLng)
  | [] => [chunk]
  | p :: ps =>
    if chunk.length < maxLocPoints && deltaFits prev p then
      locChunksFrom (chunk ++ [p]) p ps
    else
      -- The chunk is full or the step too wide: the point starts the next one.
      chunk :: locChunksFrom [p] p ps

/-- The chunks of a list of points. -/
def locChunks : List LatLng → List (List LatLng)
  | [] => []
  | p :: ps => locChunksFrom [p] p ps

/-- A Loc frame: the number of its last point, and its points. The points before the
    last one are numbered by counting back. -/
structure LocFrame where
  seq : Nat
  points : List LatLng
  deriving DecidableEq

/-- Wrapping `u64` arithmetic. -/
def wrapU64 (x : Int) : Nat := (x % 2 ^ 64).toNat

/-- `as u32`. -/
def truncU32 (x : Nat) : Nat := x % 2 ^ 32

/-- Number the chunks; `i` counts the points before them. -/
def frameChunks (firstSeq : Nat) : Nat → List (List LatLng) → List LocFrame
  | _, [] => []
  | i, chunk :: chunks =>
    let i := i + chunk.length
    { seq := truncU32 (wrapU64 (firstSeq + i - 1)), points := chunk } ::
      frameChunks firstSeq i chunks

/-- Split points into Loc frames; `lastSeq` is the number of the last point. -/
def splitLocFrames (lastSeq : Nat) (points : List LatLng) : List LocFrame :=
  frameChunks (wrapU64 (lastSeq + 1 - points.length)) 0 (locChunks points)

end Tracking

end Pickpoint
