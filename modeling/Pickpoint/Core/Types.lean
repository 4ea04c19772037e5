import Mathlib.Data.Rat.Defs

/-!
# Wire Types

The values the tracking session passes around: GPS samples, client commands,
server events, and errors.

An `f64` coordinate is a rational here, so arithmetic on it is exact. The two
`f64` fields no code computes with, the estimated distance and duration of a
`Subscribed`, are kept as their bit patterns.

## Main definitions

* `LatLng`: A GPS sample.
* `ErrorCode`, `Error`: Protocol errors.
* `ClientCmd`, `ServerEvt`: The two directions of the wire.
* `isFatalResumeError`, `isRetryResumeError`, `isAuthError`: How codes are
  classified.
* `stampLatLng`, `stripLiveTime`: Capture times.
-/

namespace Pickpoint

namespace Tracking

/-- Raw bytes. -/
abbrev Bytes := List UInt8

/-- Protocol version in `Hello.version`. -/
def protocolVersion : UInt8 := 2

/-- A GPS sample. Heading and speed never appear on the wire. -/
structure LatLng where
  latitude : ℚ
  longitude : ℚ
  altitude : Option ℚ := none
  accuracy : Option ℚ := none
  heading : Option ℚ := none
  speed : Option ℚ := none
  timestampMs : Option Int := none
  deriving DecidableEq

/-- Set the capture time to `wall` when it is missing. -/
def stampLatLng (wall : Int) (p : LatLng) : LatLng :=
  { p with timestampMs := some (p.timestampMs.getD wall) }

/-- Stamp a slice of points. -/
def stampLatLngs (wall : Int) (points : List LatLng) : List LatLng :=
  points.map (stampLatLng wall)

/-- Live points go out without a time, so the server stamps them. -/
def stripLiveTime (p : LatLng) : LatLng :=
  { p with timestampMs := none }

/-- Wire error codes. -/
inductive ErrorCode where
  | auth
  | trackNotFound
  | fenced
  | tryAgain
  | invalid
  | unauthorized
  deriving DecidableEq, Repr

/-- A protocol or client error. -/
structure Error where
  code : ErrorCode
  message : String
  trackUid : Option String := none
  retryAfterMs : Option Nat := none
  deriving DecidableEq, Repr

/-- Build an error from a code and a message. -/
def newError (code : ErrorCode) (message : String) : Error :=
  { code := code, message := message }

/-- Resume errors that clear the local track. -/
def isFatalResumeError (code : ErrorCode) : Bool :=
  code == .trackNotFound || code == .auth

/-- Resume errors after which `Resume` is sent again. -/
def isRetryResumeError (code : ErrorCode) : Bool :=
  code == .fenced || code == .tryAgain

/-- Auth-related codes. -/
def isAuthError (code : ErrorCode) : Bool :=
  code == .auth || code == .unauthorized

/-- Wire command ack status. -/
inductive CommandAckStatus where
  | unspecified
  | ok
  | rejected
  | failed
  deriving DecidableEq, Repr

/-- Where a server sends the client, and after how long. -/
structure Relocate where
  endpoint : String
  retryAfterMs : Nat
  deriving DecidableEq, Repr

/-- A command injected by the server. -/
structure Command where
  commandId : String
  payload : Bytes
  timestampMs : Option Int
  deriving DecidableEq

/-- Client to server. -/
inductive ClientCmd where
  | resume (trackUid : String) (lastClientSeq : Nat)
  | trackStart (location : Option LatLng) (route : List LatLng) (metadata : Bytes)
  | trackStop (trackUid : String)
  | locationAdd (trackUid : String) (clientSeq : Nat) (point : LatLng)
  | locationBatch (trackUid : String) (clientSeq : Nat) (points : List LatLng)
  | subscribe (deviceUid : String) (includeEvents : Bool) (minLocationIntervalMs : Nat)
  | unsubscribe (sub : UInt8)
  | event (trackUid : String) (payload : Bytes) (timestampMs : Option Int)
  | commandAck (commandId : String) (status : CommandAckStatus) (message : Option String)
  deriving DecidableEq

/-- Server to client. -/
inductive ServerEvt where
  | hello (version : UInt8) (nodeId : String) (shard : Nat)
  | relocate (endpoint : String) (retryAfterMs : Nat)
  | resumeOk (trackUid : String) (lastAckedSeq : Nat)
  | trackStarted (trackUid : String) (metadata : Bytes)
  | trackStopped (trackUid : String)
  | ack (seq : Nat)
  | locationAdded (deviceUid trackUid : String) (point : LatLng) (clientSeq : Nat) (sub : UInt8)
  | subscribed (sub : UInt8) (deviceUid trackUid : String) (lastLocation : Option LatLng)
      (route : List LatLng) (estimatedDistance estimatedDuration : UInt64)
      (startLocationName endLocationName : String) (metadata : Bytes) (online : Bool)
      (lastSeenMs : Option Int)
  | error (code : ErrorCode) (message : String) (trackUid : Option String)
      (retryAfterMs : Option Nat)
  | eventAdded (deviceUid trackUid : String) (payload : Bytes) (timestampMs : Option Int)
      (sub : UInt8)
  | command (commandId : String) (payload : Bytes) (timestampMs : Option Int)
  | devicePresence (deviceUid : String) (online : Bool) (lastSeenMs : Option Int) (sub : UInt8)
  deriving DecidableEq

end Tracking

end Pickpoint
