import Pickpoint.Core.Codec

/-!
# Messages

The encoders and decoders of client commands and server events, one branch for
each type byte.

## Main definitions

* `encodeClientCmd`, `decodeClient`, `decodeClientCmd`: Client commands.
* `encodeServerEvt`, `decodeServerEvt`: Server events.
-/

namespace Pickpoint

namespace Tracking

open ByteCodec

/-! ## Type bytes -/

def cResume : UInt8 := 0x01

def cTrackStart : UInt8 := 0x02

def cTrackStop : UInt8 := 0x03

def cSubscribe : UInt8 := 0x05

def cUnsubscribe : UInt8 := 0x06

def cEvent : UInt8 := 0x07

def cCommandAck : UInt8 := 0x08

def sHello : UInt8 := 0x80

def sRelocate : UInt8 := 0x81

def sResumeOk : UInt8 := 0x82

def sTrackStarted : UInt8 := 0x83

def sTrackStopped : UInt8 := 0x84

def sAck : UInt8 := 0x85

def sLoc : UInt8 := 0x86

def sSubscribed : UInt8 := 0x87

def sError : UInt8 := 0x88

def sEventAdded : UInt8 := 0x89

def sCommand : UInt8 := 0x8A

def sPresence : UInt8 := 0x8B

def CommandAckStatus.toU8 : CommandAckStatus → UInt8
  | .unspecified => 0
  | .ok => 1
  | .rejected => 2
  | .failed => 3

def CommandAckStatus.fromU8 (v : UInt8) : CommandAckStatus :=
  if v = 1 then .ok else if v = 2 then .rejected else if v = 3 then .failed else .unspecified

def ErrorCode.toU8 : ErrorCode → UInt8
  | .auth => 1
  | .trackNotFound => 2
  | .fenced => 3
  | .tryAgain => 4
  | .invalid => 5
  | .unauthorized => 6

def ErrorCode.fromU8 (v : UInt8) : Option ErrorCode :=
  if v = 1 then some .auth
  else if v = 2 then some .trackNotFound
  else if v = 3 then some .fenced
  else if v = 4 then some .tryAgain
  else if v = 5 then some .invalid
  else if v = 6 then some .unauthorized
  else none

/-- `u8::from(bool)`. -/
def boolU8 (b : Bool) : UInt8 := if b then 1 else 0

/-- A point that may be absent. -/
def writeOptAbs : Option LatLng → Except Fault Bytes
  | some p => writeAbs p
  | none => .ok []

/-- A point that is there when a flag says so. -/
def readOptAbs (flags : UInt8) : R (Option LatLng) :=
  if flags &&& 1 ≠ 0 then do
    let r ← readPoint none
    pure (some r.1)
  else pure none

/-- A time whose absence is written as zero. -/
def noneIfZero (t : Int) : Option Int := if t = 0 then none else some t

/-! ## Client commands -/

/-- What a client frame holds: a command, or a type this version does not
    know. -/
inductive ClientDecode where
  | cmd (c : ClientCmd)
  | unknown (t : UInt8)
  deriving DecidableEq

section Lib

variable (lib : UuidLib)

def encodeClientCmd : ClientCmd → Except Fault Bytes
  | .resume trackUid lastClientSeq =>
    .ok (putU8 cResume ++ (putUuid lib trackUid ++ putU32 (truncU32 lastClientSeq)))
  | .trackStart location route metadata => do
    let loc ← writeOptAbs location
    return putU8 cTrackStart ++ (putU8 (boolU8 location.isSome) ++ (loc ++
      (writeRouteAbs route ++ putBytes metadata)))
  -- The track is known from the session and is not written.
  | .trackStop _ => .ok (putU8 cTrackStop)
  | .locationAdd _ clientSeq point => do
    let body ← writeAbs point
    return putU8 cLoc ++ (putU32 (truncU32 clientSeq) ++ (putU8 1 ++ body))
  | .locationBatch _ clientSeq points => do
    -- Of several frames only the first is kept.
    let frames ← encodeLocFrames clientSeq points
    return frames.head?.getD []
  | .subscribe deviceUid includeEvents minLocationIntervalMs =>
    .ok (putU8 cSubscribe ++ (putUuid lib deviceUid ++ (putU8 (boolU8 includeEvents) ++
      putU16 (min minLocationIntervalMs 65535))))
  | .unsubscribe sub => .ok (putU8 cUnsubscribe ++ putU8 sub)
  | .event _ payload timestampMs =>
    .ok (putU8 cEvent ++ (putBytes payload ++ putI64 (timestampMs.getD 0)))
  | .commandAck commandId status message =>
    .ok (putU8 cCommandAck ++ (putUuid lib commandId ++ (putU8 status.toU8 ++
      putStr (message.getD ""))))

def decodeTrackStart : R ClientDecode := do
  let flags ← R.u8
  let location ← readOptAbs flags
  let route ← readRouteAbs
  let metadata ← R.bytes
  pure (.cmd (.trackStart location route metadata))

/-- The command of a Loc frame. -/
def locCmd (seq : Nat) : List LatLng → ClientCmd
  | [point] => .locationAdd "" seq point
  | points => .locationBatch "" seq points

def decodeLoc : R ClientDecode := do
  let seq ← R.u32
  let count ← R.u8
  if count = 0 ∨ maxLocPoints < count.toNat then Reader.fail .invalid
  else
    let points ← Reader.many readPoint count.toNat none
    pure (.cmd (locCmd seq points))

/-- What follows a type byte. -/
def decodeClientBody (typ : UInt8) : R ClientDecode :=
  if typ = cResume then do
    let trackUid ← R.uuid lib
    let lastClientSeq ← R.u32
    pure (.cmd (.resume trackUid lastClientSeq))
  else if typ = cTrackStart then decodeTrackStart
  else if typ = cTrackStop then pure (.cmd (.trackStop ""))
  else if typ = cLoc then decodeLoc
  else if typ = cSubscribe then do
    let deviceUid ← R.uuid lib
    let flags ← R.u8
    let minInterval ← R.u16
    pure (.cmd (.subscribe deviceUid (flags &&& 1 != 0) minInterval))
  else if typ = cUnsubscribe then do
    let sub ← R.u8
    pure (.cmd (.unsubscribe sub))
  else if typ = cEvent then do
    let payload ← R.bytes
    let timestampMs ← R.i64
    pure (.cmd (.event "" payload (noneIfZero timestampMs)))
  else if typ = cCommandAck then do
    let commandId ← R.uuid lib
    let status ← R.u8
    let message ← R.str
    pure (.cmd (.commandAck commandId (.fromU8 status)
      (if message = "" then none else some message)))
  -- Reserved bytes are refused; other client types are left for later versions.
  else if typ = 0x00 ∨ typ = 0x7F ∨ typ = 0xFF then Reader.fail .invalid
  else if 0x01 ≤ typ ∧ typ ≤ 0x7E then pure (.unknown typ)
  else Reader.fail .invalid

def decodeClient (bytes : Bytes) : Except DecodeError ClientDecode :=
  if bytes = [] then .error .truncated
  else
    Reader.run (do
      let typ ← R.u8
      decodeClientBody lib typ) bytes

def decodeClientCmd (bytes : Bytes) : Except DecodeError ClientCmd :=
  match decodeClient lib bytes with
  | .error e => .error e
  | .ok (.cmd c) => .ok c
  | .ok (.unknown _) => .error .invalid

/-! ## Server events -/

/-- The flags of a `Subscribed`. -/
def subscribedFlags (lastLocation : Option LatLng) (lastSeenMs : Option Int)
    (route : List LatLng) : UInt8 :=
  (if lastLocation.isSome then 1 else 0) ||| (if lastSeenMs.isSome then 2 else 0) |||
    (if route ≠ [] then 4 else 0)

def encodeServerEvt : ServerEvt → Except Fault Bytes
  | .hello version nodeId shard =>
    .ok (putU8 sHello ++ (putU8 version ++ (putU16 (shard % 2 ^ 16) ++ putUuid lib nodeId)))
  | .relocate endpoint retryAfterMs =>
    .ok (putU8 sRelocate ++ (putU32 retryAfterMs ++ putStr endpoint))
  | .resumeOk trackUid lastAckedSeq =>
    .ok (putU8 sResumeOk ++ (putUuid lib trackUid ++ putU32 (truncU32 lastAckedSeq)))
  | .trackStarted trackUid metadata =>
    .ok (putU8 sTrackStarted ++ (putUuid lib trackUid ++ putBytes metadata))
  | .trackStopped trackUid => .ok (putU8 sTrackStopped ++ putUuid lib trackUid)
  | .ack seq => .ok (putU8 sAck ++ putU32 (truncU32 seq))
  | .locationAdded _ _ point clientSeq sub => do
    let body ← writeAbs point
    return putU8 sLoc ++ (putU8 sub ++ (putU32 (truncU32 clientSeq) ++ body))
  | .subscribed sub deviceUid trackUid lastLocation route estimatedDistance estimatedDuration
      startLocationName endLocationName metadata online lastSeenMs => do
    let flags := subscribedFlags lastLocation lastSeenMs route
    let loc ← writeOptAbs lastLocation
    return putU8 sSubscribed ++ (putU8 sub ++ (putUuid lib deviceUid ++ (putUuid lib trackUid ++
      (putU8 (boolU8 online) ++ (putU8 flags ++ (loc ++
        ((match lastSeenMs with
          | some t => putI64 t
          | none => []) ++
        ((if flags &&& 4 ≠ 0 then writeRouteAbs route else []) ++
        (putF64 estimatedDistance ++ (putF64 estimatedDuration ++ (putStr startLocationName ++
          (putStr endLocationName ++ putBytes metadata))))))))))))
  | .error code message trackUid retryAfterMs =>
    .ok (putU8 sError ++ (putU8 code.toU8 ++ (putU32 (retryAfterMs.getD 0) ++
      (putUuid lib (trackUid.getD "") ++ putStr message))))
  | .eventAdded _ _ payload timestampMs sub =>
    .ok (putU8 sEventAdded ++ (putU8 sub ++ (putBytes payload ++ putI64 (timestampMs.getD 0))))
  | .command commandId payload timestampMs =>
    .ok (putU8 sCommand ++ (putUuid lib commandId ++ (putBytes payload ++
      putI64 (timestampMs.getD 0))))
  | .devicePresence _ online lastSeenMs sub =>
    .ok (putU8 sPresence ++ (putU8 sub ++ (putU8 (boolU8 online) ++ putI64 (lastSeenMs.getD 0))))

def decodeSubscribed : R (Option ServerEvt) := do
  let sub ← R.u8
  let deviceUid ← R.uuid lib
  let trackUid ← R.uuidOpt lib
  let online ← R.u8
  let flags ← R.u8
  let lastLocation ← readOptAbs flags
  let lastSeenMs ← readFlagged flags 2 R.i64
  let route ← if flags &&& 4 ≠ 0 then readRouteAbs else pure []
  let estimatedDistance ← R.f64
  let estimatedDuration ← R.f64
  let startLocationName ← R.str
  let endLocationName ← R.str
  let metadata ← R.bytes
  pure (some (.subscribed sub deviceUid (trackUid.getD "") lastLocation route estimatedDistance
    estimatedDuration startLocationName endLocationName metadata (online != 0) lastSeenMs))

def decodeError : R (Option ServerEvt) := do
  let code ← R.u8
  match ErrorCode.fromU8 code with
  | none => Reader.fail .invalid
  | some code =>
    let retry ← R.u32
    let trackUid ← R.uuidOpt lib
    let message ← R.str
    pure (some (.error code message trackUid (if retry = 0 then none else some retry)))

/-- What follows a type byte; `none` is a type to ignore. -/
def decodeServerBody (typ : UInt8) : R (Option ServerEvt) :=
  if typ = sHello then do
    let version ← R.u8
    let shard ← R.u16
    let nodeId ← R.uuid lib
    pure (some (.hello version nodeId shard))
  else if typ = sRelocate then do
    let retryAfterMs ← R.u32
    let endpoint ← R.str
    pure (some (.relocate endpoint retryAfterMs))
  else if typ = sResumeOk then do
    let trackUid ← R.uuid lib
    let lastAckedSeq ← R.u32
    pure (some (.resumeOk trackUid lastAckedSeq))
  else if typ = sTrackStarted then do
    let trackUid ← R.uuid lib
    let metadata ← R.bytes
    pure (some (.trackStarted trackUid metadata))
  else if typ = sTrackStopped then do
    let trackUid ← R.uuid lib
    pure (some (.trackStopped trackUid))
  else if typ = sAck then do
    let seq ← R.u32
    pure (some (.ack seq))
  else if typ = sLoc then do
    let sub ← R.u8
    let seq ← R.u32
    let r ← readPoint none
    pure (some (.locationAdded "" "" r.1 seq sub))
  else if typ = sSubscribed then decodeSubscribed lib
  else if typ = sError then decodeError lib
  else if typ = sEventAdded then do
    let sub ← R.u8
    let payload ← R.bytes
    let t ← R.i64
    pure (some (.eventAdded "" "" payload (noneIfZero t) sub))
  else if typ = sCommand then do
    let commandId ← R.uuid lib
    let payload ← R.bytes
    let t ← R.i64
    pure (some (.command commandId payload (noneIfZero t)))
  else if typ = sPresence then do
    let sub ← R.u8
    let online ← R.u8
    let t ← R.i64
    pure (some (.devicePresence "" (online != 0) (noneIfZero t) sub))
  -- A type this version does not know is skipped, unless it is reserved.
  else if typ = 0x00 ∨ typ = 0x7F ∨ typ = 0xFF ∨ typ = 0x8C then Reader.fail .invalid
  else if 0x80 ≤ typ ∧ typ ≤ 0xFE then pure none
  else Reader.fail .invalid

def decodeServerEvt (bytes : Bytes) : Except DecodeError (Option ServerEvt) :=
  if bytes = [] then .error .truncated
  else
    Reader.run (do
      let typ ← R.u8
      decodeServerBody lib typ) bytes

end Lib

end Tracking

end Pickpoint
