import Pickpoint.Theory.ClientCodec

/-!
# Server Events on the Wire

What an encoded event decodes to, and that no part of it decodes to anything, as
for commands. The encoder writes every event whose points are on Earth. The
device and the track of a live event are not on the wire; the listener knows them
from its subscription.

`Subscribed` says in three flags which of its parts follow. A route that is
empty is left out, and reads back as the empty one.

## Main definitions

* `ServerEvt.OnWire`: The events the wire can carry.
* `ServerEvt.texts`, `ServerEvt.blobs`: The fields that may be cut.
* `ServerEvt.Writable`: The other fields can be written.
* `ServerEvt.decoded`: What comes back.

## Theorems

* `subscribedFlags_spec`: What the flags of a `Subscribed` say.
* `consumes_serverEvt`: What an event decodes to.
* `evtDecoded_onWire`: In the domain of the wire nothing is lost.
* `decode_encode_serverEvt`: There events round-trip.
-/

namespace Pickpoint

namespace Tracking

open ByteCodec

/-- The events the wire can carry. -/
def ServerEvt.OnWire : ServerEvt → Prop
  | .hello _ nodeId shard => CanonicalUuid nodeId ∧ shard < 2 ^ 16
  | .relocate endpoint retryAfterMs => (strBytes endpoint).length ≤ 4096 ∧ retryAfterMs < 2 ^ 32
  | .resumeOk trackUid lastAckedSeq => CanonicalUuid trackUid ∧ lastAckedSeq < 2 ^ 32
  | .trackStarted trackUid metadata => CanonicalUuid trackUid ∧ metadata.length ≤ 4096
  | .trackStopped trackUid => CanonicalUuid trackUid
  | .ack seq => seq < 2 ^ 32
  | .locationAdded deviceUid trackUid point clientSeq _ =>
    deviceUid = "" ∧ trackUid = "" ∧ point.OnGrid ∧ clientSeq < 2 ^ 32
  | .subscribed _ deviceUid trackUid lastLocation route _ _ startLocationName endLocationName
      metadata _ lastSeenMs =>
    CanonicalUuid deviceUid ∧ (trackUid = "" ∨ PresentUuid trackUid) ∧
      (∀ p ∈ lastLocation, p.OnGrid) ∧ (route.length ≤ 65535 ∧ ∀ p ∈ route, p.OnRoute) ∧
      (strBytes startLocationName).length ≤ 4096 ∧ (strBytes endLocationName).length ≤ 4096 ∧
      metadata.length ≤ 4096 ∧ ∀ t ∈ lastSeenMs, FitsI64 t
  | .error _ message trackUid retryAfterMs =>
    (strBytes message).length ≤ 4096 ∧ (∀ u ∈ trackUid, PresentUuid u) ∧
      retryAfterMs ≠ some 0 ∧ ∀ n ∈ retryAfterMs, n < 2 ^ 32
  | .eventAdded deviceUid trackUid payload timestampMs _ =>
    deviceUid = "" ∧ trackUid = "" ∧ payload.length ≤ 4096 ∧ timestampMs ≠ some 0 ∧
      ∀ t ∈ timestampMs, FitsI64 t
  | .command commandId payload timestampMs =>
    CanonicalUuid commandId ∧ payload.length ≤ 4096 ∧ timestampMs ≠ some 0 ∧
      ∀ t ∈ timestampMs, FitsI64 t
  | .devicePresence deviceUid _ lastSeenMs _ =>
    deviceUid = "" ∧ lastSeenMs ≠ some 0 ∧ ∀ t ∈ lastSeenMs, FitsI64 t

/-- The texts of an event. -/
def ServerEvt.texts : ServerEvt → List String
  | .relocate endpoint _ => [endpoint]
  | .subscribed _ _ _ _ _ _ _ startLocationName endLocationName _ _ _ =>
    [startLocationName, endLocationName]
  | .error _ message _ _ => [message]
  | _ => []

/-- The byte fields of an event. -/
def ServerEvt.blobs : ServerEvt → List Bytes
  | .trackStarted _ metadata => [metadata]
  | .subscribed _ _ _ _ _ _ _ _ _ metadata _ _ => [metadata]
  | .eventAdded _ _ payload _ _ => [payload]
  | .command _ payload _ => [payload]
  | _ => []

/-- The other fields can be written: points are on Earth, times are `i64`, and
    delays `u32`. -/
def ServerEvt.Writable : ServerEvt → Prop
  | .relocate _ retryAfterMs => retryAfterMs < 2 ^ 32
  | .locationAdded _ _ point _ _ => point.OnEarth
  | .subscribed _ _ _ lastLocation route _ _ _ _ _ _ lastSeenMs =>
    (∀ p ∈ lastLocation, p.OnEarth) ∧ (∀ p ∈ route, p.OnEarth) ∧ ∀ t ∈ lastSeenMs, FitsI64 t
  | .error _ _ _ retryAfterMs => ∀ n ∈ retryAfterMs, n < 2 ^ 32
  | .eventAdded _ _ _ timestampMs _ => ∀ t ∈ timestampMs, FitsI64 t
  | .command _ _ timestampMs => ∀ t ∈ timestampMs, FitsI64 t
  | .devicePresence _ _ lastSeenMs _ => ∀ t ∈ lastSeenMs, FitsI64 t
  | _ => True

/-- What comes back of an event. -/
def ServerEvt.decoded (lib : UuidLib) : ServerEvt → ServerEvt
  | .hello version nodeId shard => .hello version (writtenUid lib nodeId) (shard % 2 ^ 16)
  | .relocate endpoint retryAfterMs => .relocate (writtenStr endpoint) retryAfterMs
  | .resumeOk trackUid lastAckedSeq => .resumeOk (writtenUid lib trackUid) (truncU32 lastAckedSeq)
  | .trackStarted trackUid metadata =>
    .trackStarted (writtenUid lib trackUid) (metadata.take maxString)
  | .trackStopped trackUid => .trackStopped (writtenUid lib trackUid)
  | .ack seq => .ack (truncU32 seq)
  | .locationAdded _ _ point clientSeq sub =>
    .locationAdded "" "" (written point) (truncU32 clientSeq) sub
  | .subscribed sub deviceUid trackUid lastLocation route estimatedDistance estimatedDuration
      startLocationName endLocationName metadata online lastSeenMs =>
    .subscribed sub (writtenUid lib deviceUid) ((writtenUidOpt lib trackUid).getD "")
      (lastLocation.map written) ((route.take 65535).map writtenBare) estimatedDistance
      estimatedDuration (writtenStr startLocationName) (writtenStr endLocationName)
      (metadata.take maxString) online lastSeenMs
  | .error code message trackUid retryAfterMs =>
    .error code (writtenStr message) (writtenUidOpt lib (trackUid.getD ""))
      (if retryAfterMs.getD 0 = 0 then none else some (retryAfterMs.getD 0))
  | .eventAdded _ _ payload timestampMs sub =>
    .eventAdded "" "" (payload.take maxString) (noneIfZero (timestampMs.getD 0)) sub
  | .command commandId payload timestampMs =>
    .command (writtenUid lib commandId) (payload.take maxString) (noneIfZero (timestampMs.getD 0))
  | .devicePresence _ online lastSeenMs sub =>
    .devicePresence "" online (noneIfZero (lastSeenMs.getD 0)) sub

theorem errorCode_fromU8 (code : ErrorCode) : ErrorCode.fromU8 code.toU8 = some code := by
  cases code <;> decide

/-- The flags of a `Subscribed` say which of its parts follow. -/
theorem subscribedFlags_spec (lastLocation : Option LatLng) (lastSeenMs : Option Int)
    (route : List LatLng) :
    (subscribedFlags lastLocation lastSeenMs route &&& 1 ≠ 0 ↔ lastLocation.isSome) ∧
      (subscribedFlags lastLocation lastSeenMs route &&& 2 ≠ 0 ↔ lastSeenMs.isSome) ∧
      (subscribedFlags lastLocation lastSeenMs route &&& 4 ≠ 0 ↔ route ≠ []) := by
  unfold subscribedFlags
  generalize lastLocation.isSome = loc
  generalize lastSeenMs.isSome = seen
  by_cases hroute : route ≠ []
  · rw [if_pos hroute, iff_true_right hroute]
    revert loc seen
    decide
  · rw [if_neg hroute, iff_false_right hroute]
    revert loc seen
    decide

section Lib

variable (lib : UuidLib)

/-! ## Frames -/

/-- What `decode_server_evt` reads. -/
def serverFrame : R (Option ServerEvt) := do
  let typ ← R.u8
  decodeServerBody lib typ

theorem decodeServerEvt_eq (bytes : Bytes) :
    decodeServerEvt lib bytes = (serverFrame lib).run bytes := by
  cases bytes with
  | nil => rfl
  | cons b bytes => rfl

theorem consumes_serverFrame (typ : UInt8) (body : Bytes) (e : Option ServerEvt)
    (h : Decodes (decodeServerBody lib typ) body e) :
    Decodes (serverFrame lib) (putU8 typ ++ body) e :=
  consumes_bind _ _ _ _ _ _ (consumes_u8 typ) h

theorem decodeServerEvt_frame (w : Bytes) (e : Option ServerEvt)
    (h : Decodes (serverFrame lib) w e) : decodeServerEvt lib w = .ok e := by
  rw [decodeServerEvt_eq, consumes_run _ _ _ h]

/-- The parts of a `Subscribed` up to its names, in the order they are written. -/
def subscribedHead (sub : UInt8) (deviceUid trackUid : String) (lastLocation : Option LatLng)
    (route : List LatLng) (estimatedDistance estimatedDuration : UInt64) (online : Bool)
    (lastSeenMs : Option Int) : Bytes :=
  putU8 sub ++ (putUuid lib deviceUid ++ (putUuid lib trackUid ++ (putU8 (boolU8 online) ++
    (putU8 (subscribedFlags lastLocation lastSeenMs route) ++
      (lastLocation.elim [] (pointBytes none) ++ (lastSeenMs.elim [] putI64 ++
        ((if subscribedFlags lastLocation lastSeenMs route &&& 4 ≠ 0 then writeRouteAbs route
          else []) ++
        (putF64 estimatedDistance ++ (putF64 estimatedDuration ++ [])))))))))

/-- The rest of a `Subscribed`. -/
def readNames (evt : String → String → Bytes → ServerEvt) : R (Option ServerEvt) := do
  let startLocationName ← R.str
  let endLocationName ← R.str
  let metadata ← R.bytes
  pure (some (evt startLocationName endLocationName metadata))

theorem encode_subscribed (sub : UInt8) (deviceUid trackUid : String)
    (lastLocation : Option LatLng) (route : List LatLng)
    (estimatedDistance estimatedDuration : UInt64) (startLocationName endLocationName : String)
    (metadata : Bytes) (online : Bool) (lastSeenMs : Option Int) :
    encodeServerEvt lib (.subscribed sub deviceUid trackUid lastLocation route estimatedDistance
        estimatedDuration startLocationName endLocationName metadata online lastSeenMs) =
      .ok (putU8 sSubscribed ++ (subscribedHead lib sub deviceUid trackUid lastLocation route
        estimatedDistance estimatedDuration online lastSeenMs ++ (putStr startLocationName ++
          (putStr endLocationName ++ putBytes metadata)))) := by
  simp only [encodeServerEvt, writeOptAbs_eq, subscribedHead, List.append_assoc, List.nil_append]
  cases lastSeenMs <;> rfl

/-- A route that is left out reads back empty. -/
theorem consumes_flaggedRoute (lastLocation : Option LatLng) (lastSeenMs : Option Int)
    (route : List LatLng) (h : ∀ p ∈ route, p.OnEarth) :
    Decodes (if subscribedFlags lastLocation lastSeenMs route &&& 4 ≠ 0 then readRouteAbs
        else pure [])
      (if subscribedFlags lastLocation lastSeenMs route &&& 4 ≠ 0 then writeRouteAbs route else [])
      ((route.take 65535).map writtenBare) := by
  rcases subscribedFlags_spec lastLocation lastSeenMs route with ⟨_, _, hflag⟩
  by_cases hne : route ≠ []
  · rw [if_pos (hflag.mpr hne), if_pos (hflag.mpr hne)]
    exact consumes_route route h
  · rw [if_neg fun hon => hne (hflag.mp hon), if_neg fun hon => hne (hflag.mp hon),
      not_not.mp hne]
    exact consumes_pure []

theorem leads_subscribed (sub : UInt8) (deviceUid trackUid : String)
    (lastLocation : Option LatLng) (route : List LatLng)
    (estimatedDistance estimatedDuration : UInt64) (online : Bool) (lastSeenMs : Option Int)
    (hloc : ∀ p ∈ lastLocation, p.OnEarth) (hroute : ∀ p ∈ route, p.OnEarth)
    (htime : ∀ t ∈ lastSeenMs, FitsI64 t) :
    Leads DecodeError.truncated (decodeSubscribed lib)
      (subscribedHead lib sub deviceUid trackUid lastLocation route estimatedDistance
        estimatedDuration online lastSeenMs)
      (readNames fun startLocationName endLocationName metadata =>
        .subscribed sub (writtenUid lib deviceUid) ((writtenUidOpt lib trackUid).getD "")
          (lastLocation.map written) ((route.take 65535).map writtenBare) estimatedDistance
          estimatedDuration startLocationName endLocationName metadata online lastSeenMs) := by
  -- Each flag is set just when its field is written.
  rcases subscribedFlags_spec lastLocation lastSeenMs route with ⟨hfloc, hfseen, _⟩
  -- The fields in their order, up to the three names.
  refine leads_bind _ _ _ _ _ _ (consumes_u8 sub) ?_
  refine leads_bind _ _ _ _ _ _ (consumes_uuid lib deviceUid) ?_
  refine leads_bind _ _ _ _ _ _ (consumes_uuidOpt lib trackUid) ?_
  refine leads_bind _ _ _ _ _ _ (consumes_u8 (boolU8 online)) ?_
  refine leads_bind _ _ _ _ _ _ (consumes_u8 (subscribedFlags lastLocation lastSeenMs route)) ?_
  refine leads_bind _ _ _ _ _ _ (consumes_optAbs _ lastLocation hfloc hloc) ?_
  refine leads_bind _ _ _ _ _ _ (consumes_flagged _ 2 R.i64 lastSeenMs putI64 id hfseen
    fun t ht => consumes_i64 t (htime t ht)) ?_
  -- The route is the only part with two ways to be read.
  refine leads_ite _ _ _ _ _ _ _ _
    (consumes_flaggedRoute lastLocation lastSeenMs route hroute) ?_
  refine leads_bind _ _ _ _ _ _ (consumes_f64 estimatedDistance) ?_
  refine leads_bind _ _ _ _ _ _ (consumes_f64 estimatedDuration) ?_
  rw [boolU8_ne_zero, Option.map_id, id]
  exact leads_nil _

theorem consumes_names (evt : String → String → Bytes → ServerEvt)
    (startLocationName endLocationName : String) (metadata : Bytes)
    (hstart : CutsCleanly startLocationName) (hend : CutsCleanly endLocationName) :
    Decodes (readNames evt)
      (putStr startLocationName ++ (putStr endLocationName ++ putBytes metadata))
      (some (evt (writtenStr startLocationName) (writtenStr endLocationName)
        (metadata.take maxString))) := by
  refine consumes_bind _ _ _ _ _ _ (consumes_str startLocationName hstart) ?_
  refine consumes_bind _ _ _ _ _ _ (consumes_str endLocationName hend) ?_
  refine consumes_last _ _ _ _ _ (consumes_bytes metadata) ?_
  exact consumes_pure _

theorem consumes_error (code : ErrorCode) (message : String) (trackUid : Option String)
    (retryAfterMs : Option Nat) (hretry : ∀ n ∈ retryAfterMs, n < 2 ^ 32)
    (hmessage : CutsCleanly message) :
    Decodes (decodeError lib)
      (putU8 code.toU8 ++ (putU32 (retryAfterMs.getD 0) ++ (putUuid lib (trackUid.getD "") ++
        putStr message)))
      (some ((ServerEvt.error code message trackUid retryAfterMs).decoded lib)) := by
  refine consumes_bind _ _ _ _ _ _ (consumes_u8 code.toU8) ?_
  rw [errorCode_fromU8]
  refine consumes_bind _ _ _ _ _ _ (consumes_u32 _ (getD_u32 retryAfterMs hretry)) ?_
  refine consumes_bind _ _ _ _ _ _ (consumes_uuidOpt lib (trackUid.getD "")) ?_
  refine consumes_last _ _ _ _ _ (consumes_str message hmessage) ?_
  exact consumes_pure _

/-- An encoded event is read to its last byte, and not without it. -/
theorem consumes_serverEvt (e : ServerEvt) (h : e.Writable)
    (htexts : ∀ s ∈ e.texts, CutsCleanly s) :
    ∃ w, encodeServerEvt lib e = .ok w ∧
      Decodes (serverFrame lib) w (some (e.decoded lib)) := by
  -- As for commands: the branch of the type byte, then field after field.
  cases e with
  | hello version nodeId shard =>
      refine ⟨_, rfl, consumes_serverFrame lib sHello _ _ ?_⟩
      refine consumes_bind _ _ _ _ _ _ (consumes_u8 version) ?_
      refine consumes_bind _ _ _ _ _ _
        (consumes_u16 (shard % 2 ^ 16) (Nat.mod_lt _ (by decide))) ?_
      refine consumes_last _ _ _ _ _ (consumes_uuid lib nodeId) ?_
      exact consumes_pure _
  | relocate endpoint retryAfterMs =>
      refine ⟨_, rfl, consumes_serverFrame lib sRelocate _ _ ?_⟩
      refine consumes_bind _ _ _ _ _ _ (consumes_u32 retryAfterMs h) ?_
      refine consumes_last _ _ _ _ _ (consumes_str endpoint (htexts _ List.mem_cons_self)) ?_
      exact consumes_pure _
  | resumeOk trackUid lastAckedSeq =>
      refine ⟨_, rfl, consumes_serverFrame lib sResumeOk _ _ ?_⟩
      refine consumes_bind _ _ _ _ _ _ (consumes_uuid lib trackUid) ?_
      refine consumes_last _ _ _ _ _ (consumes_seq lastAckedSeq) ?_
      exact consumes_pure _
  | trackStarted trackUid metadata =>
      refine ⟨_, rfl, consumes_serverFrame lib sTrackStarted _ _ ?_⟩
      refine consumes_bind _ _ _ _ _ _ (consumes_uuid lib trackUid) ?_
      refine consumes_last _ _ _ _ _ (consumes_bytes metadata) ?_
      exact consumes_pure _
  | trackStopped trackUid =>
      refine ⟨_, rfl, consumes_serverFrame lib sTrackStopped _ _ ?_⟩
      refine consumes_last _ _ _ _ _ (consumes_uuid lib trackUid) ?_
      exact consumes_pure _
  | ack seq =>
      refine ⟨_, rfl, consumes_serverFrame lib sAck _ _ ?_⟩
      refine consumes_last _ _ _ _ _ (consumes_seq seq) ?_
      exact consumes_pure _
  | locationAdded deviceUid trackUid point clientSeq sub =>
      have hfollow : Follows none point := by
        rintro q ⟨⟩
      refine ⟨putU8 sLoc ++ (putU8 sub ++ (putU32 (truncU32 clientSeq) ++ pointBytes none point)),
        ?_, consumes_serverFrame lib sLoc _ _ ?_⟩
      · rw [encodeServerEvt, writeAbs_eq]
        rfl
      refine consumes_bind _ _ _ _ _ _ (consumes_u8 sub) ?_
      refine consumes_bind _ _ _ _ _ _ (consumes_seq clientSeq) ?_
      refine consumes_last _ _ _ _ _ (consumes_point none point h hfollow) ?_
      exact consumes_pure _
  | subscribed sub deviceUid trackUid lastLocation route distance duration startName endName
      metadata online lastSeenMs =>
      refine ⟨_, encode_subscribed lib sub deviceUid trackUid lastLocation route distance duration
        startName endName metadata online lastSeenMs,
        consumes_serverFrame lib sSubscribed _ _ ?_⟩
      exact consumes_leads _ _ _ _ _ (leads_subscribed lib sub deviceUid trackUid lastLocation route
        distance duration online lastSeenMs h.1 h.2.1 h.2.2) (consumes_names _ startName endName
          metadata (htexts _ List.mem_cons_self)
          (htexts _ (List.mem_cons_of_mem _ List.mem_cons_self)))
  | error code message trackUid retryAfterMs =>
      refine ⟨_, rfl, consumes_serverFrame lib sError _ _ ?_⟩
      exact consumes_error lib code message trackUid retryAfterMs h (htexts _ List.mem_cons_self)
  | eventAdded deviceUid trackUid payload timestampMs sub =>
      refine ⟨_, rfl, consumes_serverFrame lib sEventAdded _ _ ?_⟩
      refine consumes_bind _ _ _ _ _ _ (consumes_u8 sub) ?_
      refine consumes_bind _ _ _ _ _ _ (consumes_bytes payload) ?_
      refine consumes_last _ _ _ _ _ (consumes_i64 _ (getD_fits timestampMs h)) ?_
      exact consumes_pure _
  | command commandId payload timestampMs =>
      refine ⟨_, rfl, consumes_serverFrame lib sCommand _ _ ?_⟩
      refine consumes_bind _ _ _ _ _ _ (consumes_uuid lib commandId) ?_
      refine consumes_bind _ _ _ _ _ _ (consumes_bytes payload) ?_
      refine consumes_last _ _ _ _ _ (consumes_i64 _ (getD_fits timestampMs h)) ?_
      exact consumes_pure _
  | devicePresence deviceUid online lastSeenMs sub =>
      refine ⟨_, rfl, consumes_serverFrame lib sPresence _ _ ?_⟩
      refine consumes_bind _ _ _ _ _ _ (consumes_u8 sub) ?_
      refine consumes_bind _ _ _ _ _ _ (consumes_u8 (boolU8 online)) ?_
      refine consumes_last _ _ _ _ _ (consumes_i64 _ (getD_fits lastSeenMs h)) ?_
      rw [boolU8_ne_zero]
      exact consumes_pure _

/-! ## In the domain of the wire -/

/-- A UUID that may be missing comes back from where the nil one stands for none. -/
theorem writtenUidOpt_onWire (hlib : lib.Documented) (o : Option String)
    (h : ∀ u ∈ o, PresentUuid u) : writtenUidOpt lib (o.getD "") = o := by
  cases o with
  | none => exact writtenUidOpt_empty lib
  | some u => exact writtenUidOpt_present lib hlib u (h u rfl)

/-- An event in the domain of the wire is written whole. -/
theorem evtOnWire_writable (e : ServerEvt) (h : e.OnWire) :
    e.Writable ∧ ∀ s ∈ e.texts, CutsCleanly s := by
  -- Most events have no text, and three have one or two.
  have hnone : ∀ s ∈ ([] : List String), CutsCleanly s := fun s hs => absurd hs List.not_mem_nil
  have hone : ∀ m, (strBytes m).length ≤ 4096 → ∀ s ∈ [m], CutsCleanly s := by
    intro m hm s hs
    rw [List.mem_singleton.mp hs]
    exact Or.inl hm
  cases e with
  | relocate endpoint retryAfterMs => exact ⟨h.2, hone endpoint h.1⟩
  | locationAdded deviceUid trackUid point clientSeq sub =>
      exact ⟨onGrid_onEarth point h.2.2.1, hnone⟩
  | subscribed sub deviceUid trackUid lastLocation route distance duration startName endName
      metadata online lastSeenMs =>
      rcases h with ⟨_, _, hloc, ⟨_, hroute⟩, hstart, hend, _, htime⟩
      refine ⟨⟨fun p hp => onGrid_onEarth p (hloc p hp),
        fun p hp => onGrid_onEarth p (hroute p hp).onGrid, htime⟩, fun s hs => ?_⟩
      rcases List.mem_cons.mp hs with rfl | hs
      · exact Or.inl hstart
      · exact hone endName hend s hs
  | error code message trackUid retryAfterMs => exact ⟨h.2.2.2, hone message h.1⟩
  | eventAdded deviceUid trackUid payload timestampMs sub => exact ⟨h.2.2.2.2, hnone⟩
  | command commandId payload timestampMs => exact ⟨h.2.2.2, hnone⟩
  | devicePresence deviceUid online lastSeenMs sub => exact ⟨h.2.2, hnone⟩
  | _ => exact ⟨trivial, hnone⟩

/-- And nothing of it is lost. -/
theorem evtDecoded_onWire (hlib : lib.Documented) (e : ServerEvt) (h : e.OnWire) :
    e.decoded lib = e := by
  cases e with
  | hello version nodeId shard =>
      rw [ServerEvt.decoded, writtenUid_canonical lib hlib nodeId h.1, Nat.mod_eq_of_lt h.2]
  | relocate endpoint retryAfterMs => rw [ServerEvt.decoded, writtenStr_short endpoint h.1]
  | resumeOk trackUid lastAckedSeq =>
      rw [ServerEvt.decoded, writtenUid_canonical lib hlib trackUid h.1,
        truncU32_eq lastAckedSeq h.2]
  | trackStarted trackUid metadata =>
      rw [ServerEvt.decoded, writtenUid_canonical lib hlib trackUid h.1, take_short metadata h.2]
  | trackStopped trackUid => rw [ServerEvt.decoded, writtenUid_canonical lib hlib trackUid h]
  | ack seq => rw [ServerEvt.decoded, truncU32_eq seq h]
  | locationAdded deviceUid trackUid point clientSeq sub =>
      rcases h with ⟨hdevice, htrack, hgrid, hseq⟩
      rw [ServerEvt.decoded, written_onGrid point hgrid, truncU32_eq clientSeq hseq, hdevice,
        htrack]
  | subscribed sub deviceUid trackUid lastLocation route distance duration startName endName
      metadata online lastSeenMs =>
      rcases h with ⟨hdevice, htrack, hloc, ⟨hlen, hroute⟩, hstart, hend, hmeta, _⟩
      -- The track is a UUID or none, and none is what the empty text stands for.
      have huid : (writtenUidOpt lib trackUid).getD "" = trackUid := by
        rcases htrack with rfl | hpresent
        · rw [writtenUidOpt_empty]
          rfl
        · rw [writtenUidOpt_present lib hlib trackUid hpresent]
          rfl
      rw [ServerEvt.decoded, writtenUid_canonical lib hlib deviceUid hdevice, huid,
        optMap_written_onGrid lastLocation hloc, writtenRoute_onRoute route hlen hroute,
        writtenStr_short startName hstart, writtenStr_short endName hend,
        take_short metadata hmeta]
  | error code message trackUid retryAfterMs =>
      rcases h with ⟨hmessage, htrack, hzero, _⟩
      -- Zero stands for no delay, so a delay of zero would not come back.
      have hback : (if retryAfterMs.getD 0 = 0 then none else some (retryAfterMs.getD 0)) =
          retryAfterMs := by
        cases retryAfterMs with
        | none => rfl
        | some n => exact if_neg fun hn => hzero (congrArg some hn)
      rw [ServerEvt.decoded, writtenStr_short message hmessage,
        writtenUidOpt_onWire lib hlib trackUid htrack, hback]
  | eventAdded deviceUid trackUid payload timestampMs sub =>
      rcases h with ⟨hdevice, htrack, hpayload, hzero, _⟩
      rw [ServerEvt.decoded, take_short payload hpayload, noneIfZero_getD timestampMs hzero,
        hdevice, htrack]
  | command commandId payload timestampMs =>
      rcases h with ⟨huid, hpayload, hzero, _⟩
      rw [ServerEvt.decoded, writtenUid_canonical lib hlib commandId huid,
        take_short payload hpayload, noneIfZero_getD timestampMs hzero]
  | devicePresence deviceUid online lastSeenMs sub =>
      rcases h with ⟨hdevice, hzero, _⟩
      rw [ServerEvt.decoded, noneIfZero_getD lastSeenMs hzero, hdevice]

theorem consumes_evtOnWire (hlib : lib.Documented) (e : ServerEvt) (h : e.OnWire) :
    ∃ w, encodeServerEvt lib e = .ok w ∧ Decodes (serverFrame lib) w (some e) := by
  rcases evtOnWire_writable e h with ⟨hwritable, htexts⟩
  rcases consumes_serverEvt lib e hwritable htexts with ⟨w, hw, hdecodes⟩
  rw [evtDecoded_onWire lib hlib e h] at hdecodes
  exact ⟨w, hw, hdecodes⟩

/-- An event in the domain of the wire is decoded to itself. The floats of a
    `Subscribed` go through as their bits, so a NaN arrives as the one that was
    sent. -/
theorem decode_encode_serverEvt (hlib : lib.Documented) (e : ServerEvt) (h : e.OnWire) :
    ∃ w, encodeServerEvt lib e = .ok w ∧ decodeServerEvt lib w = .ok (some e) := by
  rcases consumes_evtOnWire lib hlib e h with ⟨w, hw, hdecodes⟩
  exact ⟨w, hw, decodeServerEvt_frame lib w (some e) hdecodes⟩

end Lib

/-- A subscription with a track, a route and a time, and no location. -/
theorem decode_encode_serverEvt_subscribed : ∃ w,
    encodeServerEvt canonicalLib (.subscribed 7 "00000000-0000-0000-0000-000000000001"
      "0102030a-0b0c-0d0e-0f10-1112131415ff" none [{ latitude := 1 / 2, longitude := 1 }] 3 4
      "A" "B" [1, 2] true (some 0)) = .ok w ∧
    decodeServerEvt canonicalLib w = .ok (some (.subscribed 7
      "00000000-0000-0000-0000-000000000001" "0102030a-0b0c-0d0e-0f10-1112131415ff" none
      [{ latitude := 1 / 2, longitude := 1 }] 3 4 "A" "B" [1, 2] true (some 0))) := by
  have hdevice : CanonicalUuid "00000000-0000-0000-0000-000000000001" :=
    ⟨⟨List.replicate 15 0 ++ [1], rfl⟩, by decide⟩
  have htrack : PresentUuid "0102030a-0b0c-0d0e-0f10-1112131415ff" :=
    ⟨⟨[1, 2, 3, 10, 11, 12, 13, 14, 15, 16, 17, 18, 19, 20, 21, 255], rfl⟩, by decide, by decide⟩
  refine decode_encode_serverEvt canonicalLib canonicalLib_documented _
    ⟨hdevice, Or.inr htrack, ?_, ⟨by decide, ?_⟩, by decide, by decide, by decide, ?_⟩
  · rintro p ⟨⟩
  · intro p hp
    rw [List.mem_singleton.mp hp]
    refine ⟨⟨⟨by norm_num [abs_le], 500000, by norm_num⟩,
      ⟨by norm_num [abs_le], 1000000, by norm_num⟩, ?_, ?_, rfl, rfl, ?_⟩, rfl⟩
    · rintro a ⟨⟩
    · rintro a ⟨⟩
    · rintro t ⟨⟩
  · rintro t ⟨⟩
    exact ⟨by decide, by decide⟩

end Tracking

end Pickpoint
