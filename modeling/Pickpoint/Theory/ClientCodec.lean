import Pickpoint.Theory.Splitting

/-!
# Client Commands on the Wire

What an encoded command decodes to, and that no part of it decodes to anything.

The encoder writes every command whose points are on Earth, apart from a batch
with more points than numbers (`consumes_clientCmd`). What comes back
(`ClientCmd.decoded`) has its points moved to the grids, its texts and bytes
cut, its numbers as wide as their fields and no value that stands for its
absence. The track of a command is not on the wire; the server knows it from the
session.

In the domain of the wire (`ClientCmd.OnWire`) that is the command itself.

## Main definitions

* `ClientCmd.OnWire`: The commands the wire can carry.
* `ClientCmd.texts`, `ClientCmd.blobs`: The fields that may be cut.
* `ClientCmd.Writable`, `ClientCmd.Numbered`: The other fields can be written.
* `ClientCmd.decoded`: What comes back.

## Theorems

* `consumes_clientCmd`: What a command decodes to.
* `decoded_onWire`: In the domain of the wire nothing is lost.
* `decode_encode_clientCmd`: There commands round-trip.
-/

namespace Pickpoint

namespace Tracking

open ByteCodec

/-- The commands the wire can carry. -/
def ClientCmd.OnWire : ClientCmd → Prop
  | .resume trackUid lastClientSeq => CanonicalUuid trackUid ∧ lastClientSeq < 2 ^ 32
  | .trackStart location route metadata =>
    (∀ p ∈ location, p.OnGrid) ∧ route.length ≤ 65535 ∧ (∀ p ∈ route, p.OnRoute) ∧
      metadata.length ≤ 4096
  | .trackStop trackUid => trackUid = ""
  | .locationAdd trackUid clientSeq point =>
    trackUid = "" ∧ clientSeq < 2 ^ 32 ∧ point.OnGrid
  | .locationBatch trackUid clientSeq points =>
    trackUid = "" ∧ clientSeq < 2 ^ 32 ∧ points.length ≤ clientSeq + 1 ∧
      2 ≤ points.length ∧ points.length ≤ 100 ∧ (∀ p ∈ points, p.OnGrid) ∧
      points.IsChain fun p q => deltaFits p q = true
  | .subscribe deviceUid _ minLocationIntervalMs =>
    CanonicalUuid deviceUid ∧ minLocationIntervalMs ≤ 65535
  | .unsubscribe _ => True
  | .event trackUid payload timestampMs =>
    trackUid = "" ∧ payload.length ≤ 4096 ∧ timestampMs ≠ some 0 ∧ ∀ t ∈ timestampMs, FitsI64 t
  | .commandAck commandId _ message =>
    CanonicalUuid commandId ∧ message ≠ some "" ∧ ∀ m ∈ message, (strBytes m).length ≤ 4096

/-- The texts of a command. -/
def ClientCmd.texts : ClientCmd → List String
  | .commandAck _ _ message => [message.getD ""]
  | _ => []

/-- The byte fields of a command. -/
def ClientCmd.blobs : ClientCmd → List Bytes
  | .trackStart _ _ metadata => [metadata]
  | .event _ payload _ => [payload]
  | _ => []

/-- The other fields can be written: points are on Earth, those of a batch go into
    one frame, and a time is an `i64`. -/
def ClientCmd.Writable : ClientCmd → Prop
  | .trackStart location route _ => (∀ p ∈ location, p.OnEarth) ∧ ∀ p ∈ route, p.OnEarth
  | .locationAdd _ _ point => point.OnEarth
  | .locationBatch _ _ points => points ≠ [] ∧ Chunk points ∧ ∀ p ∈ points, p.OnEarth
  | .event _ _ timestampMs => ∀ t ∈ timestampMs, FitsI64 t
  | _ => True

/-- The points of a batch have numbers. -/
def ClientCmd.Numbered : ClientCmd → Prop
  | .locationBatch _ clientSeq points =>
    clientSeq + 1 < 2 ^ 64 ∧ points.length ≤ clientSeq + 1
  | _ => True

/-- What comes back of a command. -/
def ClientCmd.decoded (lib : UuidLib) : ClientCmd → ClientCmd
  | .resume trackUid lastClientSeq => .resume (writtenUid lib trackUid) (truncU32 lastClientSeq)
  | .trackStart location route metadata =>
    .trackStart (location.map written) ((route.take 65535).map writtenBare)
      (metadata.take maxString)
  | .trackStop _ => .trackStop ""
  | .locationAdd _ clientSeq point => .locationAdd "" (truncU32 clientSeq) (written point)
  | .locationBatch _ clientSeq points => locCmd (truncU32 clientSeq) (points.map written)
  | .subscribe deviceUid includeEvents minLocationIntervalMs =>
    .subscribe (writtenUid lib deviceUid) includeEvents (min minLocationIntervalMs 65535)
  | .unsubscribe sub => .unsubscribe sub
  | .event _ payload timestampMs =>
    .event "" (payload.take maxString) (noneIfZero (timestampMs.getD 0))
  | .commandAck commandId status message =>
    .commandAck (writtenUid lib commandId) status
      (if writtenStr (message.getD "") = "" then none else some (writtenStr (message.getD "")))

/-- Points on the grid are carried unchanged. -/
theorem written_onGrid (p : LatLng) (h : p.OnGrid) : written p = p := by
  rw [written_inRange p (onGrid_inRange p h), quantise_onGrid p h]

theorem map_written_onGrid (ps : List LatLng) (h : ∀ p ∈ ps, p.OnGrid) : ps.map written = ps := by
  rw [List.map_congr_left fun p hp => written_onGrid p (h p hp), List.map_id']

theorem optMap_written_onGrid (o : Option LatLng) (h : ∀ p ∈ o, p.OnGrid) : o.map written = o :=
  map_eq_self o written fun p hp => written_onGrid p (h p hp)

theorem onGrid_onEarth (p : LatLng) (h : p.OnGrid) : p.OnEarth :=
  inRange_onEarth p (onGrid_inRange p h)

theorem commandAckStatus_fromU8 (status : CommandAckStatus) :
    CommandAckStatus.fromU8 status.toU8 = status := by
  cases status <;> decide

section Lib

variable (lib : UuidLib)

/-! ## Frames -/

theorem consumes_trackStart (location : Option LatLng) (route : List LatLng) (metadata : Bytes)
    (hloc : ∀ p ∈ location, p.OnEarth) (hroute : ∀ p ∈ route, p.OnEarth) :
    ∃ w, encodeClientCmd lib (.trackStart location route metadata) = .ok w ∧
      Decodes (clientFrame lib) w
        (.cmd ((ClientCmd.trackStart location route metadata).decoded lib)) := by
  refine ⟨putU8 cTrackStart ++ (putU8 (boolU8 location.isSome) ++
    (location.elim [] (pointBytes none) ++ (writeRouteAbs route ++ putBytes metadata))), ?_, ?_⟩
  · rw [encodeClientCmd, writeOptAbs_eq]
    rfl
  refine consumes_clientFrame lib cTrackStart _ _ ?_
  have hflag : boolU8 location.isSome &&& 1 ≠ 0 ↔ location.isSome := by
    rw [← bne_iff_ne, boolU8_bit]
  refine consumes_bind _ _ _ _ _ _ (consumes_u8 _) ?_
  refine consumes_bind _ _ _ _ _ _ (consumes_optAbs _ location hflag hloc) ?_
  refine consumes_bind _ _ _ _ _ _ (consumes_route route hroute) ?_
  refine consumes_last _ _ _ _ _ (consumes_bytes metadata) ?_
  exact consumes_pure _

theorem consumes_locationAdd (trackUid : String) (clientSeq : Nat) (point : LatLng)
    (h : point.OnEarth) :
    ∃ w, encodeClientCmd lib (.locationAdd trackUid clientSeq point) = .ok w ∧
      Decodes (clientFrame lib) w
        (.cmd ((ClientCmd.locationAdd trackUid clientSeq point).decoded lib)) := by
  have hstrung : Strung none [point] :=
    strung_chunk [point] (by simpa only [List.mem_singleton, forall_eq] using h)
      (chunk_singleton point)
  refine ⟨LocFrame.bytes ⟨clientSeq, [point]⟩, ?_, consumes_locFrame lib ⟨clientSeq, [point]⟩
    (List.cons_ne_nil point []) (Nat.le_of_ble_eq_true rfl) hstrung⟩
  rw [encodeClientCmd, writeAbs_eq]
  simp only [LocFrame.bytes, pointsBytes, writeEach, List.append_nil]
  rfl

theorem consumes_locationBatch (trackUid : String) (clientSeq : Nat) (points : List LatLng)
    (hne : points ≠ []) (hchunk : Chunk points) (hearth : ∀ p ∈ points, p.OnEarth)
    (hnum : clientSeq + 1 < 2 ^ 64 ∧ points.length ≤ clientSeq + 1) :
    ∃ w, encodeClientCmd lib (.locationBatch trackUid clientSeq points) = .ok w ∧
      Decodes (clientFrame lib) w
        (.cmd ((ClientCmd.locationBatch trackUid clientSeq points).decoded lib)) := by
  refine ⟨LocFrame.bytes ⟨clientSeq, points⟩, ?_, consumes_locFrame lib ⟨clientSeq, points⟩ hne
    hchunk.room (strung_chunk points hearth hchunk)⟩
  rw [encodeClientCmd, encodeLocFrames_chunk clientSeq points hne hearth hchunk, if_pos hnum]
  rfl

/-- A batch without numbers for its points stops the encoder. -/
theorem encode_unnumbered (c : ClientCmd) (h : c.Writable) (hnum : ¬ c.Numbered) :
    encodeClientCmd lib c = .error .overflow := by
  cases c with
  | locationBatch trackUid clientSeq points =>
      rcases h with ⟨hne, hchunk, hearth⟩
      have hlack : ¬ (clientSeq + 1 < 2 ^ 64 ∧ points.length ≤ clientSeq + 1) := hnum
      rw [encodeClientCmd, encodeLocFrames_chunk clientSeq points hne hearth hchunk, if_neg hlack]
      rfl
  | _ => exact absurd trivial hnum

/-- An encoded command is read to its last byte, and not without it. -/
theorem consumes_clientCmd (c : ClientCmd) (h : c.Writable) (hnum : c.Numbered)
    (htexts : ∀ s ∈ c.texts, CutsCleanly s) :
    ∃ w, encodeClientCmd lib c = .ok w ∧
      Decodes (clientFrame lib) w (.cmd (c.decoded lib)) := by
  -- One case per command: the decoder takes the branch of its type byte and reads the
  -- fields back one after the other.
  cases c with
  | resume trackUid lastClientSeq =>
      refine ⟨_, rfl, consumes_clientFrame lib cResume _ _ ?_⟩
      refine consumes_bind _ _ _ _ _ _ (consumes_uuid lib trackUid) ?_
      refine consumes_last _ _ _ _ _ (consumes_seq lastClientSeq) ?_
      exact consumes_pure _
  | trackStart location route metadata =>
      exact consumes_trackStart lib location route metadata h.1 h.2
  | trackStop trackUid =>
      refine ⟨_, rfl, consumes_clientFrame lib cTrackStop [] _ ?_⟩
      exact consumes_pure _
  | locationAdd trackUid clientSeq point =>
      exact consumes_locationAdd lib trackUid clientSeq point h
  | locationBatch trackUid clientSeq points =>
      exact consumes_locationBatch lib trackUid clientSeq points h.1 h.2.1 h.2.2 hnum
  | subscribe deviceUid includeEvents minLocationIntervalMs =>
      refine ⟨_, rfl, consumes_clientFrame lib cSubscribe _ _ ?_⟩
      refine consumes_bind _ _ _ _ _ _ (consumes_uuid lib deviceUid) ?_
      refine consumes_bind _ _ _ _ _ _ (consumes_u8 _) ?_
      refine consumes_last _ _ _ _ _ (consumes_u16 (min minLocationIntervalMs 65535) (by omega)) ?_
      rw [boolU8_bit]
      exact consumes_pure _
  | unsubscribe sub =>
      refine ⟨_, rfl, consumes_clientFrame lib cUnsubscribe _ _ ?_⟩
      refine consumes_last _ _ _ _ _ (consumes_u8 sub) ?_
      exact consumes_pure _
  | event trackUid payload timestampMs =>
      refine ⟨_, rfl, consumes_clientFrame lib cEvent _ _ ?_⟩
      refine consumes_bind _ _ _ _ _ _ (consumes_bytes payload) ?_
      refine consumes_last _ _ _ _ _ (consumes_i64 _ (getD_fits timestampMs h)) ?_
      exact consumes_pure _
  | commandAck commandId status message =>
      refine ⟨_, rfl, consumes_clientFrame lib cCommandAck _ _ ?_⟩
      refine consumes_bind _ _ _ _ _ _ (consumes_uuid lib commandId) ?_
      refine consumes_bind _ _ _ _ _ _ (consumes_u8 status.toU8) ?_
      refine consumes_last _ _ _ _ _
        (consumes_str (message.getD "") (htexts _ List.mem_cons_self)) ?_
      rw [commandAckStatus_fromU8]
      exact consumes_pure _

/-! ## In the domain of the wire -/

/-- A command in the domain of the wire is written whole. -/
theorem onWire_writable (c : ClientCmd) (h : c.OnWire) :
    c.Writable ∧ c.Numbered ∧ ∀ s ∈ c.texts, CutsCleanly s := by
  have hnone : ∀ s ∈ ([] : List String), CutsCleanly s := fun s hs => absurd hs List.not_mem_nil
  cases c with
  | trackStart location route metadata =>
      exact ⟨⟨fun p hp => onGrid_onEarth p (h.1 p hp),
        fun p hp => onGrid_onEarth p (h.2.2.1 p hp).onGrid⟩, trivial, hnone⟩
  | locationAdd trackUid clientSeq point => exact ⟨onGrid_onEarth point h.2.2, trivial, hnone⟩
  | locationBatch trackUid clientSeq points =>
      rcases h with ⟨_, hseq, hcount, htwo, hroom, hgrid, hfits⟩
      refine ⟨⟨?_, ⟨hroom, hfits⟩, fun p hp => onGrid_onEarth p (hgrid p hp)⟩,
        ⟨by omega, hcount⟩, hnone⟩
      rintro rfl
      exact absurd htwo (by decide)
  | event trackUid payload timestampMs => exact ⟨h.2.2.2, trivial, hnone⟩
  | commandAck commandId status message =>
      refine ⟨trivial, trivial, fun s hs => Or.inl ?_⟩
      rw [List.mem_singleton.mp hs]
      cases message with
      | none => exact Nat.zero_le _
      | some m => exact h.2.2 m rfl
  | _ => exact ⟨trivial, trivial, hnone⟩

/-- And nothing of it is lost. -/
theorem decoded_onWire (hlib : lib.Documented) (c : ClientCmd) (h : c.OnWire) :
    c.decoded lib = c := by
  cases c with
  | resume trackUid lastClientSeq =>
      rw [ClientCmd.decoded, writtenUid_canonical lib hlib trackUid h.1,
        truncU32_eq lastClientSeq h.2]
  | trackStart location route metadata =>
      rcases h with ⟨hloc, hlen, hroute, hmeta⟩
      rw [ClientCmd.decoded, optMap_written_onGrid location hloc,
        writtenRoute_onRoute route hlen hroute, take_short metadata hmeta]
  | trackStop trackUid =>
      have huid : trackUid = "" := h
      rw [ClientCmd.decoded, huid]
  | locationAdd trackUid clientSeq point =>
      rw [ClientCmd.decoded, truncU32_eq clientSeq h.2.1, written_onGrid point h.2.2, h.1]
  | locationBatch trackUid clientSeq points =>
      rcases h with ⟨huid, hseq, _, htwo, _, hgrid, _⟩
      rw [ClientCmd.decoded, truncU32_eq clientSeq hseq, map_written_onGrid points hgrid, huid]
      -- Two points or more come back as a batch.
      rcases points with _ | ⟨p, _ | ⟨q, points⟩⟩
      · exact absurd htwo (by decide)
      · rw [List.length_singleton] at htwo
        exact absurd htwo (by decide)
      · rfl
  | subscribe deviceUid includeEvents minLocationIntervalMs =>
      rw [ClientCmd.decoded, writtenUid_canonical lib hlib deviceUid h.1, Nat.min_eq_left h.2]
  | unsubscribe sub => rfl
  | event trackUid payload timestampMs =>
      rcases h with ⟨huid, hpayload, hzero, _⟩
      rw [ClientCmd.decoded, take_short payload hpayload, noneIfZero_getD timestampMs hzero,
        huid]
  | commandAck commandId status message =>
      rcases h with ⟨huid, hempty, hmessage⟩
      rw [ClientCmd.decoded, writtenUid_canonical lib hlib commandId huid]
      cases message with
      | none =>
          rw [Option.getD_none, writtenStr_short "" (Nat.zero_le _), if_pos rfl]
      | some m =>
          have hne : m ≠ "" := fun hm => hempty (congrArg some hm)
          rw [Option.getD_some, writtenStr_short m (hmessage m rfl), if_neg hne]

theorem consumes_onWire (hlib : lib.Documented) (c : ClientCmd) (h : c.OnWire) :
    ∃ w, encodeClientCmd lib c = .ok w ∧ Decodes (clientFrame lib) w (.cmd c) := by
  rcases onWire_writable c h with ⟨hwritable, hnum, htexts⟩
  rcases consumes_clientCmd lib c hwritable hnum htexts with ⟨w, hw, hdecodes⟩
  rw [decoded_onWire lib hlib c h] at hdecodes
  exact ⟨w, hw, hdecodes⟩

/-- A command in the domain of the wire is decoded to itself: every field of every
    shape arrives, with the points of a batch in their order and numbered. -/
theorem decode_encode_clientCmd (hlib : lib.Documented) (c : ClientCmd) (h : c.OnWire) :
    ∃ w, encodeClientCmd lib c = .ok w ∧ decodeClientCmd lib w = .ok c := by
  rcases consumes_onWire lib hlib c h with ⟨w, hw, hdecodes⟩
  exact ⟨w, hw, decodeClientCmd_frame lib w c hdecodes⟩

end Lib

/-- A start with a location that has every optional field, and a route. -/
theorem decode_encode_clientCmd_start : ∃ w,
    encodeClientCmd canonicalLib (.trackStart
      (some { latitude := 45, longitude := -1 / 4, altitude := some (-3 / 2), accuracy := some 12,
              timestampMs := some 1700000000000 })
      [{ latitude := 1 / 2, longitude := 1 }] [1, 2, 3]) = .ok w ∧
    decodeClientCmd canonicalLib w = .ok (.trackStart
      (some { latitude := 45, longitude := -1 / 4, altitude := some (-3 / 2), accuracy := some 12,
              timestampMs := some 1700000000000 })
      [{ latitude := 1 / 2, longitude := 1 }] [1, 2, 3]) := by
  refine decode_encode_clientCmd canonicalLib canonicalLib_documented _
    ⟨?_, by decide, ?_, by decide⟩
  · rintro p ⟨⟩
    refine ⟨⟨by norm_num [abs_le], 45000000, by norm_num⟩,
      ⟨by norm_num [abs_le], -250000, by norm_num⟩, ?_, ?_, rfl, rfl, ?_⟩
    · rintro a ⟨⟩
      exact ⟨-1500, by norm_num, by norm_num, by norm_num⟩
    · rintro a ⟨⟩
      exact ⟨1200, by norm_num, by norm_num, by norm_num⟩
    · rintro t ⟨⟩
      exact ⟨by decide, by decide⟩
  · intro p hp
    rw [List.mem_singleton.mp hp]
    refine ⟨⟨⟨by norm_num [abs_le], 500000, by norm_num⟩,
      ⟨by norm_num [abs_le], 1000000, by norm_num⟩, ?_, ?_, rfl, rfl, ?_⟩, rfl⟩
    · rintro a ⟨⟩
    · rintro a ⟨⟩
    · rintro t ⟨⟩

end Tracking

end Pickpoint
