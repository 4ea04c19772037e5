import Pickpoint.ByteCodec.Settling
import Pickpoint.Theory.ServerCodec
import Pickpoint.Theory.Splitting

/-!
# Delimiting

Both wire formats mark the end of a frame by themselves. Whatever bytes arrive,
well formed or not, the decoders come to an answer at one byte: with fewer bytes
they say `Truncated`, and from that byte on neither a command, an event, a type to
ignore nor an error is changed by what follows. So a frame may be followed by
anything, an error is found at the byte that makes it one, and nothing but
`Truncated` asks for more bytes.

The decoders are readers made of fields, and each field settles. Nothing here
mentions the encoders, or any property of the bytes.

## Theorems

* `settles_point`, `settles_clientBody`, `settles_serverBody`: The decoders settle.
* `decoders_delimit`: Every answer is found at one byte.
-/

namespace Pickpoint

namespace Tracking

open ByteCodec

/-! ## Fields -/

theorem settles_u8 : Settles .truncated R.u8 := settles_byte _

theorem settles_u16 : Settles .truncated R.u16 := settles_uint _ 2

theorem settles_u32 : Settles .truncated R.u32 := settles_uint _ 4

theorem settles_i16 : Settles .truncated R.i16 := settles_int _ 2

theorem settles_i32 : Settles .truncated R.i32 := settles_int _ 4

theorem settles_i64 : Settles .truncated R.i64 := settles_int _ 8

theorem settles_f64 : Settles .truncated R.f64 :=
  settles_bind _ _ _ (settles_uint _ 8) fun _ => settles_pure _ _

theorem settles_bytes : Settles .truncated R.bytes := by
  refine settles_bind _ _ _ settles_u16 fun n => ?_
  refine settles_ite _ _ _ _ (settles_fail _ _) ?_
  exact settles_bind _ _ _ (settles_take _ n) fun raw => settles_pure _ _

theorem settles_str : Settles .truncated R.str := by
  refine settles_bind _ _ _ settles_u16 fun n => ?_
  refine settles_ite _ _ _ _ (settles_fail _ _) ?_
  refine settles_bind _ _ _ (settles_take _ n) fun raw => ?_
  -- A text that is not UTF-8 is refused once its bytes are there.
  rcases String.fromUTF8? ⟨raw.val.toArray⟩ with _ | s
  · exact settles_fail _ _
  · exact settles_pure _ _

theorem settles_flagged {α : Type} (flags flag : UInt8) (field : R α)
    (h : Settles .truncated field) : Settles .truncated (readFlagged flags flag field) :=
  settles_ite _ _ _ _ (settles_bind _ _ _ h fun _ => settles_pure _ _) (settles_pure _ _)

/-! ## Points -/

theorem settles_checkCoord (lat lon : Int) : Settles .truncated (checkCoord lat lon) :=
  settles_ite _ _ _ _ (settles_fail _ _) (settles_pure _ _)

theorem settles_position (prev : Option (Int × Int)) :
    Settles .truncated (readPosition prev) := by
  cases prev with
  | none =>
      refine settles_bind _ _ _ settles_i32 fun lat => ?_
      exact settles_bind _ _ _ settles_i32 fun lon => settles_pure _ _
  | some pos =>
      refine settles_bind _ _ _ settles_i16 fun dlat => ?_
      exact settles_bind _ _ _ settles_i16 fun dlon => settles_pure _ _

theorem settles_point (prev : Option (Int × Int)) : Settles .truncated (readPoint prev) := by
  refine settles_bind _ _ _ settles_u8 fun flags => ?_
  refine settles_bind _ _ _ (settles_position prev) fun pos => ?_
  refine settles_bind _ _ _ (settles_checkCoord pos.1 pos.2) fun _ => ?_
  refine settles_bind _ _ _ (settles_flagged flags pfAlt _ settles_i32) fun alt => ?_
  refine settles_bind _ _ _ (settles_flagged flags pfAcc _ settles_u16) fun acc => ?_
  refine settles_bind _ _ _ (settles_flagged flags pfTime _ settles_i64) fun time => ?_
  exact settles_pure _ _

theorem settles_optAbs (flags : UInt8) : Settles .truncated (readOptAbs flags) :=
  settles_ite _ _ _ _ (settles_bind _ _ _ (settles_point none) fun _ => settles_pure _ _)
    (settles_pure _ _)

theorem settles_route : Settles .truncated readRouteAbs := by
  refine settles_bind _ _ _ settles_u16 fun n => settles_many _ _ (fun _ => ?_) n ()
  refine settles_bind _ _ _ settles_i32 fun lat => ?_
  refine settles_bind _ _ _ settles_i32 fun lon => ?_
  exact settles_bind _ _ _ (settles_checkCoord lat lon) fun _ => settles_pure _ _

/-! ## Messages -/

theorem settles_loc : Settles .truncated decodeLoc := by
  refine settles_bind _ _ _ settles_u32 fun seq => ?_
  refine settles_bind _ _ _ settles_u8 fun count => ?_
  refine settles_ite _ _ _ _ (settles_fail _ _) ?_
  refine settles_bind _ _ _ (settles_many _ _ settles_point count.toNat none) fun points => ?_
  exact settles_pure _ _

theorem settles_trackStart : Settles .truncated decodeTrackStart := by
  refine settles_bind _ _ _ settles_u8 fun flags => ?_
  refine settles_bind _ _ _ (settles_optAbs flags) fun location => ?_
  refine settles_bind _ _ _ settles_route fun route => ?_
  exact settles_bind _ _ _ settles_bytes fun metadata => settles_pure _ _

section Lib

variable (lib : UuidLib)

theorem settles_uuid : Settles .truncated (R.uuid lib) :=
  settles_bind _ _ _ (settles_take _ 16) fun _ => settles_pure _ _

theorem settles_uuidOpt : Settles .truncated (R.uuidOpt lib) :=
  settles_bind _ _ _ (settles_take _ 16) fun _ => settles_pure _ _

theorem settles_subscribed : Settles .truncated (decodeSubscribed lib) := by
  refine settles_bind _ _ _ settles_u8 fun sub => ?_
  refine settles_bind _ _ _ (settles_uuid lib) fun deviceUid => ?_
  refine settles_bind _ _ _ (settles_uuidOpt lib) fun trackUid => ?_
  refine settles_bind _ _ _ settles_u8 fun online => ?_
  refine settles_bind _ _ _ settles_u8 fun flags => ?_
  refine settles_bind _ _ _ (settles_optAbs flags) fun lastLocation => ?_
  refine settles_bind _ _ _ (settles_flagged flags 2 _ settles_i64) fun lastSeenMs => ?_
  have hrest : ∀ route, Settles .truncated (do
      let estimatedDistance ← R.f64
      let estimatedDuration ← R.f64
      let startLocationName ← R.str
      let endLocationName ← R.str
      let metadata ← R.bytes
      pure (some (ServerEvt.subscribed sub deviceUid (trackUid.getD "") lastLocation route
        estimatedDistance estimatedDuration startLocationName endLocationName metadata
        (online != 0) lastSeenMs)) : R (Option ServerEvt)) := by
    intro route
    refine settles_bind _ _ _ settles_f64 fun estimatedDistance => ?_
    refine settles_bind _ _ _ settles_f64 fun estimatedDuration => ?_
    refine settles_bind _ _ _ settles_str fun startLocationName => ?_
    refine settles_bind _ _ _ settles_str fun endLocationName => ?_
    exact settles_bind _ _ _ settles_bytes fun metadata => settles_pure _ _
  -- The flags say whether there is a route.
  exact settles_ite _ _ _ _ (settles_bind _ _ _ settles_route hrest)
    (settles_bind _ _ _ (settles_pure _ []) hrest)

theorem settles_error : Settles .truncated (decodeError lib) := by
  refine settles_bind _ _ _ settles_u8 fun code => ?_
  rcases ErrorCode.fromU8 code with _ | code
  · exact settles_fail _ _
  · refine settles_bind _ _ _ settles_u32 fun retry => ?_
    refine settles_bind _ _ _ (settles_uuidOpt lib) fun trackUid => ?_
    exact settles_bind _ _ _ settles_str fun message => settles_pure _ _

theorem settles_clientBody (typ : UInt8) : Settles .truncated (decodeClientBody lib typ) := by
  unfold decodeClientBody
  refine settles_ite _ _ _ _ ?_ <| settles_ite _ _ _ _ settles_trackStart <|
    settles_ite _ _ _ _ (settles_pure _ _) <| settles_ite _ _ _ _ settles_loc <|
    settles_ite _ _ _ _ ?_ <| settles_ite _ _ _ _ ?_ <| settles_ite _ _ _ _ ?_ <|
    settles_ite _ _ _ _ ?_ <| settles_ite _ _ _ _ (settles_fail _ _) <|
    settles_ite _ _ _ _ (settles_pure _ _) (settles_fail _ _)
  · refine settles_bind _ _ _ (settles_uuid lib) fun trackUid => ?_
    exact settles_bind _ _ _ settles_u32 fun lastClientSeq => settles_pure _ _
  · refine settles_bind _ _ _ (settles_uuid lib) fun deviceUid => ?_
    refine settles_bind _ _ _ settles_u8 fun flags => ?_
    exact settles_bind _ _ _ settles_u16 fun minInterval => settles_pure _ _
  · exact settles_bind _ _ _ settles_u8 fun sub => settles_pure _ _
  · refine settles_bind _ _ _ settles_bytes fun payload => ?_
    exact settles_bind _ _ _ settles_i64 fun timestampMs => settles_pure _ _
  · refine settles_bind _ _ _ (settles_uuid lib) fun commandId => ?_
    refine settles_bind _ _ _ settles_u8 fun status => ?_
    exact settles_bind _ _ _ settles_str fun message => settles_pure _ _

theorem settles_serverBody (typ : UInt8) : Settles .truncated (decodeServerBody lib typ) := by
  unfold decodeServerBody
  -- The match on the type byte; each body is a chain of readers that settle.
  refine settles_ite _ _ _ _ ?_ <| settles_ite _ _ _ _ ?_ <| settles_ite _ _ _ _ ?_ <|
    settles_ite _ _ _ _ ?_ <| settles_ite _ _ _ _ ?_ <| settles_ite _ _ _ _ ?_ <|
    settles_ite _ _ _ _ ?_ <| settles_ite _ _ _ _ (settles_subscribed lib) <|
    settles_ite _ _ _ _ (settles_error lib) <| settles_ite _ _ _ _ ?_ <|
    settles_ite _ _ _ _ ?_ <| settles_ite _ _ _ _ ?_ <| settles_ite _ _ _ _ (settles_fail _ _) <|
    settles_ite _ _ _ _ (settles_pure _ _) (settles_fail _ _)
  · refine settles_bind _ _ _ settles_u8 fun version => ?_
    refine settles_bind _ _ _ settles_u16 fun shard => ?_
    exact settles_bind _ _ _ (settles_uuid lib) fun nodeId => settles_pure _ _
  · refine settles_bind _ _ _ settles_u32 fun retryAfterMs => ?_
    exact settles_bind _ _ _ settles_str fun endpoint => settles_pure _ _
  · refine settles_bind _ _ _ (settles_uuid lib) fun trackUid => ?_
    exact settles_bind _ _ _ settles_u32 fun lastAckedSeq => settles_pure _ _
  · refine settles_bind _ _ _ (settles_uuid lib) fun trackUid => ?_
    exact settles_bind _ _ _ settles_bytes fun metadata => settles_pure _ _
  · exact settles_bind _ _ _ (settles_uuid lib) fun trackUid => settles_pure _ _
  · exact settles_bind _ _ _ settles_u32 fun seq => settles_pure _ _
  · refine settles_bind _ _ _ settles_u8 fun sub => ?_
    refine settles_bind _ _ _ settles_u32 fun seq => ?_
    exact settles_bind _ _ _ (settles_point none) fun r => settles_pure _ _
  · refine settles_bind _ _ _ settles_u8 fun sub => ?_
    refine settles_bind _ _ _ settles_bytes fun payload => ?_
    exact settles_bind _ _ _ settles_i64 fun t => settles_pure _ _
  · refine settles_bind _ _ _ (settles_uuid lib) fun commandId => ?_
    refine settles_bind _ _ _ settles_bytes fun payload => ?_
    exact settles_bind _ _ _ settles_i64 fun t => settles_pure _ _
  · refine settles_bind _ _ _ settles_u8 fun sub => ?_
    refine settles_bind _ _ _ settles_u8 fun online => ?_
    exact settles_bind _ _ _ settles_i64 fun t => settles_pure _ _

/-! ## Frames -/

theorem decodeClient_settles (b more : Bytes) :
    decodeClient lib b = .error .truncated ∨ decodeClient lib (b ++ more) = decodeClient lib b := by
  rw [decodeClient_eq, decodeClient_eq]
  exact settles_run _ _ (settles_bind _ _ _ settles_u8 (settles_clientBody lib)) b more

theorem decodeClientCmd_settles (b more : Bytes) :
    decodeClientCmd lib b = .error .truncated ∨
      decodeClientCmd lib (b ++ more) = decodeClientCmd lib b := by
  unfold decodeClientCmd
  rcases decodeClient_settles lib b more with hshort | hmore
  · exact Or.inl (by rw [hshort])
  · exact Or.inr (by rw [hmore])

theorem decodeServerEvt_settles (b more : Bytes) :
    decodeServerEvt lib b = .error .truncated ∨
      decodeServerEvt lib (b ++ more) = decodeServerEvt lib b := by
  rw [decodeServerEvt_eq, decodeServerEvt_eq]
  exact settles_run _ _ (settles_bind _ _ _ settles_u8 (settles_serverBody lib)) b more

/-- Whatever bytes arrive, an answer of the decoders is found at one byte: with
    fewer bytes they say `Truncated`, and what follows that byte changes nothing. It
    is the law of readers that settle, and each body is put together of such. -/
theorem decoders_delimit :
    (∀ b, decodeClientCmd lib b ≠ .error .truncated →
      Delimits .truncated (decodeClientCmd lib) b) ∧
    ∀ b, decodeServerEvt lib b ≠ .error .truncated →
      Delimits .truncated (decodeServerEvt lib) b :=
  ⟨fun b h => delimits _ _ (decodeClientCmd_settles lib) b h,
    fun b h => delimits _ _ (decodeServerEvt_settles lib) b h⟩

end Lib

/-- A command with a byte behind it, and an event of a reserved type. -/
theorem decoders_delimit_both :
    Delimits .truncated (decodeClientCmd canonicalLib) [cUnsubscribe, 7, 0] ∧
      Delimits .truncated (decodeServerEvt canonicalLib) [0x8C, 1, 2] :=
  ⟨(decoders_delimit canonicalLib).1 _ (by decide), (decoders_delimit canonicalLib).2 _ (by decide)⟩

end Tracking

end Pickpoint
