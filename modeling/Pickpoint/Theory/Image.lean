import Pickpoint.Theory.ServerCodec

/-!
# What the Decoders Produce

Frames come from the other side, and a decoder takes any bytes. What it makes of
them is nevertheless a message in the domain of the wire: every coordinate has
been checked, every length is bounded, the sums of differences have not
saturated, and no value stands for its absence.

So whatever a decoder accepts the encoder can write back, as a frame that decodes
to the same message (`decodeServerEvt_image`). The frame need not be the same:
flag bits that mean nothing and bytes after the end are dropped.

There is one exception. A Loc frame of several points says the number of the
last one only, and the decoder does not ask whether there are numbers for the
points before it. The encoder computes the number of the first one and stops if
there is none (`decodeClientCmd_image`).

## Main definitions

* `ClientCmd.WellFormed`: The domain of the wire, without the numbers of a batch.
* `LocNumbered`: The points of a Loc frame have numbers.

## Theorems

* `yields_point`, `yields_route`: Points as they are read.
* `yields_serverBody`, `yields_clientBody`: Messages as they are read.
* `decodeServerEvt_image`, `decodeClientCmd_image`: They can be written back.
* `unnumbered_stops`: Apart from a batch without numbers.
-/

namespace Pickpoint

namespace Tracking

open ByteCodec

/-! ## Fields -/

theorem yields_u16 : Yields R.u16 fun x => x < 2 ^ 16 := yields_uint DecodeError.truncated 2

theorem yields_u32 : Yields R.u32 fun x => x < 2 ^ 32 := yields_uint DecodeError.truncated 4

theorem yields_i16 : Yields R.i16 fun x => -2 ^ 15 ≤ x ∧ x < 2 ^ 15 :=
  yields_mono _ _ _ (yields_int DecodeError.truncated 2) fun x hx => by omega

theorem yields_i32 : Yields R.i32 fun x => -2 ^ 31 ≤ x ∧ x < 2 ^ 31 :=
  yields_mono _ _ _ (yields_int DecodeError.truncated 4) fun x hx => by omega

theorem yields_i64 : Yields R.i64 FitsI64 :=
  yields_mono _ _ _ (yields_int DecodeError.truncated 8) fun x hx => by
    unfold FitsI64
    omega

theorem yields_bytes : Yields R.bytes fun b => b.length ≤ 4096 := by
  refine yields_bind _ _ _ _ (yields_any _) fun n _ => ?_
  refine yields_ite _ _ _ _ (fun _ => yields_fail _ _) fun hle => ?_
  refine yields_bind _ _ _ _ (yields_any _) fun raw _ => yields_pure _ _ ?_
  rw [raw.property]
  exact Nat.not_lt.mp hle

theorem yields_str : Yields R.str fun s => (strBytes s).length ≤ 4096 := by
  refine yields_bind _ _ _ _ (yields_any _) fun n _ => ?_
  refine yields_ite _ _ _ _ (fun _ => yields_fail _ _) fun hle => ?_
  refine yields_bind _ _ _ _ (yields_any _) fun raw _ => ?_
  rcases hread : String.fromUTF8? ⟨raw.val.toArray⟩ with _ | s
  · exact yields_fail _ _
  · -- The text has the bytes that were read.
    have hbytes : strBytes s = raw.val := by
      unfold String.fromUTF8? at hread
      split at hread
      · cases hread
        rfl
      · cases hread
    refine yields_pure _ _ ?_
    rw [hbytes, raw.property]
    exact Nat.not_lt.mp hle

theorem yields_flagged {α : Type} (flags flag : UInt8) (field : R α) (P : α → Prop)
    (h : Yields field P) : Yields (readFlagged flags flag field) fun o => ∀ a ∈ o, P a := by
  refine yields_ite _ _ _ _ (fun _ => ?_) fun _ => yields_pure _ _ ?_
  · refine yields_bind _ _ _ _ h fun a ha => yields_pure _ _ ?_
    rintro b ⟨⟩
    exact ha
  · rintro a ⟨⟩

/-- A time whose absence is zero. -/
theorem noneIfZero_fits (t : Int) (h : FitsI64 t) :
    noneIfZero t ≠ some 0 ∧ ∀ x ∈ noneIfZero t, FitsI64 x := by
  unfold noneIfZero
  by_cases hzero : t = 0
  · rw [if_pos hzero]
    exact ⟨by decide, fun x hx => absurd hx (Option.not_mem_none x)⟩
  · rw [if_neg hzero]
    refine ⟨fun hsome => hzero (Option.some.inj hsome), ?_⟩
    rintro x ⟨⟩
    exact h

/-! ## Points -/

/-- A position that the decoder lets pass. -/
def InBounds (pos : Int × Int) : Prop :=
  (-90000000 ≤ pos.1 ∧ pos.1 ≤ 90000000) ∧ (-180000000 ≤ pos.2 ∧ pos.2 ≤ 180000000)

theorem yields_checkCoord (lat lon : Int) :
    Yields (checkCoord lat lon) fun _ => InBounds (lat, lon) := by
  refine yields_ite _ _ _ _ (fun _ => yields_fail _ _) fun hin => yields_pure _ _ ?_
  rw [not_or, not_not, not_not] at hin
  exact hin

/-- A sum that saturates is out of bounds. -/
theorem castI32_exact (x : Int) (h : -180000000 ≤ castI32 x ∧ castI32 x ≤ 180000000) :
    castI32 x = x := by
  unfold castI32 at *
  omega

/-- A position that was read after another one is near it, unless it is outside the
    bounds. -/
theorem yields_position (prev : Option (Int × Int)) :
    Yields (readPosition prev) fun pos =>
      InBounds pos → ∀ q ∈ prev, microDeltaFits q.1 q.2 pos.1 pos.2 = true := by
  cases prev with
  | none =>
      refine yields_mono _ _ _ (yields_any _) fun pos _ _ q hq => ?_
      exact absurd hq (Option.not_mem_none q)
  | some prev =>
      refine yields_bind _ _ _ _ yields_i16 fun dlat hlat => ?_
      refine yields_bind _ _ _ _ yields_i16 fun dlon hlon => yields_pure _ _ ?_
      rintro hin q ⟨⟩
      rcases hin with ⟨hlat', hlon'⟩
      rw [castI32_exact _ (by omega), castI32_exact _ hlon']
      exact decide_eq_true (by omega)

/-- Microdegrees that are turned into degrees and back. -/
theorem degToMicro_microToDeg (m : Int) (h : -180000000 ≤ m ∧ m ≤ 180000000) :
    degToMicro (microToDeg m) = m := by
  rw [degToMicro, microToDeg, div_mul_cancel₀ _ (by norm_num), roundHalfAway_intCast]
  omega

theorem abs_microToDeg (m : Int) (n : Nat) (h : -((n : Int) * 1000000) ≤ m ∧ m ≤ n * 1000000) :
    |microToDeg m| ≤ n := by
  have hlo : (((-((n : Int) * 1000000) : Int)) : ℚ) ≤ m := Int.cast_le.mpr h.1
  have hhi : (m : ℚ) ≤ (((n : Int) * 1000000 : Int) : ℚ) := Int.cast_le.mpr h.2
  push_cast at hlo hhi
  rw [microToDeg, abs_le, le_div_iff₀ (by norm_num), div_le_iff₀ (by norm_num)]
  constructor <;> linarith

/-- A point that was read is on the grid, and can be written where it was read. -/
theorem yields_point (prev : Option (Int × Int)) :
    Yields (readPoint prev) fun r =>
      (r.1.OnGrid ∧ Follows prev r.1) ∧ r.2 = some (position r.1) := by
  refine yields_bind _ _ _ _ (yields_any _) fun flags _ => ?_
  refine yields_bind _ _ _ _ (yields_position prev) fun pos hpos => ?_
  refine yields_bind _ _ _ _ (yields_checkCoord pos.1 pos.2) fun _ hin => ?_
  refine yields_bind _ _ _ _ (yields_flagged flags pfAlt _ _ yields_i32) fun alt halt => ?_
  refine yields_bind _ _ _ _ (yields_flagged flags pfAcc _ _ yields_u16) fun acc hacc => ?_
  refine yields_bind _ _ _ _ (yields_flagged flags pfTime _ _ yields_i64) fun time htime =>
    yields_pure _ _ ?_
  rcases hin with ⟨hlat, hlon⟩
  -- Positions in microdegrees survive the way to degrees and back.
  have hback : (degToMicro (microToDeg pos.1), degToMicro (microToDeg pos.2)) = pos := by
    rw [degToMicro_microToDeg pos.1 (by omega), degToMicro_microToDeg pos.2 hlon]
  refine ⟨⟨⟨⟨abs_microToDeg pos.1 90 hlat, pos.1, rfl⟩, ⟨abs_microToDeg pos.2 180 hlon, pos.2, rfl⟩,
    ?_, ?_, rfl, rfl, htime⟩, ?_⟩, congrArg some hback.symm⟩
  -- The altitude is a number of millimetres.
  · intro a ha
    rcases Option.mem_map.mp ha with ⟨mm, hmm, rfl⟩
    exact ⟨mm, (halt mm hmm).1, (halt mm hmm).2, rfl⟩
  · intro a ha
    rcases Option.mem_map.mp ha with ⟨cm, hcm, rfl⟩
    exact ⟨cm, Int.natCast_nonneg cm, by have := hacc cm hcm; omega, by rw [Int.cast_natCast]⟩
  -- The position follows the one before it by a difference that fits.
  · intro q hq
    show microDeltaFits q.1 q.2 (degToMicro (microToDeg pos.1)) (degToMicro (microToDeg pos.2)) =
      true
    rw [degToMicro_microToDeg pos.1 (by omega), degToMicro_microToDeg pos.2 hlon]
    exact hpos ⟨hlat, hlon⟩ q hq

theorem yields_optAbs (flags : UInt8) :
    Yields (readOptAbs flags) fun o => ∀ p ∈ o, p.OnGrid := by
  refine yields_ite _ _ _ _ (fun _ => ?_) fun _ => yields_pure _ _ ?_
  · refine yields_bind _ _ _ _ (yields_point none) fun r hr => yields_pure _ _ ?_
    rintro p ⟨⟩
    exact hr.1.1
  · rintro p ⟨⟩

theorem yields_routePoint : Yields (readRoutePoint ()) fun r => r.1.OnRoute ∧ r.2 = () := by
  refine yields_bind _ _ _ _ (yields_any _) fun lat _ => ?_
  refine yields_bind _ _ _ _ (yields_any _) fun lon _ => ?_
  refine yields_bind _ _ _ _ (yields_checkCoord lat lon) fun _ hin => yields_pure _ _ ?_
  rcases hin with ⟨hlat, hlon⟩
  refine ⟨⟨⟨⟨abs_microToDeg lat 90 hlat, lat, rfl⟩, ⟨abs_microToDeg lon 180 hlon, lon, rfl⟩,
    ?_, ?_, rfl, rfl, ?_⟩, rfl⟩, rfl⟩
  · rintro a ⟨⟩
  · rintro a ⟨⟩
  · rintro t ⟨⟩

/-! ## Sequences -/

theorem eachOk_forall {σ β : Type} (P : β → Prop) (next : β → σ) (s : σ) (bs : List β)
    (h : EachOk (fun _ b => P b) next s bs) : ∀ b ∈ bs, P b := by
  induction bs generalizing s with
  | nil => exact fun b hb => absurd hb List.not_mem_nil
  | cons b bs ih => exact List.forall_mem_cons.mpr ⟨h.1, ih (next b) h.2⟩

theorem yields_route :
    Yields readRouteAbs fun ps => ps.length ≤ 65535 ∧ ∀ p ∈ ps, p.OnRoute := by
  refine yields_bind _ _ _ _ yields_u16 fun n hn => ?_
  refine yields_mono _ _ _ (yields_many readRoutePoint (fun _ => ()) (fun _ p => p.OnRoute)
    (fun _ => yields_routePoint) n ()) fun ps hps => ?_
  rcases hps with ⟨hlen, hok⟩
  exact ⟨by omega, eachOk_forall _ _ () ps hok⟩

/-- Points each of which fits after the one before are a chain. -/
theorem chain_eachOk (P : LatLng → Prop) (prev : LatLng) (ps : List LatLng)
    (h : EachOk (fun s p => P p ∧ Follows s p) (fun p => some (position p)) (some (position prev))
      ps) :
    (∀ p ∈ ps, P p) ∧ (prev :: ps).IsChain fun p q => deltaFits p q = true := by
  induction ps generalizing prev with
  | nil => exact ⟨fun p hp => absurd hp List.not_mem_nil, List.IsChain.singleton prev⟩
  | cons p ps ih =>
      rcases h with ⟨⟨hp, hfollows⟩, hrest⟩
      rcases ih p hrest with ⟨hall, hchain⟩
      exact ⟨List.forall_mem_cons.mpr ⟨hp, hall⟩,
        List.isChain_cons_cons.mpr ⟨hfollows _ rfl, hchain⟩⟩

theorem yields_points (n : Nat) :
    Yields (Reader.many readPoint n none) fun ps =>
      ps.length = n ∧ (∀ p ∈ ps, p.OnGrid) ∧ ps.IsChain fun p q => deltaFits p q = true := by
  refine yields_mono _ _ _ (yields_many readPoint (fun p => some (position p))
    (fun s p => p.OnGrid ∧ Follows s p) yields_point n none) fun ps hps => ?_
  rcases hps with ⟨hlen, hok⟩
  refine ⟨hlen, ?_⟩
  cases ps with
  | nil => exact ⟨fun p hp => absurd hp List.not_mem_nil, List.IsChain.nil⟩
  | cons p ps =>
      rcases chain_eachOk LatLng.OnGrid p ps hok.2 with ⟨hall, hchain⟩
      exact ⟨List.forall_mem_cons.mpr ⟨hok.1.1, hall⟩, hchain⟩

/-! ## Messages -/

/-- The domain of the wire, without the numbers of a batch. -/
def ClientCmd.WellFormed : ClientCmd → Prop
  | .locationBatch trackUid clientSeq points =>
    trackUid = "" ∧ clientSeq < 2 ^ 32 ∧ 2 ≤ points.length ∧ points.length ≤ 100 ∧
      (∀ p ∈ points, p.OnGrid) ∧ points.IsChain fun p q => deltaFits p q = true
  | c => c.OnWire

/-- A well-formed command can be written, and is in the domain of the wire when its
    points have numbers. -/
theorem wellFormed_writable (c : ClientCmd) (h : c.WellFormed) :
    c.Writable ∧ (c.Numbered → c.OnWire) := by
  have hsame : ∀ c : ClientCmd, c.OnWire → c.Writable ∧ (c.Numbered → c.OnWire) :=
    fun c h => ⟨(onWire_writable c h).1, fun _ => h⟩
  cases c with
  | locationBatch trackUid clientSeq points =>
      rcases h with ⟨huid, hseq, htwo, hroom, hgrid, hchain⟩
      refine ⟨⟨?_, ⟨hroom, hchain⟩, fun p hp => onGrid_onEarth p (hgrid p hp)⟩,
        fun hnum => ⟨huid, hseq, hnum.2, htwo, hroom, hgrid, hchain⟩⟩
      rintro rfl
      exact absurd htwo (by decide)
  | _ => exact hsame _ h

theorem locCmd_numbered (seq : Nat) (ps : List LatLng) (hseq : seq < 2 ^ 32) :
    (locCmd seq ps).Numbered ↔ ps.length ≤ seq + 1 := by
  have hnext : seq + 1 < 2 ^ 64 := by omega
  rcases ps with _ | ⟨p, _ | ⟨q, ps⟩⟩
  · exact iff_of_true ⟨hnext, Nat.zero_le _⟩ (Nat.zero_le _)
  · exact iff_of_true trivial (Nat.le_add_left 1 seq)
  · exact ⟨fun h => h.2, fun h => ⟨hnext, h⟩⟩

/-- The points of a Loc frame have numbers: its sixth byte counts them, and the four
    bytes before are the number of the last one. -/
def LocNumbered (b : Bytes) : Prop :=
  b.head? = some cLoc →
    ∀ count ∈ b[5]?, count.toNat ≤ ofUintBytes ((b.drop 1).take 4) + 1

section Lib

variable (lib : UuidLib)

/-! ### UUIDs -/

theorem yields_uuid (hlib : lib.Documented) : Yields (R.uuid lib) CanonicalUuid := by
  refine yields_bind _ _ _ _ (yields_any _) fun u _ => yields_pure _ _ ?_
  exact ⟨u, (hlib.toString u).symm⟩

theorem yields_uuidOpt (hlib : lib.Documented) :
    Yields (R.uuidOpt lib) fun o => ∀ s ∈ o, PresentUuid s := by
  refine yields_bind _ _ _ _ (yields_any _) fun u _ => yields_pure _ _ ?_
  intro s hs
  by_cases hnil : u.val.all (· == 0) = true
  · rw [if_pos hnil] at hs
    exact absurd hs (Option.not_mem_none s)
  · rw [if_neg hnil] at hs
    rcases hs with ⟨⟩
    exact ⟨u, fun h => hnil ((all_zero_iff u).mpr h), (hlib.toString u).symm⟩

/-! ### Events -/

/-- A message that is read is the one it is built as. -/
theorem yields_some {α : Type} (P : α → Prop) (a : α) (h : P a) :
    Yields (pure (some a) : R (Option α)) fun o => ∀ a ∈ o, P a := by
  refine yields_pure _ _ ?_
  rintro b ⟨⟩
  exact h

theorem yields_subscribed (hlib : lib.Documented) :
    Yields (decodeSubscribed lib) fun o => ∀ e ∈ o, e.OnWire := by
  refine yields_bind _ _ _ _ (yields_any _) fun sub _ => ?_
  refine yields_bind _ _ _ _ (yields_uuid lib hlib) fun deviceUid hdevice => ?_
  refine yields_bind _ _ _ _ (yields_uuidOpt lib hlib) fun trackUid htrack => ?_
  refine yields_bind _ _ _ _ (yields_any _) fun online _ => ?_
  refine yields_bind _ _ _ _ (yields_any _) fun flags _ => ?_
  refine yields_bind _ _ _ _ (yields_optAbs flags) fun location hloc => ?_
  refine yields_bind _ _ _ _ (yields_flagged flags 2 _ _ yields_i64) fun seen hseen => ?_
  -- From the route on, both branches read the same fields.
  have hrest : ∀ route : List LatLng, (route.length ≤ 65535 ∧ ∀ p ∈ route, p.OnRoute) →
      Yields (do
        let estimatedDistance ← R.f64
        let estimatedDuration ← R.f64
        let startLocationName ← R.str
        let endLocationName ← R.str
        let metadata ← R.bytes
        pure (some (ServerEvt.subscribed sub deviceUid (trackUid.getD "") location route
          estimatedDistance estimatedDuration startLocationName endLocationName metadata
          (online != 0) seen))) fun o => ∀ e ∈ o, e.OnWire := by
    intro route hroute
    refine yields_bind _ _ _ _ (yields_any _) fun distance _ => ?_
    refine yields_bind _ _ _ _ (yields_any _) fun duration _ => ?_
    refine yields_bind _ _ _ _ yields_str fun startName hstart => ?_
    refine yields_bind _ _ _ _ yields_str fun endName hend => ?_
    refine yields_bind _ _ _ _ yields_bytes fun metadata hmeta => yields_some _ _ ?_
    refine ⟨hdevice, ?_, hloc, hroute, hstart, hend, hmeta, hseen⟩
    cases trackUid with
    | none => exact Or.inl rfl
    | some u => exact Or.inr (htrack u rfl)
  -- With its flag the route is read, without it the list is empty.
  refine yields_ite _ _ _ _ (fun _ => ?_) fun _ => ?_
  · exact yields_bind _ _ _ _ yields_route fun route hroute => hrest route hroute
  · exact hrest [] ⟨Nat.zero_le _, fun p hp => absurd hp List.not_mem_nil⟩

theorem yields_error (hlib : lib.Documented) :
    Yields (decodeError lib) fun o => ∀ e ∈ o, e.OnWire := by
  refine yields_bind _ _ _ _ (yields_any _) fun byte _ => ?_
  rcases ErrorCode.fromU8 byte with _ | code
  · exact yields_fail _ _
  · refine yields_bind _ _ _ _ yields_u32 fun retry hretry => ?_
    refine yields_bind _ _ _ _ (yields_uuidOpt lib hlib) fun trackUid htrack => ?_
    refine yields_bind _ _ _ _ yields_str fun message hmessage => yields_some _ _ ?_
    refine ⟨hmessage, htrack, ?_⟩
    by_cases hzero : retry = 0
    · rw [if_pos hzero]
      exact ⟨by decide, fun n hn => absurd hn (Option.not_mem_none n)⟩
    · rw [if_neg hzero]
      refine ⟨fun hsome => hzero (Option.some.inj hsome), ?_⟩
      rintro n ⟨⟩
      exact hretry

/-- Whatever follows a type byte, an event that is read is in the domain of the
    wire. -/
theorem yields_serverBody (hlib : lib.Documented) (typ : UInt8) :
    Yields (decodeServerBody lib typ) fun o => ∀ e ∈ o, e.OnWire := by
  have huuid := yields_uuid lib hlib
  unfold decodeServerBody
  refine yields_ite _ _ _ _ (fun _ => ?hello) fun _ => ?_
  case hello =>
    refine yields_bind _ _ _ _ (yields_any _) fun version _ => ?_
    refine yields_bind _ _ _ _ yields_u16 fun shard hshard => ?_
    exact yields_bind _ _ _ _ huuid fun nodeId hnode => yields_some _ _ ⟨hnode, hshard⟩
  refine yields_ite _ _ _ _ (fun _ => ?relocate) fun _ => ?_
  case relocate =>
    refine yields_bind _ _ _ _ yields_u32 fun retry hretry => ?_
    exact yields_bind _ _ _ _ yields_str fun endpoint hend => yields_some _ _ ⟨hend, hretry⟩
  refine yields_ite _ _ _ _ (fun _ => ?resumeOk) fun _ => ?_
  case resumeOk =>
    refine yields_bind _ _ _ _ huuid fun trackUid htrack => ?_
    exact yields_bind _ _ _ _ yields_u32 fun seq hseq => yields_some _ _ ⟨htrack, hseq⟩
  refine yields_ite _ _ _ _ (fun _ => ?trackStarted) fun _ => ?_
  case trackStarted =>
    refine yields_bind _ _ _ _ huuid fun trackUid htrack => ?_
    exact yields_bind _ _ _ _ yields_bytes fun metadata hmeta => yields_some _ _ ⟨htrack, hmeta⟩
  refine yields_ite _ _ _ _ (fun _ => ?trackStopped) fun _ => ?_
  case trackStopped =>
    exact yields_bind _ _ _ _ huuid fun trackUid htrack => yields_some _ _ htrack
  refine yields_ite _ _ _ _ (fun _ => ?ack) fun _ => ?_
  case ack => exact yields_bind _ _ _ _ yields_u32 fun seq hseq => yields_some _ _ hseq
  refine yields_ite _ _ _ _ (fun _ => ?loc) fun _ => ?_
  case loc =>
    refine yields_bind _ _ _ _ (yields_any _) fun sub _ => ?_
    refine yields_bind _ _ _ _ yields_u32 fun seq hseq => ?_
    exact yields_bind _ _ _ _ (yields_point none) fun r hr =>
      yields_some _ _ ⟨rfl, rfl, hr.1.1, hseq⟩
  refine yields_ite _ _ _ _ (fun _ => yields_subscribed lib hlib) fun _ => ?_
  refine yields_ite _ _ _ _ (fun _ => yields_error lib hlib) fun _ => ?_
  refine yields_ite _ _ _ _ (fun _ => ?eventAdded) fun _ => ?_
  case eventAdded =>
    refine yields_bind _ _ _ _ (yields_any _) fun sub _ => ?_
    refine yields_bind _ _ _ _ yields_bytes fun payload hpayload => ?_
    exact yields_bind _ _ _ _ yields_i64 fun t ht =>
      yields_some _ _ ⟨rfl, rfl, hpayload, noneIfZero_fits t ht⟩
  refine yields_ite _ _ _ _ (fun _ => ?command) fun _ => ?_
  case command =>
    refine yields_bind _ _ _ _ huuid fun commandId hcommand => ?_
    refine yields_bind _ _ _ _ yields_bytes fun payload hpayload => ?_
    exact yields_bind _ _ _ _ yields_i64 fun t ht =>
      yields_some _ _ ⟨hcommand, hpayload, noneIfZero_fits t ht⟩
  refine yields_ite _ _ _ _ (fun _ => ?presence) fun _ => ?_
  case presence =>
    refine yields_bind _ _ _ _ (yields_any _) fun sub _ => ?_
    refine yields_bind _ _ _ _ (yields_any _) fun online _ => ?_
    exact yields_bind _ _ _ _ yields_i64 fun t ht => yields_some _ _ ⟨rfl, noneIfZero_fits t ht⟩
  -- Other types are refused or skipped.
  refine yields_ite _ _ _ _ (fun _ => yields_fail _ _) fun _ => ?_
  refine yields_ite _ _ _ _ (fun _ => yields_pure _ _ ?_) fun _ => yields_fail _ _
  exact fun e he => absurd he (Option.not_mem_none e)

/-- Every event that is decoded is in the domain of the wire, and is decoded again
    from what the encoder makes of it. -/
theorem decodeServerEvt_image (hlib : lib.Documented) (b : Bytes) (e : ServerEvt)
    (h : decodeServerEvt lib b = .ok (some e)) :
    e.OnWire ∧ ∃ w, encodeServerEvt lib e = .ok w ∧ decodeServerEvt lib w = .ok (some e) := by
  rw [decodeServerEvt_eq] at h
  have honwire : e.OnWire :=
    yields_run _ _ (yields_bind _ _ _ _ (yields_any _) fun typ _ => yields_serverBody lib hlib typ)
      b (some e) h e rfl
  rcases consumes_evtOnWire lib hlib e honwire with ⟨w, hw, hdecodes⟩
  exact ⟨honwire, w, hw, decodeServerEvt_frame lib w (some e) hdecodes⟩

/-! ### Commands -/

/-- What the decoder makes of a Loc frame. -/
theorem yields_loc : Yields decodeLoc fun d => ∀ c, d = .cmd c → c.WellFormed := by
  refine yields_bind _ _ _ _ yields_u32 fun seq hseq => ?_
  refine yields_bind _ _ _ _ (yields_any _) fun count _ => ?_
  refine yields_ite _ _ _ _ (fun _ => yields_fail _ _) fun hcount => ?_
  refine yields_bind _ _ _ _ (yields_points count.toNat) fun ps hps => yields_pure _ _ ?_
  rintro c ⟨⟩
  rcases hps with ⟨hlen, hgrid, hchain⟩
  rw [not_or, Nat.not_lt] at hcount
  rcases hcount with ⟨hzero, hroom⟩
  -- A count of one is a `LocationAdd`, and more are a batch.
  rcases ps with _ | ⟨p, _ | ⟨q, ps⟩⟩
  · exact absurd (UInt8.toNat_inj.mp hlen.symm) hzero
  · exact ⟨rfl, hseq, hgrid p List.mem_cons_self⟩
  · refine ⟨rfl, hseq, ?_, ?_, hgrid, hchain⟩
    · rw [List.length_cons, List.length_cons]
      omega
    · rw [hlen]
      exact hroom

/-- A command that is read is well formed, and has numbers for its points unless it
    comes from a Loc frame. -/
theorem yields_clientBody (hlib : lib.Documented) (typ : UInt8) :
    Yields (decodeClientBody lib typ) fun d =>
      ∀ c, d = .cmd c → c.WellFormed ∧ (typ ≠ cLoc → c.Numbered) := by
  have huuid := yields_uuid lib hlib
  have hcmd : ∀ c : ClientCmd, c.WellFormed → c.Numbered →
      Yields (pure (.cmd c) : R ClientDecode) fun d =>
        ∀ c, d = .cmd c → c.WellFormed ∧ (typ ≠ cLoc → c.Numbered) := by
    intro c hc hnum
    refine yields_pure _ _ ?_
    rintro c' ⟨⟩
    exact ⟨hc, fun _ => hnum⟩
  unfold decodeClientBody
  refine yields_ite _ _ _ _ (fun _ => ?resume) fun _ => ?_
  case resume =>
    refine yields_bind _ _ _ _ huuid fun trackUid htrack => ?_
    exact yields_bind _ _ _ _ yields_u32 fun seq hseq => hcmd _ ⟨htrack, hseq⟩ trivial
  refine yields_ite _ _ _ _ (fun _ => ?trackStart) fun _ => ?_
  case trackStart =>
    refine yields_bind _ _ _ _ (yields_any _) fun flags _ => ?_
    refine yields_bind _ _ _ _ (yields_optAbs flags) fun location hloc => ?_
    refine yields_bind _ _ _ _ yields_route fun route hroute => ?_
    exact yields_bind _ _ _ _ yields_bytes fun metadata hmeta =>
      hcmd _ ⟨hloc, hroute.1, hroute.2, hmeta⟩ trivial
  refine yields_ite _ _ _ _ (fun _ => hcmd (.trackStop "") rfl trivial) fun _ => ?_
  refine yields_ite _ _ _ _ (fun hloc => ?loc) fun _ => ?_
  case loc =>
    exact yields_mono _ _ _ yields_loc fun d hd c hc => ⟨hd c hc, fun hne => absurd hloc hne⟩
  refine yields_ite _ _ _ _ (fun _ => ?subscribe) fun _ => ?_
  case subscribe =>
    refine yields_bind _ _ _ _ huuid fun deviceUid hdevice => ?_
    refine yields_bind _ _ _ _ (yields_any _) fun flags _ => ?_
    exact yields_bind _ _ _ _ yields_u16 fun interval hinterval =>
      hcmd _ ⟨hdevice, Nat.le_of_lt_succ hinterval⟩ trivial
  refine yields_ite _ _ _ _ (fun _ => ?unsubscribe) fun _ => ?_
  case unsubscribe =>
    exact yields_bind _ _ _ _ (yields_any _) fun sub _ => hcmd (.unsubscribe sub) trivial trivial
  refine yields_ite _ _ _ _ (fun _ => ?event) fun _ => ?_
  case event =>
    refine yields_bind _ _ _ _ yields_bytes fun payload hpayload => ?_
    exact yields_bind _ _ _ _ yields_i64 fun t ht =>
      hcmd _ ⟨rfl, hpayload, noneIfZero_fits t ht⟩ trivial
  refine yields_ite _ _ _ _ (fun _ => ?commandAck) fun _ => ?_
  case commandAck =>
    refine yields_bind _ _ _ _ huuid fun commandId hcommand => ?_
    refine yields_bind _ _ _ _ (yields_any _) fun status _ => ?_
    refine yields_bind _ _ _ _ yields_str fun message hmessage =>
      hcmd _ ⟨hcommand, ?_⟩ trivial
    by_cases hempty : message = ""
    · rw [if_pos hempty]
      exact ⟨by decide, fun m hm => absurd hm (Option.not_mem_none m)⟩
    · rw [if_neg hempty]
      refine ⟨fun hsome => hempty (Option.some.inj hsome), ?_⟩
      rintro m ⟨⟩
      exact hmessage
  -- Other types are refused or no commands.
  refine yields_ite _ _ _ _ (fun _ => yields_fail _ _) fun _ => ?_
  refine yields_ite _ _ _ _ (fun _ => yields_pure _ _ ?_) fun _ => yields_fail _ _
  rintro c ⟨⟩

/-! ## Numbers -/

/-- The points of a Loc frame are those that its fifth byte counts, and the last one's
    number is in the four bytes before. -/
theorem decodeLoc_numbered (body : Bytes) (c : ClientCmd) (rest : Bytes)
    (h : decodeLoc body = .ok (.cmd c, rest)) :
    c.Numbered ↔ ∀ count ∈ body[4]?, count.toNat ≤ ofUintBytes (body.take 4) + 1 := by
  rcases bind_ok _ _ _ _ h with ⟨seq, mid, hseq, h⟩
  have hlt : seq < 2 ^ 32 := yields_u32 body seq mid hseq
  rcases uint_ok _ _ _ _ _ hseq with ⟨rfl, rfl⟩
  rcases bind_ok _ _ _ _ h with ⟨count, mid, hcount, h⟩
  have hbyte : body[4]? = some count := by
    rw [← List.head?_drop, byte_ok _ _ _ _ hcount]
    rfl
  split at h
  · cases h
  rcases bind_ok _ _ _ _ h with ⟨ps, mid', hps, hpure⟩
  cases hpure
  rw [locCmd_numbered _ ps hlt, (yields_points count.toNat _ ps _ hps).1, hbyte]
  simp only [Option.mem_some_iff, forall_eq']

/-- A command that is decoded has its type byte and the rest of it in front. -/
theorem decodeClientCmd_ok (b : Bytes) (c : ClientCmd) (h : decodeClientCmd lib b = .ok c) :
    ∃ typ body rest, b = typ :: body ∧ decodeClientBody lib typ body = .ok (.cmd c, rest) := by
  rw [decodeClientCmd, decodeClient_eq, Reader.run] at h
  rcases hread : clientFrame lib b with _ | ⟨d, rest⟩
  · rw [hread] at h
    cases h
  · rw [hread] at h
    rcases bind_ok _ _ _ _ hread with ⟨typ, body, htyp, hbody⟩
    cases d with
    | cmd c' =>
        cases h
        exact ⟨typ, body, rest, byte_ok _ _ _ _ htyp, hbody⟩
    | unknown t => cases h

/-- Every command that is decoded is well formed, and is decoded again from what the
    encoder makes of it when its points have numbers. -/
theorem decodeClientCmd_image (hlib : lib.Documented) (b : Bytes) (c : ClientCmd)
    (h : decodeClientCmd lib b = .ok c) :
    c.WellFormed ∧
      ((∃ w, encodeClientCmd lib c = .ok w ∧ decodeClientCmd lib w = .ok c) ↔
        LocNumbered b) := by
  rcases decodeClientCmd_ok lib b c h with ⟨typ, body, rest, rfl, hbody⟩
  rcases yields_clientBody lib hlib typ body _ rest hbody c rfl with ⟨hwell, hother⟩
  -- Only a Loc frame can lack numbers.
  have hiff : c.Numbered ↔ LocNumbered (typ :: body) := by
    by_cases hloc : typ = cLoc
    · rw [hloc] at hbody ⊢
      have hread : decodeLoc body = .ok (.cmd c, rest) := hbody
      exact (decodeLoc_numbered body c rest hread).trans
        ⟨fun hle _ => hle, fun hle => hle rfl⟩
    · exact iff_of_true (hother hloc) fun hhead => absurd (Option.some.inj hhead) hloc
  refine ⟨hwell, ?_⟩
  rw [← hiff]
  rcases wellFormed_writable c hwell with ⟨hwritable, honwire⟩
  constructor
  -- Without them the encoder underflows.
  · rintro ⟨w, hw, _⟩
    by_contra hlack
    cases hw.symm.trans (encode_unnumbered lib c hwritable hlack)
  -- With them the command is in the domain of the wire.
  · intro hnum
    rcases consumes_onWire lib hlib c (honwire hnum) with ⟨w, hw, hdecodes⟩
    exact ⟨w, hw, decodeClientCmd_frame lib w c hdecodes⟩

end Lib

/-- A device that is online, said with another byte than the encoder's, and a byte
    after the end. -/
theorem decodeServerEvt_image_presence :
    (ServerEvt.devicePresence "" true none 7).OnWire ∧
      ∃ w, encodeServerEvt canonicalLib (.devicePresence "" true none 7) = .ok w ∧
        decodeServerEvt canonicalLib w = .ok (some (.devicePresence "" true none 7)) :=
  decodeServerEvt_image canonicalLib canonicalLib_documented
    [0x8B, 7, 5, 0, 0, 0, 0, 0, 0, 0, 0, 9] _ (by decide +kernel)

/-- Two points with the numbers one and two; the flags of the second one have bits
    that mean nothing. -/
theorem decodeClientCmd_image_batch :
    (ClientCmd.locationBatch "" 2 [{ latitude := 0, longitude := 0 },
        { latitude := 1 / 1000000, longitude := 0 }]).WellFormed ∧
      ∃ w, encodeClientCmd canonicalLib (.locationBatch "" 2 [{ latitude := 0, longitude := 0 },
          { latitude := 1 / 1000000, longitude := 0 }]) = .ok w ∧
        decodeClientCmd canonicalLib w =
          .ok (.locationBatch "" 2 [{ latitude := 0, longitude := 0 },
            { latitude := 1 / 1000000, longitude := 0 }]) := by
  have hdecode : decodeClientCmd canonicalLib
      [4, 2, 0, 0, 0, 2, 0, 0, 0, 0, 0, 0, 0, 0, 0, 0xE0, 1, 0, 0, 0] =
      .ok (.locationBatch "" 2 [{ latitude := 0, longitude := 0 },
        { latitude := 1 / 1000000, longitude := 0 }]) := by
    decide +kernel
  rcases decodeClientCmd_image canonicalLib canonicalLib_documented _ _ hdecode with
    ⟨hwell, hiff⟩
  refine ⟨hwell, hiff.mpr fun _ => ?_⟩
  rintro count ⟨⟩
  decide

/-- Not every command can be written back: here the last of two points has the number
    zero. -/
theorem unnumbered_stops :
    ¬ ∀ (b : Bytes) (c : ClientCmd), decodeClientCmd canonicalLib b = .ok c →
      ∃ w, encodeClientCmd canonicalLib c = .ok w ∧ decodeClientCmd canonicalLib w = .ok c := by
  intro h
  have hdecode : decodeClientCmd canonicalLib
      [4, 0, 0, 0, 0, 2, 0, 0, 0, 0, 0, 0, 0, 0, 0, 0, 0, 0, 0, 0] =
      .ok (.locationBatch "" 0 [{ latitude := 0, longitude := 0 },
        { latitude := 0, longitude := 0 }]) := by
    decide +kernel
  rcases h _ _ hdecode with ⟨w, hw, _⟩
  cases hw

end Tracking

end Pickpoint
