import Pickpoint.Theory.Points
import Pickpoint.Theory.Frames
import Mathlib.Data.List.Chain

/-!
# The Batch Splitter

`encode_loc_frames` finds the chunks with a running position of its own, and
`write_point` computes the differences again when it writes them. Both look at
neighbouring points only, so a chunk is a sequence of at most a hundred points
each of which fits after the one before (`Chunk`), and the writer does not fail
on it.

The frames are those of `splitLocFrames`, which the session model sends, in
bytes (`encodeLocFrames_eq`): the checked arithmetic of the encoder does not
stop the program when the last number has room for all the points before it.
Every frame decodes to its points, and the points of all the frames carry the
numbers of the whole (`splitLocFrames_numbered`).

## Main definitions

* `Chunk`: What one frame can carry.
* `LocFrame.bytes`: A frame on the wire.
* `ClientCmd.loc`: The points of a location command and the last one's number.
* `numberPoints`: Points with the numbers up to the last.

## Theorems

* `locChunks_chunk`, `splitLocFrames_one`: The cut.
* `encodeChunks_cons`, `encodeLocFrames_ok`: Where the frames of the encoder come from.
* `encodeLocFrames_eq`: The frames of the splitter in bytes.
* `encodeLocFrames_chunk`: Points that fit in one frame.
* `consumes_locFrame`, `decode_locFrame`: What a frame decodes to.
* `encodeLocFrames_exact`: The splitter is exact.
-/

namespace Pickpoint

namespace Tracking

open ByteCodec

/-! ## Chunks -/

/-- At most a hundred points, each of which fits after the one before: its
    differences in position and in time are in range of their fields. -/
structure Chunk (ps : List LatLng) : Prop where
  room : ps.length ≤ maxLocPoints
  fits : ps.IsChain fun p q => deltaFits p q = true

theorem chunk_singleton (p : LatLng) : Chunk [p] :=
  ⟨Nat.le_of_ble_eq_true rfl, List.IsChain.singleton p⟩

/-- A chunk with room takes a point that fits after its last. -/
theorem chunk_concat (chunk : List LatLng) (prev p : LatLng) (h : Chunk chunk)
    (hlast : chunk.getLast? = some prev) (hroom : chunk.length < maxLocPoints)
    (hfits : deltaFits prev p = true) : Chunk (chunk ++ [p]) := by
  constructor
  · rw [List.length_append, List.length_singleton]
    omega
  · refine List.IsChain.append h.fits (List.IsChain.singleton p) ?_
    rintro x hx y ⟨⟩
    rw [hlast] at hx
    cases hx
    exact hfits

theorem locChunks_chunk (ps : List LatLng) : ∀ c ∈ locChunks ps, Chunk c :=
  locChunks_rule Chunk chunk_singleton chunk_concat ps

/-- Points that fit in the open chunk stay in it. -/
theorem locChunksFrom_one (chunk : List LatLng) (prev : LatLng) (ps : List LatLng)
    (hroom : chunk.length + ps.length ≤ maxLocPoints)
    (hfits : (prev :: ps).IsChain fun p q => deltaFits p q = true) :
    locChunksFrom chunk prev ps = [chunk ++ ps] := by
  induction ps generalizing chunk prev with
  | nil => rw [locChunksFrom, List.append_nil]
  | cons p ps ih =>
      rw [List.length_cons] at hroom
      rcases List.isChain_cons_cons.mp hfits with ⟨hp, hps⟩
      have hnext : (chunk.length < maxLocPoints && deltaFits prev p) = true := by
        rw [hp, Bool.and_true, decide_eq_true_eq]
        omega
      rw [locChunksFrom, if_pos hnext, ih (chunk ++ [p]) p ?_ hps, List.append_assoc,
        List.singleton_append]
      rw [List.length_append, List.length_singleton]
      omega

/-- A chunk is not cut. -/
theorem locChunks_one (ps : List LatLng) (hne : ps ≠ []) (h : Chunk ps) : locChunks ps = [ps] := by
  cases ps with
  | nil => exact absurd rfl hne
  | cons p ps =>
      have hroom := h.room
      rw [List.length_cons] at hroom
      rw [locChunks, locChunksFrom_one [p] p ps ?_ h.fits, List.singleton_append]
      rw [List.length_singleton]
      omega

/-- The writer finds every difference of a chunk to fit. -/
theorem eachOk_chain (P : LatLng → Prop) (prev : LatLng) (ps : List LatLng) (h : ∀ p ∈ ps, P p)
    (hfits : (prev :: ps).IsChain fun p q => deltaFits p q = true) :
    EachOk (fun s p => P p ∧ Follows s p) (fun p => some (position p)) (some (position prev))
      ps := by
  induction ps generalizing prev with
  | nil => trivial
  | cons p ps ih =>
      rcases List.isChain_cons_cons.mp hfits with ⟨hp, hps⟩
      refine ⟨⟨h p List.mem_cons_self, ?_⟩,
        ih p (fun q hq => h q (List.mem_cons_of_mem p hq)) hps⟩
      rintro q ⟨⟩
      exact hp

theorem eachOk_chunk (P : LatLng → Prop) (ps : List LatLng) (h : ∀ p ∈ ps, P p)
    (hchunk : Chunk ps) :
    EachOk (fun s p => P p ∧ Follows s p) (fun p => some (position p)) none ps := by
  cases ps with
  | nil => trivial
  | cons p ps =>
      refine ⟨⟨h p List.mem_cons_self, ?_⟩,
        eachOk_chain P p ps (fun q hq => h q (List.mem_cons_of_mem p hq)) hchunk.fits⟩
      rintro q ⟨⟩

theorem followEach_chunk (ps : List LatLng) (hrange : ∀ p ∈ ps, p.InRange) (h : Chunk ps) :
    FollowEach none ps :=
  eachOk_chunk LatLng.InRange ps hrange h

theorem strung_chunk (ps : List LatLng) (hearth : ∀ p ∈ ps, p.OnEarth) (h : Chunk ps) :
    Strung none ps :=
  eachOk_chunk LatLng.OnEarth ps hearth h

/-- The chunks of a list are strung. -/
theorem strung_locChunks (ps c : List LatLng) (hearth : ∀ p ∈ ps, p.OnEarth)
    (hc : c ∈ locChunks ps) : Strung none c :=
  strung_chunk c (fun p hp => hearth p (locChunks_mem ps c hc p hp)) (locChunks_chunk ps c hc)

/-! ## Frames in bytes -/

theorem ok_bind {α β : Type} (a : α) (f : α → Except Fault β) : (Except.ok a >>= f) = f a := rfl

theorem bind_eq_ok {α β : Type} (x : Except Fault α) (f : α → Except Fault β) (b : β)
    (h : x >>= f = .ok b) : ∃ a, x = .ok a ∧ f a = .ok b := by
  cases x with
  | error e => cases h
  | ok a => exact ⟨a, rfl, h⟩

/-- A frame on the wire. -/
def LocFrame.bytes (f : LocFrame) : Bytes :=
  putU8 cLoc ++ (putU32 (truncU32 f.seq) ++
    (putU8 (UInt8.ofNat f.points.length) ++ pointsBytes none f.points))

theorem encodeLocFrame_eq {P : LatLng → Prop} (seq : Nat) (ps : List LatLng)
    (h : EachOk (fun s p => P p ∧ Follows s p) (fun p => some (position p)) none ps) :
    encodeLocFrame seq ps = .ok (LocFrame.bytes ⟨seq, ps⟩) := by
  rw [encodeLocFrame, writePoints_eq none ps h]
  rfl

/-- What the encoder of the chunks returns begins with the frame of the first. -/
theorem encodeChunks_cons (first i : Nat) (chunk : List LatLng) (chunks : List (List LatLng))
    (frames : List Bytes) (h : encodeChunks first i (chunk :: chunks) = .ok frames) :
    ∃ seq frame rest, encodeLocFrame seq chunk = .ok frame ∧
      encodeChunks first (i + chunk.length) chunks = .ok rest ∧ frames = frame :: rest := by
  rw [encodeChunks] at h
  rcases bind_eq_ok _ _ _ h with ⟨next, _, h⟩
  rcases bind_eq_ok _ _ _ h with ⟨seq, _, h⟩
  rcases bind_eq_ok _ _ _ h with ⟨frame, hframe, h⟩
  rcases bind_eq_ok _ _ _ h with ⟨rest, hrest, h⟩
  cases h
  exact ⟨seq, frame, rest, hframe, hrest, rfl⟩

/-- What the encoder returns it has encoded chunk by chunk, and its sums were in range. -/
theorem encodeLocFrames_ok (lastSeq : Nat) (points : List LatLng) (frames : List Bytes)
    (hne : points ≠ []) (h : encodeLocFrames lastSeq points = .ok frames) :
    lastSeq + 1 < 2 ^ 64 ∧ points.length ≤ lastSeq + 1 ∧
      encodeChunks (lastSeq + 1 - points.length) 0 (locChunks points) = .ok frames := by
  rw [encodeLocFrames, if_neg hne] at h
  rcases bind_eq_ok _ _ _ h with ⟨next, hnext, h⟩
  rcases bind_eq_ok _ _ _ h with ⟨first, hfirst, h⟩
  -- Both sums were in range.
  rw [addU64] at hnext
  split at hnext
  · next hlt =>
    cases hnext
    rw [subU64] at hfirst
    split at hfirst
    · next hle =>
      cases hfirst
      exact ⟨hlt, hle, h⟩
    · cases hfirst
  · cases hnext

/-- The encoder numbers its chunks as the splitter does, and does not stop. -/
theorem encodeChunks_eq (first i : Nat) (chunks : List (List LatLng))
    (hchunks : ∀ c ∈ chunks, c ≠ [] ∧ Strung none c)
    (hroom : first + i + chunks.flatten.length ≤ 2 ^ 32) :
    encodeChunks first i chunks = .ok ((frameChunks first i chunks).map LocFrame.bytes) := by
  induction chunks generalizing i with
  | nil => rfl
  | cons chunk chunks ih =>
      rw [List.flatten_cons, List.length_append] at hroom
      rcases hchunks chunk List.mem_cons_self with ⟨hne, hfollow⟩
      have hpos : 0 < chunk.length := List.length_pos_iff.mpr hne
      have hadd : addU64 first (i + chunk.length) = .ok (first + (i + chunk.length)) :=
        if_pos (by omega)
      have hsub : subU64 (first + (i + chunk.length)) 1 = .ok (first + (i + chunk.length) - 1) :=
        if_pos (by omega)
      -- The wrapping arithmetic of the splitter does not wrap here.
      have hseq : truncU32 (wrapU64 ((first : Int) + ((i + chunk.length : Nat) : Int) - 1)) =
          truncU32 (first + (i + chunk.length) - 1) := by
        unfold truncU32 wrapU64
        omega
      have hframe : LocFrame.bytes ⟨first + (i + chunk.length) - 1, chunk⟩ =
          LocFrame.bytes ⟨truncU32 (first + (i + chunk.length) - 1), chunk⟩ := by
        simp only [LocFrame.bytes, truncU32, Nat.mod_mod]
      have htail := ih (i + chunk.length) (fun c hc => hchunks c (List.mem_cons_of_mem _ hc))
        (by omega)
      -- The checked sums succeed, then the frame, then the chunks after it.
      rw [encodeChunks, hadd, ok_bind, hsub, ok_bind, encodeLocFrame_eq _ chunk hfollow, ok_bind,
        htail, frameChunks, List.map_cons, hseq, hframe]
      rfl

/-- The encoder writes the frames of the splitter. -/
theorem encodeLocFrames_eq (lastSeq : Nat) (points : List LatLng) (hne : points ≠ [])
    (hearth : ∀ p ∈ points, p.OnEarth) (hcount : points.length ≤ lastSeq + 1)
    (hseq : lastSeq < 2 ^ 32) :
    encodeLocFrames lastSeq points =
      .ok ((splitLocFrames lastSeq points).map LocFrame.bytes) := by
  have hadd : addU64 lastSeq 1 = .ok (lastSeq + 1) := if_pos (by omega)
  have hsub : subU64 (lastSeq + 1) points.length = .ok (lastSeq + 1 - points.length) :=
    if_pos hcount
  -- There are numbers enough for the points, so nothing underflows.
  have hwrap : wrapU64 ((lastSeq : Int) + 1 - (points.length : Int)) =
      lastSeq + 1 - points.length := by
    unfold wrapU64
    omega
  have hchunks : ∀ c ∈ locChunks points, c ≠ [] ∧ Strung none c := by
    intro c hc
    exact ⟨locChunks_ne_nil points c hc, strung_locChunks points c hearth hc⟩
  have hroom : lastSeq + 1 - points.length + 0 + (locChunks points).flatten.length ≤ 2 ^ 32 := by
    rw [locChunks_flatten]
    omega
  rw [encodeLocFrames, if_neg hne, hadd, ok_bind, hsub, ok_bind, splitLocFrames, hwrap]
  exact encodeChunks_eq _ 0 _ hchunks hroom

/-- Points that fit in one frame go into one, unless the sums of the encoder stop it:
    there is a number after the last, and one for each point. -/
theorem encodeLocFrames_chunk (lastSeq : Nat) (points : List LatLng) (hne : points ≠ [])
    (hearth : ∀ p ∈ points, p.OnEarth) (hchunk : Chunk points) :
    encodeLocFrames lastSeq points =
      if lastSeq + 1 < 2 ^ 64 ∧ points.length ≤ lastSeq + 1 then
        .ok [LocFrame.bytes ⟨lastSeq, points⟩]
      else .error .overflow := by
  have hpos : 0 < points.length := List.length_pos_iff.mpr hne
  rw [encodeLocFrames, if_neg hne]
  -- First `last_seq + 1`, then the number of the first point.
  by_cases hnext : lastSeq + 1 < 2 ^ 64
  · have hadd : addU64 lastSeq 1 = .ok (lastSeq + 1) := if_pos hnext
    rw [hadd, ok_bind]
    by_cases hcount : points.length ≤ lastSeq + 1
    · have hsub : subU64 (lastSeq + 1) points.length = .ok (lastSeq + 1 - points.length) :=
        if_pos hcount
      -- The chunk ends at the last number again.
      have hend : addU64 (lastSeq + 1 - points.length) (0 + points.length) = .ok (lastSeq + 1) := by
        have hsum : lastSeq + 1 - points.length + (0 + points.length) = lastSeq + 1 := by omega
        rw [addU64, hsum, if_pos hnext]
      have hlast : subU64 (lastSeq + 1) 1 = .ok lastSeq := if_pos (by omega)
      rw [hsub, ok_bind, if_pos ⟨hnext, hcount⟩, locChunks_one points hne hchunk, encodeChunks,
        hend, ok_bind, hlast, ok_bind,
        encodeLocFrame_eq lastSeq points (strung_chunk points hearth hchunk)]
      rfl
    · have hsub : subU64 (lastSeq + 1) points.length = .error .overflow := if_neg hcount
      rw [hsub, if_neg fun h => hcount h.2]
      rfl
  · have hadd : addU64 lastSeq 1 = .error .overflow := if_neg hnext
    rw [hadd, if_neg fun h => hnext h.1]
    rfl

/-! ## Decoding a frame -/

/-- What `decode_client` reads. -/
def clientFrame (lib : UuidLib) : R ClientDecode := do
  let typ ← R.u8
  decodeClientBody lib typ

theorem decodeClient_eq (lib : UuidLib) (bytes : Bytes) :
    decodeClient lib bytes = (clientFrame lib).run bytes := by
  cases bytes with
  | nil => rfl
  | cons b bytes => rfl

/-- A type byte and its body. -/
theorem consumes_clientFrame (lib : UuidLib) (typ : UInt8) (body : Bytes) (c : ClientDecode)
    (h : Decodes (decodeClientBody lib typ) body c) :
    Decodes (clientFrame lib) (putU8 typ ++ body) c :=
  consumes_bind _ _ _ _ _ _ (consumes_u8 typ) h

theorem decodeClientCmd_frame (lib : UuidLib) (w : Bytes) (c : ClientCmd)
    (h : Decodes (clientFrame lib) w (.cmd c)) : decodeClientCmd lib w = .ok c := by
  rw [decodeClientCmd, decodeClient_eq, consumes_run _ _ _ h]

/-- The points of a location command and the last one's number. -/
def ClientCmd.loc : ClientCmd → Option (Nat × List LatLng)
  | .locationAdd _ seq point => some (seq, [point])
  | .locationBatch _ seq points => some (seq, points)
  | _ => none

theorem loc_locCmd (seq : Nat) (ps : List LatLng) : (locCmd seq ps).loc = some (seq, ps) := by
  rcases ps with _ | ⟨p, _ | ⟨q, ps⟩⟩ <;> rfl

/-- A frame decodes to its points as written. -/
theorem consumes_locFrame (lib : UuidLib) (f : LocFrame) (hne : f.points ≠ [])
    (hroom : f.points.length ≤ maxLocPoints) (h : Strung none f.points) :
    Decodes (clientFrame lib) f.bytes
      (.cmd (locCmd (truncU32 f.seq) (f.points.map written))) := by
  have hpos : 0 < f.points.length := List.length_pos_iff.mpr hne
  have hmax : maxLocPoints = 100 := rfl
  -- The count fits its byte, and is neither zero nor too large.
  have hcount : (UInt8.ofNat f.points.length).toNat = f.points.length := by
    rw [UInt8.toNat_ofNat']
    omega
  have hzero : UInt8.ofNat f.points.length ≠ 0 := by
    intro h
    rw [h] at hcount
    exact absurd hcount (Nat.ne_of_lt hpos)
  refine consumes_clientFrame lib cLoc _ _ ?_
  -- The number, the count, and as many points.
  refine consumes_bind _ _ _ _ _ _ (consumes_seq f.seq) ?_
  refine consumes_bind _ _ _ _ _ _ (consumes_u8 (UInt8.ofNat f.points.length)) ?_
  rw [if_neg (by rw [hcount]; exact not_or_intro hzero (Nat.not_lt.mpr hroom)), hcount]
  refine consumes_last _ _ _ _ _ (consumes_points none f.points h) ?_
  exact consumes_pure _

/-- In range, that is quantised. -/
theorem decode_locFrame (lib : UuidLib) (f : LocFrame) (hseq : f.seq < 2 ^ 32)
    (hne : f.points ≠ []) (hroom : f.points.length ≤ maxLocPoints)
    (hfollow : FollowEach none f.points) :
    decodeClientCmd lib f.bytes = .ok (locCmd f.seq (f.points.map quantise)) := by
  rcases followEach_strung none f.points hfollow with ⟨hstrung, hmap⟩
  rw [decodeClientCmd_frame lib f.bytes _ (consumes_locFrame lib f hne hroom hstrung), hmap,
    truncU32_eq f.seq hseq]

/-! ## Numbers -/

/-- Points with the numbers up to the last. -/
def numberPoints (last : Int) (ps : List LatLng) : List (Int × LatLng) :=
  ps.mapIdx fun j p => (last - ps.length + 1 + j, p)

theorem numberPoints_append (last : Int) (ps qs : List LatLng) :
    numberPoints last (ps ++ qs) = numberPoints (last - qs.length) ps ++ numberPoints last qs := by
  -- Numbers are counted from the end, so the first part ends before the second.
  have hps : (fun (j : Nat) (p : LatLng) => (last - ((ps ++ qs).length : Int) + 1 + j, p)) =
      fun (j : Nat) (p : LatLng) => (last - (qs.length : Int) - ps.length + 1 + j, p) := by
    funext j p
    rw [List.length_append]
    congr 1
    omega
  have hqs : (fun (j : Nat) (p : LatLng) =>
      (last - ((ps ++ qs).length : Int) + 1 + ((j + ps.length : Nat) : Int), p)) =
      fun (j : Nat) (p : LatLng) => (last - (qs.length : Int) + 1 + j, p) := by
    funext j p
    rw [List.length_append]
    congr 1
    omega
  rw [numberPoints, List.mapIdx_append, hps, hqs]
  rfl

theorem numberPoints_snd (last : Int) (ps : List LatLng) :
    (numberPoints last ps).map Prod.snd = ps := by
  refine List.ext_getElem? fun i => ?_
  rw [numberPoints, List.getElem?_map, List.getElem?_mapIdx, Option.map_map]
  exact Option.map_id'

theorem frameChunks_mem (first i : Nat) (chunks : List (List LatLng)) :
    ∀ f ∈ frameChunks first i chunks, f.points ∈ chunks ∧ f.seq < 2 ^ 32 := by
  induction chunks generalizing i with
  | nil => exact fun f hf => absurd hf List.not_mem_nil
  | cons chunk chunks ih =>
      intro f hf
      rcases List.mem_cons.mp hf with rfl | hf
      · exact ⟨List.mem_cons_self, Nat.mod_lt _ (by decide)⟩
      · rcases ih _ f hf with ⟨hmem, hseq⟩
        exact ⟨List.mem_cons_of_mem chunk hmem, hseq⟩

/-- The points of numbered chunks carry the numbers of the whole, whatever they
    are read back as. -/
theorem frameChunks_numbered (read : LatLng → LatLng) (first i : Nat)
    (chunks : List (List LatLng)) (hne : ∀ c ∈ chunks, c ≠ [])
    (hroom : first + i + chunks.flatten.length ≤ 2 ^ 32) :
    ((frameChunks first i chunks).flatMap fun f => numberPoints f.seq (f.points.map read)) =
      numberPoints ((first : Int) + i + chunks.flatten.length - 1)
        (chunks.flatten.map read) := by
  induction chunks generalizing i with
  | nil => rfl
  | cons chunk chunks ih =>
      rw [List.flatten_cons, List.length_append] at hroom
      have hpos : 0 < chunk.length := List.length_pos_iff.mpr (hne chunk List.mem_cons_self)
      have htail := ih (i + chunk.length) (fun c hc => hne c (List.mem_cons_of_mem _ hc)) (by omega)
      -- No sum wraps, since all numbers fit 32 bits.
      have hseq :
          (truncU32 (wrapU64 ((first : Int) + ((i + chunk.length : Nat) : Int) - 1)) : Int) =
          (first : Int) + ((i + chunk.length : Nat) : Int) + chunks.flatten.length - 1 -
            (chunks.flatten.map read).length := by
        rw [List.length_map]
        unfold truncU32 wrapU64
        omega
      have hlast : (first : Int) + ((i + chunk.length : Nat) : Int) + chunks.flatten.length - 1 =
          (first : Int) + i + (chunk ++ chunks.flatten).length - 1 := by
        rw [List.length_append]
        omega
      rw [frameChunks, List.flatMap_cons, htail, List.flatten_cons, List.map_append,
        numberPoints_append, ← hlast, ← hseq]

/-- The points of the frames carry the numbers up to the last. -/
theorem splitLocFrames_numbered (lastSeq : Nat) (points : List LatLng)
    (hcount : points.length ≤ lastSeq + 1) (hseq : lastSeq < 2 ^ 32) :
    ((splitLocFrames lastSeq points).flatMap fun f =>
        numberPoints f.seq (f.points.map quantise)) =
      numberPoints lastSeq (points.map quantise) := by
  have hwrap : wrapU64 ((lastSeq : Int) + 1 - (points.length : Int)) =
      lastSeq + 1 - points.length := by
    unfold wrapU64
    omega
  have hnumbered := frameChunks_numbered quantise (lastSeq + 1 - points.length) 0 (locChunks points)
    (locChunks_ne_nil points) (by rw [locChunks_flatten]; omega)
  rw [locChunks_flatten] at hnumbered
  have hlast : ((lastSeq + 1 - points.length : Nat) : Int) + ((0 : Nat) : Int) + points.length - 1 =
      lastSeq := by
    omega
  rw [splitLocFrames, hwrap, hnumbered, hlast]

/-- A chunk goes into a single frame, under its last number. -/
theorem splitLocFrames_one (lastSeq : Nat) (points : List LatLng) (hne : points ≠ [])
    (hchunk : Chunk points) (hseq : lastSeq < 2 ^ 32) :
    splitLocFrames lastSeq points = [⟨lastSeq, points⟩] := by
  have hlast : truncU32 (wrapU64 ((wrapU64 ((lastSeq : Int) + 1 - points.length) : Int) +
      ((0 + points.length : Nat) : Int) - 1)) = lastSeq := by
    unfold truncU32 wrapU64
    omega
  rw [splitLocFrames, locChunks_one points hne hchunk, frameChunks, hlast, frameChunks]

/-! ## The splitter -/

/-- A frame is accepted as a location command that carries up to a hundred
    points. -/
def AcceptedAs (lib : UuidLib) (frame : Bytes) (loc : Nat × List LatLng) : Prop :=
  ∃ c, decodeClientCmd lib frame = .ok c ∧ c.loc = some loc ∧
    1 ≤ loc.2.length ∧ loc.2.length ≤ 100

/-- The splitter does not stop the program. Its frames are accepted, and carry
    the points in order and quantised, each with its number. The frame of a
    single point is that of a `LocationAdd`. -/
theorem encodeLocFrames_exact (lib : UuidLib) (lastSeq : Nat) (points : List LatLng)
    (hne : points ≠ []) (hrange : ∀ p ∈ points, p.InRange)
    (hcount : points.length ≤ lastSeq + 1) (hseq : lastSeq < 2 ^ 32) :
    ∃ frames locs, encodeLocFrames lastSeq points = .ok frames ∧
      List.Forall₂ (AcceptedAs lib) frames locs ∧
      locs.flatMap Prod.snd = points.map quantise ∧
      (locs.flatMap fun loc => numberPoints loc.1 loc.2) =
        numberPoints lastSeq (points.map quantise) ∧
      ∀ uid p, points = [p] →
        ∃ w, frames = [w] ∧ encodeClientCmd lib (.locationAdd uid lastSeq p) = .ok w := by
  have hnumbered := splitLocFrames_numbered lastSeq points hcount hseq
  -- Each frame carries one chunk, and a chunk keeps to what a frame can hold.
  have hframes : ∀ f ∈ splitLocFrames lastSeq points,
      AcceptedAs lib f.bytes (f.seq, f.points.map quantise) := by
    intro f hf
    rcases frameChunks_mem _ 0 (locChunks points) f hf with ⟨hmem, hlt⟩
    have hchunk := locChunks_chunk points f.points hmem
    have hfne := locChunks_ne_nil points f.points hmem
    have hpoints := locChunks_mem points f.points hmem
    refine ⟨_, decode_locFrame lib f hlt hfne hchunk.room
      (followEach_chunk f.points (fun p hp => hrange p (hpoints p hp)) hchunk),
      loc_locCmd _ _, ?_, ?_⟩
    · rw [List.length_map]
      exact List.length_pos_iff.mpr hfne
    · rw [List.length_map]
      exact hchunk.room
  refine ⟨_, (splitLocFrames lastSeq points).map fun f => (f.seq, f.points.map quantise),
    encodeLocFrames_eq lastSeq points hne (fun p hp => inRange_onEarth p (hrange p hp)) hcount hseq,
    ?_, ?_, ?_, ?_⟩
  · rw [List.forall₂_map_left_iff, List.forall₂_map_right_iff]
    exact List.forall₂_same.mpr hframes
  · -- The points are those of the numbered ones.
    have hpoints := congrArg (List.map Prod.snd) hnumbered
    rw [numberPoints_snd, List.map_flatMap] at hpoints
    simp only [numberPoints_snd] at hpoints
    rw [List.flatMap_map]
    exact hpoints
  · rw [List.flatMap_map]
    exact hnumbered
  · -- A single point makes a single frame, as the client writes it.
    rintro uid p rfl
    have hsplit := splitLocFrames_one lastSeq [p] hne (chunk_singleton p) hseq
    refine ⟨_, congrArg (List.map LocFrame.bytes) hsplit, ?_⟩
    rw [encodeClientCmd, writeAbs_eq]
    show Except.ok _ = Except.ok _
    simp only [LocFrame.bytes, pointsBytes, writeEach, List.append_nil, List.length_singleton]
    rfl

/-- Two points too far apart for one frame. -/
theorem encodeLocFrames_exact_far : ∃ frames locs,
    encodeLocFrames 1 [{ latitude := 0, longitude := 0 }, { latitude := 1, longitude := 0 }] =
      .ok frames ∧
    List.Forall₂ (AcceptedAs canonicalLib) frames locs ∧
    (locs.flatMap fun loc => numberPoints loc.1 loc.2) =
      [(0, quantise { latitude := 0, longitude := 0 }),
        (1, quantise { latitude := 1, longitude := 0 })] := by
  have hrange : ∀ p ∈ ([{ latitude := 0, longitude := 0 },
      { latitude := 1, longitude := 0 }] : List LatLng), p.InRange := by
    intro p hp
    rcases List.mem_cons.mp hp with rfl | hp
    · exact ⟨by norm_num, by norm_num, by rintro a ⟨⟩, by rintro a ⟨⟩, by rintro t ⟨⟩⟩
    · rw [List.mem_singleton.mp hp]
      exact ⟨by norm_num, by norm_num, by rintro a ⟨⟩, by rintro a ⟨⟩, by rintro t ⟨⟩⟩
  rcases encodeLocFrames_exact canonicalLib 1 _ (List.cons_ne_nil _ _) hrange (by decide)
    (by decide) with ⟨frames, locs, hencode, haccepted, _, hnumbered, _⟩
  exact ⟨frames, locs, hencode, haccepted, hnumbered⟩

end Tracking

end Pickpoint
