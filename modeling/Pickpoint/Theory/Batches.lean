import Pickpoint.Theory.ClientCodec

/-!
# Whole Batches

A `LocationBatch` is one command, and its points may need several frames.
`encode_client_cmd` cuts them with `encode_loc_frames` and returns the first
frame only, so what decodes is the first chunk of the batch.

A batch therefore comes back whole exactly when there is one chunk, which is to
say that the batch is a `Chunk`, and its number fits the 32 bits of the frame.
The number decides nothing about the cut: with several chunks the first one is
shorter than the batch, whatever the encoder makes of the numbers.

## Main definitions

* `BatchKept`: What comes back is the whole batch under its number.

## Theorems

* `locChunks_single`: One chunk is the list itself.
* `encodeLocFrames_head`: The first frame carries the first chunk.
* `batch_kept_iff`: The batches that come back.
-/

namespace Pickpoint

namespace Tracking

open ByteCodec

/-- The bytes of a batch decode to all its points, quantised and in order, and
    to its number. -/
def BatchKept (lib : UuidLib) (trackUid : String) (clientSeq : Nat) (points : List LatLng) :
    Prop :=
  ∃ w c, encodeClientCmd lib (.locationBatch trackUid clientSeq points) = .ok w ∧
    decodeClientCmd lib w = .ok c ∧ c.loc = some (clientSeq, points.map quantise)

/-! ## The first chunk -/

/-- A list that is not cut is a chunk. -/
theorem locChunks_single (ps c : List LatLng) (h : locChunks ps = [c]) : c = ps ∧ Chunk ps := by
  have hflat := locChunks_flatten ps
  rw [h, List.flatten_singleton] at hflat
  have hchunk := locChunks_chunk ps c (by rw [h]; exact List.mem_singleton_self c)
  rw [hflat] at hchunk
  exact ⟨hflat, hchunk⟩

/-- The first of several chunks leaves points behind. -/
theorem locChunks_head_short (ps c d : List LatLng) (rest : List (List LatLng))
    (h : locChunks ps = c :: d :: rest) : c.length < ps.length := by
  have hflat := congrArg List.length (locChunks_flatten ps)
  have hd : 0 < d.length :=
    List.length_pos_iff.mpr (locChunks_ne_nil ps d (by rw [h]; simp))
  rw [h, List.flatten_cons, List.flatten_cons, List.length_append, List.length_append] at hflat
  omega

/-- What the encoder of the chunks writes begins with the first chunk. -/
theorem encodeChunks_head (first i : Nat) (chunk : List LatLng) (chunks : List (List LatLng))
    (frames : List Bytes) (hstrung : Strung none chunk)
    (h : encodeChunks first i (chunk :: chunks) = .ok frames) :
    ∃ seq rest, frames = LocFrame.bytes ⟨seq, chunk⟩ :: rest := by
  rcases encodeChunks_cons first i chunk chunks frames h with ⟨seq, frame, rest, hframe, _, rfl⟩
  rw [encodeLocFrame_eq seq chunk hstrung] at hframe
  cases hframe
  exact ⟨seq, rest, rfl⟩

theorem encodeLocFrames_head (lastSeq : Nat) (points chunk : List LatLng)
    (chunks : List (List LatLng)) (frames : List Bytes) (hne : points ≠ [])
    (hcut : locChunks points = chunk :: chunks) (hstrung : Strung none chunk)
    (h : encodeLocFrames lastSeq points = .ok frames) :
    ∃ seq rest, frames = LocFrame.bytes ⟨seq, chunk⟩ :: rest := by
  have hchunks := (encodeLocFrames_ok lastSeq points frames hne h).2.2
  rw [hcut] at hchunks
  exact encodeChunks_head _ 0 chunk chunks frames hstrung hchunks

/-- What a batch decodes to has the length of its first chunk. -/
theorem batch_decodes_head (lib : UuidLib) (trackUid : String) (clientSeq : Nat)
    (points chunk : List LatLng) (chunks : List (List LatLng)) (w : Bytes) (c : ClientCmd)
    (loc : Nat × List LatLng) (hne : points ≠ []) (hearth : ∀ p ∈ points, p.OnEarth)
    (hcut : locChunks points = chunk :: chunks)
    (hencode : encodeClientCmd lib (.locationBatch trackUid clientSeq points) = .ok w)
    (hdecode : decodeClientCmd lib w = .ok c) (hloc : c.loc = some loc) :
    loc.2.length = chunk.length := by
  have hmem : chunk ∈ locChunks points := by
    rw [hcut]
    exact List.mem_cons_self
  have hchunk := locChunks_chunk points chunk hmem
  have hstrung := strung_locChunks points chunk hearth hmem
  rw [encodeClientCmd] at hencode
  cases hframes : encodeLocFrames clientSeq points with
  | error e =>
      rw [hframes] at hencode
      cases hencode
  | ok frames =>
      rw [hframes] at hencode
      rcases encodeLocFrames_head clientSeq points chunk chunks frames hne hcut hstrung hframes with
        ⟨seq, rest, rfl⟩
      cases hencode
      -- The decoder reads the first frame, and nothing after it.
      have hread := decodeClientCmd_frame lib _ _
        (consumes_locFrame lib ⟨seq, chunk⟩ (locChunks_ne_nil points chunk hmem) hchunk.room
          hstrung)
      rw [List.head?_cons, Option.getD_some, hread] at hdecode
      cases hdecode
      rw [loc_locCmd] at hloc
      cases hloc
      exact List.length_map _

/-! ## The batches that come back -/

/-- A batch that goes into one frame comes back with its number cut to 32 bits. -/
theorem batch_one_frame (lib : UuidLib) (trackUid : String) (clientSeq : Nat)
    (points : List LatLng) (hne : points ≠ []) (hrange : ∀ p ∈ points, p.InRange)
    (hchunk : Chunk points) (hnum : clientSeq + 1 < 2 ^ 64 ∧ points.length ≤ clientSeq + 1) :
    ∃ w, encodeClientCmd lib (.locationBatch trackUid clientSeq points) = .ok w ∧
      decodeClientCmd lib w = .ok (locCmd (truncU32 clientSeq) (points.map quantise)) := by
  rcases followEach_strung none points (followEach_chunk points hrange hchunk) with
    ⟨hstrung, hmap⟩
  refine ⟨LocFrame.bytes ⟨clientSeq, points⟩, ?_, ?_⟩
  · rw [encodeClientCmd, encodeLocFrames_chunk clientSeq points hne
      (fun p hp => inRange_onEarth p (hrange p hp)) hchunk, if_pos hnum]
    rfl
  · rw [← hmap]
    exact decodeClientCmd_frame lib _ _
      (consumes_locFrame lib ⟨clientSeq, points⟩ hne hchunk.room hstrung)

/-- A batch comes back whole if and only if it goes into one frame and its number
    fits the field. A frame ends after a hundred points or before a step that is too
    long for a difference, and the encoder of a command keeps the first frame only. -/
theorem batch_kept_iff (lib : UuidLib) (trackUid : String) (clientSeq : Nat)
    (points : List LatLng) (hne : points ≠ []) (hrange : ∀ p ∈ points, p.InRange)
    (hcount : points.length ≤ clientSeq + 1) :
    BatchKept lib trackUid clientSeq points ↔ Chunk points ∧ clientSeq < 2 ^ 32 := by
  constructor
  · rintro ⟨w, c, hencode, hdecode, hloc⟩
    have hearth : ∀ p ∈ points, p.OnEarth := fun p hp => inRange_onEarth p (hrange p hp)
    -- All points are in the first chunk, so there is no other.
    have hchunk : Chunk points := by
      rcases hcut : locChunks points with _ | ⟨chunk, _ | ⟨d, rest⟩⟩
      · have hflat := locChunks_flatten points
        rw [hcut] at hflat
        exact absurd hflat.symm hne
      · exact (locChunks_single points chunk hcut).2
      · have hlen := batch_decodes_head lib trackUid clientSeq points chunk (d :: rest) w c _ hne
          hearth hcut hencode hdecode hloc
        rw [List.length_map] at hlen
        have hshort := locChunks_head_short points chunk d rest hcut
        omega
    refine ⟨hchunk, ?_⟩
    have hnext : clientSeq + 1 < 2 ^ 64 := by
      by_contra hover
      rw [encodeClientCmd, encodeLocFrames_chunk clientSeq points hne hearth hchunk,
        if_neg fun h => hover h.1] at hencode
      cases hencode
    rcases batch_one_frame lib trackUid clientSeq points hne hrange hchunk ⟨hnext, hcount⟩ with
      ⟨w', hencode', hdecode'⟩
    rw [hencode] at hencode'
    cases hencode'
    rw [hdecode] at hdecode'
    cases hdecode'
    -- The number read is the one written only when nothing was cut off it.
    rw [loc_locCmd] at hloc
    have hseq : truncU32 clientSeq = clientSeq :=
      congrArg Prod.fst (Option.some.inj hloc)
    rw [← hseq]
    exact Nat.mod_lt _ (by decide)
  · rintro ⟨hchunk, hseq⟩
    have hnext : clientSeq + 1 < 2 ^ 64 := by omega
    rcases batch_one_frame lib trackUid clientSeq points hne hrange hchunk ⟨hnext, hcount⟩ with
      ⟨w, hencode, hdecode⟩
    refine ⟨w, _, hencode, hdecode, ?_⟩
    rw [loc_locCmd, truncU32_eq clientSeq hseq]

/-- A hundred and one points in one place. -/
def crowd : List LatLng := List.replicate 101 { latitude := 0, longitude := 0 }

theorem crowd_inRange : ∀ p ∈ crowd, p.InRange := by
  intro p hp
  rw [List.eq_of_mem_replicate hp]
  exact ⟨by norm_num, by norm_num, by rintro a ⟨⟩, by rintro a ⟨⟩, by rintro t ⟨⟩⟩

/-- Two points a metre apart come back. -/
theorem batch_kept_iff_near : BatchKept canonicalLib "" 1
    [{ latitude := 0, longitude := 0 }, { latitude := 1 / 100000, longitude := 0 }] := by
  refine (batch_kept_iff canonicalLib "" 1 _ (List.cons_ne_nil _ _) ?_ (by decide)).mpr
    ⟨⟨by decide, ?_⟩, by decide⟩
  · intro p hp
    rcases List.mem_cons.mp hp with rfl | hp
    · exact ⟨by norm_num, by norm_num, by rintro a ⟨⟩, by rintro a ⟨⟩, by rintro t ⟨⟩⟩
    · rw [List.mem_singleton.mp hp]
      exact ⟨by norm_num [abs_le], by norm_num, by rintro a ⟨⟩, by rintro a ⟨⟩, by rintro t ⟨⟩⟩
  · simp only [List.isChain_cons_cons, List.isChain_singleton, and_true]
    decide +kernel

/-- The last of a hundred and one points is lost. -/
theorem batch_loses_last : ¬ ∀ (lib : UuidLib) (trackUid : String) (clientSeq : Nat)
    (points : List LatLng), points ≠ [] → (∀ p ∈ points, p.InRange) →
      points.length ≤ clientSeq + 1 → BatchKept lib trackUid clientSeq points := by
  intro h
  rcases h canonicalLib "" 100 crowd (List.cons_ne_nil _ _) crowd_inRange (by decide) with
    ⟨w, c, hencode, hdecode, hloc⟩
  have hearth : ∀ p ∈ crowd, p.OnEarth := fun p hp => inRange_onEarth p (crowd_inRange p hp)
  rcases hcut : locChunks crowd with _ | ⟨chunk, chunks⟩
  · have hflat := congrArg List.length (locChunks_flatten crowd)
    rw [hcut] at hflat
    exact absurd hflat (by decide)
  · have hlen := batch_decodes_head canonicalLib "" 100 crowd chunk chunks w c _
      (List.cons_ne_nil _ _) hearth hcut hencode hdecode hloc
    have hroom := (locChunks_chunk crowd chunk (by rw [hcut]; exact List.mem_cons_self)).room
    rw [← hlen, List.length_map] at hroom
    exact absurd hroom (by decide)

end Tracking

end Pickpoint
