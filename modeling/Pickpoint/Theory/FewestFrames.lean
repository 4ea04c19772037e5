import Pickpoint.Slicing.Greedy
import Pickpoint.Theory.Splitting

/-!
# Fewest Frames

`encode_loc_frames` closes a chunk only when the next point does not go into it:
a hundred points are in it, or the difference to the last of them does not fit.
So its cut is greedy, and since both limits are kept by every part of a chunk,
no other cut of the points has fewer chunks (`locChunks_fewest`).

How the frames are numbered plays no part in it. There is a frame for each
chunk, whether the sums of the encoder are checked or wrap
(`encodeLocFrames_length`, `splitLocFrames_points`).

## Theorems

* `chunk_hereditary`: A part of a chunk is one.
* `locChunks_greedy`: The cut of the splitter is greedy.
* `locChunks_fewest`: It has as few chunks as any.
* `encodeLocFrames_length`, `splitLocFrames_points`: A frame for each chunk.
* `fewest_frames`: The splitter is optimal.
-/

namespace Pickpoint

namespace Tracking

open Slicing

/-! ## The cut -/

theorem chunk_hereditary : Hereditary Chunk := fun _ _ hpart h =>
  ⟨Nat.le_trans hpart.length_le h.room, h.fits.infix hpart⟩

/-- The open chunk is the beginning of the first one. -/
theorem locChunksFrom_head (chunk : List LatLng) (prev : LatLng) (ps : List LatLng) :
    ∃ more rest, locChunksFrom chunk prev ps = (chunk ++ more) :: rest := by
  induction ps generalizing chunk prev with
  | nil => exact ⟨[], [], by rw [locChunksFrom, List.append_nil]⟩
  | cons p ps ih =>
      rw [locChunksFrom]
      split
      · rcases ih (chunk ++ [p]) p with ⟨more, rest, h⟩
        exact ⟨p :: more, rest, by rw [h, List.append_assoc, List.singleton_append]⟩
      · exact ⟨[], _, by rw [List.append_nil]⟩

/-- A point that the open chunk does not take makes it a chunk no more. -/
theorem not_chunk_concat (chunk : List LatLng) (prev p : LatLng)
    (hlast : chunk.getLast? = some prev)
    (hfull : ¬ (chunk.length < maxLocPoints && deltaFits prev p) = true) :
    ¬ Chunk (chunk ++ [p]) := by
  intro h
  have hroom := h.room
  rw [List.length_append, List.length_singleton] at hroom
  have hfits : deltaFits prev p = true :=
    (List.isChain_append.mp h.fits).2.2 prev hlast p rfl
  refine hfull ?_
  rw [hfits, Bool.and_true, decide_eq_true_eq]
  exact hroom

theorem locChunksFrom_greedy (chunk : List LatLng) (prev : LatLng) (ps : List LatLng)
    (hlast : chunk.getLast? = some prev) : Greedy Chunk (locChunksFrom chunk prev ps) := by
  induction ps generalizing chunk prev with
  | nil => exact List.IsChain.singleton chunk
  | cons p ps ih =>
      rw [locChunksFrom]
      split
      · exact ih (chunk ++ [p]) p List.getLast?_concat
      · next hfull =>
        refine List.isChain_cons.mpr ⟨?_, ih [p] p rfl⟩
        -- The next chunk begins with the point that was not taken.
        intro d hd x hx
        rcases locChunksFrom_head [p] p ps with ⟨more, rest, h⟩
        rw [h] at hd
        cases hd
        cases hx
        exact not_chunk_concat chunk prev p hlast hfull

theorem locChunks_greedy (points : List LatLng) : Greedy Chunk (locChunks points) := by
  cases points with
  | nil => exact List.IsChain.nil
  | cons p ps => exact locChunksFrom_greedy [p] p ps rfl

theorem locChunks_cuts (points : List LatLng) : Cuts Chunk points (locChunks points) where
  whole := locChunks_flatten points
  slice c hc := ⟨locChunks_ne_nil points c hc, locChunks_chunk points c hc⟩

/-- The cut of the splitter has as few chunks as any. -/
theorem locChunks_fewest (points : List LatLng) : Fewest Chunk points (locChunks points) :=
  (locChunks_greedy points).fewest chunk_hereditary points _ (locChunks_cuts points)

/-! ## The frames -/

/-- The points of the frames are the chunks. -/
theorem frameChunks_points (first i : Nat) (chunks : List (List LatLng)) :
    (frameChunks first i chunks).map LocFrame.points = chunks := by
  induction chunks generalizing i with
  | nil => rfl
  | cons chunk chunks ih => rw [frameChunks, List.map_cons, ih]

theorem splitLocFrames_points (lastSeq : Nat) (points : List LatLng) :
    (splitLocFrames lastSeq points).map LocFrame.points = locChunks points :=
  frameChunks_points _ 0 _

/-- The encoder writes a frame for each chunk, unless it stops. -/
theorem encodeChunks_length (first i : Nat) (chunks : List (List LatLng)) (frames : List Bytes)
    (h : encodeChunks first i chunks = .ok frames) : frames.length = chunks.length := by
  induction chunks generalizing i frames with
  | nil =>
      cases h
      rfl
  | cons chunk chunks ih =>
      rcases encodeChunks_cons first i chunk chunks frames h with ⟨_, _, rest, _, hrest, rfl⟩
      rw [List.length_cons, ih _ rest hrest, List.length_cons]

theorem encodeLocFrames_length (lastSeq : Nat) (points : List LatLng) (frames : List Bytes)
    (hne : points ≠ []) (h : encodeLocFrames lastSeq points = .ok frames) :
    frames.length = (locChunks points).length :=
  encodeChunks_length _ 0 _ frames (encodeLocFrames_ok lastSeq points frames hne h).2.2

/-- The encoder does not stop at a chunk, and not at a sum that is in range. -/
theorem encodeChunks_returns (first i : Nat) (chunks : List (List LatLng))
    (hchunks : ∀ c ∈ chunks, c ≠ [] ∧ Chunk c)
    (hroom : first + i + chunks.flatten.length < 2 ^ 64) :
    ∃ frames, encodeChunks first i chunks = .ok frames := by
  induction chunks generalizing i with
  | nil => exact ⟨[], rfl⟩
  | cons chunk chunks ih =>
      rw [List.flatten_cons, List.length_append] at hroom
      rcases hchunks chunk List.mem_cons_self with ⟨hne, hchunk⟩
      have hpos : 0 < chunk.length := List.length_pos_iff.mpr hne
      -- The sums are in range, and each chunk can be encoded.
      have hadd : addU64 first (i + chunk.length) = .ok (first + (i + chunk.length)) :=
        if_pos (by omega)
      have hsub : subU64 (first + (i + chunk.length)) 1 = .ok (first + (i + chunk.length) - 1) :=
        if_pos (by omega)
      have hframe := encodeLocFrame_eq (first + (i + chunk.length) - 1) chunk
        (eachOk_chunk (fun _ => True) chunk (fun _ _ => trivial) hchunk)
      rcases ih (i + chunk.length) (fun c hc => hchunks c (List.mem_cons_of_mem _ hc)) (by omega)
        with ⟨rest, hrest⟩
      refine ⟨LocFrame.bytes ⟨first + (i + chunk.length) - 1, chunk⟩ :: rest, ?_⟩
      rw [encodeChunks, hadd, ok_bind, hsub, ok_bind, hframe, ok_bind, hrest, ok_bind]
      rfl

/-- The encoder returns if and only if there is a number for each point, and one
    after the last. -/
theorem encodeLocFrames_returns (lastSeq : Nat) (points : List LatLng) (hne : points ≠ []) :
    (∃ frames, encodeLocFrames lastSeq points = .ok frames) ↔
      lastSeq + 1 < 2 ^ 64 ∧ points.length ≤ lastSeq + 1 := by
  constructor
  · rintro ⟨frames, h⟩
    rcases encodeLocFrames_ok lastSeq points frames hne h with ⟨hnext, hcount, _⟩
    exact ⟨hnext, hcount⟩
  · rintro ⟨hnext, hcount⟩
    have hadd : addU64 lastSeq 1 = .ok (lastSeq + 1) := if_pos hnext
    have hsub : subU64 (lastSeq + 1) points.length = .ok (lastSeq + 1 - points.length) :=
      if_pos hcount
    rw [encodeLocFrames, if_neg hne, hadd, ok_bind, hsub, ok_bind]
    refine encodeChunks_returns _ 0 _ (locChunks_cuts points).slice ?_
    rw [locChunks_flatten]
    omega

/-- The splitter is optimal. Its frames carry chunks of the points, in order and
    without a gap, and no cut of the points into chunks has fewer; and the encoder
    returns as many frames, whenever its sums are in range. -/
theorem fewest_frames (lastSeq : Nat) (points : List LatLng) (hne : points ≠ []) :
    Fewest Chunk points ((splitLocFrames lastSeq points).map LocFrame.points) ∧
    ((∃ frames, encodeLocFrames lastSeq points = .ok frames) ↔
      lastSeq + 1 < 2 ^ 64 ∧ points.length ≤ lastSeq + 1) ∧
    ∀ frames, encodeLocFrames lastSeq points = .ok frames →
      frames.length = (splitLocFrames lastSeq points).length ∧
      ∀ cut, Cuts Chunk points cut → frames.length ≤ cut.length := by
  have hfewest := locChunks_fewest points
  have hpoints := splitLocFrames_points lastSeq points
  refine ⟨by rwa [hpoints], encodeLocFrames_returns lastSeq points hne, fun frames h => ?_⟩
  have hlen := encodeLocFrames_length lastSeq points frames hne h
  refine ⟨?_, fun cut hcut => ?_⟩
  · rw [hlen, ← hpoints, List.length_map]
  · rw [hlen]
    exact hfewest.2 cut hcut

/-- Two points a degree apart take two frames. -/
theorem fewest_frames_apart : ∃ frames,
    encodeLocFrames 1 [{ latitude := 0, longitude := 0 }, { latitude := 1, longitude := 0 }] =
      .ok frames ∧ frames.length = 2 := by
  rcases fewest_frames 1 [{ latitude := 0, longitude := 0 }, { latitude := 1, longitude := 0 }]
    (List.cons_ne_nil _ _) with ⟨_, hreturns, hfewest⟩
  rcases hreturns.mpr ⟨by decide, by decide⟩ with ⟨frames, h⟩
  refine ⟨frames, h, ?_⟩
  rw [(hfewest frames h).1]
  decide +kernel

end Tracking

end Pickpoint
