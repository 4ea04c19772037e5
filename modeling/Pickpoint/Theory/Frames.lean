import Pickpoint.Theory.Window

/-!
# Frames and the Points They Carry

`encode_loc_frames` gets points and one number, and writes frames whose
numbers it computes from that one. The points come from InFlight, where they
carry numbers of their own. When these are consecutive and end at the number
given, the two agree: the frames cut the points into segments, and each frame
is numbered by the last point of its segment (`splitLocFrames_cut`).

`Cut` is that relation, and the facts about frames used later follow from it
by induction.

## Main definitions

* `Cut`: Frames that cut a list of points into segments.

## Theorems

* `locChunks_flatten`, `locChunks_mem`, `locChunks_ne_nil`: Cutting loses nothing.
* `locChunks_rule`: What holds of every chunk.
* `recordFrames_ne_nil`: Frames go out while there is room.
* `truncU32_wrap`: The arithmetic of `encode_loc_frames`.
* `carry_cut`: Its frames cut the points they were given.
* `splitLocFrames_cut`: So do the first few of them.
* `cut_mem_carried`, `cut_built`, `cut_covers`, `cut_seq_le`, `cut_span`,
  `cut_pairwise`: What a cut says about its frames.
-/

namespace Pickpoint

namespace Tracking

/-! ## The cut into chunks -/

theorem locChunksFrom_flatten (chunk : List LatLng) (prev : LatLng) (ps : List LatLng) :
    (locChunksFrom chunk prev ps).flatten = chunk ++ ps := by
  induction ps generalizing chunk prev with
  | nil => simp only [locChunksFrom, List.flatten_cons, List.flatten_nil]
  | cons p ps ih =>
      rw [locChunksFrom]
      split
      · rw [ih, List.append_assoc, List.singleton_append]
      · rw [List.flatten_cons, ih, List.singleton_append]

theorem locChunks_flatten (ps : List LatLng) : (locChunks ps).flatten = ps := by
  cases ps with
  | nil => rfl
  | cons p ps => exact locChunksFrom_flatten [p] p ps

/-- A chunk has no points of its own. -/
theorem locChunks_mem (ps c : List LatLng) (hc : c ∈ locChunks ps) : ∀ p ∈ c, p ∈ ps := by
  intro p hp
  rw [← locChunks_flatten ps]
  exact List.mem_flatten_of_mem hc hp

/-- What holds of one point, and of a chunk with room that takes a point which fits
    after its last, holds of all chunks when it holds of the open one. -/
theorem locChunksFrom_rule (P : List LatLng → Prop) (hone : ∀ p, P [p])
    (hmore : ∀ chunk prev p, P chunk → chunk.getLast? = some prev →
      chunk.length < maxLocPoints → deltaFits prev p = true → P (chunk ++ [p]))
    (chunk : List LatLng) (prev : LatLng) (ps : List LatLng) (h : P chunk)
    (hlast : chunk.getLast? = some prev) : ∀ c ∈ locChunksFrom chunk prev ps, P c := by
  induction ps generalizing chunk prev with
  | nil =>
      intro c hc
      rw [List.mem_singleton.mp hc]
      exact h
  | cons p ps ih =>
      rw [locChunksFrom]
      -- The point joins the chunk, or starts the next one.
      by_cases hnext : (chunk.length < maxLocPoints && deltaFits prev p) = true
      · rw [if_pos hnext]
        rw [Bool.and_eq_true, decide_eq_true_eq] at hnext
        exact ih (chunk ++ [p]) p (hmore chunk prev p h hlast hnext.1 hnext.2)
          List.getLast?_concat
      · rw [if_neg hnext]
        intro c hc
        rcases List.mem_cons.mp hc with rfl | hc
        · exact h
        · exact ih [p] p (hone p) rfl c hc

theorem locChunks_rule (P : List LatLng → Prop) (hone : ∀ p, P [p])
    (hmore : ∀ chunk prev p, P chunk → chunk.getLast? = some prev →
      chunk.length < maxLocPoints → deltaFits prev p = true → P (chunk ++ [p]))
    (ps : List LatLng) : ∀ c ∈ locChunks ps, P c := by
  cases ps with
  | nil => exact fun c hc => absurd hc List.not_mem_nil
  | cons p ps => exact locChunksFrom_rule P hone hmore [p] p ps (hone p) rfl

theorem locChunks_ne_nil (ps : List LatLng) : ∀ c ∈ locChunks ps, c ≠ [] :=
  locChunks_rule (fun c => c ≠ []) (fun p => List.cons_ne_nil p [])
    (fun _ _ p h _ _ _ => List.append_ne_nil_of_left_ne_nil h [p]) ps

/-- With room in the window, the recording loop takes a frame. -/
theorem recordFrames_ne_nil (room : Nat) (q : OfflineQueue) (fs : List LocFrame)
    (hroom : q.windowFull = false) (hfs : fs ≠ []) : (recordFrames room q fs).2 ≠ [] := by
  rcases fs with _ | ⟨f, fs⟩
  · exact absurd rfl hfs
  · rw [recordFrames, if_neg (by rw [hroom]; exact Bool.false_ne_true)]
    split
    · exact List.cons_ne_nil _ _
    · exact List.cons_ne_nil _ _

theorem splitLocFrames_ne_nil (last : Nat) (points : List LatLng) (h : points ≠ []) :
    splitLocFrames last points ≠ [] := by
  intro hnil
  have hchunks : locChunks points = [] := by
    unfold splitLocFrames at hnil
    rcases hc : locChunks points with _ | ⟨c, cs⟩
    · rfl
    · rw [hc, frameChunks] at hnil
      exact absurd hnil (List.cons_ne_nil _ _)
  have hflat := locChunks_flatten points
  rw [hchunks] at hflat
  exact h hflat.symm

theorem frameChunks_take (first i k : Nat) (chunks : List (List LatLng)) :
    (frameChunks first i chunks).take k = frameChunks first i (chunks.take k) := by
  induction chunks generalizing i k with
  | nil => rw [List.take_nil, frameChunks, List.take_nil]
  | cons chunk chunks ih =>
      cases k with
      | zero => rfl
      | succ k => simp only [frameChunks, List.take_succ_cons, ih]

/-- Frame numbers fit their field. -/
theorem frameChunks_seq (first i : Nat) (chunks : List (List LatLng)) :
    ∀ f ∈ frameChunks first i chunks, truncU32 f.seq = f.seq := by
  induction chunks generalizing i with
  | nil => exact fun f hf => absurd hf List.not_mem_nil
  | cons chunk chunks ih =>
      intro f hf
      rcases List.mem_cons.mp hf with rfl | hf
      · exact Nat.mod_mod _ _
      · exact ih _ f hf

theorem carry_ticket (ticket : Ticket) (queued : List QueuedPoint) (fs : List LocFrame) :
    ∀ b ∈ Shared.carry ticket queued fs, b.ticket = ticket := by
  induction fs generalizing queued with
  | nil => exact fun b hb => absurd hb List.not_mem_nil
  | cons f fs ih =>
      intro b hb
      rcases List.mem_cons.mp hb with rfl | hb
      · rfl
      · exact ih _ b hb

theorem carry_frame (ticket : Ticket) (queued : List QueuedPoint) (fs : List LocFrame) :
    (Shared.carry ticket queued fs).map (·.frame) = fs := by
  induction fs generalizing queued with
  | nil => rfl
  | cons f fs ih => rw [Shared.carry, List.map_cons, ih]

/-! ## Numbers -/

/-- The wrapping arithmetic of `encode_loc_frames` is exact up to the width of
    the field, when it starts from a number that did not underflow. -/
theorem truncU32_wrap (base i m : Nat) (h : base + i = m + 1) :
    truncU32 (wrapU64 ((wrapU64 base : Nat) + i - 1)) = truncU32 m := by
  unfold truncU32 wrapU64
  omega

theorem truncU32_le (n : Nat) : truncU32 n ≤ n := Nat.mod_le n _

theorem truncU32_eq (n : Nat) (h : n < 2 ^ 32) : truncU32 n = n := Nat.mod_eq_of_lt h

/-! ## Cuts -/

/-- The frames cut a first part of the points into segments; each is numbered
    by the last point of its segment. -/
inductive Cut (ticket : Ticket) : List QueuedPoint → List Built → Prop where
  | done (rest : List QueuedPoint) : Cut ticket rest []
  | frame (ps : List QueuedPoint) (p : QueuedPoint) (rest : List QueuedPoint) (bs : List Built)
      (h : Cut ticket rest bs) :
      Cut ticket (ps ++ p :: rest)
        ({ ticket := ticket
           frame := { seq := truncU32 p.seq, points := (ps ++ [p]).map (·.point) }
           carried := (ps ++ [p]).map fun q => (q.seq, q.point) } :: bs)

/-- The last of consecutive numbers. -/
theorem numbered_concat (ps : List QueuedPoint) (p : QueuedPoint) (a : Nat)
    (h : (ps ++ [p]).map (·.seq) = List.range' a (ps ++ [p]).length) : p.seq = a + ps.length := by
  have hseq := range_getLast (ps ++ [p]) a h p List.getLast?_concat
  rw [List.length_append, List.length_singleton] at hseq
  omega

/-- Chunks of consecutively numbered points, numbered from the first one, cut
    the points. -/
theorem carry_cut (ticket : Ticket) (base : Nat) (chunks : List (List LatLng)) (i : Nat)
    (queued : List QueuedPoint) (hne : ∀ c ∈ chunks, c ≠ [])
    (hpoints : chunks.flatten <+: queued.map (·.point))
    (hseqs : queued.map (·.seq) = List.range' (base + i) queued.length) :
    Cut ticket queued (Shared.carry ticket queued (frameChunks (wrapU64 base) i chunks)) := by
  induction chunks generalizing i queued with
  | nil => exact .done queued
  | cons chunk chunks ih =>
      rw [List.flatten_cons] at hpoints
      -- The points of the first chunk are the first points of the queue.
      have hchunk : (queued.take chunk.length).map (·.point) = chunk := by
        rw [List.map_take]
        exact (List.prefix_iff_eq_take.mp ((List.prefix_append _ _).trans hpoints)).symm
      have hlen : chunk.length ≤ queued.length := by
        have := (List.prefix_append chunk chunks.flatten |>.trans hpoints).length_le
        rwa [List.length_map] at this
      have hpos : 0 < chunk.length :=
        List.length_pos_iff.mpr (hne chunk List.mem_cons_self)
      have htail : Cut ticket (queued.drop chunk.length) (Shared.carry ticket
          (queued.drop chunk.length) (frameChunks (wrapU64 base) (i + chunk.length) chunks)) := by
        refine ih (i + chunk.length) _ (fun c hc => hne c (List.mem_cons_of_mem _ hc)) ?_ ?_
        · rcases hpoints with ⟨t, ht⟩
          rw [List.map_drop, ← ht, List.append_assoc, List.drop_left]
          exact List.prefix_append _ _
        · rw [List.map_drop, hseqs, List.drop_range', Nat.mul_one, List.length_drop, Nat.add_assoc]
      rcases List.eq_nil_or_concat (queued.take chunk.length) with hnil | ⟨ps, p, hconcat⟩
      · rw [hnil, List.map_nil] at hchunk
        rw [← hchunk] at hpos
        exact absurd hpos (Nat.lt_irrefl _)
      have htake : queued.take chunk.length = ps ++ [p] :=
        hconcat.trans List.concat_eq_append
      have hcount : (ps ++ [p]).length = chunk.length := by
        rw [← htake, List.length_take, Nat.min_eq_left hlen]
      have hseq : p.seq = base + i + ps.length := by
        refine numbered_concat ps p (base + i) ?_
        rw [hcount, ← htake, List.map_take, hseqs, List.take_range'_of_length_ge hlen]
      rw [List.length_append, List.length_singleton] at hcount
      have hqueued : queued = ps ++ p :: queued.drop chunk.length := by
        rw [List.append_cons, ← htake, List.take_append_drop]
      have hcut := Cut.frame ps p _ _ htail
      rw [← hqueued, ← htake, hchunk, ← truncU32_wrap base (i + chunk.length) p.seq (by omega)]
        at hcut
      exact hcut

/-- The frames of a whole list of consecutively numbered points, or a first few
    of them, cut it. -/
theorem splitLocFrames_cut (ticket : Ticket) (queued : List QueuedPoint) (last k : Nat)
    (h : Numbered queued last) :
    Cut ticket queued (Shared.carry ticket queued
      ((splitLocFrames last (queued.map (·.point))).take k)) := by
  have hle := h.le
  rw [splitLocFrames, List.length_map, frameChunks_take,
    show (last : Int) + 1 - (queued.length : Int) = ((last + 1 - queued.length : Nat) : Int) by
      omega]
  refine carry_cut ticket _ _ 0 queued ?_ ?_ h.seqs
  · exact fun c hc => locChunks_ne_nil _ c (List.mem_of_mem_take hc)
  · have hflat := locChunks_flatten (queued.map (·.point))
    rw [← List.take_append_drop k (locChunks _), List.flatten_append] at hflat
    exact ⟨_, hflat⟩

/-! ## What a cut says about its frames -/

theorem cut_mem_carried (ticket : Ticket) (queued : List QueuedPoint) (bs : List Built)
    (h : Cut ticket queued bs) (b : Built) (hb : b ∈ bs) :
    ∀ x ∈ b.carried, ∃ q ∈ queued, x = (q.seq, q.point) := by
  induction h with
  | done => exact absurd hb List.not_mem_nil
  | frame ps p rest bs _ ih =>
      intro x hx
      rcases List.mem_cons.mp hb with rfl | hb
      · rcases List.mem_map.mp hx with ⟨q, hq, rfl⟩
        refine ⟨q, ?_, rfl⟩
        rw [List.append_cons]
        exact List.mem_append_left rest hq
      · rcases ih hb x hx with ⟨q, hq, hx⟩
        exact ⟨q, List.mem_append_right ps (List.mem_cons_of_mem p hq), hx⟩

/-- A frame has the ticket it was built with, carries the points it claims to
    and is numbered by the last of them. -/
theorem cut_built (ticket : Ticket) (queued : List QueuedPoint) (bs : List Built)
    (h : Cut ticket queued bs) (b : Built) (hb : b ∈ bs) :
    b.ticket = ticket ∧ b.frame.points = b.carried.map Prod.snd ∧
      ∃ x, b.carried.getLast? = some x ∧ b.frame.seq = truncU32 x.1 := by
  induction h with
  | done => exact absurd hb List.not_mem_nil
  | frame ps p rest bs _ ih =>
      rcases List.mem_cons.mp hb with rfl | hb
      · refine ⟨rfl, ?_, (p.seq, p.point), ?_, rfl⟩
        · rw [List.map_map]
          rfl
        · exact (List.getLast?_map ..).trans (by rw [List.getLast?_concat]; rfl)
      · exact ih hb

/-- Points up to a number that a frame carries are carried by that frame or by
    one before it. -/
theorem cut_covers (ticket : Ticket) (queued : List QueuedPoint) (bs : List Built)
    (h : Cut ticket queued bs) (hlt : queued.Pairwise fun a b => a.seq < b.seq)
    (q : QueuedPoint) (hq : q ∈ queued) (b : Built) (hb : b ∈ bs) (x : Nat × LatLng)
    (hx : x ∈ b.carried) (hle : q.seq ≤ x.1) : ∃ b' ∈ bs, (q.seq, q.point) ∈ b'.carried := by
  induction h with
  | done => exact absurd hb List.not_mem_nil
  | frame ps p rest bs hcut ih =>
      rw [List.append_cons] at hq hlt
      rcases List.mem_append.mp hq with hq | hq
      · exact ⟨_, List.mem_cons_self, List.mem_map_of_mem hq⟩
      · -- The point comes after the first segment, so the frame does too.
        rcases List.pairwise_append.mp hlt with ⟨_, hrest, hcross⟩
        rcases List.mem_cons.mp hb with rfl | hb
        · rcases List.mem_map.mp hx with ⟨q', hq', rfl⟩
          exact absurd hle (Nat.not_le_of_lt (hcross q' hq' q hq))
        · rcases ih hrest hq hb with ⟨b', hb', hcarried⟩
          exact ⟨b', List.mem_cons_of_mem _ hb', hcarried⟩

/-- The number of a frame does not exceed the last number it carries. -/
theorem cut_seq_le (ticket : Ticket) (queued : List QueuedPoint) (bs : List Built)
    (h : Cut ticket queued bs) (b : Built) (hb : b ∈ bs) :
    ∃ x ∈ b.carried, b.frame.seq ≤ x.1 := by
  rcases cut_built ticket queued bs h b hb with ⟨_, _, x, hx, hseq⟩
  exact ⟨x, List.mem_of_getLast? hx, hseq ▸ truncU32_le x.1⟩

/-- In a cut of consecutive numbers below the width of the field, the points of
    a frame carry the numbers it says. -/
theorem cut_span (ticket : Ticket) (queued : List QueuedPoint) (bs : List Built)
    (h : Cut ticket queued bs) (a : Nat)
    (hseqs : queued.map (·.seq) = List.range' a queued.length)
    (hfit : ∀ q ∈ queued, q.seq < 2 ^ 32) (b : Built) (hb : b ∈ bs) :
    0 < b.frame.points.length ∧ (∃ x ∈ b.carried, x.1 = b.frame.seq) ∧
      ∃ y ∈ b.carried, y.1 = b.frame.seq + 1 - b.frame.points.length := by
  induction h generalizing a with
  | done => exact absurd hb List.not_mem_nil
  | frame ps p rest bs hcut ih =>
      rw [List.append_cons, List.map_append, List.length_append, ← List.range'_append_1] at hseqs
      rcases List.append_inj hseqs (by rw [List.length_map, List.length_range']) with ⟨hhead, htail⟩
      rcases List.mem_cons.mp hb with rfl | hb
      -- Numbers are consecutive, so the last one says where the frame ends.
      · have hp : p.seq = a + ps.length := numbered_concat ps p a hhead
        have hseq : truncU32 p.seq = p.seq :=
          truncU32_eq _ (hfit p (List.mem_append_right _ List.mem_cons_self))
        -- And the first one is as far before it as the frame has points.
        have hfirst : a ∈ (ps ++ [p]).map (·.seq) := by
          rw [hhead, List.mem_range'_1, List.length_append, List.length_singleton]
          omega
        rcases List.mem_map.mp hfirst with ⟨q, hq, hqa⟩
        refine ⟨by rw [List.length_map, List.length_append, List.length_singleton]; omega,
          ⟨_, List.mem_map_of_mem (List.mem_append_right ps (List.mem_singleton_self p)),
            hseq.symm⟩,
          ⟨_, List.mem_map_of_mem hq, ?_⟩⟩
        dsimp only
        rw [hqa, hseq, hp, List.length_map, List.length_append, List.length_singleton]
        omega
      · exact ih _ htail (fun q hq => hfit q
          (List.mem_append_right ps (List.mem_cons_of_mem p hq))) hb

/-- The frames follow each other in the order of the numbers they carry. -/
theorem cut_pairwise (ticket : Ticket) (queued : List QueuedPoint) (bs : List Built)
    (h : Cut ticket queued bs) (hlt : queued.Pairwise fun a b => a.seq < b.seq) :
    bs.Pairwise fun b b' => ∀ x ∈ b.carried, ∀ y ∈ b'.carried, x.1 < y.1 := by
  induction h with
  | done => exact .nil
  | frame ps p rest bs hcut ih =>
      rw [List.append_cons] at hlt
      rcases List.pairwise_append.mp hlt with ⟨_, hrest, hcross⟩
      refine List.pairwise_cons.mpr ⟨fun b hb x hx y hy => ?_, ih hrest⟩
      rcases List.mem_map.mp hx with ⟨q, hq, rfl⟩
      rcases cut_mem_carried ticket rest bs hcut b hb y hy with ⟨q', hq', rfl⟩
      exact hcross q hq q' hq'

end Tracking

end Pickpoint
