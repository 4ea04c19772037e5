import Pickpoint.Theory.Splitting
import Pickpoint.Theory.Numbering
import Pickpoint.Theory.Server
import Mathlib.Logic.Relation

/-!
# One Flush

`flush_queue` in one go: a reader in its flush, resumed again and again while
nothing else runs.

What is waiting is one list, the unsent points and after them staging under the
numbers it will get (`Inner.pending`). A round takes points from the front of
it, whether they had numbers or get them now: `flushPoints` only moves the line
between the two parts. Of the frames it makes, the first few go out as far as
the window allows, so what is handed over is a first part of the list again, and
the rest of the list is what is waiting afterwards (`HandedOver`). This is what
composes from round to round.

The loop ends because every round that hands anything over takes a place in the
window. It stops when the window is full or nothing is waiting.

## Main definitions

* `Consecutive`: Consecutive numbers up to a given one, from zero on.
* `Inner.pending`, `Inner.handed`: Waiting points, and those sent.
* `Flushable`: What a flush relies on.
* `HandedOver`: What handing over the first waiting points does.
* `Alone`: A task runs while nothing else does.

## Theorems

* `flushPoints_split`: The points of a round are the first ones waiting.
* `round_handedOver`: One round.
* `flush_alone`: A whole flush ends and hands over a first part of what waits.
-/

namespace Pickpoint

namespace Tracking

open Interleave

/-! ## Consecutive numbers -/

/-- Consecutive numbers that end at `last`. -/
def Consecutive (ps : List QueuedPoint) (last : Nat) : Prop :=
  ∃ first, ps.map (·.seq) = List.range' first ps.length ∧ first + ps.length = last + 1

theorem consecutive_of_map (ps ps' : List QueuedPoint) (last : Nat)
    (h : ps'.map (·.seq) = ps.map (·.seq)) (hps : Consecutive ps last) : Consecutive ps' last := by
  rcases hps with ⟨first, hseqs, hlast⟩
  have hlen : ps'.length = ps.length := by
    rw [← List.length_map (·.seq), h, List.length_map]
  exact ⟨first, by rw [h, hseqs, hlen], by rw [hlen]; exact hlast⟩

theorem consecutive_right (ps qs : List QueuedPoint) (last : Nat)
    (h : Consecutive (ps ++ qs) last) : Consecutive qs last := by
  rcases h with ⟨first, hseqs, hlast⟩
  rw [List.map_append, List.length_append, ← List.range'_append_1] at hseqs
  rw [List.length_append] at hlast
  exact ⟨first + ps.length,
    (List.append_inj hseqs (by rw [List.length_map, List.length_range'])).2, by omega⟩

theorem consecutive_numbered (ps : List QueuedPoint) (last : Nat) (points : List LatLng)
    (h : Consecutive ps last) :
    Consecutive (ps ++ OfflineQueue.numbered last points) (last + points.length) := by
  rcases h with ⟨first, hseqs, hlast⟩
  refine ⟨first, ?_, by rw [List.length_append, numbered_length]; omega⟩
  rw [List.map_append, hseqs, numbered_seqs, List.length_append, numbered_length,
    ← List.range'_append_1, hlast]

theorem consecutive_getLast (ps : List QueuedPoint) (last : Nat) (h : Consecutive ps last)
    (p : QueuedPoint) (hp : ps.getLast? = some p) : p.seq = last := by
  rcases h with ⟨first, hseqs, hlast⟩
  have hseq := range_getLast ps first hseqs p hp
  omega

theorem numbered_split (next : Nat) (ps qs : List LatLng) :
    OfflineQueue.numbered next (ps ++ qs) =
      OfflineQueue.numbered next ps ++ OfflineQueue.numbered (next + ps.length) qs := by
  induction ps generalizing next with
  | nil => rfl
  | cons p ps ih =>
      rw [List.cons_append, OfflineQueue.numbered, ih (next + 1), OfflineQueue.numbered,
        List.cons_append, List.length_cons]
      congr 3
      omega

/-- Queued points under the numbers they have. -/
theorem numberPoints_queued (first : Nat) (ps : List QueuedPoint) (read : LatLng → LatLng)
    (h : ps.map (·.seq) = List.range' first ps.length) :
    numberPoints ((first : Int) + ps.length - 1) ((ps.map (·.point)).map read) =
      ps.map fun p => ((p.seq : Int), read p.point) := by
  refine List.ext_getElem? fun j => ?_
  have hj := congrArg (fun l : List Nat => l[j]?) h
  simp only [List.getElem?_map] at hj
  simp only [numberPoints, List.getElem?_mapIdx, List.getElem?_map, List.length_map]
  cases hp : ps[j]? with
  | none => rfl
  | some p =>
      rcases List.getElem?_eq_some_iff.mp hp with ⟨hlt, _⟩
      rw [hp, List.getElem?_range' hlt] at hj
      have hseq : p.seq = first + 1 * j := Option.some.inj hj
      simp only [Option.map_some, Option.some.injEq, Prod.mk.injEq, and_true]
      omega

/-! ## What waits -/

/-- The points that wait to be handed over, with the numbers they have or will
    get. -/
def Inner.pending (g : Inner) : List QueuedPoint :=
  g.queue.unsentInflight ++ OfflineQueue.numbered g.lastAssignedSeq g.queue.staging

/-- The points of InFlight that are marked as sent. -/
def Inner.handed (g : Inner) : List QueuedPoint := g.queue.inflight.filter (·.sent)

/-- The numbers of InFlight are consecutive and end at the last one given out,
    its unsent points come last, and what waits is on Earth. -/
structure Flushable (g : Inner) : Prop where
  counted : Consecutive g.queue.inflight g.lastAssignedSeq
  sentFirst : SentFirst g.queue.inflight
  onEarth : ∀ p ∈ g.pending, p.point.OnEarth

theorem sentFirst_split (ps : List QueuedPoint) (h : SentFirst ps) :
    ps = ps.filter (·.sent) ++ ps.filter (fun p => !p.sent) := by
  induction ps with
  | nil => rfl
  | cons p ps ih =>
      rcases List.pairwise_cons.mp h with ⟨hp, hps⟩
      cases hsent : p.sent with
      | true =>
          rw [List.filter_cons_of_pos hsent, List.filter_cons_of_neg (by rw [hsent]; decide),
            List.cons_append, ← ih hps]
      | false =>
          -- After an unsent point there is no sent one.
          have hnone : ∀ q ∈ p :: ps, ¬ q.sent = true := by
            intro q hq hq'
            rcases List.mem_cons.mp hq with rfl | hq
            · rw [hsent] at hq'
              cases hq'
            · rw [hp q hq hq'] at hsent
              cases hsent
          rw [List.filter_eq_nil_iff.mpr hnone, List.nil_append]
          refine (List.filter_eq_self.mpr fun q hq => ?_).symm
          rw [Bool.not_eq_true', Bool.eq_false_iff]
          exact hnone q hq

theorem sentFirst_all (ps : List QueuedPoint) (h : ∀ p ∈ ps, p.sent = true) : SentFirst ps :=
  List.pairwise_of_forall_mem_list fun p hp _ _ _ => h p hp

/-- A round takes the first points that wait; what it numbers moves from staging
    to the end of InFlight. -/
theorem flushPoints_split (g : Inner) (h : Flushable g) :
    (flushPoints g).1.queue.inflight = g.handed ++ (flushPoints g).2 ∧
      (∀ p ∈ (flushPoints g).2, p.sent = false) ∧
      g.pending = (flushPoints g).2 ++
        OfflineQueue.numbered (flushPoints g).1.lastAssignedSeq (flushPoints g).1.queue.staging ∧
      Consecutive (flushPoints g).1.queue.inflight (flushPoints g).1.lastAssignedSeq := by
  have hsplit := sentFirst_split _ h.sentFirst
  -- The flush takes what is unsent, or numbers what is staged.
  rcases flushPoints_cases g with ⟨hne, hp⟩ | ⟨hnone, n, hp⟩
  · rw [hp]
    refine ⟨hsplit, fun p hp => ?_, rfl, h.counted⟩
    exact ((OfflineQueue.unsentInflight_mem g.queue p).mp hp).2
  · rw [hp]
    -- Everything in InFlight has been handed over.
    have hall : g.queue.inflight = g.handed := by
      rw [show g.queue.inflight.filter (fun p => !p.sent) = [] from hnone, List.append_nil]
        at hsplit
      exact hsplit
    refine ⟨by rw [← hall], numbered_unsent _ _, ?_, consecutive_numbered _ _ _ h.counted⟩
    rw [Inner.pending, hnone, List.nil_append, ← numbered_split, List.take_append_drop]

/-! ## Marking -/

theorem mark_append (f : Nat → Bool) (ps qs : List QueuedPoint) :
    mark f (ps ++ qs) = mark f ps ++ mark f qs := List.map_append

theorem mark_sent (f : Nat → Bool) (ps : List QueuedPoint) (h : ∀ p ∈ ps, p.sent = true) :
    mark f ps = ps := by
  refine (List.map_congr_left fun p hp => ?_).trans (List.map_id ps)
  show ({ p with sent := p.sent || f p.seq } : QueuedPoint) = p
  rw [h p hp, Bool.true_or, ← h p hp]

theorem mark_all (f : Nat → Bool) (ps : List QueuedPoint) (h : ∀ p ∈ ps, f p.seq = true) :
    mark f ps = ps.map fun p => { p with sent := true } := by
  refine List.map_congr_left fun p hp => ?_
  show ({ p with sent := p.sent || f p.seq } : QueuedPoint) = { p with sent := true }
  rw [h p hp, Bool.or_true]

theorem mark_none (f : Nat → Bool) (ps : List QueuedPoint) (h : ∀ p ∈ ps, f p.seq = false) :
    mark f ps = ps := by
  refine (List.map_congr_left fun p hp => ?_).trans (List.map_id ps)
  show ({ p with sent := p.sent || f p.seq } : QueuedPoint) = p
  rw [h p hp, Bool.or_false]

/-- Some frame of numbered chunks has a number from `n` on as long as `n` is one
    of theirs. -/
theorem frameChunks_reaches (first i n : Nat) (chunks : List (List LatLng))
    (hne : ∀ c ∈ chunks, c ≠ []) (hroom : first + i + chunks.flatten.length ≤ 2 ^ 32)
    (hn : first + i ≤ n) :
    ((frameChunks first i chunks).any fun f => decide (n ≤ f.seq)) =
      decide (n < first + i + chunks.flatten.length) := by
  -- Induction over the chunks; `i` counts the points of those before.
  induction chunks generalizing i with
  | nil =>
      refine (decide_eq_false ?_).symm
      rw [List.flatten_nil, List.length_nil]
      omega
  | cons chunk chunks ih =>
      rw [List.flatten_cons, List.length_append] at hroom ⊢
      have hpos : 0 < chunk.length := List.length_pos_iff.mpr (hne chunk List.mem_cons_self)
      have hseq : truncU32 (wrapU64 ((first : Int) + ((i + chunk.length : Nat) : Int) - 1)) =
          first + (i + chunk.length) - 1 := by
        unfold truncU32 wrapU64
        omega
      rw [frameChunks, List.any_cons, hseq]
      by_cases hin : n < first + (i + chunk.length)
      · -- The number is in the first chunk.
        rw [decide_eq_true (by omega : n ≤ first + (i + chunk.length) - 1), Bool.true_or,
          decide_eq_true (by omega)]
      · have htail := ih (i + chunk.length) (fun c hc => hne c (List.mem_cons_of_mem _ hc))
          (by omega) (by omega)
        rw [decide_eq_false (by omega : ¬ n ≤ first + (i + chunk.length) - 1), Bool.false_or, htail]
        congr 1
        exact propext ⟨fun h => by omega, fun h => by omega⟩

/-- Frames numbered from `first` on mark the first points of a list that is. -/
theorem mark_frames (first m : Nat) (chunks : List (List LatLng)) (ps : List QueuedPoint)
    (hseqs : ps.map (·.seq) = List.range' first ps.length) (hm : chunks.flatten.length = m)
    (hle : m ≤ ps.length) (hne : ∀ c ∈ chunks, c ≠ []) (hroom : first + m ≤ 2 ^ 32) :
    mark (fun n => (frameChunks first 0 chunks).any fun f => decide (n ≤ f.seq)) ps =
      (ps.take m).map (fun p => { p with sent := true }) ++ ps.drop m := by
  have hreach : ∀ n, first ≤ n →
      ((frameChunks first 0 chunks).any fun f => decide (n ≤ f.seq)) = decide (n < first + m) := by
    intro n hn
    rw [frameChunks_reaches first 0 n chunks hne (by omega) hn, hm]
    rfl
  have htake : ∀ p ∈ ps.take m, first ≤ p.seq ∧ p.seq < first + m := by
    intro p hp
    have hmem := List.mem_map_of_mem (f := QueuedPoint.seq) hp
    rw [List.map_take, hseqs, List.take_range'_of_length_ge hle] at hmem
    exact List.mem_range'_1.mp hmem
  have hdrop : ∀ p ∈ ps.drop m, first + m ≤ p.seq := by
    intro p hp
    have hmem := List.mem_map_of_mem (f := QueuedPoint.seq) hp
    rw [List.map_drop, hseqs, List.drop_range', Nat.mul_one] at hmem
    exact (List.mem_range'_1.mp hmem).1
  -- The last frame reaches up to the first `m` numbers and no further.
  rw [← List.take_append_drop m ps, mark_append, List.take_append_drop,
    mark_all _ (ps.take m), mark_none _ (ps.drop m)]
  · intro p hp
    have := hdrop p hp
    rw [hreach p.seq (by omega)]
    exact decide_eq_false (by omega)
  · intro p hp
    rcases htake p hp with ⟨hlo, hhi⟩
    rw [hreach p.seq hlo]
    exact decide_eq_true hhi

/-! ## One round -/

/-- `g'` is `g` after the first `m` points that wait were handed over as the frames
    `fs`: they are in InFlight as sent, and the others wait as before. -/
structure HandedOver (lib : UuidLib) (m : Nat) (g g' : Inner) (fs : List LocFrame) : Prop where
  /-- The frames are from the encoder, and decode. -/
  frames : ∀ f ∈ fs, (∃ last points frames, encodeLocFrames last points = .ok frames ∧
    f.bytes ∈ frames) ∧ AcceptedAs lib f.bytes (f.seq, f.points.map written)
  /-- They carry these points, each once and under its number. -/
  numbers : (fs.flatMap fun f => numberPoints f.seq (f.points.map written)) =
    (g.pending.take m).map fun p => ((p.seq : Int), written p.point)
  /-- These points are marked, and no others. -/
  marked : g'.handed = g.handed ++ (g.pending.take m).map fun p => { p with sent := true }
  /-- The rest waits. -/
  left : g'.pending = g.pending.drop m
  /-- The window has these frames, and no others. -/
  window : g'.queue.sentFrameSeqs = g.queue.sentFrameSeqs ++ fs.map (·.seq)
  /-- Nothing else changes. -/
  rest : ∃ queue last, g' = { g with queue := queue, lastAssignedSeq := last }
  flushable : Flushable g'

theorem handedOver_refl (lib : UuidLib) (g : Inner) (h : Flushable g) :
    HandedOver lib 0 g g [] where
  frames _ hf := absurd hf List.not_mem_nil
  numbers := rfl
  marked := (List.append_nil _).symm
  left := rfl
  window := (List.append_nil _).symm
  rest := ⟨g.queue, g.lastAssignedSeq, rfl⟩
  flushable := h

theorem handedOver_trans (lib : UuidLib) (m m' : Nat) (g g' g'' : Inner)
    (fs fs' : List LocFrame) (h : HandedOver lib m g g' fs) (h' : HandedOver lib m' g' g'' fs') :
    HandedOver lib (m + m') g g'' (fs ++ fs') := by
  have htake : g.pending.take (m + m') = g.pending.take m ++ g'.pending.take m' := by
    rw [h.left, List.take_add]
  refine ⟨fun f hf => ?_, ?_, ?_, ?_, ?_, ?_, h'.flushable⟩
  · rcases List.mem_append.mp hf with hf | hf
    · exact h.frames f hf
    · exact h'.frames f hf
  · rw [List.flatMap_append, h.numbers, h'.numbers, htake, List.map_append]
  · rw [h'.marked, h.marked, htake, List.map_append, List.append_assoc]
  · rw [h'.left, h.left, List.drop_drop]
  · rw [h'.window, h.window, List.map_append, List.append_assoc]
  · rcases h.rest with ⟨queue, last, rfl⟩
    rcases h'.rest with ⟨queue', last', rfl⟩
    exact ⟨queue', last', rfl⟩

/-- The first few frames for points with consecutive numbers carry the first of
    them, in chunks. -/
theorem splitLocFrames_first (last k : Nat) (ps : List QueuedPoint) (h : Consecutive ps last)
    (hfit : last < 2 ^ 32) :
    ∃ first m chunks, (splitLocFrames last (ps.map (·.point))).take k =
        frameChunks first 0 chunks ∧
      ps.map (·.seq) = List.range' first ps.length ∧ first + ps.length = last + 1 ∧
      m ≤ ps.length ∧ chunks.flatten = (ps.take m).map (·.point) ∧
      ∀ c ∈ chunks, c ≠ [] ∧ Chunk c := by
  rcases h with ⟨first, hseqs, hlast⟩
  have hfirst : wrapU64 ((last : Int) + 1 - ((ps.map (·.point)).length : Int)) = first := by
    rw [List.length_map]
    unfold wrapU64
    omega
  -- The first chunks are a prefix of the points.
  have hflat := locChunks_flatten (ps.map (·.point))
  rw [← List.take_append_drop k (locChunks _), List.flatten_append] at hflat
  have hprefix : ((locChunks (ps.map (·.point))).take k).flatten <+: ps.map (·.point) := ⟨_, hflat⟩
  refine ⟨first, ((locChunks (ps.map (·.point))).take k).flatten.length,
    (locChunks (ps.map (·.point))).take k, ?_, hseqs, hlast, ?_, ?_, fun c hc => ?_⟩
  · rw [splitLocFrames, hfirst, frameChunks_take]
  · have hlen := hprefix.length_le
    rwa [List.length_map] at hlen
  · rw [List.map_take]
    exact List.prefix_iff_eq_take.mp hprefix
  · have hmem := List.mem_of_mem_take hc
    exact ⟨locChunks_ne_nil _ c hmem, locChunks_chunk _ c hmem⟩

/-- The frames of a round are accepted as what they carry. -/
theorem splitLocFrames_accepted (lib : UuidLib) (last : Nat) (ps : List QueuedPoint)
    (h : Consecutive ps last) (hfit : last < 2 ^ 32) (hne : ps ≠ [])
    (hearth : ∀ p ∈ ps, p.point.OnEarth) (f : LocFrame)
    (hf : f ∈ splitLocFrames last (ps.map (·.point))) :
    (∃ last points frames, encodeLocFrames last points = .ok frames ∧ f.bytes ∈ frames) ∧
      AcceptedAs lib f.bytes (f.seq, f.points.map written) := by
  rcases h with ⟨first, _, hlast⟩
  have hearth' : ∀ p ∈ ps.map (·.point), p.OnEarth := by
    intro p hp
    rcases List.mem_map.mp hp with ⟨q, hq, rfl⟩
    exact hearth q hq
  -- The frames are what `encode_loc_frames` returns.
  have hencode := encodeLocFrames_eq last (ps.map (·.point)) (by rwa [ne_eq, List.map_eq_nil_iff])
    hearth' (by rw [List.length_map]; omega) hfit
  refine ⟨⟨last, _, _, hencode, List.mem_map_of_mem hf⟩, ?_⟩
  rcases frameChunks_mem _ 0 _ f hf with ⟨hmem, hseq⟩
  -- Each carries a chunk, which the decoder accepts.
  have hchunk := locChunks_chunk _ f.points hmem
  have hfne := locChunks_ne_nil _ f.points hmem
  have hstrung := strung_locChunks _ f.points hearth' hmem
  have hread := decodeClientCmd_frame lib f.bytes _
    (consumes_locFrame lib f hfne hchunk.room hstrung)
  rw [truncU32_eq f.seq hseq] at hread
  refine ⟨_, hread, loc_locCmd _ _, ?_, ?_⟩
  · rw [List.length_map]
    exact List.length_pos_iff.mpr hfne
  · rw [List.length_map]
    exact hchunk.room

/-- InFlight after a round: the points sent before, those of the frames, and the
    others the round looked at. -/
theorem round_inflight (g : Inner) (h : Flushable g) (ps : List QueuedPoint) (m first last : Nat)
    (chunks : List (List LatLng)) (hps : (flushPoints g).2 = ps)
    (hout : (flushFrames g last).2 = frameChunks first 0 chunks)
    (hseqs : ps.map (·.seq) = List.range' first ps.length) (hm : chunks.flatten.length = m)
    (hle : m ≤ ps.length) (hne : ∀ c ∈ chunks, c ≠ []) (hroom : first + m ≤ 2 ^ 32) :
    (flushFrames g last).1.inflight =
      (g.handed ++ (ps.take m).map fun p => { p with sent := true }) ++ ps.drop m := by
  have hsent : ∀ p ∈ g.handed, p.sent = true := fun p hp => (List.mem_filter.mp hp).2
  rw [flushFrames_inflight, (flushPoints_split g h).1, hps, hout, mark_append,
    mark_sent _ _ hsent, mark_frames first m chunks ps hseqs hm hle hne hroom, List.append_assoc]

/-- A round hands over the first points that wait. -/
theorem round_handedOver (lib : UuidLib) (g : Inner) (h : Flushable g) (last : QueuedPoint)
    (hlast : (flushPoints g).2.getLast? = some last)
    (hfit : (flushPoints g).1.lastAssignedSeq < 2 ^ 32) :
    ∃ m, HandedOver lib m g { (flushPoints g).1 with queue := (flushFrames g last.seq).1 }
      (flushFrames g last.seq).2 := by
  rcases flushPoints_split g h with ⟨hinflight, hunsent, hpending, hcounted⟩
  have hcps : Consecutive (flushPoints g).2 (flushPoints g).1.lastAssignedSeq :=
    consecutive_right g.handed _ _ (hinflight ▸ hcounted)
  have hseq := consecutive_getLast _ _ hcps last hlast
  have hne : (flushPoints g).2 ≠ [] := by
    intro hnil
    rw [hnil] at hlast
    cases hlast
  have hearth : ∀ p ∈ (flushPoints g).2, p.point.OnEarth := fun p hp =>
    h.onEarth p (hpending ▸ List.mem_append_left _ hp)
  rcases flushFrames_eq g last.seq with ⟨⟨k, hout⟩, hqueue⟩
  have haccepted : ∀ f ∈ (flushFrames g last.seq).2,
      (∃ last points frames, encodeLocFrames last points = .ok frames ∧ f.bytes ∈ frames) ∧
        AcceptedAs lib f.bytes (f.seq, f.points.map written) := by
    intro _ hf
    rw [hout, hseq] at hf
    exact splitLocFrames_accepted lib _ _ hcps hfit hne hearth _ (List.mem_of_mem_take hf)
  rcases splitLocFrames_first _ k _ hcps hfit with
    ⟨first, m, chunks, htake, hseqs, hsum, hm, hflat, hchunks⟩
  rw [hseq, htake, ← hseq] at hout
  have hlen : chunks.flatten.length = m := by
    rw [hflat, List.length_map, List.length_take, Nat.min_eq_left hm]
  have hafter := round_inflight g h _ m first last.seq chunks rfl hout hseqs hlen hm
    (fun c hc => (hchunks c hc).1) (by omega)
  have hstaging : (flushFrames g last.seq).1.staging = (flushPoints g).1.queue.staging := by
    rw [hqueue]
  have hpend : g.pending.take m = (flushPoints g).2.take m := by
    rw [hpending, List.take_append_of_le_length hm]
  -- Sent before or now, and still unsent.
  have hsent : ∀ p ∈ g.handed ++ ((flushPoints g).2.take m).map fun p => { p with sent := true },
      p.sent = true := by
    intro p hp
    rcases List.mem_append.mp hp with hp | hp
    · exact (List.mem_filter.mp hp).2
    · rcases List.mem_map.mp hp with ⟨q, _, rfl⟩
      rfl
  have hwaits : ∀ p ∈ (flushPoints g).2.drop m, p.sent = false := fun p hp =>
    hunsent p (List.mem_of_mem_drop hp)
  have hleft : ({ (flushPoints g).1 with queue := (flushFrames g last.seq).1 } : Inner).pending =
      g.pending.drop m := by
    rw [hpending, List.drop_append_of_le_length hm]
    show (flushFrames g last.seq).1.inflight.filter (fun p => !p.sent) ++ _ = _
    rw [hafter, List.filter_append, hstaging,
      List.filter_eq_nil_iff.mpr fun p hp => by rw [hsent p hp]; decide,
      List.filter_eq_self.mpr fun p hp => by rw [hwaits p hp]; rfl, List.nil_append]
  refine ⟨m, haccepted, ?_, ?_, hleft, flushFrames_window g last.seq, ?_, ?_, ?_, ?_⟩
  · rw [hout, frameChunks_numbered written first 0 chunks (fun c hc => (hchunks c hc).1) (by omega),
      hlen, hflat, hpend]
    have hcount : ((flushPoints g).2.take m).length = m := by
      rw [List.length_take, Nat.min_eq_left hm]
    have hnum := numberPoints_queued first ((flushPoints g).2.take m) written (by
      rw [List.map_take, hseqs, List.take_range'_of_length_ge hm, hcount])
    rw [hcount] at hnum
    rw [← hnum]
    congr 1
  · show (flushFrames g last.seq).1.inflight.filter (·.sent) = _
    rw [hafter, List.filter_append, List.filter_eq_self.mpr hsent,
      List.filter_eq_nil_iff.mpr fun p hp => by rw [hwaits p hp]; decide, List.append_nil, hpend]
  · rcases flushPoints_inner g with ⟨queue, seq, hp⟩
    exact ⟨_, seq, by rw [hp]⟩
  · refine consecutive_of_map _ _ _ ?_ hcounted
    show (flushFrames g last.seq).1.inflight.map (·.seq) = _
    rw [flushFrames_inflight, mark, List.map_map]
    rfl
  · show SentFirst (flushFrames g last.seq).1.inflight
    rw [hafter]
    exact sentFirst_append _ _ (sentFirst_all _ hsent) hwaits
  · intro p hp
    rw [hleft] at hp
    exact h.onEarth p (List.mem_of_mem_drop hp)

/-! ## Handing frames over -/

/-- A socket whose channel is open is current, and the session is open and
    bound: what is handed over gets there. -/
structure Sendable (k : Nat) (s : Shared) : Prop where
  ready : s.inner.sessionReady = true
  opened : s.inner.state = .open
  current : s.inner.outTx = some k
  writing : s.writing k = true

/-- The entry of a frame on a wire. -/
def frameSent (ticket : Ticket) (f : LocFrame) : Traffic := .sent (.bin (.loc f)) (some ticket)

/-- Frames handed over to socket `k` one after the other. -/
def sendAll (k : Nat) (ticket : Ticket) : List LocFrame → Shared → Shared
  | [], s => s
  | f :: fs, s => sendAll k ticket fs (s.logTraffic k (frameSent ticket f))

theorem sendable_logTraffic (k : Nat) (s : Shared) (t : Traffic) (h : Sendable k s) :
    Sendable k (s.logTraffic k t) :=
  ⟨h.ready, h.opened, h.current, by rw [Shared.writing_logTraffic]; exact h.writing⟩

theorem sendAll_sendable (k : Nat) (ticket : Ticket) (fs : List LocFrame) (s : Shared)
    (h : Sendable k s) : Sendable k (sendAll k ticket fs s) := by
  induction fs generalizing s with
  | nil => exact h
  | cons f fs ih => exact ih _ (sendable_logTraffic k s _ h)

theorem sendAll_inner (k : Nat) (ticket : Ticket) (fs : List LocFrame) (s : Shared) :
    (sendAll k ticket fs s).inner = s.inner ∧ (sendAll k ticket fs s).ticket = s.ticket := by
  induction fs generalizing s with
  | nil => exact ⟨rfl, rfl⟩
  | cons f fs ih => exact ih _

/-- The frames are on the wire of the socket in their order, newest first, and
    the other wires are as they were. -/
theorem sendAll_wire (k : Nat) (ticket : Ticket) (fs : List LocFrame) (s : Shared)
    (h : Sendable k s) :
    (sendAll k ticket fs s).wire k = (fs.map (frameSent ticket)).reverse ++ s.wire k ∧
      ∀ j ≠ k, (sendAll k ticket fs s).wire j = s.wire j := by
  induction fs generalizing s with
  | nil => exact ⟨rfl, fun j _ => rfl⟩
  | cons f fs ih =>
      rcases ih _ (sendable_logTraffic k s (frameSent ticket f) h) with ⟨hwire, hothers⟩
      refine ⟨?_, fun j hj => ?_⟩
      · rw [sendAll, hwire, Shared.wire_logTraffic_writing s k _ h.writing, List.map_cons,
          List.reverse_cons, List.append_assoc]
        rfl
      · rw [sendAll, hothers j hj, Shared.wire_logTraffic, if_neg fun hk => hj hk.1.symm]

/-- A round keeps the socket. -/
theorem flush_sendable (k : Nat) (s : Shared) (h : Sendable k s) :
    Sendable k (flush s).1 ∧ (flush s).1.ticket = s.ticket ∧ (flush s).2.1 = s.ticket ∧
      (flush s).1.wire = s.wire := by
  rcases flush_cases s with hs | ⟨_, last, _, hs⟩
  · rw [hs]
    exact ⟨h, rfl, rfl, rfl⟩
  · rcases flushPoints_inner s.inner with ⟨queue, seq, hp⟩
    rw [hs, hp]
    exact ⟨⟨h.ready, h.opened, h.current, h.writing⟩, rfl, rfl, rfl⟩

/-! ## A whole flush -/

/-- The rounds of a flush that nothing interrupts, and the frames it hands over
    to socket `k`. -/
inductive Flushes (k : Nat) : Shared → Shared → List LocFrame → Prop where
  | stop (s : Shared) (h : (flush s).2.2 = []) : Flushes k s (flush s).1 []
  | round (s t : Shared) (fs : List LocFrame) (h : (flush s).2.2 ≠ [])
      (hrest : Flushes k (sendAll k (flush s).2.1 (flush s).2.2 (flush s).1) t fs) :
      Flushes k s t ((flush s).2.2 ++ fs)

/-- A round that hands nothing over does nothing: the window is full, or nothing
    waits. -/
theorem flush_stops (k : Nat) (s : Shared) (hb : Sendable k s) (h : (flush s).2.2 = []) :
    (flush s).1 = s ∧ (s.inner.queue.windowFull = true ∨
      (s.inner.queue.unsentInflight = [] ∧ s.inner.queue.staging = [])) := by
  by_cases hfull : s.inner.queue.windowFull = true
  · -- Without room there is no round.
    have hready : flushReady s.inner = false := by
      have hroom : s.inner.queue.windowRemaining = 0 := by
        unfold OfflineQueue.windowFull at hfull
        unfold OfflineQueue.windowRemaining
        have := of_decide_eq_true hfull
        omega
      rw [flushReady, hroom]
      exact Bool.and_false _
    refine ⟨?_, Or.inl hfull⟩
    simp only [flush, hready, Bool.not_false, if_true]
  · rw [Bool.not_eq_true] at hfull
    have hroom : 0 < s.inner.queue.windowRemaining := by
      unfold OfflineQueue.windowFull at hfull
      unfold OfflineQueue.windowRemaining
      have := of_decide_eq_false hfull
      omega
    have hready : flushReady s.inner = true := by
      simp only [flushReady, hb.ready, hb.opened, hb.current, Option.isSome_some, Bool.true_and,
        beq_self_eq_true, decide_eq_true_eq]
      exact hroom
    have hnil := flush_done s hready h
    have hlast : (flushPoints s.inner).2.getLast? = none := List.getLast?_eq_none_iff.mpr hnil
    refine ⟨by simp only [flush, hready, hlast, Bool.not_true, Bool.false_eq_true, if_false],
      Or.inr ?_⟩
    -- With room, nothing is taken only where nothing waits.
    by_cases hne : s.inner.queue.unsentInflight ≠ []
    · rw [flushPoints, if_pos hne] at hnil
      exact absurd hnil hne
    · rw [flushPoints, if_neg hne] at hnil
      refine ⟨not_not.mp hne, ?_⟩
      have hlen := congrArg List.length hnil
      simp only [OfflineQueue.assignFromStaging, numbered_length, List.length_take,
        OfflineQueue.stagingLen, List.length_nil] at hlen
      rw [← List.length_eq_zero_iff]
      omega

/-- A round puts its frames in the window. -/
theorem flush_room (s : Shared) :
    (flush s).1.inner.queue.sentFrameSeqs =
      s.inner.queue.sentFrameSeqs ++ (flush s).2.2.map (·.seq) := by
  rcases flush_cases s with hs | ⟨_, last, _, hs⟩
  · rw [hs]
    exact (List.append_nil _).symm
  · rw [hs]
    exact flushFrames_window s.inner last.seq

/-- A round that hands something over had room for it. -/
theorem flush_hasRoom (s : Shared) (h : (flush s).2.2 ≠ []) :
    s.inner.queue.sentFrameSeqs.length < maxUnackedFrames := by
  rcases flush_cases s with hs | ⟨hready, last, _, hs⟩
  · rw [hs] at h
    exact absurd rfl h
  · simp only [flushReady, Bool.and_eq_true, decide_eq_true_eq] at hready
    have hroom := hready.2
    unfold OfflineQueue.windowRemaining at hroom
    omega

/-- A flush ends: every round but the last takes a place in the window. -/
theorem exists_flushes (k : Nat) (s : Shared) : ∃ t fs, Flushes k s t fs := by
  -- Induction on the room that is left in the window.
  induction hroom : maxUnackedFrames - s.inner.queue.sentFrameSeqs.length using Nat.strongRecOn
    generalizing s with
  | ind room ih =>
      by_cases h : (flush s).2.2 = []
      · exact ⟨_, _, .stop s h⟩
      · have hbefore := flush_hasRoom s h
        have hpos : 0 < (flush s).2.2.length := List.length_pos_iff.mpr h
        have hwindow : (sendAll k (flush s).2.1 (flush s).2.2
            (flush s).1).inner.queue.sentFrameSeqs.length =
              s.inner.queue.sentFrameSeqs.length + (flush s).2.2.length := by
          rw [(sendAll_inner k _ _ _).1, flush_room, List.length_append, List.length_map]
        rcases ih _ (by rw [hwindow]; omega) _ rfl with ⟨t, fs, hrest⟩
        exact ⟨t, _, .round s t fs h hrest⟩

/-- Numbers are only given out. -/
theorem flushPoints_last (g : Inner) : g.lastAssignedSeq ≤ (flushPoints g).1.lastAssignedSeq := by
  rcases flushPoints_cases g with ⟨_, hp⟩ | ⟨_, n, hp⟩
  · rw [hp]
  · rw [hp]
    exact Nat.le_add_right _ _

theorem flush_last (s : Shared) : s.inner.lastAssignedSeq ≤ (flush s).1.inner.lastAssignedSeq := by
  rcases flush_cases s with hs | ⟨_, last, _, hs⟩
  · rw [hs]
  · rw [hs]
    exact flushPoints_last s.inner

theorem flushes_last (k : Nat) (s t : Shared) (fs : List LocFrame) (h : Flushes k s t fs) :
    s.inner.lastAssignedSeq ≤ t.inner.lastAssignedSeq := by
  induction h with
  | stop s _ => exact flush_last s
  | round s t fs _ _ ih =>
      rw [(sendAll_inner k _ _ _).1] at ih
      exact Nat.le_trans (flush_last s) ih

/-- Round after round a flush hands over a first part of what waits. -/
theorem flushes_handedOver (lib : UuidLib) (k : Nat) (s t : Shared) (fs : List LocFrame)
    (h : Flushes k s t fs) (hb : Sendable k s) (hf : Flushable s.inner)
    (hfit : t.inner.lastAssignedSeq < 2 ^ 32) :
    ∃ m, HandedOver lib m s.inner t.inner fs := by
  induction h with
  | stop s hstop =>
      rw [(flush_stops k s hb hstop).1]
      exact ⟨0, handedOver_refl lib s.inner hf⟩
  | round s t fs hne hrest ih =>
      have hlast := flushes_last k _ t fs hrest
      have hinner := (sendAll_inner k (flush s).2.1 (flush s).2.2 (flush s).1).1
      -- One round hands over what the splitter made of the points it took.
      have hround : ∃ m, HandedOver lib m s.inner (flush s).1.inner (flush s).2.2 := by
        rcases flush_cases s with hs | ⟨_, last, hqueued, hs⟩
        · rw [hs] at hne
          exact absurd rfl hne
        · rw [hinner] at hlast
          rw [hs] at hlast ⊢
          exact round_handedOver lib s.inner hf last hqueued (Nat.lt_of_le_of_lt hlast hfit)
      rcases hround with ⟨m, hm⟩
      rw [hinner] at ih
      -- And the rest goes on from there.
      rcases ih (sendAll_sendable k _ _ _ (flush_sendable k s hb).1) hm.flushable hfit with
        ⟨m', hm'⟩
      exact ⟨m + m', handedOver_trans lib m m' _ _ _ _ _ hm hm'⟩

/-- What a flush hands over is on the wire, and it stops when the window is full
    or nothing waits. -/
theorem flushes_wire (k : Nat) (s t : Shared) (fs : List LocFrame) (h : Flushes k s t fs)
    (hb : Sendable k s) :
    t.wire k = (fs.map (frameSent s.ticket)).reverse ++ s.wire k ∧
      (∀ j ≠ k, t.wire j = s.wire j) ∧ (t.inner.queue.windowFull = true ∨
        (t.inner.queue.unsentInflight = [] ∧ t.inner.queue.staging = [])) := by
  induction h with
  | stop s hstop =>
      rcases flush_stops k s hb hstop with ⟨hs, hend⟩
      rw [hs]
      exact ⟨rfl, fun _ _ => rfl, hend⟩
  | round s t fs hne hrest ih =>
      rcases flush_sendable k s hb with ⟨hb', hticket, hticket', hwire'⟩
      have hnext := sendAll_sendable k (flush s).2.1 (flush s).2.2 _ hb'
      rcases sendAll_wire k (flush s).2.1 (flush s).2.2 _ hb' with ⟨hwire, hothers⟩
      rcases ih hnext with ⟨hwire'', hothers'', hend⟩
      -- The frames of this round lie under those of the rest.
      rw [(sendAll_inner k _ _ _).2, hticket, hwire, hticket', hwire'] at hwire''
      refine ⟨?_, fun j hj => ?_, hend⟩
      · rw [hwire'', List.map_append, List.reverse_append, List.append_assoc]
      · rw [hothers'' j hj, hothers j hj, hwire']

/-! ## The reader -/

section Client

variable (geo : Geo)

/-- Task `i` runs while nothing else does. -/
def Alone (i : Nat) : Pool Shared Task → Pool Shared Task → Prop :=
  Relation.ReflTransGen fun p q => (client geo).step p (.resume i .go) = some q

/-- One step of a task by itself. -/
theorem alone_step (i : Nat) (s : Shared) (ts : List Task) (t u : Task) (a : Act Section Task)
    (ht : ts[i]? = some t) (ha : t.act .go = some a)
    (hu : a.next (a.op.run geo s).2 = (u, [])) :
    Alone geo i ⟨s, ts⟩ ⟨(a.op.run geo s).1, ts.set i u⟩ :=
  .single ((client geo).step_one s ts i .go t u a ht ha hu)

/-- The sends of a round. -/
theorem alone_sending (i k sock gen : Nat) (ticket : Ticket) (cell : Option Nat)
    (r : Except Error Reply) (forward : Option ServerEvt) (fs : List LocFrame) (s : Shared)
    (ts : List Task) (hb : Sendable k s)
    (ht : ts[i]? = some (.reader sock gen (.sending ticket fs cell r forward))) :
    Alone geo i ⟨s, ts⟩
      ⟨sendAll k ticket fs s, ts.set i (.reader sock gen (.flush cell r forward))⟩ := by
  -- One send for each frame, while the pool moves under it.
  induction fs generalizing s ts with
  | nil => exact alone_step geo i s ts _ _ _ ht rfl rfl
  | cons f fs ih =>
      have hsend : sendBin (.loc f) (some ticket) s =
          (s.logTraffic k (frameSent ticket f), .ok ()) := by
        have hopen : ¬ (s.inner.state = .closed ∧ s.inner.intentional = true) := by
          rw [hb.opened]
          rintro ⟨⟨⟩, _⟩
        rw [sendBin, if_neg hopen, hb.current]
        dsimp only
        rw [Shared.handOver_eq, if_pos hb.writing]
        rfl
      have hlt : i < ts.length := (List.getElem?_eq_some_iff.mp ht).1
      have hstep := alone_step geo i s ts _
        (.reader sock gen (.sending ticket fs cell r forward)) _ ht rfl (by
          show _ = _
          simp only [Section.run, hsend])
      have hrest := ih (s.logTraffic k (frameSent ticket f))
        (ts.set i (.reader sock gen (.sending ticket fs cell r forward)))
        (sendable_logTraffic k s _ hb) (List.getElem?_set_self hlt)
      rw [List.set_set] at hrest
      simp only [Section.run, hsend] at hstep
      exact hstep.trans hrest

/-- A reader that nothing interrupts goes through the rounds of a flush. -/
theorem flushes_alone (i k sock gen : Nat) (cell : Option Nat) (r : Except Error Reply)
    (forward : Option ServerEvt) (s t : Shared) (fs : List LocFrame) (h : Flushes k s t fs)
    (ts : List Task) (hb : Sendable k s)
    (ht : ts[i]? = some (.reader sock gen (.flush cell r forward))) :
    Alone geo i ⟨s, ts⟩ ⟨t, ts.set i (.reader sock gen (.settle cell r forward))⟩ := by
  have hlt : i < ts.length := (List.getElem?_eq_some_iff.mp ht).1
  induction h with
  | stop s hstop =>
      have hpair : (flush s).2 = ((flush s).2.1, []) := Prod.ext rfl hstop
      refine alone_step geo i s ts _ _ _ ht rfl ?_
      simp only [Section.run]
      rw [hpair]
  | round s t fs hne hrest ih =>
      rcases hout : (flush s).2.2 with _ | ⟨f, out⟩
      · exact absurd hout hne
      have hpair : (flush s).2 = ((flush s).2.1, f :: out) := Prod.ext rfl hout
      have hself : ts.set i (.reader sock gen (.flush cell r forward)) = ts := by
        rcases List.getElem?_eq_some_iff.mp ht with ⟨hi, hget⟩
        rw [← hget, List.set_getElem_self]
      have hb' := (flush_sendable k s hb).1
      have hstep := alone_step geo i s ts _
        (.reader sock gen (.sending (flush s).2.1 (f :: out) cell r forward)) _ ht rfl (by
          simp only [Section.run]
          rw [hpair])
      have hsends := alone_sending geo i k sock gen (flush s).2.1 cell r forward (f :: out)
        (flush s).1 (ts.set i (.reader sock gen (.sending (flush s).2.1 (f :: out) cell r forward)))
        hb' (List.getElem?_set_self hlt)
      -- After the last send the reader is back where it began.
      rw [List.set_set, hself] at hsends
      rw [hout] at ih
      exact (hstep.trans hsends).trans (ih (sendAll_sendable k _ _ _ hb'))

/-- A flush that nothing interrupts and whose sends succeed ends, and hands over
    a first part of what waits: all of it, or as much as the window takes. -/
theorem flush_alone (lib : UuidLib) (p : Pool Shared Task) (i k sock gen : Nat)
    (cell : Option Nat) (r : Except Error Reply) (forward : Option ServerEvt)
    (ht : p.tasks[i]? = some (.reader sock gen (.flush cell r forward))) (hb : Sendable k p.shared)
    (h : Flushable p.shared.inner) :
    ∃ q, Alone geo i p q ∧
      q.tasks = p.tasks.set i (.reader sock gen (.settle cell r forward)) ∧
      (q.shared.inner.queue.windowFull = true ∨
        (q.shared.inner.queue.unsentInflight = [] ∧ q.shared.inner.queue.staging = [])) ∧
      (q.shared.inner.lastAssignedSeq < 2 ^ 32 → ∃ m fs,
        HandedOver lib m p.shared.inner q.shared.inner fs ∧
        q.shared.wire k = (fs.map (frameSent p.shared.ticket)).reverse ++ p.shared.wire k ∧
        ∀ j ≠ k, q.shared.wire j = p.shared.wire j) := by
  -- The rounds end, since each hands over something that waited.
  rcases exists_flushes k p.shared with ⟨t, fs, hrun⟩
  rcases flushes_wire k p.shared t fs hrun hb with ⟨hwire, hothers, hend⟩
  refine ⟨⟨t, _⟩, flushes_alone geo i k sock gen cell r forward _ _ _ hrun p.tasks hb ht, rfl,
    hend, fun hfit => ?_⟩
  rcases flushes_handedOver lib k p.shared t fs hrun hb h hfit with ⟨m, hm⟩
  exact ⟨m, fs, hm, hwire, hothers⟩

end Client

/-- A reader about to flush one unsent point and one staged point. -/
def aboutToFlush : Pool Shared Task where
  shared :=
    { inner :=
        { Inner.new { endpoint := "wss://host" } 0 with
          state := .open
          sessionReady := true
          outTx := some 0
          lastAssignedSeq := 2
          queue :=
            { OfflineQueue.new 10 with
              staging := [{ latitude := 1, longitude := 0 }]
              inflight := [⟨1, { latitude := 0, longitude := 0 }, true⟩,
                ⟨2, { latitude := 0, longitude := 0 }, false⟩]
              sentFrameSeqs := [1] } }
      sockets := [{ gen := 1, writing := true, wire := [] }] }
  tasks := [.reader 0 1 (.flush none (.ok {}) none)]

theorem aboutToFlush_flushable : Flushable aboutToFlush.shared.inner := by
  refine ⟨⟨1, rfl, rfl⟩, ?_, ?_⟩
  · unfold SentFirst aboutToFlush
    decide
  · intro p hp
    have hpoint : p.point = { latitude := 0, longitude := 0 } ∨
        p.point = { latitude := 1, longitude := 0 } := by
      rcases List.mem_cons.mp hp with rfl | hp
      · exact Or.inl rfl
      · rw [List.mem_singleton.mp hp]
        exact Or.inr rfl
    rcases hpoint with h | h <;> rw [h]
    · exact ⟨by norm_num, by norm_num, by rintro t ⟨⟩⟩
    · exact ⟨by norm_num, by norm_num, by rintro t ⟨⟩⟩

theorem flush_alone_two : ∃ q, Alone flatGeo 0 aboutToFlush q ∧
    q.tasks = [.reader 0 1 (.settle none (.ok {}) none)] ∧
    (q.shared.inner.queue.windowFull = true ∨
      (q.shared.inner.queue.unsentInflight = [] ∧ q.shared.inner.queue.staging = [])) := by
  rcases flush_alone flatGeo canonicalLib aboutToFlush 0 0 0 1 none (.ok {}) none rfl
    ⟨rfl, rfl, rfl, rfl⟩ aboutToFlush_flushable with ⟨q, hrun, htasks, hend, _⟩
  exact ⟨q, hrun, htasks, hend⟩

end Tracking

end Pickpoint
