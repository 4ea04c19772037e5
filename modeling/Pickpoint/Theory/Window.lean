import Pickpoint.Core.Sections

/-!
# The Send Window

What the queue operations do to InFlight, as lists.

Most of them drop points at the front, append numbered points at the back, or
change `sent` flags; none reorders. So two properties of InFlight are kept by
every operation: its numbers are consecutive and end at a known one
(`Numbered`), and the points marked as sent come first (`SentFirst`).

## Main definitions

* `Numbered`: Consecutive numbers up to a given one.
* `SentFirst`: Sent points come before unsent ones.
* `mark`: Flagging points as sent.

## Theorems

* `numbered_drop`, `numbered_mark`, `numbered_append`: What keeps numbers
  consecutive.
* `enforceCap_eq`, `pushStaging_inflight`, `enqueue_inflight`, `recordFrame_eq`,
  `recordFrames_eq`, `ackThrough_inflight`, `unsentInflight_eq`,
  `flushPoints_cases`: The queue operations.
-/

namespace Pickpoint

namespace Tracking

/-! ## Consecutive numbers -/

/-- Consecutive numbers, ending at `last`. -/
structure Numbered (ps : List QueuedPoint) (last : Nat) : Prop where
  le : ps.length ≤ last
  seqs : ps.map (·.seq) = List.range' (last + 1 - ps.length) ps.length

/-- Sent points come before unsent ones. -/
def SentFirst (ps : List QueuedPoint) : Prop := ps.Pairwise fun a b => b.sent = true → a.sent = true

/-- Flag the points whose numbers satisfy `f` as sent. -/
def mark (f : Nat → Bool) (ps : List QueuedPoint) : List QueuedPoint :=
  ps.map fun p => { p with sent := p.sent || f p.seq }

theorem mark_mark (f g : Nat → Bool) (ps : List QueuedPoint) :
    mark f (mark g ps) = mark (fun n => g n || f n) ps := by
  simp only [mark, List.map_map, Function.comp_def, Bool.or_assoc]

theorem mark_false (ps : List QueuedPoint) : mark (fun _ => false) ps = ps := by
  simp only [mark, Bool.or_false, List.map_id']

theorem numbered_nil (last : Nat) : Numbered [] last := ⟨Nat.zero_le last, rfl⟩

theorem numbered_drop (ps : List QueuedPoint) (last k : Nat) (h : Numbered ps last) :
    Numbered (ps.drop k) last := by
  have hle := h.le
  refine ⟨by rw [List.length_drop]; omega, ?_⟩
  rw [List.map_drop, h.seqs, List.drop_range', List.length_drop, Nat.mul_one]
  by_cases hk : k ≤ ps.length
  · rw [show last + 1 - ps.length + k = last + 1 - (ps.length - k) by omega]
  · rw [show ps.length - k = 0 by omega, List.range'_zero, List.range'_zero]

theorem numbered_of_map (ps ps' : List QueuedPoint) (last : Nat)
    (h : ps'.map (·.seq) = ps.map (·.seq)) (hps : Numbered ps last) : Numbered ps' last := by
  have hlen : ps'.length = ps.length := by
    rw [← List.length_map (·.seq), h, List.length_map]
  exact ⟨hlen ▸ hps.le, h.trans (hlen ▸ hps.seqs)⟩

theorem numbered_mark (f : Nat → Bool) (ps : List QueuedPoint) (last : Nat)
    (h : Numbered ps last) : Numbered (mark f ps) last :=
  numbered_of_map ps _ last (by rw [mark, List.map_map]; rfl) h

theorem numbered_length (next : Nat) (points : List LatLng) :
    (OfflineQueue.numbered next points).length = points.length := by
  induction points generalizing next with
  | nil => rfl
  | cons p points ih => simp only [OfflineQueue.numbered, List.length_cons, ih]

theorem numbered_seqs (next : Nat) (points : List LatLng) :
    (OfflineQueue.numbered next points).map (·.seq) = List.range' (next + 1) points.length := by
  induction points generalizing next with
  | nil => rfl
  | cons p points ih =>
      simp only [OfflineQueue.numbered, List.map_cons, ih, List.length_cons, List.range'_succ]

theorem numbered_gt (next : Nat) (points : List LatLng) (p : QueuedPoint)
    (hp : p ∈ OfflineQueue.numbered next points) : next < p.seq := by
  have hseq := List.mem_map_of_mem (f := QueuedPoint.seq) hp
  rw [numbered_seqs, List.mem_range'_1] at hseq
  omega

theorem numbered_unsent (next : Nat) (points : List LatLng) :
    ∀ p ∈ OfflineQueue.numbered next points, p.sent = false := by
  induction points generalizing next with
  | nil => exact fun p hp => absurd hp List.not_mem_nil
  | cons point points ih =>
      intro p hp
      rcases List.mem_cons.mp hp with rfl | hp
      · rfl
      · exact ih (next + 1) p hp

/-- The last number given out. -/
theorem numbered_lastSeq (next : Nat) (points : List LatLng) :
    ((OfflineQueue.numbered next points).getLast?.map (·.seq)).getD next =
      next + points.length := by
  rw [← List.getLast?_map, numbered_seqs, List.getLast?_range']
  split
  · next h => rw [h]; rfl
  · simp only [Option.getD_some]
    omega

/-- Points that continue the numbers. -/
theorem numbered_append (ps qs : List QueuedPoint) (last : Nat) (h : Numbered ps last)
    (hqs : qs.map (·.seq) = List.range' (last + 1) qs.length) :
    Numbered (ps ++ qs) (last + qs.length) := by
  have hle := h.le
  refine ⟨by rw [List.length_append]; omega, ?_⟩
  rw [List.map_append, h.seqs, hqs, List.length_append,
    show last + qs.length + 1 - (ps.length + qs.length) = last + 1 - ps.length by omega,
    ← List.range'_append_1, show last + 1 - ps.length + ps.length = last + 1 by omega]

/-- The newly numbered points by themselves. -/
theorem numbered_new (last : Nat) (points : List LatLng) :
    Numbered (OfflineQueue.numbered last points) (last + points.length) := by
  refine ⟨by rw [numbered_length]; omega, ?_⟩
  rw [numbered_seqs, numbered_length,
    show last + points.length + 1 - points.length = last + 1 by omega]

theorem numbered_pairwise (ps : List QueuedPoint) (last : Nat) (h : Numbered ps last) :
    ps.Pairwise fun a b => a.seq < b.seq := by
  have hlt : (ps.map (·.seq)).Pairwise (· < ·) := h.seqs ▸ List.pairwise_lt_range'
  exact List.pairwise_map.mp hlt

theorem numbered_mem (ps : List QueuedPoint) (last : Nat) (h : Numbered ps last)
    (p : QueuedPoint) (hp : p ∈ ps) : 0 < p.seq ∧ p.seq ≤ last := by
  have hseq : p.seq ∈ List.range' (last + 1 - ps.length) ps.length :=
    h.seqs ▸ List.mem_map_of_mem hp
  have hle := h.le
  rw [List.mem_range'_1] at hseq
  omega

/-- The last of consecutive numbers. -/
theorem range_getLast (ps : List QueuedPoint) (a : Nat)
    (h : ps.map (·.seq) = List.range' a ps.length) (p : QueuedPoint)
    (hp : ps.getLast? = some p) : p.seq + 1 = a + ps.length := by
  have hseq : (ps.map (·.seq)).getLast? = some p.seq := by
    rw [List.getLast?_map, hp]
    rfl
  have hpos : 0 < ps.length := List.length_pos_of_mem (List.mem_of_getLast? hp)
  rw [h, List.getLast?_range', if_neg (by omega), Option.some.injEq] at hseq
  omega

theorem numbered_getLast (ps : List QueuedPoint) (last : Nat) (h : Numbered ps last)
    (p : QueuedPoint) (hp : ps.getLast? = some p) : p.seq = last := by
  have hseq := range_getLast ps _ h.seqs p hp
  have hle := h.le
  omega

/-! ## Filters of sorted lists -/

/-- In a list sorted by `R`, a condition that only gets easier to meet cuts
    off a prefix. -/
theorem filter_eq_drop (R : QueuedPoint → QueuedPoint → Prop) (f : QueuedPoint → Bool)
    (hf : ∀ a b, R a b → f a = true → f b = true) (ps : List QueuedPoint) (h : ps.Pairwise R) :
    ∃ k, ps.filter f = ps.drop k := by
  induction ps with
  | nil => exact ⟨0, rfl⟩
  | cons p ps ih =>
      rcases List.pairwise_cons.mp h with ⟨hp, hps⟩
      by_cases hfp : f p = true
      · refine ⟨0, List.filter_eq_self.mpr fun q hq => ?_⟩
        rcases List.mem_cons.mp hq with rfl | hq
        · exact hfp
        · exact hf p q (hp q hq) hfp
      · rcases ih hps with ⟨k, hk⟩
        exact ⟨k + 1, by rw [List.filter_cons_of_neg hfp, hk, List.drop_succ_cons]⟩

/-! ## Sent points first -/

theorem sentFirst_drop (ps : List QueuedPoint) (k : Nat) (h : SentFirst ps) :
    SentFirst (ps.drop k) :=
  List.Pairwise.sublist (List.drop_sublist k ps) h

/-- Points may be appended when they are unsent, or when nothing is unsent. -/
theorem sentFirst_append (ps qs : List QueuedPoint) (h : SentFirst ps)
    (hqs : ∀ p ∈ qs, p.sent = false) : SentFirst (ps ++ qs) := by
  refine List.pairwise_append.mpr ⟨h, ?_, ?_⟩
  · exact List.pairwise_of_forall_mem_list fun p _ q hq hsent =>
      absurd ((hqs q hq).symm.trans hsent) (by rintro ⟨⟩)
  · exact fun p _ q hq hsent => absurd ((hqs q hq).symm.trans hsent) (by rintro ⟨⟩)

/-- Marking all numbers up to some one keeps the sent points first. -/
theorem sentFirst_mark (f : Nat → Bool) (ps : List QueuedPoint)
    (hlt : ps.Pairwise fun a b => a.seq < b.seq)
    (hf : ∀ m n, m < n → f n = true → f m = true) (h : SentFirst ps) :
    SentFirst (mark f ps) := by
  refine List.pairwise_map.mpr (List.Pairwise.imp₂ ?_ hlt h)
  intro a b hab hsent hb
  rcases Bool.or_eq_true_iff.mp hb with hb | hb
  · exact Bool.or_eq_true_iff.mpr (Or.inl (hsent hb))
  · exact Bool.or_eq_true_iff.mpr (Or.inr (hf _ _ hab hb))

/-- Marking everything puts no unsent point before a sent one. -/
theorem sentFirst_mark_all (f : Nat → Bool) (ps : List QueuedPoint)
    (hf : ∀ p ∈ ps, f p.seq = true) : SentFirst (mark f ps) := by
  refine List.pairwise_map.mpr (List.pairwise_of_forall_mem_list fun p hp _ _ _ => ?_)
  exact Bool.or_eq_true_iff.mpr (Or.inr (hf p hp))

/-! ## The queue operations -/

namespace OfflineQueue

/-- Making room drops points at the front of InFlight. -/
theorem enforceCapLoop_eq (geo : Geo) (fuel : Nat) (q : OfflineQueue) :
    ∃ staging k, enforceCapLoop geo fuel q =
      { q with staging := staging, inflight := q.inflight.drop k } := by
  induction fuel generalizing q with
  | zero => exact ⟨q.staging, 0, rfl⟩
  | succ fuel ih =>
      rw [enforceCapLoop]
      split
      · split
        · next staging _ =>
          -- A round thins Staging out, drops its oldest point, or drops the oldest of InFlight.
          rcases ih { q with staging := staging } with ⟨st, k, h⟩
          exact ⟨st, k, h⟩
        · split
          · rcases ih { q with staging := q.staging.tail } with ⟨st, k, h⟩
            exact ⟨st, k, h⟩
          · split
            · rcases ih { q with inflight := q.inflight.tail } with ⟨st, k, h⟩
              refine ⟨st, k + 1, h.trans ?_⟩
              simp only [List.drop_tail]
            · exact ⟨q.staging, 0, rfl⟩
      · exact ⟨q.staging, 0, rfl⟩

theorem enforceCap_eq (geo : Geo) (q : OfflineQueue) :
    ∃ staging k, enforceCap geo q =
      { q with staging := staging, inflight := q.inflight.drop k } :=
  enforceCapLoop_eq geo q.size q

/-- Staging a point may push others out at the front. -/
theorem pushStaging_inflight (geo : Geo) (q : OfflineQueue) (point : LatLng) :
    ∃ k, (q.pushStaging geo point).inflight = q.inflight.drop k ∧
      (q.pushStaging geo point).sentFrameSeqs = q.sentFrameSeqs := by
  rcases enforceCap_eq geo { q with staging := q.staging ++ [point] } with ⟨st, k, hk⟩
  exact ⟨k, by rw [pushStaging, hk], by rw [pushStaging, hk]⟩

/-- A live point is appended as sent, and may push others out at the front. -/
theorem enqueue_inflight (geo : Geo) (q : OfflineQueue) (seq : Nat) (point : LatLng) :
    ∃ k, (q.enqueue geo seq point).inflight =
        (q.inflight ++ [QueuedPoint.mk seq point true]).drop k ∧
      (q.enqueue geo seq point).sentFrameSeqs = q.sentFrameSeqs := by
  rcases enforceCap_eq geo
    { q with inflight := q.inflight ++ [{ seq := seq, point := point, sent := true }] } with
    ⟨st, k, hk⟩
  exact ⟨k, by rw [enqueue, hk], by rw [enqueue, hk]⟩

theorem recordFrame_eq (q : OfflineQueue) (last : Nat) :
    q.recordFrame last =
      { q with
        sentFrameSeqs := q.sentFrameSeqs ++ [last]
        inflight := mark (fun n => decide (n ≤ last)) q.inflight } := by
  rw [recordFrame]
  congr 1
  refine List.map_congr_left fun p _ => ?_
  by_cases h : p.seq ≤ last
  · simp only [if_pos h, decide_eq_true h, Bool.or_true]
  · simp only [if_neg h, decide_eq_false h, Bool.or_false]

/-- An acknowledgement drops points at the front of InFlight. -/
theorem ackThrough_inflight (q : OfflineQueue) (ack : Nat)
    (h : q.inflight.Pairwise fun a b => a.seq < b.seq) :
    ∃ k, (q.ackThrough ack).inflight = q.inflight.drop k := by
  refine filter_eq_drop (fun a b => a.seq < b.seq) _ ?_ q.inflight h
  intro a b hab ha
  exact decide_eq_true (Nat.lt_trans (of_decide_eq_true ha) hab)

/-- The unsent points are the end of InFlight. -/
theorem unsentInflight_eq (q : OfflineQueue) (h : SentFirst q.inflight) :
    ∃ k, q.unsentInflight = q.inflight.drop k := by
  refine filter_eq_drop (fun a b => b.sent = true → a.sent = true) _ ?_ q.inflight h
  intro a b hab ha
  rcases hb : b.sent with _ | _
  · rfl
  · rw [hab hb] at ha
    cases ha

theorem unsentInflight_mem (q : OfflineQueue) (p : QueuedPoint) :
    p ∈ q.unsentInflight ↔ p ∈ q.inflight ∧ p.sent = false := by
  rw [unsentInflight, List.mem_filter, Bool.not_eq_true']

end OfflineQueue

/-- The recording loop takes a first few frames and records them. -/
theorem recordFrames_eq (room : Nat) (q : OfflineQueue) (fs : List LocFrame) :
    ∃ k, (recordFrames room q fs).2 = fs.take k ∧
      (recordFrames room q fs).1 =
        { q with
          sentFrameSeqs := q.sentFrameSeqs ++ (fs.take k).map (·.seq)
          inflight := mark (fun n => (fs.take k).any fun f => decide (n ≤ f.seq))
            q.inflight } := by
  induction fs generalizing room q with
  | nil => exact ⟨0, rfl, by simp only [recordFrames, List.take_nil, List.map_nil, List.append_nil,
      List.any_nil, mark_false]⟩
  | cons f fs ih =>
      rw [recordFrames]
      split
      -- The window is full: nothing is recorded.
      · exact ⟨0, rfl, by simp only [List.take_zero, List.map_nil, List.append_nil, List.any_nil,
          mark_false]⟩
      · split
        · refine ⟨1, rfl, ?_⟩
          simp only [OfflineQueue.recordFrame_eq, List.take_succ_cons, List.take_zero,
            List.map_cons, List.map_nil, List.any_cons, List.any_nil, Bool.or_false]
        · rcases ih (room - 1) (q.recordFrame f.seq) with ⟨k, hout, hq⟩
          -- One frame more, whose marks add to those of the rest.
          refine ⟨k + 1, ?_, ?_⟩
          · simp only [hout, List.take_succ_cons]
          · refine hq.trans ?_
            simp only [OfflineQueue.recordFrame_eq, List.take_succ_cons, List.map_cons,
              List.any_cons, mark_mark, List.append_assoc, List.singleton_append]


/-- A flush takes the unsent InFlight points, or numbers points of staging. -/
theorem flushPoints_cases (g : Inner) :
    (g.queue.unsentInflight ≠ [] ∧ flushPoints g = (g, g.queue.unsentInflight)) ∨
      (g.queue.unsentInflight = [] ∧ ∃ n, flushPoints g =
        ({ g with
            queue :=
              { g.queue with
                staging := g.queue.staging.drop n
                inflight := g.queue.inflight ++
                  OfflineQueue.numbered g.lastAssignedSeq (g.queue.staging.take n) }
            lastAssignedSeq := g.lastAssignedSeq + (g.queue.staging.take n).length },
          OfflineQueue.numbered g.lastAssignedSeq (g.queue.staging.take n))) := by
  -- Unsent points go first; Staging has its turn when there are none.
  by_cases h : g.queue.unsentInflight ≠ []
  · exact Or.inl ⟨h, by simp only [flushPoints, if_pos h]⟩
  · refine Or.inr ⟨not_not.mp h, min g.queue.stagingLen (100 * g.queue.windowRemaining), ?_⟩
    simp only [flushPoints, if_neg h, OfflineQueue.assignFromStaging, numbered_lastSeq]

/-- An unsent point of the queue a flush looks at is among the points it takes. -/
theorem flushPoints_mem (g : Inner) (q : QueuedPoint)
    (hq : q ∈ (flushPoints g).1.queue.inflight) (hsent : q.sent = false) :
    q ∈ (flushPoints g).2 := by
  rcases flushPoints_cases g with ⟨_, hp⟩ | ⟨hnone, n, hp⟩
  · rw [hp] at hq ⊢
    exact (OfflineQueue.unsentInflight_mem _ q).mpr ⟨hq, hsent⟩
  · rw [hp] at hq ⊢
    rcases List.mem_append.mp hq with hq | hq
    · have := (OfflineQueue.unsentInflight_mem _ q).mpr ⟨hq, hsent⟩
      rw [hnone] at this
      exact absurd this List.not_mem_nil
    · exact hq

/-- A sent point of that queue was there before. -/
theorem flushPoints_sent (g : Inner) (q : QueuedPoint)
    (hq : q ∈ (flushPoints g).1.queue.inflight) (hsent : q.sent = true) :
    q ∈ g.queue.inflight := by
  rcases flushPoints_cases g with ⟨_, hp⟩ | ⟨_, n, hp⟩
  · rw [hp] at hq
    exact hq
  · rw [hp] at hq
    rcases List.mem_append.mp hq with hq | hq
    · exact hq
    · cases (numbered_unsent _ _ q hq).symm.trans hsent

/-- Taking points changes nothing in the window. -/
theorem flushPoints_window (g : Inner) :
    (flushPoints g).1.queue.sentFrameSeqs = g.queue.sentFrameSeqs := by
  rcases flushPoints_cases g with ⟨_, hp⟩ | ⟨_, n, hp⟩ <;> rw [hp]

end Tracking

end Pickpoint
