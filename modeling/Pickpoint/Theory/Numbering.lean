import Pickpoint.Theory.Server
import Pickpoint.Theory.Ledger
import Pickpoint.Theory.Frames

/-!
# The Cursor and InFlight

`lastAssignedSeq` is the number the next point follows, and the points in
InFlight carry the numbers up to it. `encode_loc_frames` relies on both: it
gets the last number and the count, and subtracts.

`TrackStarted` sets the cursor to zero and leaves InFlight alone. It is meant
to come right after `TrackStart`, which cleared the queue, but with two starts
under way a live point can be numbered between the two replies
(`cursor_behind`).

If the numbering restarts only when InFlight is empty, InFlight always carries
the numbers up to the cursor (`reach_inOrder`), so the subtraction does not
underflow and every frame is numbered by its last point (`reach_cursorAgrees`).

## Main definitions

* `InOrder`: InFlight ends at the cursor and has its sent points first.
* `renumbersEmpty`: The numbering restarts with InFlight empty.
* `CursorAgrees`: What `flush_queue` relies on, and what its frames show.

## Theorems

* `ledger_inOrder`: The sections keep InFlight in order.
* `flush_cut`: The frames of a flush cut the points it took.
* `reach_cursorAgrees`: The cursor and InFlight agree.
* `cursor_behind`: Not so in general.
-/

namespace Pickpoint

namespace Tracking

open Interleave

/-- InFlight carries the numbers up to the cursor, sent points first. This is what
    `flush_queue` and the live path of `publish` both keep. -/
structure InOrder (l : Ledger) : Prop where
  numbered : Numbered l.queue.inflight l.last
  sentFirst : SentFirst l.queue.inflight

/-- The numbering restarts only with InFlight empty, or where it stands. -/
def Section.renumbers (s : Shared) : {α : Type} → Section α → Bool
  | _, .dispatchTrackStarted _ _ _ => s.inner.queue.inflight.isEmpty
  | _, .resumeTrack _ seq =>
    s.inner.queue.inflight.isEmpty || decide (seq = s.inner.lastAssignedSeq)
  | _, _ => true

def renumbersEmpty (p : Pool Shared Task) (_ : Nat) (_ : Task) (a : Act Section Task) : Bool :=
  a.op.renumbers p.shared

/-- A frame is numbered by the last point it carries. -/
def Built.lastNumbered (b : Built) : Prop :=
  ∃ n point, b.carried.getLast? = some (n, point) ∧ b.frame.seq = truncU32 n

/-- What `flush_queue` relies on, and what its frames show: InFlight ends at
    the cursor, the subtraction in `encode_loc_frames` does not underflow, and
    every frame is numbered by the last point it carries, up to the width of
    the field. -/
structure CursorAgrees (s : Shared) : Prop where
  numbered : Numbered s.inner.queue.inflight s.inner.lastAssignedSeq
  noUnderflow : ∀ last, (flushPoints s.inner).2.getLast? = some last →
    (flushPoints s.inner).2.length ≤ last.seq + 1
  frames : ∀ b ∈ s.built, ∃ n point, b.carried.getLast? = some (n, point) ∧
    b.frame.seq = truncU32 n ∧ (n < 2 ^ 32 → b.frame.seq = n)

/-! ## The queue operations -/

theorem inOrder_nil (uid : String) (starting : Bool) (q : OfflineQueue) (last : Nat)
    (built : List Built) (epoch : Nat) (h : q.inflight = []) :
    InOrder ⟨uid, starting, q, last, built, epoch⟩ :=
  ⟨h ▸ numbered_nil last, h ▸ List.Pairwise.nil⟩

/-- Points may be dropped at the front. -/
theorem inOrder_drop (l l' : Ledger) (k : Nat) (hq : l'.queue.inflight = l.queue.inflight.drop k)
    (hlast : l'.last = l.last) (h : InOrder l) : InOrder l' :=
  ⟨hq ▸ hlast ▸ numbered_drop _ _ k h.numbered, hq ▸ sentFirst_drop _ k h.sentFirst⟩

/-- Points may be marked as sent up to a number, or up to the largest of some. -/
theorem inOrder_mark (l l' : Ledger) (f : Nat → Bool)
    (hf : ∀ m n, m < n → f n = true → f m = true)
    (hq : l'.queue.inflight = mark f l.queue.inflight) (hlast : l'.last = l.last)
    (h : InOrder l) : InOrder l' :=
  ⟨hq ▸ hlast ▸ numbered_mark f _ _ h.numbered,
    hq ▸ sentFirst_mark f _ (numbered_pairwise _ _ h.numbered) hf h.sentFirst⟩

/-- An acknowledgement beyond the cursor leaves nothing in flight. -/
theorem ackThrough_beyond (q : OfflineQueue) (last acked : Nat) (h : Numbered q.inflight last)
    (hlt : last < acked) : (q.ackThrough acked).inflight = [] := by
  refine List.filter_eq_nil_iff.mpr fun p hp hkeep => ?_
  have := (numbered_mem _ _ h p hp).2
  have := of_decide_eq_true hkeep
  omega

theorem inOrder_markUnsent (l : Ledger) (h : InOrder l) :
    InOrder { l with queue := l.queue.markUnsent } := by
  refine ⟨numbered_of_map _ _ _ ?_ h.numbered, ?_⟩
  · simp only [OfflineQueue.markUnsent, List.map_map, Function.comp_def]
  · exact List.pairwise_map.mpr
      (List.pairwise_of_forall fun _ _ hsent => absurd hsent (by rintro ⟨⟩))

/-- A live point is numbered and marks everything before it. -/
theorem inOrder_goLive (geo : Geo) (l : Ledger) (ticket : Ticket) (point : LatLng)
    (h : InOrder l) : InOrder (l.goLive geo ticket point) := by
  rcases l.queue.enqueue_inflight geo (l.last + 1) point with ⟨k, hk, _⟩
  have hq : (l.goLive geo ticket point).queue.inflight =
      mark (fun n => decide (n ≤ l.last + 1))
        (l.queue.enqueue geo (l.last + 1) point).inflight := by
    rw [Ledger.goLive, OfflineQueue.recordFrame_eq]
  have hnum : Numbered (l.queue.enqueue geo (l.last + 1) point).inflight (l.last + 1) :=
    hk ▸ numbered_drop _ _ k (numbered_append _ _ _ h.numbered rfl)
  refine ⟨?_, ?_⟩
  · rw [hq]
    exact numbered_mark _ _ _ hnum
  · rw [hq]
    exact sentFirst_mark_all _ _ fun p hp => decide_eq_true (numbered_mem _ _ hnum p hp).2

/-- It takes one place in the window. -/
theorem goLive_window (geo : Geo) (l : Ledger) (ticket : Ticket) (point : LatLng) :
    (l.goLive geo ticket point).queue.sentFrameSeqs = l.queue.sentFrameSeqs ++ [l.last + 1] := by
  rcases l.queue.enqueue_inflight geo (l.last + 1) point with ⟨_, _, hseqs⟩
  unfold Ledger.goLive OfflineQueue.recordFrame
  rw [hseqs]

/-! ## Flushes -/

/-- A flush takes points with consecutive numbers that end at its new cursor. -/
theorem flushPoints_numbered (s : Shared) (h : InOrder s.ledger) :
    Numbered (flushPoints s.inner).2 (flushPoints s.inner).1.lastAssignedSeq := by
  rcases flushPoints_cases s.inner with ⟨_, hp⟩ | ⟨_, n, hp⟩
  · rw [hp]
    rcases s.inner.queue.unsentInflight_eq h.sentFirst with ⟨k, hk⟩
    exact hk ▸ numbered_drop _ _ k h.numbered
  · rw [hp]
    exact numbered_new _ _

/-- The flush records a first few of the frames it encoded, and marks the
    points up to their numbers. -/
theorem flushFrames_eq (g : Inner) (last : Nat) :
    (∃ k, (flushFrames g last).2 =
      (splitLocFrames last ((flushPoints g).2.map (·.point))).take k) ∧
      (flushFrames g last).1 =
        { (flushPoints g).1.queue with
          sentFrameSeqs := (flushPoints g).1.queue.sentFrameSeqs ++
            (flushFrames g last).2.map (·.seq)
          inflight := mark (fun n => (flushFrames g last).2.any fun f => decide (n ≤ f.seq))
            (flushPoints g).1.queue.inflight } := by
  rcases recordFrames_eq g.queue.windowRemaining (flushPoints g).1.queue
    (splitLocFrames last ((flushPoints g).2.map (·.point))) with ⟨k, hk, hq⟩
  refine ⟨⟨k, hk⟩, ?_⟩
  rw [flushFrames, hq, hk]

theorem flushFrames_inflight (g : Inner) (last : Nat) :
    (flushFrames g last).1.inflight =
      mark (fun n => (flushFrames g last).2.any fun f => decide (n ≤ f.seq))
        (flushPoints g).1.queue.inflight :=
  congrArg OfflineQueue.inflight (flushFrames_eq g last).2

/-- Every frame it records takes a place in the window. -/
theorem flushFrames_window (g : Inner) (last : Nat) :
    (flushFrames g last).1.sentFrameSeqs =
      g.queue.sentFrameSeqs ++ (flushFrames g last).2.map (·.seq) := by
  rw [← flushPoints_window g]
  exact congrArg OfflineQueue.sentFrameSeqs (flushFrames_eq g last).2

/-- A round of `flush_queue` that could run and has no frames found no points. -/
theorem flush_done (s : Shared) (hready : flushReady s.inner = true)
    (h : (flush s).2.2 = []) : (flushPoints s.inner).2 = [] := by
  rcases hlast : (flushPoints s.inner).2.getLast? with _ | last
  · exact List.getLast?_eq_none_iff.mp hlast
  -- There is room for a frame, and at least one is split off, so something is handed over.
  · have hwindow : (flushPoints s.inner).1.queue.windowFull = false := by
      have hroom := of_decide_eq_true (Bool.and_eq_true_iff.mp hready).2
      unfold OfflineQueue.windowRemaining at hroom
      rw [OfflineQueue.windowFull, flushPoints_window]
      exact decide_eq_false (by omega)
    have hpoints : (flushPoints s.inner).2.map (·.point) ≠ [] := by
      intro hnil
      rw [List.map_eq_nil_iff.mp hnil] at hlast
      cases hlast
    refine absurd ?_ (recordFrames_ne_nil s.inner.queue.windowRemaining _ _ hwindow
      (splitLocFrames_ne_nil last.seq _ hpoints))
    simp only [flush, hready, hlast, Bool.not_true, Bool.false_eq_true, if_false] at h
    exact h

/-- Its frames cut them. -/
theorem flush_cut (s : Shared) (h : InOrder s.ledger) (last : QueuedPoint)
    (hlast : (flushPoints s.inner).2.getLast? = some last) :
    Cut s.ticket (flushPoints s.inner).2
      (Shared.carry s.ticket (flushPoints s.inner).2 (flushFrames s.inner last.seq).2) := by
  have hnum := flushPoints_numbered s h
  rw [← numbered_getLast _ _ hnum last hlast] at hnum
  rcases flushFrames_eq s.inner last.seq with ⟨⟨k, hk⟩, _⟩
  rw [hk]
  exact splitLocFrames_cut s.ticket _ _ k hnum

/-- Before its frames are recorded, the flush leaves InFlight in order. -/
theorem flushPoints_inOrder (s : Shared) (h : InOrder s.ledger) :
    InOrder ((flushPoints s.inner).1.ledger s.built s.epoch) := by
  rcases flushPoints_cases s.inner with ⟨_, hp⟩ | ⟨_, n, hp⟩
  · rw [hp]
    exact h
  · rw [hp]
    have hlen := numbered_length s.inner.lastAssignedSeq (s.inner.queue.staging.take n)
    refine ⟨?_, ?_⟩
    · have happ := numbered_append _ _ _ h.numbered
        (hlen ▸ numbered_seqs s.inner.lastAssignedSeq (s.inner.queue.staging.take n))
      rw [hlen] at happ
      exact happ
    · exact sentFirst_append _ _ h.sentFirst (numbered_unsent _ _)

section Client

variable (geo : Geo)

/-- The sections keep InFlight in order, when the numbering restarts with
    InFlight empty. -/
theorem ledger_inOrder {α : Type} (op : Section α) (s : Shared) (l' : Ledger)
    (hstep : LedgerStep geo s op l') (hcond : op.renumbers s = true) (h : InOrder s.ledger) :
    InOrder l' := by
  have hlt := numbered_pairwise _ _ h.numbered
  -- A step drops points from the front, drops all of them, marks them, or numbers new
  -- ones after the last.
  cases hstep with
  | resumeOk sock uid acked =>
      by_cases hacked : s.ledger.last < acked
      · exact inOrder_nil _ _ _ _ _ _ (ackThrough_beyond _ _ _ h.numbered hacked)
      · rcases s.inner.queue.ackThrough_inflight acked hlt with ⟨k, hk⟩
        exact inOrder_drop s.ledger _ k hk (if_neg hacked) h
  | trackStarted => exact inOrder_nil _ _ _ _ _ _ (List.isEmpty_iff.mp hcond)
  | stopped => exact inOrder_nil _ _ _ _ _ _ rfl
  | ack sock seq =>
      rcases s.inner.queue.ackThrough_inflight seq hlt with ⟨k, hk⟩
      exact inOrder_drop s.ledger _ k hk rfl h
  | error sock e uid queue starting hdrop =>
      rcases hdrop with ⟨_, rfl⟩ | ⟨_, rfl⟩
      · exact ⟨h.numbered, h.sentFirst⟩
      · exact inOrder_nil _ _ _ _ _ _ rfl
  | closed => exact inOrder_markUnsent s.ledger h
  | flush last hready hlast =>
      refine inOrder_mark ((flushPoints s.inner).1.ledger s.built s.epoch) _
        (fun n => (flushFrames s.inner last.seq).2.any fun f => decide (n ≤ f.seq)) ?_
        (flushFrames_inflight s.inner last.seq) rfl (flushPoints_inOrder s h)
      intro m n hmn hany
      rcases List.any_eq_true.mp hany with ⟨f, hf, hle⟩
      exact List.any_eq_true.mpr ⟨f, hf, decide_eq_true
        (Nat.le_trans (Nat.le_of_lt hmn) (of_decide_eq_true hle))⟩
  | startTrack => exact inOrder_nil _ _ _ _ _ _ rfl
  | publishStart => exact inOrder_nil _ _ _ _ _ _ rfl
  | resumeTrack uid seq =>
      rcases Bool.or_eq_true_iff.mp hcond with hempty | hseq
      · exact inOrder_nil _ _ _ _ _ _ (List.isEmpty_iff.mp hempty)
      · cases of_decide_eq_true hseq
        exact ⟨h.numbered, h.sentFirst⟩
  | publishStaged now wall point emitted =>
      rcases s.inner.queue.pushStaging_inflight geo emitted with ⟨k, hk, _⟩
      exact inOrder_drop s.ledger _ k hk rfl h
  | publishLive now wall point emitted => exact inOrder_goLive geo s.ledger s.ticket emitted h
  | startFailed => exact ⟨h.numbered, h.sentFirst⟩
  | publishStartFailed => exact ⟨h.numbered, h.sentFirst⟩
  | _ => exact h

/-- New frames are numbered by the last points they carry. -/
theorem ledger_lastNumbered {α : Type} (op : Section α) (s : Shared) (l' : Ledger)
    (hstep : LedgerStep geo s op l') (h : InOrder s.ledger)
    (hold : ∀ b ∈ s.built, b.lastNumbered) : ∀ b ∈ l'.built, b.lastNumbered := by
  cases hstep with
  -- The two steps that build frames.
  | flush last hready hlast =>
      intro b hb
      rcases List.mem_append.mp hb with hb | hb
      · exact hold b hb
      · rcases cut_built _ _ _ (flush_cut s h last hlast) b hb with ⟨_, _, ⟨n, point⟩, hx, hseq⟩
        exact ⟨n, point, hx, hseq⟩
  | publishLive now wall point emitted =>
      intro b hb
      rcases List.mem_append.mp hb with hb | hb
      · exact hold b hb
      · rw [List.mem_singleton.mp hb]
        exact ⟨_, _, rfl, rfl⟩
  | _ => exact hold

variable (cfg : Config)

/-- InFlight is in order in every run that restarts the numbering with
    InFlight empty. -/
theorem reach_inOrder (p : Pool Shared Task)
    (h : (client geo).Reach (Started cfg)
      ((client geo).whenever fun p i t a => renumbersEmpty p i t a = true) p) :
    InOrder p.shared.ledger := by
  refine (client geo).reach_shared (Started cfg) _ (fun s => InOrder s.ledger) ?_ ?_ p h
  · intro p hp
    rcases started_pool cfg p hp with ⟨now, rfl⟩
    exact inOrder_nil _ _ _ _ _ _ rfl
  · intro p i c t a _ _ hcond hI
    exact ledger_inOrder geo a.op p.shared _ (run_ledger geo a.op p.shared) hcond hI

/-- And every frame is numbered by the last point it carries. -/
theorem reach_lastNumbered (p : Pool Shared Task)
    (h : (client geo).Reach (Started cfg)
      ((client geo).whenever fun p i t a => renumbersEmpty p i t a = true) p) :
    ∀ b ∈ p.shared.built, b.lastNumbered := by
  have hreach := (client geo).reach_knowing (Started cfg) _ _
    (fun p h => reach_inOrder geo cfg p h) p h
  refine (client geo).reach_shared (Started cfg) _
    (fun s => ∀ b ∈ s.built, b.lastNumbered) ?_ ?_ p hreach
  · intro p hp b hb
    rcases started_pool cfg p hp with ⟨now, rfl⟩
    exact absurd hb List.not_mem_nil
  · intro p i c t a _ _ hC hI
    exact ledger_lastNumbered geo a.op p.shared _ (run_ledger geo a.op p.shared) hC.2 hI

/-- The cursor and InFlight agree in every run that restarts the numbering with
    InFlight empty. A flush and a live point move both together. They part when a
    `TrackStarted` sets the cursor to zero over points that are in flight. -/
theorem reach_cursorAgrees (p : Pool Shared Task)
    (h : (client geo).Reach (Started cfg)
      ((client geo).whenever fun p i t a => renumbersEmpty p i t a = true) p) :
    CursorAgrees p.shared := by
  have hI := reach_inOrder geo cfg p h
  refine ⟨hI.numbered, fun last hlast => ?_, fun b hb => ?_⟩
  · have hnum := flushPoints_numbered p.shared hI
    have hseq := numbered_getLast _ _ hnum last hlast
    have hle := hnum.le
    omega
  · rcases reach_lastNumbered geo cfg p h b hb with ⟨n, point, hlast, hseq⟩
    exact ⟨n, point, hlast, hseq, fun hn => hseq.trans (truncU32_eq n hn)⟩

end Client

/-- Two points have gone out, one after the other. -/
theorem reach_cursorAgrees_published :
    ∃ p : Pool Shared Task, p.shared.inner.queue.inflight.map (·.seq) = [1, 2] ∧
      p.shared.inner.lastAssignedSeq = 2 ∧ CursorAgrees p.shared := by
  rcases reach_of_watched renumbersEmpty
    (tracking ++ publishSteps 4 1000 ++ [.resume 4 .go] ++ publishSteps 5 2000)
    (fun p => decide (p.shared.inner.queue.inflight.map (·.seq) = [1, 2] ∧
      p.shared.inner.lastAssignedSeq = 2))
    (by decide +kernel) with ⟨p, hp, hrun⟩
  rcases of_decide_eq_true hrun with ⟨hseqs, hlast⟩
  exact ⟨p, hseqs, hlast, reach_cursorAgrees flatGeo someConfig p hp⟩

/-- Two starts are under way. The server confirms the first one, a point goes
    out for its track, and then the second one is confirmed. -/
def startedTwice : List (Label Task Input) :=
  opening ++ [.spawn (.startTrack (.start none [] [])), .resume 3 (.clock 0 0),
    .resume 3 (.clock 0 0), .spawn (.startTrack (.start none [] [])), .resume 4 (.clock 0 0),
    .resume 4 (.clock 0 0), .resume 2 (.frame (.trackStarted "T" [])), .resume 2 .go,
    .resume 2 .go] ++ publishSteps 5 1000 ++
    [.resume 5 .go, .resume 2 (.frame (.trackStarted "U" []))]

/-- The cursor is back at zero with a numbered point in flight, although the
    server answered each `TrackStart` in order and said nothing else. -/
theorem cursor_behind :
    ¬ ∀ p, (client flatGeo).Reach (Started someConfig) Machine.anyStep p →
      (∀ k, honest (p.shared.wire k) = true) → CursorAgrees p.shared := by
  intro hall
  rcases reach_of_opening startedTwice
    (fun p => decide (p.shared.sockets.length = 1 ∧ honest (p.shared.wire 0) = true ∧
      p.shared.inner.queue.inflight.map (·.seq) = [1] ∧ p.shared.inner.lastAssignedSeq = 0))
    (by decide +kernel) with ⟨p, hp, hrun⟩
  rcases of_decide_eq_true hrun with ⟨hlen, hhonest, hseqs, hlast⟩
  have hwires : ∀ k, honest (p.shared.wire k) = true := by
    intro k
    rcases k with _ | k
    · exact hhonest
    · rw [Shared.wire, List.getElem?_eq_none (by omega)]
      rfl
  -- InFlight would have no more points than the cursor counts, which is at zero.
  have hle := (hall p hp hwires).numbered.le
  have hone := congrArg List.length hseqs
  rw [List.length_map, List.length_singleton] at hone
  omega

end Tracking

end Pickpoint
