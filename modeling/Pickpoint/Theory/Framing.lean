import Pickpoint.Theory.Numbering

/-!
# Sent Points Were Framed

The `sent` flag of an InFlight point says that a Loc frame with the point was
built. Recording a frame sets the flag of every point up to the frame's
number. `flush_queue` records frames that carry all the unsent points up to
their numbers. The live path of `publish` records a frame that carries its own
point only, so unsent points that are still in flight count as sent without
having been in any frame (`unframed_counted_sent`), and the next `Ack` drops
them.

If a point goes out live only when nothing unsent is in flight, and the
numbering restarts with InFlight empty, every flag that is set comes with a
frame. An `Ack` or a `ResumeOk` then drops framed points only, as long as it
does not name a number of an unsent point that no frame has reached: one read
late from a socket of an earlier track names numbers that the points of this
track have not been framed under (`reach_flipsFramed`).

## Main definitions

* `Built.Contains`: A frame that carries a point.
* `FlipsFramed`: A step sets flags together with frames.
* `DropsFramed`: What a step drops from InFlight has been framed.
* `Ledger.framedUpTo`: The unsent points up to a number have been reached by frames.
* `framesUnsent`: No live point overtakes unsent ones, and no `Ack` does.

## Theorems

* `ledger_flipsFramed`: The sections set flags together with frames.
* `ledger_framing`: Which points have been framed.
* `dispatch_dropsFramed`: An `Ack` drops framed points only.
* `reach_flipsFramed`: Flags are set together with frames.
* `unframed_counted_sent`: Not so in general.
-/

namespace Pickpoint

namespace Tracking

open Interleave

/-- The frame was built from this entry of InFlight and carries its point, with
    or without the time. -/
def Built.Contains (b : Built) (q : QueuedPoint) : Prop :=
  (q.seq, q.point) ∈ b.carried ∧ ∃ p ∈ b.frame.points, stripLiveTime p = stripLiveTime q.point

/-- A point that is sent after the step and was not before is in a frame that
    the step built. -/
def FlipsFramed (l l' : Ledger) : Prop :=
  ∃ bs, l'.built = l.built ++ bs ∧ ∀ q ∈ l'.queue.inflight, q.sent = true →
    q ∉ l.queue.inflight → ∃ b ∈ bs, b.Contains q

/-- Every point that the step takes out of InFlight is in a frame that was built
    before it, and has its number there. -/
def DropsFramed (l l' : Ledger) : Prop :=
  ∀ q ∈ l.queue.inflight, q ∉ l'.queue.inflight → ∃ b ∈ l.built, b.Contains q

/-- Which points of InFlight are in a frame: the sent ones, and those up to a
    number that a frame of the current numbering carries. -/
structure Framing (l : Ledger) : Prop where
  epochs : ∀ b ∈ l.built, b.ticket.epoch ≤ l.epoch
  carried : ∀ b ∈ l.built, b.ticket.epoch = l.epoch → ∀ x ∈ b.carried, x.1 ≤ l.last
  framed : ∀ q ∈ l.queue.inflight,
    (q.sent = true ∨ ∃ b ∈ l.built, b.ticket.epoch = l.epoch ∧ ∃ x ∈ b.carried, q.seq ≤ x.1) →
      ∃ b ∈ l.built, b.Contains q

/-- The unsent points up to `acked` do not lie beyond all frames that were built
    in the current numbering. -/
def Ledger.framedUpTo (l : Ledger) (acked : Nat) : Bool :=
  l.queue.unsentInflight.all fun q => decide (acked < q.seq) ||
    l.built.any fun b => decide (b.ticket.epoch = l.epoch) &&
      b.carried.any fun x => decide (q.seq ≤ x.1)

/-- The number up to which a section acknowledges. -/
def Section.acks : {α : Type} → Section α → Option Nat
  | _, .dispatchAck _ seq | _, .dispatchResumeOk _ _ seq => some seq
  | _, _ => none

/-- No point goes out live while unsent ones are in flight, and no unsent point is
    acknowledged that the frames have not reached. -/
def Section.framesUnsent (geo : Geo) (s : Shared) : {α : Type} → Section α → Bool
  | _, .publishWork now wall point =>
    !goesLive geo now wall point s.inner || s.inner.queue.unsentInflight.isEmpty
  | _, op => op.acks.all s.ledger.framedUpTo

/-- No live point and no `Ack` overtakes unsent ones, and the numbering restarts
    with InFlight empty. -/
def framesUnsent (geo : Geo) (p : Pool Shared Task) (_ : Nat) (_ : Task)
    (a : Act Section Task) : Bool :=
  a.op.framesUnsent geo p.shared && a.op.renumbers p.shared

/-- The step dispatches an `Ack` or a `ResumeOk`: the two events in which the server
    says up to which number it has the points. -/
def Acknowledges (p : Pool Shared Task) : Label Task Input → Prop
  | .resume i c => ∃ t a, p.tasks[i]? = some t ∧ t.act c = some a ∧ a.op.acks.isSome
  | .spawn _ => False

theorem contains_congr (b : Built) (q q' : QueuedPoint) (hseq : q'.seq = q.seq)
    (hpoint : q'.point = q.point) (h : b.Contains q) : b.Contains q' := by
  rw [Built.Contains, hseq, hpoint]
  exact h

/-- A frame of a cut contains the points it was built from. -/
theorem cut_contains (ticket : Ticket) (queued : List QueuedPoint) (bs : List Built)
    (h : Cut ticket queued bs) (b : Built) (hb : b ∈ bs) (q : QueuedPoint)
    (hq : (q.seq, q.point) ∈ b.carried) : b.Contains q := by
  refine ⟨hq, q.point, ?_, rfl⟩
  rw [(cut_built ticket queued bs h b hb).2.1]
  exact List.mem_map_of_mem hq

/-! ## Flags -/

/-- A point that a flush takes is in one of its frames when its number does not
    exceed that of a frame. -/
theorem flush_contains (s : Shared) (h : InOrder s.ledger) (last : QueuedPoint)
    (hlast : (flushPoints s.inner).2.getLast? = some last) (q : QueuedPoint)
    (hq : q ∈ (flushPoints s.inner).2) (f : LocFrame)
    (hf : f ∈ (flushFrames s.inner last.seq).2) (hle : q.seq ≤ f.seq) :
    ∃ b ∈ Shared.carry s.ticket (flushPoints s.inner).2 (flushFrames s.inner last.seq).2,
      b.Contains q := by
  have hcut := flush_cut s h last hlast
  have hlt := numbered_pairwise _ _ (flushPoints_numbered s h)
  rw [← carry_frame s.ticket (flushPoints s.inner).2 (flushFrames s.inner last.seq).2] at hf
  rcases List.mem_map.mp hf with ⟨b, hb, rfl⟩
  rcases cut_seq_le _ _ _ hcut b hb with ⟨x, hx, hseq⟩
  rcases cut_covers _ _ _ hcut hlt q hq b hb x hx (Nat.le_trans hle hseq) with
    ⟨b', hb', hcarried⟩
  exact ⟨b', hb', cut_contains _ _ _ hcut b' hb' q hcarried⟩

/-- A point in flight after a flush was sent before, or is unsent, or is in one
    of its frames. -/
theorem flush_sent (s : Shared) (h : InOrder s.ledger) (last : QueuedPoint)
    (hlast : (flushPoints s.inner).2.getLast? = some last) (q : QueuedPoint)
    (hq : q ∈ (flushFrames s.inner last.seq).1.inflight) (hsent : q.sent = true) :
    q ∈ s.inner.queue.inflight ∨
      ∃ b ∈ Shared.carry s.ticket (flushPoints s.inner).2 (flushFrames s.inner last.seq).2,
        b.Contains q := by
  rw [flushFrames_inflight] at hq
  rcases List.mem_map.mp hq with ⟨q₀, hq₀, rfl⟩
  rcases hs₀ : q₀.sent with _ | _
  · refine Or.inr ?_
    rw [hs₀, Bool.false_or] at hsent
    rcases List.any_eq_true.mp hsent with ⟨f, hf, hle⟩
    rcases flush_contains s h last hlast q₀ (flushPoints_mem _ q₀ hq₀ hs₀) f hf
      (of_decide_eq_true hle) with ⟨b, hb, hcontains⟩
    exact ⟨b, hb, contains_congr b q₀ _ rfl rfl hcontains⟩
  · refine Or.inl ?_
    rw [Bool.true_or, ← hs₀]
    exact flushPoints_sent _ q₀ hq₀ hs₀

/-- After a live point went out with nothing unsent in flight, a sent point was
    sent before or is the new one. -/
theorem goLive_sent (geo : Geo) (l : Ledger) (ticket : Ticket) (point : LatLng)
    (hnone : l.queue.unsentInflight = []) (q : QueuedPoint)
    (hq : q ∈ (l.goLive geo ticket point).queue.inflight) :
    (q ∈ l.queue.inflight ∧ q.sent = true) ∨ (q.seq = l.last + 1 ∧ q.point = point) := by
  rcases l.queue.enqueue_inflight geo (l.last + 1) point with ⟨k, hk, _⟩
  rw [Ledger.goLive, OfflineQueue.recordFrame_eq] at hq
  rcases List.mem_map.mp hq with ⟨q₀, hq₀, rfl⟩
  rw [hk] at hq₀
  rcases List.mem_append.mp (List.mem_of_mem_drop hq₀) with hq₀ | hq₀
  · refine Or.inl ?_
    rcases hs₀ : q₀.sent with _ | _
    · have := (OfflineQueue.unsentInflight_mem _ q₀).mpr ⟨hq₀, hs₀⟩
      rw [hnone] at this
      exact absurd this List.not_mem_nil
    · rw [Bool.true_or, ← hs₀]
      exact ⟨hq₀, rfl⟩
  · rw [List.mem_singleton.mp hq₀]
    exact Or.inr ⟨rfl, rfl⟩

/-- The frame of a live point contains it. -/
theorem live_contains (l : Ledger) (ticket : Ticket) (point : LatLng) (q : QueuedPoint)
    (hseq : q.seq = l.last + 1) (hpoint : q.point = point) :
    ({ ticket := ticket
       frame := { seq := truncU32 (l.last + 1), points := [stripLiveTime point] }
       carried := [(l.last + 1, point)] } : Built).Contains q := by
  rw [← hpoint, ← hseq]
  exact ⟨List.mem_singleton_self _, _, List.mem_singleton_self _, rfl⟩

/-! ## Framed points -/

/-- Framed points stay framed while points only leave or lose their flags. -/
theorem framing_sub (l l' : Ledger) (hb : l'.built = l.built) (he : l'.epoch = l.epoch)
    (hlast : l.last ≤ l'.last)
    (hq : ∀ q ∈ l'.queue.inflight, ∃ q₀ ∈ l.queue.inflight, q₀.seq = q.seq ∧
      q₀.point = q.point ∧ (q.sent = true → q₀.sent = true)) (h : Framing l) : Framing l' := by
  refine ⟨?_, ?_, ?_⟩
  · rw [hb, he]
    exact h.epochs
  · rw [hb, he]
    exact fun b hmem hepoch x hx => Nat.le_trans (h.carried b hmem hepoch x hx) hlast
  · rw [hb, he]
    intro q hmem hframed
    rcases hq q hmem with ⟨q₀, hq₀, hseq, hpoint, hsent⟩
    rcases h.framed q₀ hq₀ (hframed.imp hsent fun hcar => by rwa [hseq]) with ⟨b, hmem, hc⟩
    exact ⟨b, hmem, contains_congr b q₀ q hseq.symm hpoint.symm hc⟩

/-- A new numbering has no frames yet. -/
theorem framing_epoch (l l' : Ledger) (hb : l'.built = l.built) (he : l'.epoch = l.epoch + 1)
    (hq : ∀ q ∈ l'.queue.inflight, q ∈ l.queue.inflight) (h : Framing l) : Framing l' := by
  have hold : ∀ b ∈ l.built, b.ticket.epoch ≠ l.epoch + 1 := by
    intro b hmem hepoch
    have := h.epochs b hmem
    omega
  refine ⟨?_, ?_, ?_⟩
  · rw [hb, he]
    exact fun b hmem => Nat.le_succ_of_le (h.epochs b hmem)
  · rw [hb, he]
    exact fun b hmem hepoch => absurd hepoch (hold b hmem)
  · rw [hb, he]
    rintro q hmem (hsent | ⟨b, hmem', hepoch, _⟩)
    · exact h.framed q (hq q hmem) (Or.inl hsent)
    · exact absurd hepoch (hold b hmem')

/-- A flush does not lower the cursor, and numbers what it takes from staging
    beyond it. -/
theorem flushPoints_old (g : Inner) :
    g.lastAssignedSeq ≤ (flushPoints g).1.lastAssignedSeq ∧
      ∀ q ∈ (flushPoints g).1.queue.inflight, q ∈ g.queue.inflight ∨ g.lastAssignedSeq < q.seq := by
  rcases flushPoints_cases g with ⟨_, hp⟩ | ⟨_, n, hp⟩
  · rw [hp]
    exact ⟨Nat.le_refl _, fun q hq => Or.inl hq⟩
  · rw [hp]
    refine ⟨Nat.le_add_right _ _, fun q hq => ?_⟩
    rcases List.mem_append.mp hq with hq | hq
    · exact Or.inl hq
    · exact Or.inr (numbered_gt _ _ q hq)

/-- A flush frames the points it marks. -/
theorem flush_framing (s : Shared) (h : InOrder s.ledger) (last : QueuedPoint)
    (hlast : (flushPoints s.inner).2.getLast? = some last) (hf : Framing s.ledger) :
    Framing { s.ledger with
      queue := (flushFrames s.inner last.seq).1
      last := (flushPoints s.inner).1.lastAssignedSeq
      built := s.ledger.built ++ Shared.carry s.ticket (flushPoints s.inner).2
        (flushFrames s.inner last.seq).2 } := by
  have hcut := flush_cut s h last hlast
  have hnum := flushPoints_numbered s h
  rcases flushPoints_old s.inner with ⟨hle, hold⟩
  refine ⟨fun b hb => ?_, fun b hb hepoch x hx => ?_, fun q hq hframed => ?_⟩
  -- A frame carries points of before, or those the flush cut.
  · rcases List.mem_append.mp hb with hb | hb
    · exact hf.epochs b hb
    · rw [(cut_built _ _ _ hcut b hb).1]
      exact Nat.le_refl _
  · rcases List.mem_append.mp hb with hb | hb
    · exact Nat.le_trans (hf.carried b hb hepoch x hx) hle
    · rcases cut_mem_carried _ _ _ hcut b hb x hx with ⟨q, hq, rfl⟩
      exact (numbered_mem _ _ hnum q hq).2
  · rcases hs : q.sent with _ | _
    · -- Still unsent, so it was among the points the flush took.
      rw [flushFrames_inflight] at hq
      rcases List.mem_map.mp hq with ⟨q₀, hq₀, rfl⟩
      have hs₀ : q₀.sent = false := (Bool.or_eq_false_iff.mp hs).1
      rcases hframed with hsent | ⟨b, hb, hepoch, x, hx, hseq⟩
      · cases hs.symm.trans hsent
      · -- A frame that covers it carries it, or another does: old points by an old
        -- frame, and new ones by the cut, which covers what it numbers.
        rcases List.mem_append.mp hb with hb | hb
        · rcases hold q₀ hq₀ with hmem | hgt
          · rcases hf.framed q₀ hmem (Or.inr ⟨b, hb, hepoch, x, hx, hseq⟩) with ⟨b', hb', hc⟩
            exact ⟨b', List.mem_append_left _ hb', contains_congr b' q₀ _ rfl rfl hc⟩
          · have hle' := hf.carried b hb hepoch x hx
            exact absurd hgt (Nat.not_lt_of_le (Nat.le_trans hseq hle'))
        · rcases cut_covers _ _ _ hcut (numbered_pairwise _ _ hnum) q₀
            (flushPoints_mem _ q₀ hq₀ hs₀) b hb x hx hseq with ⟨b', hb', hcarried⟩
          exact ⟨b', List.mem_append_right _ hb',
            contains_congr b' q₀ _ rfl rfl (cut_contains _ _ _ hcut b' hb' q₀ hcarried)⟩
    · rcases flush_sent s h last hlast q hq hs with hmem | ⟨b, hb, hc⟩
      · rcases hf.framed q hmem (Or.inl hs) with ⟨b, hb, hc⟩
        exact ⟨b, List.mem_append_left _ hb, hc⟩
      · exact ⟨b, List.mem_append_right _ hb, hc⟩

/-- A live point is framed, and the rest has been. -/
theorem goLive_framing (geo : Geo) (l : Ledger) (ticket : Ticket) (point : LatLng)
    (hticket : ticket.epoch = l.epoch) (hnone : l.queue.unsentInflight = []) (hf : Framing l) :
    Framing (l.goLive geo ticket point) := by
  refine ⟨fun b hb => ?_, fun b hb hepoch x hx => ?_, fun q hq _ => ?_⟩
  · rcases List.mem_append.mp hb with hb | hb
    · exact hf.epochs b hb
    · rw [List.mem_singleton.mp hb]
      exact Nat.le_of_eq hticket
  · rcases List.mem_append.mp hb with hb | hb
    · exact Nat.le_succ_of_le (hf.carried b hb hepoch x hx)
    · rw [List.mem_singleton.mp hb] at hx
      rw [List.mem_singleton.mp hx]
      exact Nat.le_refl _
  · rcases goLive_sent geo l ticket point hnone q hq with ⟨hmem, hsent⟩ | ⟨hseq, hpoint⟩
    · rcases hf.framed q hmem (Or.inl hsent) with ⟨b, hb, hc⟩
      exact ⟨b, List.mem_append_left _ hb, hc⟩
    · exact ⟨_, List.mem_append_right _ (List.mem_singleton_self _),
        live_contains l ticket point q hseq hpoint⟩

/-- An unsent point up to `acked` has a number that a frame has reached. -/
theorem framedUpTo_reached (l : Ledger) (acked : Nat) (h : l.framedUpTo acked = true)
    (q : QueuedPoint) (hq : q ∈ l.queue.inflight) (hunsent : q.sent = false)
    (hle : q.seq ≤ acked) :
    ∃ b ∈ l.built, b.ticket.epoch = l.epoch ∧ ∃ x ∈ b.carried, q.seq ≤ x.1 := by
  have hmem := (OfflineQueue.unsentInflight_mem _ q).mpr ⟨hq, hunsent⟩
  have hpoint := List.all_eq_true.mp h q hmem
  rw [decide_eq_false (Nat.not_lt_of_le hle), Bool.false_or] at hpoint
  rcases List.any_eq_true.mp hpoint with ⟨b, hb, hboth⟩
  rcases Bool.and_eq_true_iff.mp hboth with ⟨hepoch, hcarried⟩
  rcases List.any_eq_true.mp hcarried with ⟨x, hx, hseq⟩
  exact ⟨b, hb, of_decide_eq_true hepoch, x, hx, of_decide_eq_true hseq⟩

/-- Acknowledging drops sent points, and unsent ones that frames have reached. -/
theorem framing_drops (l l' : Ledger) (acked : Nat) (h : Framing l)
    (hcond : l.framedUpTo acked = true) (hqueue : l'.queue = l.queue.ackThrough acked) :
    DropsFramed l l' := by
  intro q hq hdropped
  have hle : q.seq ≤ acked := by
    by_contra hgt
    rw [hqueue] at hdropped
    exact hdropped (List.mem_filter.mpr ⟨hq, decide_eq_true (by omega)⟩)
  rcases hsent : q.sent with _ | _
  · exact h.framed q hq (Or.inr (framedUpTo_reached l acked hcond q hq hsent hle))
  · exact h.framed q hq (Or.inl hsent)

section Client

variable (geo : Geo)

/-- Nothing unsent is in flight when a point goes out live. -/
theorem framesUnsent_none (s : Shared) (now : Instant) (wall : Int) (point : LatLng)
    (hcond : (Section.publishWork now wall point).framesUnsent geo s = true)
    (hlive : goesLive geo now wall point s.inner = true) :
    s.inner.queue.unsentInflight = [] := by
  rcases Bool.or_eq_true_iff.mp hcond with hnot | hempty
  · rw [hlive] at hnot
    cases hnot
  · exact List.isEmpty_iff.mp hempty

/-- The sections set flags together with frames. -/
theorem ledger_flipsFramed {α : Type} (op : Section α) (s : Shared) (l' : Ledger)
    (hstep : LedgerStep geo s op l') (hcond : op.framesUnsent geo s = true)
    (h : InOrder s.ledger) : FlipsFramed s.ledger l' := by
  have hsub : ∀ l : Ledger, l.built = s.ledger.built →
      (∀ q ∈ l.queue.inflight, q.sent = true → q ∈ s.ledger.queue.inflight) →
      FlipsFramed s.ledger l := by
    intro l hb hq
    exact ⟨[], by rw [hb, List.append_nil], fun q hmem hsent hnot =>
      absurd (hq q hmem hsent) hnot⟩
  -- Without new flags there is nothing to frame.
  cases hstep with
  | resumeOk => exact hsub _ rfl fun q hq _ => List.mem_of_mem_filter hq
  | ack => exact hsub _ rfl fun q hq _ => List.mem_of_mem_filter hq
  | stopped => exact hsub _ rfl fun q hq _ => absurd hq List.not_mem_nil
  | startTrack => exact hsub _ rfl fun q hq _ => absurd hq List.not_mem_nil
  | publishStart => exact hsub _ rfl fun q hq _ => absurd hq List.not_mem_nil
  | error sock e uid queue starting hdrop =>
      rcases hdrop with ⟨_, rfl⟩ | ⟨_, rfl⟩
      · exact hsub _ rfl fun q hq _ => hq
      · exact hsub _ rfl fun q hq _ => absurd hq List.not_mem_nil
  | closed =>
      refine hsub _ rfl fun q hq hsent => ?_
      rcases List.mem_map.mp hq with ⟨q₀, _, rfl⟩
      cases hsent
  | flush last hready hlast =>
      refine ⟨_, rfl, fun q hq hsent hnot => ?_⟩
      rcases flush_sent s h last hlast q hq hsent with hold | hnew
      · exact absurd hold hnot
      · exact hnew
  | publishStaged now wall point emitted =>
      rcases s.inner.queue.pushStaging_inflight geo emitted with ⟨k, hk, _⟩
      exact hsub _ rfl fun q hq _ => List.mem_of_mem_drop (hk ▸ hq)
  | publishLive now wall point emitted hlive =>
      have hnone := framesUnsent_none geo s now wall point hcond hlive
      refine ⟨_, rfl, fun q hq _ hnot => ?_⟩
      rcases goLive_sent geo s.ledger s.ticket emitted hnone q hq with ⟨hold, _⟩ | ⟨hseq, hpoint⟩
      · exact absurd hold hnot
      · exact ⟨_, List.mem_singleton_self _, live_contains s.ledger s.ticket emitted q hseq hpoint⟩
  | _ => exact hsub _ rfl fun q hq _ => hq

/-- The sections keep track of which points have been framed. -/
theorem ledger_framing {α : Type} (op : Section α) (s : Shared) (l' : Ledger)
    (hstep : LedgerStep geo s op l') (hcond : op.framesUnsent geo s = true)
    (h : InOrder s.ledger) (hf : Framing s.ledger) : Framing l' := by
  have hsub : ∀ l : Ledger, l.built = s.ledger.built → l.epoch = s.ledger.epoch →
      s.ledger.last ≤ l.last → (∀ q ∈ l.queue.inflight, q ∈ s.ledger.queue.inflight) →
      Framing l := fun l hb he hlast hq =>
    framing_sub s.ledger l hb he hlast (fun q hmem => ⟨q, hq q hmem, rfl, rfl, id⟩) hf
  have hnil : ∀ q ∈ ([] : List QueuedPoint), q ∈ s.ledger.queue.inflight :=
    fun q hq => absurd hq List.not_mem_nil
  -- Frames are built by a flush and by a live publish; elsewhere the points left were
  -- there before, or the epoch is a new one.
  cases hstep with
  | resumeOk sock uid acked =>
      refine hsub _ rfl rfl ?_ fun q hq => List.mem_of_mem_filter hq
      dsimp only
      split <;> omega
  | ack => exact hsub _ rfl rfl (Nat.le_refl _) fun q hq => List.mem_of_mem_filter hq
  | stopped => exact hsub _ rfl rfl (Nat.le_refl _) hnil
  | error sock e uid queue starting hdrop =>
      rcases hdrop with ⟨_, rfl⟩ | ⟨_, rfl⟩
      · exact hsub _ rfl rfl (Nat.le_refl _) fun q hq => hq
      · exact hsub _ rfl rfl (Nat.le_refl _) hnil
  | closed =>
      refine framing_sub s.ledger _ rfl rfl (Nat.le_refl _) (fun q hq => ?_) hf
      rcases List.mem_map.mp hq with ⟨q₀, hq₀, rfl⟩
      exact ⟨q₀, hq₀, rfl, rfl, by rintro ⟨⟩⟩
  | trackStarted => exact framing_epoch s.ledger _ rfl rfl (fun q hq => hq) hf
  | startTrack => exact framing_epoch s.ledger _ rfl rfl hnil hf
  | publishStart => exact framing_epoch s.ledger _ rfl rfl hnil hf
  | resumeTrack => exact framing_epoch s.ledger _ rfl rfl (fun q hq => hq) hf
  | flush last hready hlast => exact flush_framing s h last hlast hf
  | publishStaged now wall point emitted =>
      rcases s.inner.queue.pushStaging_inflight geo emitted with ⟨k, hk, _⟩
      exact hsub _ rfl rfl (Nat.le_refl _) fun q hq => List.mem_of_mem_drop (hk ▸ hq)
  | publishLive now wall point emitted hlive =>
      exact goLive_framing geo s.ledger s.ticket emitted rfl
        (framesUnsent_none geo s now wall point hcond hlive) hf
  | _ => exact hsub _ rfl rfl (Nat.le_refl _) fun q hq => hq

/-- A section that acknowledges drops framed points only. -/
theorem dispatch_dropsFramed {α : Type} (op : Section α) (s : Shared) (acked : Nat)
    (hop : op.acks = some acked) (hcond : op.framesUnsent geo s = true)
    (hf : Framing s.ledger) : DropsFramed s.ledger (op.run geo s).1.ledger := by
  have hstep := run_ledger geo op s
  generalize (op.run geo s).1.ledger = l' at hstep
  cases hstep with
  | resumeOk sock uid seq => exact framing_drops _ _ seq hf hcond rfl
  | ack sock seq => exact framing_drops _ _ seq hf hcond rfl
  | keep op hquiet =>
      -- The sections that acknowledge book what they do.
      cases op <;> cases hop <;> cases hquiet
  | _ => cases hop

variable (cfg : Config)

/-- In a run in which nothing overtakes unsent points, InFlight is in
    order and it is known which of its points have been framed. -/
theorem reach_framing (p : Pool Shared Task)
    (h : (client geo).Reach (Started cfg)
      ((client geo).whenever fun p i t a => framesUnsent geo p i t a = true) p) :
    InOrder p.shared.ledger ∧ Framing p.shared.ledger := by
  refine (client geo).reach_shared (Started cfg) _
    (fun s => InOrder s.ledger ∧ Framing s.ledger) ?_ ?_ p h
  · intro p hp
    rcases started_pool cfg p hp with ⟨now, rfl⟩
    exact ⟨inOrder_nil _ _ _ _ _ _ rfl, fun b hb => absurd hb List.not_mem_nil,
      fun b hb => absurd hb List.not_mem_nil, fun q hq => absurd hq List.not_mem_nil⟩
  · rintro p i c t a _ _ hcond ⟨hI, hf⟩
    rcases Bool.and_eq_true_iff.mp hcond with ⟨hunsent, hrenumbers⟩
    have hstep := run_ledger geo a.op p.shared
    exact ⟨ledger_inOrder geo a.op p.shared _ hstep hrenumbers hI,
      ledger_framing geo a.op p.shared _ hstep hunsent hI hf⟩

/-- In a run in which nothing overtakes unsent points, every step sets flags
    together with frames, and dispatching an `Ack` or a `ResumeOk` drops framed
    points only. -/
theorem reach_flipsFramed (p : Pool Shared Task)
    (h : (client geo).Reach (Started cfg)
      ((client geo).whenever fun p i t a => framesUnsent geo p i t a = true) p) :
    ∀ l q, (client geo).whenever (fun p i t a => framesUnsent geo p i t a = true) p l →
      (client geo).step p l = some q →
        FlipsFramed p.shared.ledger q.shared.ledger ∧
          (Acknowledges p l → DropsFramed p.shared.ledger q.shared.ledger) := by
  rcases reach_framing geo cfg p h with ⟨hI, hf⟩
  intro l q hok hstep
  cases l with
  | resume i c =>
      rcases ((client geo).step_resume_iff p q i c).mp hstep with ⟨t, a, ht, ha, rfl⟩
      have hunsent := (Bool.and_eq_true_iff.mp (hok t a ht ha)).1
      refine ⟨ledger_flipsFramed geo a.op p.shared _ (run_ledger geo a.op p.shared) hunsent hI,
        ?_⟩
      rintro ⟨t', a', ht', ha', hacks⟩
      -- The label names one task and one section.
      cases Option.some.inj (ht.symm.trans ht')
      cases Option.some.inj (ha.symm.trans ha')
      rcases Option.isSome_iff_exists.mp hacks with ⟨acked, hop⟩
      exact dispatch_dropsFramed geo a.op p.shared acked hop hunsent hf
  | spawn t =>
      rcases ((client geo).step_spawn_iff p q t).mp hstep with ⟨_, rfl⟩
      exact ⟨⟨[], (List.append_nil _).symm, fun q hq _ hnot => absurd hq hnot⟩, False.elim⟩

end Client

/-- A live point gets its flag together with its frame, and the `Ack` that takes it
    out of InFlight finds that frame. -/
theorem reach_flipsFramed_published :
    (∃ p q : Pool Shared Task, p.shared.inner.queue.inflight = [] ∧
      q.shared.inner.queue.inflight.map (·.sent) = [true] ∧
      FlipsFramed p.shared.ledger q.shared.ledger) ∧
    ∃ p q : Pool Shared Task, p.shared.inner.queue.inflight.map (·.seq) = [1] ∧
      q.shared.inner.queue.inflight = [] ∧ DropsFramed p.shared.ledger q.shared.ledger := by
  constructor
  -- A live publish: the point enters InFlight as sent.
  · rcases reach_of_watched (framesUnsent flatGeo)
      (tracking ++ [.spawn (.publish (.start (sample 1000))), .resume 4 (.clock 0 1000)])
      (fun p => decide (p.shared.inner.queue.inflight = [] ∧
        (client flatGeo).watch (framesUnsent flatGeo) p
          (.resume 4 (.clock 1000000000 1000)) = true) &&
        ((client flatGeo).step p (.resume 4 (.clock 1000000000 1000))).any
          fun q : Pool Shared Task =>
            decide (q.shared.inner.queue.inflight.map (·.sent) = [true]))
      (by decide +kernel) with ⟨p, hp, hrun⟩
    rcases Bool.and_eq_true_iff.mp hrun with ⟨hbefore, hafter⟩
    rcases of_decide_eq_true hbefore with ⟨hnone, hwatch⟩
    rcases Option.any_eq_true _ _ |>.mp hafter with ⟨q, hq, hsent⟩
    exact ⟨p, q, hnone, of_decide_eq_true hsent,
      (reach_flipsFramed flatGeo someConfig p hp _ q
        ((client flatGeo).whenever_of_watch _ p _ hwatch) hq).1⟩
  -- Its Ack: the point leaves InFlight.
  · rcases reach_of_watched (framesUnsent flatGeo) (tracking ++ publishSteps 4 1000)
      (fun p => decide (p.shared.inner.queue.inflight.map (·.seq) = [1] ∧
        p.tasks[2]? = some (Task.reader 0 1 .reading) ∧
        (client flatGeo).watch (framesUnsent flatGeo) p (.resume 2 (.frame (.ack 1))) = true) &&
        ((client flatGeo).step p (.resume 2 (.frame (.ack 1)))).any fun q : Pool Shared Task =>
          decide (q.shared.inner.queue.inflight = []))
      (by decide +kernel) with ⟨p, hp, hrun⟩
    rcases Bool.and_eq_true_iff.mp hrun with ⟨hbefore, hafter⟩
    rcases of_decide_eq_true hbefore with ⟨hone, hreader, hwatch⟩
    rcases Option.any_eq_true _ _ |>.mp hafter with ⟨q, hq, hnone⟩
    exact ⟨p, q, hone, of_decide_eq_true hnone,
      (reach_flipsFramed flatGeo someConfig p hp _ q
        ((client flatGeo).whenever_of_watch _ p _ hwatch) hq).2 ⟨_, _, hreader, rfl, rfl⟩⟩

/-- A point was sent on a socket that closed. The next socket has resumed, the
    flush has not come yet, and a `publish` is about to send its point. -/
def resumedUnsent : List (Label Task Input) :=
  tracking ++ publishSteps 4 1000 ++ [.resume 4 .go, .resume 2 .eof, .resume 5 (.random 0),
    .resume 5 .go] ++ dialSteps 5 ++ [.resume 5 .go, .resume 5 .go,
    .resume 7 (.frame (.resumeOk "T" 0)), .spawn (.publish (.start (sample 2000))),
    .resume 8 (.clock 0 2000)]

/-- The live point flags the one before it, and the only frame built carries
    the live point. -/
theorem unframed_counted_sent :
    ¬ ∀ p, (client flatGeo).Reach (Started someConfig) Machine.anyStep p →
      ∀ l q, (client flatGeo).step p l = some q →
        FlipsFramed p.shared.ledger q.shared.ledger := by
  intro hall
  rcases reach_of_opening resumedUnsent
    (fun p => ((client flatGeo).step p (.resume 8 (.clock 2000000000 2000))).any
      fun q : Pool Shared Task => decide (p.shared.built.length = 1 ∧
        ((q.shared.built.drop 1).map fun b => b.carried.map Prod.fst) = [[2]] ∧
        ∃ x ∈ q.shared.inner.queue.inflight, x.seq = 1 ∧ x.sent = true ∧
          x ∉ p.shared.inner.queue.inflight))
    (by decide +kernel) with ⟨p, hp, hrun⟩
  rcases Option.any_eq_true _ _ |>.mp hrun with ⟨q, hq, hfacts⟩
  rcases of_decide_eq_true hfacts with ⟨hlen, hbuilt, x, hx, hseq, hsent, hnot⟩
  rcases hall p hp _ q hq with ⟨bs, hbs, hframed⟩
  rcases hframed x hx hsent hnot with ⟨b, hb, hcarried, _⟩
  have hnew : q.shared.built.drop 1 = bs := by
    have hbs' : q.shared.built = p.shared.built ++ bs := hbs
    rw [hbs', ← hlen, List.drop_left]
  rw [hnew] at hbuilt
  have hnums := List.mem_map_of_mem (f := fun b : Built => b.carried.map Prod.fst) hb
  rw [hbuilt, List.mem_singleton] at hnums
  have hone := List.mem_map_of_mem (f := Prod.fst) hcarried
  rw [hnums, hseq, List.mem_singleton] at hone
  cases hone

end Tracking

end Pickpoint
