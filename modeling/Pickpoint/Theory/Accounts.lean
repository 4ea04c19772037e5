import Mathlib.Data.List.Induction
import Pickpoint.Theory.Conservation
import Pickpoint.Theory.PublishRate

/-!
# Accounts

Where every published point is, at any moment of any run.

`Theory.Conservation` is about the offline queue by itself, under any operations.
Here the queue is the one of the session, and its operations are those the locked
sections do (`Section.queueOps`, `run_queue`): acknowledgements, the tracks that
start and end, the sockets that are lost, the frames of a flush, and the points
that `publish` lets through. A run with these operations noted is a run of the
queue, so the queue of the session is conserved as that one is.

The account of a queue keeps, next to its items, those that have left it, each
with the operation by which it left. Every point put in is then in one place, once:
in the queue, or among those that left (`Balanced`). It left by an `Ack` for its
number or a later one, because a track was started or ended, or because the queue
was full.

## Main definitions

* `Departure`, `Account`, `Account.run`: The queue and what has left it.
* `Balanced`: Every point is in one place, for a reason.
* `publishEmits`, `flushOps`, `Section.queueOps`: What the sections do to the queue.
* `Booking`, `noteBookings`: The operations of a run.
* `Accounted`: The points of a run.

## Theorems

* `run_balanced`: The account of any operations.
* `run_queue`: A section does its operations.
* `reach_accounted`: The account of any run.
-/

namespace Pickpoint

namespace Tracking

open Interleave

/-! ## The account of a queue -/

/-- An item that left the queue, by which operation, and how many points were in
    the queue before. -/
structure Departure where
  item : Item
  op : QueueOp
  size : Nat
  deriving DecidableEq

/-- The queue with its items and those that have left, oldest first: a run of the
    queue that forgets nothing. -/
structure Account where
  track : Tracked
  left : List Departure := []

/-- The item an operation puts in. -/
def QueueOp.arrival (op : QueueOp) (t : Tracked) : List Item :=
  (op.inserts.map fun point => (⟨t.next, point⟩ : Item)).toList

namespace Account

/-- An operation, and who leaves by it. -/
def step (geo : Geo) (b : Account) (op : QueueOp) : Account :=
  { track := b.track.step geo op
    left := b.left ++
      ((b.track.present ++ op.arrival b.track).filter fun x =>
        !decide (x ∈ (b.track.step geo op).present)).map fun x => ⟨x, op, b.track.q.size⟩ }

/-- The account of a sequence of operations on a new queue. -/
def run (geo : Geo) (maxSize : Nat) (ops : List QueueOp) : Account :=
  ops.foldl (step geo) { track := { q := OfflineQueue.new maxSize } }

/-- All items that were ever put in. -/
def items (b : Account) : List Item := b.track.present ++ b.left.map (·.item)

end Account

/-- Why an item left: its number was acknowledged, everything was cleared, or the
    queue was full when a point was put in. -/
def Departure.Fair (t : Tracked) (d : Departure) : Prop :=
  (∃ ack seq, d.op = .ackThrough ack ∧ (seq, d.item) ∈ t.numbered ∧ seq ≤ ack) ∨ d.op = .clear ∨
    (d.op.inserts.isSome = true ∧ d.size = t.q.maxSize)

/-- The account of a queue after `ops`: there is an item for every point put in,
    each is in one place, and who left had to. -/
structure Balanced (ops : List QueueOp) (b : Account) : Prop where
  number : b.track.next = (ops.filterMap QueueOp.inserts).length
  total : (b.items.map (·.id)).Perm (List.range b.track.next)
  points : ∀ x ∈ b.items, (ops.filterMap QueueOp.inserts)[x.id]? = some x.point
  fair : ∀ d ∈ b.left, d.Fair b.track

/-- The account is of the tracked queue. -/
theorem run_track (geo : Geo) (maxSize : Nat) (ops : List QueueOp) :
    (Account.run geo maxSize ops).track = Tracked.run geo maxSize ops := by
  induction ops using List.reverseRecOn with
  | nil => rfl
  | append_singleton ops op ih =>
      rw [Account.run, Tracked.run, List.foldl_concat, List.foldl_concat]
      exact congrArg (Tracked.step geo · op) ih

/-- An operation puts in what it inserts. -/
theorem step_next (geo : Geo) (t : Tracked) (op : QueueOp) :
    (t.step geo op).next = t.next + (op.arrival t).length := by
  cases op <;> rfl

/-- Numbers are kept. -/
theorem step_numbered (geo : Geo) (t : Tracked) (op : QueueOp) :
    t.numbered ⊆ (t.step geo op).numbered := by
  cases op <;> first | exact List.Subset.refl _ | exact List.subset_append_left _ _

theorem step_maxSize (geo : Geo) (t : Tracked) (op : QueueOp) :
    (t.step geo op).q.maxSize = t.q.maxSize := by
  rw [step_q]
  exact (run_size geo t.q op).1

/-- What an operation puts in is new. -/
theorem arrival_cases (op : QueueOp) (t : Tracked) :
    (op.inserts = none ∧ op.arrival t = []) ∨
      ∃ point, op.inserts = some point ∧ op.arrival t = [⟨t.next, point⟩] := by
  rcases h : op.inserts with _ | point
  · exact Or.inl ⟨rfl, by simp only [QueueOp.arrival, h, Option.map_none, Option.toList_none]⟩
  · refine Or.inr ⟨point, rfl, ?_⟩
    simp only [QueueOp.arrival, h, Option.map_some, Option.toList_some]

/-- The items before an operation with the new one are all different. -/
theorem arrival_once (op : QueueOp) (t : Tracked) (h : Placed t) :
    ((t.present ++ op.arrival t).map (·.id)).Nodup := by
  rw [List.map_append, List.nodup_append]
  refine ⟨h.once, ?_, ?_⟩
  · rcases arrival_cases op t with ⟨_, hnil⟩ | ⟨point, _, hone⟩
    · rw [hnil]
      exact List.nodup_nil
    · rw [hone]
      exact List.nodup_singleton _
  · intro n hn m hm
    rcases List.mem_map.mp hn with ⟨x, hx, rfl⟩
    rcases List.mem_map.mp hm with ⟨y, hy, rfl⟩
    rcases arrival_cases op t with ⟨_, hnil⟩ | ⟨point, _, hone⟩
    · rw [hnil] at hy
      cases hy
    · rw [hone, List.mem_singleton] at hy
      rw [hy]
      exact Nat.ne_of_lt (placed_fresh t h x hx)

/-- The items after an operation and those that leave by it are the items before it
    with the new one. -/
theorem step_splits (geo : Geo) (t : Tracked) (op : QueueOp) (h : Conserved t) :
    ((t.step geo op).present ++ (t.present ++ op.arrival t).filter fun x =>
      !decide (x ∈ (t.step geo op).present)).Perm (t.present ++ op.arrival t) := by
  have honce := (arrival_once op t h.toPlaced).of_map
  have hstays : ((t.present ++ op.arrival t).filter fun x =>
      decide (x ∈ (t.step geo op).present)).Perm (t.step geo op).present := by
    refine (List.perm_ext_iff_of_nodup (honce.filter _)
      (step_conserved geo t op h).once.of_map).mpr fun x => ?_
    rw [List.mem_filter, decide_eq_true_eq, and_iff_right_iff_imp]
    intro hx
    rcases (step_losesOnly geo t op h).come x hx with hold | ⟨hins, hid⟩
    · exact List.mem_append_left _ hold
    · refine List.mem_append_right _ ?_
      simp only [QueueOp.arrival, hins, Option.map_some, Option.toList_some, List.mem_singleton]
      rw [← hid]
  exact (hstays.symm.append_right _).trans (List.filter_append_perm _ _)

/-- Whoever leaves by an operation has to. -/
theorem step_fair (geo : Geo) (t : Tracked) (op : QueueOp) (h : Conserved t) (x : Item)
    (hx : x ∈ t.present ++ op.arrival t) (hgone : x ∉ (t.step geo op).present) :
    (⟨x, op, t.q.size⟩ : Departure).Fair t := by
  have hlose := step_losesOnly geo t op h
  rcases List.mem_append.mp hx with hold | hnew
  · rcases hlose.gone x hold hgone with ⟨ack, seq, hop, hmem, hle⟩ | hop | ⟨hins, hfull⟩
    · exact Or.inl ⟨ack, seq, hop, h.inflightOrder.subset hmem, hle⟩
    · exact Or.inr (Or.inl hop)
    · exact Or.inr (Or.inr ⟨hins, Nat.le_antisymm h.cap (Nat.le_of_lt_succ hfull)⟩)
  · rcases arrival_cases op t with ⟨_, hnil⟩ | ⟨point, hins, hone⟩
    · rw [hnil] at hnew
      cases hnew
    · have hsome : op.inserts.isSome = true := by rw [hins]; rfl
      suffices hfull : ¬ t.q.size < t.q.maxSize from
        Or.inr (Or.inr ⟨hsome, Nat.le_antisymm h.cap (Nat.le_of_not_lt hfull)⟩)
      intro hroom
      -- With room left the queue grows by the new item, so it is in there.
      have hgrown := hlose.excess hsome
      have hsub : (t.step geo op).present ⊆ t.present := by
        intro y hy
        rcases hlose.come y hy with hold | ⟨hpoint, hid⟩
        · exact hold
        · have hxy : y = x := by
            rw [hone, List.mem_singleton] at hnew
            rw [hins, Option.some.injEq] at hpoint
            rw [hnew, hpoint, ← hid]
          exact absurd (hxy ▸ hy) hgone
      have hle := (List.subperm_of_subset (step_conserved geo t op h).once.of_map hsub).length_le
      omega

theorem fair_step (geo : Geo) (t : Tracked) (op : QueueOp) (d : Departure) (h : d.Fair t) :
    d.Fair (t.step geo op) := by
  refine h.imp ?_ (Or.imp id fun ⟨hins, hsize⟩ => ⟨hins, ?_⟩)
  · rintro ⟨ack, seq, hop, hmem, hle⟩
    exact ⟨ack, seq, hop, step_numbered geo t op hmem, hle⟩
  · rw [step_maxSize, hsize]

/-- An operation keeps the account. -/
theorem step_balanced (geo : Geo) (ops : List QueueOp) (b : Account) (op : QueueOp)
    (hconserved : Conserved b.track) (h : Balanced ops b) :
    Balanced (ops ++ [op]) (b.step geo op) := by
  have hsplits := step_splits geo b.track op hconserved
  -- All items after the operation are those before it and the new one.
  have hitems : (b.step geo op).items.Perm (b.items ++ op.arrival b.track) := by
    simp only [Account.items, Account.step, List.map_append, List.map_map, Function.comp_def,
      List.map_id']
    have hswap : ∀ xs ys zs : List Item, (xs ++ (ys ++ zs)).Perm ((xs ++ zs) ++ ys) := by
      intro xs ys zs
      rw [List.append_assoc]
      exact List.perm_append_comm.append_left xs
    refine (hswap _ _ _).trans ((hsplits.append_right _).trans ?_)
    rw [List.append_assoc]
    exact hswap _ _ _
  have hinserts : (ops ++ [op]).filterMap QueueOp.inserts =
      ops.filterMap QueueOp.inserts ++ (op.arrival b.track).map (·.point) := by
    rw [List.filterMap_append]
    congr 1
    rcases arrival_cases op b.track with ⟨hins, hnil⟩ | ⟨point, hins, hone⟩
    · rw [hnil, List.filterMap_cons, hins]
      rfl
    · rw [hone, List.filterMap_cons, hins]
      rfl
  refine ⟨?_, ?_, ?_, ?_⟩
  · rw [hinserts, List.length_append, List.length_map, ← h.number]
    exact step_next geo b.track op
  · refine (hitems.map _).trans ?_
    rw [List.map_append]
    refine (h.total.append_right _).trans ?_
    have hnext : (b.step geo op).track.next = b.track.next + (op.arrival b.track).length :=
      step_next geo b.track op
    rw [hnext]
    rcases arrival_cases op b.track with ⟨_, hnil⟩ | ⟨point, _, hone⟩
    · rw [hnil, List.map_nil, List.append_nil]
      exact List.Perm.refl _
    · rw [hone, List.length_singleton, List.range_succ]
      exact List.Perm.refl _
  · intro x hx
    rw [hinserts]
    rcases List.mem_append.mp (hitems.subset hx) with hold | hnew
    · have hget := h.points x hold
      rw [List.getElem?_append_left (List.getElem?_eq_some_iff.mp hget).1]
      exact hget
    · rcases arrival_cases op b.track with ⟨_, hnil⟩ | ⟨point, _, hone⟩
      · rw [hnil] at hnew
        cases hnew
      · rw [hone, List.mem_singleton] at hnew
        rw [hnew, hone, h.number, List.getElem?_append_right (Nat.le_refl _), Nat.sub_self]
        rfl
  · intro d hd
    rcases List.mem_append.mp hd with hold | hnew
    · exact fair_step geo b.track op d (h.fair d hold)
    · rcases List.mem_map.mp hnew with ⟨x, hx, rfl⟩
      rcases List.mem_filter.mp hx with ⟨hmem, hgone⟩
      rw [Bool.not_eq_true', decide_eq_false_iff_not] at hgone
      exact fair_step geo b.track op _ (step_fair geo b.track op hconserved x hmem hgone)

/-- The account of any operations on a new queue. -/
theorem run_balanced (geo : Geo) (maxSize : Nat) (ops : List QueueOp) :
    Conserved (Account.run geo maxSize ops).track ∧
      Balanced ops (Account.run geo maxSize ops) := by
  induction ops using List.reverseRecOn with
  | nil => exact ⟨new_conserved maxSize, rfl, .refl _, by rintro x ⟨⟩, by rintro d ⟨⟩⟩
  | append_singleton ops op ih =>
      rcases ih with ⟨hconserved, hbalanced⟩
      have hrun : Account.run geo maxSize (ops ++ [op]) =
          (Account.run geo maxSize ops).step geo op := List.foldl_concat ..
      rw [hrun]
      exact ⟨step_conserved geo _ op hconserved, step_balanced geo ops _ op hconserved hbalanced⟩

/-! ## The operations of the sections -/

/-- What `publish` lets into the queue, or sends. -/
def publishEmits (geo : Geo) (now : Instant) (wall : Int) (point : LatLng) (g : Inner) :
    Option LatLng :=
  if canAcceptPublish g.nextPublishAt now 1 then
    (g.filter.push geo wall (stampLatLng wall point)).2
  else none

/-- A round of `flush_queue`: number the points unless those with a number go
    first, and record the frames. -/
def flushOps (g : Inner) : List QueueOp :=
  match (flushPoints g).2.getLast? with
  | none => []
  | some last =>
    (if g.queue.unsentInflight ≠ [] then []
      else [.assignFromStaging (min g.queue.stagingLen (100 * g.queue.windowRemaining))
        g.lastAssignedSeq]) ++ (flushFrames g last.seq).2.map fun f => .recordFrame f.seq

/-- What a section does to the queue. -/
def Section.queueOps (geo : Geo) (s : Shared) : {α : Type} → Section α → List QueueOp
  | _, .dispatchResumeOk _ _ acked => [.ackThrough acked]
  | _, .dispatchAck _ seq => [.ackThrough seq]
  | _, .dispatchTrackStopped _ uid => if s.inner.trackUid = uid then [.clear] else []
  | _, .dispatchError _ e =>
    if e.code = .trackNotFound ∨
        (s.inner.resumeWait.isSome = true ∧ isFatalResumeError e.code = true) then [.clear]
    else []
  | _, .socketClosed gen _ => if gen = s.inner.dialGen then [.markUnsent] else []
  | _, .flush => if flushReady s.inner then flushOps s.inner else []
  | _, .startTrack _ _ => [.clear]
  | _, .publishStart _ _ =>
    if s.inner.trackUid = "" ∧ s.inner.starting = false then [.clear] else []
  | _, .publishWork now wall point =>
    match publishEmits geo now wall point s.inner with
    | none => []
    | some emitted =>
      if publishOpen s.inner then
        [.enqueue (s.inner.lastAssignedSeq + 1) emitted,
          .recordFrame (s.inner.lastAssignedSeq + 1)]
      else [.pushStaging emitted]
  | _, _ => []

/-- Recording frames is one operation a frame. -/
theorem recordFrames_ops (geo : Geo) (room : Nat) (q : OfflineQueue) (fs : List LocFrame) :
    (recordFrames room q fs).1 =
      ((recordFrames room q fs).2.map fun f => QueueOp.recordFrame f.seq).foldl
        (QueueOp.run geo) q := by
  induction fs generalizing room q with
  | nil => rfl
  | cons f fs ih =>
      unfold recordFrames
      by_cases hfull : q.windowFull = true
      · rw [if_pos hfull]
        rfl
      · rw [if_neg hfull]
        by_cases hroom : room ≤ 1
        · rw [if_pos hroom]
          rfl
        · rw [if_neg hroom]
          exact ih (room - 1) (q.recordFrame f.seq)

/-- A round of `flush_queue` is its operations. -/
theorem flush_queue (geo : Geo) (s : Shared) :
    (flush s).1.inner.queue =
      (Section.flush.queueOps geo s).foldl (QueueOp.run geo) s.inner.queue := by
  simp only [Section.queueOps]
  by_cases hready : flushReady s.inner = true
  · rw [if_pos hready]
    unfold flush flushOps
    rw [hready]
    rcases hlast : (flushPoints s.inner).2.getLast? with _ | last
    · simp only [Bool.not_true, Bool.false_eq_true, if_false, hlast, List.foldl_nil]
    · simp only [Bool.not_true, Bool.false_eq_true, if_false, hlast, List.foldl_append,
        flushFrames, recordFrames_ops geo]
      congr 1
      by_cases hunsent : s.inner.queue.unsentInflight ≠ []
      · rw [if_pos hunsent, flushPoints, if_pos hunsent]
        rfl
      · rw [if_neg hunsent, flushPoints, if_neg hunsent]
        rfl
  · rw [Bool.not_eq_true] at hready
    simp only [flush, hready, Bool.not_false, if_true, Bool.false_eq_true, if_false, List.foldl_nil]

/-- The working block of `publish` is its operations. -/
theorem publishWork_queue (geo : Geo) (now : Instant) (wall : Int) (point : LatLng) (s : Shared) :
    (publishWork geo now wall point s).1.inner.queue =
      ((Section.publishWork now wall point).queueOps geo s).foldl (QueueOp.run geo)
        s.inner.queue := by
  simp only [Section.queueOps, publishEmits, publishWork]
  by_cases hrate : canAcceptPublish s.inner.nextPublishAt now 1 = true
  · simp only [hrate, Bool.not_true, Bool.false_eq_true, if_false, if_true]
    rcases s.inner.filter.push geo wall (stampLatLng wall point) with ⟨f, _ | emitted⟩
    · rfl
    · have hopen : publishOpen { s.inner with
          nextPublishAt := nextPublishAllowedAt s.inner.nextPublishAt now 1,
          filter := f } = publishOpen s.inner := rfl
      simp only [hopen]
      by_cases ho : publishOpen s.inner = true
      · simp only [ho, Bool.not_true, Bool.false_eq_true, if_false, if_true]
        rfl
      · simp only [ho, Bool.not_false, if_true, Bool.false_eq_true, if_false]
        rfl
  · simp only [hrate, Bool.not_false, if_true, Bool.false_eq_true, if_false, List.foldl_nil]

/-- The resume part of an `Error` clears the queue when the error is fatal. -/
theorem errorResume_queue (e : Error) (s : Shared) :
    (errorResume e s).inner.resumeWait = none ∧
      (errorResume e s).inner.queue =
        if s.inner.resumeWait.isSome = true ∧ isFatalResumeError e.code = true then
          s.inner.queue.clear
        else s.inner.queue := by
  by_cases hwait : s.inner.resumeWait.isSome = true
  · by_cases hfatal : isFatalResumeError e.code = true
    · simp only [errorResume, hwait, hfatal, if_true, Shared.resolve_frame, and_self,
        Shared.dropTrack]
    · simp only [errorResume, hwait, hfatal, if_true, if_false, Shared.resolve_frame, and_false,
        Bool.false_eq_true, and_self]
  · simp only [errorResume, hwait, Bool.false_eq_true, false_and, if_false, and_true]
    rwa [Bool.not_eq_true, Option.isSome_eq_false_iff, Option.isNone_iff_eq_none] at hwait

/-- An `Error` clears the queue when the track is not there, or cannot be resumed. -/
theorem dispatchError_queueOps (geo : Geo) (sock : Nat) (e : Error) (s : Shared) :
    (dispatchError sock e s).inner.queue =
      ((Section.dispatchError sock e).queueOps geo s).foldl (QueueOp.run geo) s.inner.queue := by
  rcases errorResume_queue e (s.receive sock (.error e.code e.message e.trackUid e.retryAfterMs))
    with ⟨hnone, hqueue⟩
  simp only [Shared.receive, Shared.logTraffic_frame] at hqueue
  have hkept : ∀ r : Shared, (errorStop e (errorStart e r)).inner.queue = r.inner.queue := by
    intro r
    simp only [errorStop, Shared.resolve_frame, errorStart_inner]
  have hinner : (dispatchError sock e s).inner =
      (errorTrackNotFound e (errorStop e (errorStart e (errorResume e
        (s.receive sock (.error e.code e.message e.trackUid e.retryAfterMs)))))).inner := rfl
  rw [hinner, errorTrackNotFound_inner _ _ (by
    simp only [errorStop, Shared.resolve_frame, errorStart_inner, hnone])]
  simp only [Section.queueOps]
  by_cases hcode : e.code = .trackNotFound
  · rw [if_pos hcode, if_pos (Or.inl hcode)]
    refine (congrArg OfflineQueue.clear ((hkept _).trans hqueue)).trans ?_
    split <;> rfl
  · rw [if_neg hcode, hkept]
    simp only [hcode, false_or]
    refine hqueue.trans ?_
    split <;> rfl

/-- A section does its operations to the queue, and nothing else. -/
theorem run_queue (geo : Geo) {α : Type} (op : Section α) (s : Shared) :
    (op.run geo s).1.inner.queue =
      (op.queueOps geo s).foldl (QueueOp.run geo) s.inner.queue := by
  by_cases hbooks : op.books = false
  · have hledger := congrArg Ledger.queue (run_ledger_quiet geo op s hbooks)
    have hnone : op.queueOps geo s = [] := by cases op <;> first | rfl | cases hbooks
    rw [hnone]
    exact hledger
  cases op with
  | dispatchResumeOk sock uid acked => rfl
  | dispatchTrackStarted sock uid metadata => rfl
  -- Only the track that is live is stopped.
  | dispatchTrackStopped sock uid =>
      simp only [Section.run, dispatchTrackStopped, Shared.receive, Shared.logTraffic_frame,
        Section.queueOps]
      split <;> rfl
  | dispatchAck sock seq => rfl
  | dispatchError sock e => exact dispatchError_queueOps geo sock e s
  -- A late notice of an older socket changes nothing.
  | socketClosed gen random =>
      rcases socketClosed_cases gen random s with
        ⟨hgen, h⟩ | ⟨hgen, _, _, _, _, _, _, _, h, _⟩
      · simp only [Section.run, h, Section.queueOps, if_neg hgen, List.foldl_nil]
      · simp only [Section.run, h, Section.queueOps, if_pos hgen, List.foldl_cons, List.foldl_nil,
          QueueOp.run]
  | flush => exact flush_queue geo s
  -- A start empties the queue; what undoes one leaves it as it is.
  | startTrack wall loc =>
      rcases startTrack_inner wall loc s with ⟨_, h⟩
      simp only [Section.run, h, Section.queueOps, List.foldl_cons, List.foldl_nil, QueueOp.run]
  | startFailed => simp only [Section.run, startFailed_frame, Section.queueOps, List.foldl_nil]
  | resumeTrack uid seq =>
      simp only [Section.run, resumeTrack_inner, Section.queueOps, List.foldl_nil]
  | publishStart wall point =>
      rcases publishStart_cases wall point s with ⟨hidle, h⟩ | ⟨hidle, h⟩
      · simp only [Section.run, h, Section.queueOps, if_pos hidle, List.foldl_cons,
          List.foldl_nil, QueueOp.run]
      · simp only [Section.run, h, Section.queueOps, if_neg hidle, List.foldl_nil]
  | publishStartFailed => rfl
  | publishWork now wall point => exact publishWork_queue geo now wall point s
  | _ => exact absurd rfl hbooks

/-! ## The points of a run -/

/-- The point a section puts into the queue. -/
def Section.emits (geo : Geo) (s : Shared) : {α : Type} → Section α → Option LatLng
  | _, .publishWork now wall point => publishEmits geo now wall point s.inner
  | _, _ => none

/-- Only the working block of `publish` puts a point into the queue, and just one. -/
theorem queueOps_inserts (geo : Geo) {α : Type} (op : Section α) (s : Shared) :
    (op.queueOps geo s).filterMap QueueOp.inserts = (op.emits geo s).toList := by
  -- What a section may do besides is to empty the queue, or to mark it unsent.
  have hclear : ∀ (c : Prop) [Decidable c] (o : QueueOp), o.inserts = none →
      (if c then [o] else []).filterMap QueueOp.inserts = [] := by
    intro c _ o ho
    split
    · rw [List.filterMap_cons, ho]
      rfl
    · rfl
  cases op with
  | dispatchTrackStopped sock uid => exact hclear _ _ rfl
  | dispatchError sock e => exact hclear _ _ rfl
  | socketClosed gen random => exact hclear _ _ rfl
  | publishStart wall point => exact hclear _ _ rfl
  | flush =>
      simp only [Section.queueOps, Section.emits, Option.toList_none]
      -- A flush moves points that were captured before.
      refine List.filterMap_eq_nil_iff.mpr fun o ho => ?_
      split at ho
      · unfold flushOps at ho
        split at ho
        · cases ho
        · rcases List.mem_append.mp ho with ho | ho
          · split at ho
            · cases ho
            · rw [List.mem_singleton.mp ho]
              rfl
          · rcases List.mem_map.mp ho with ⟨f, _, rfl⟩
            rfl
      · cases ho
  -- The one section that captures a point.
  | publishWork now wall point =>
      simp only [Section.queueOps, Section.emits]
      rcases publishEmits geo now wall point s.inner with _ | emitted
      · rfl
      · dsimp only
        split <;> rfl
  | _ => rfl

/-- The call that puts in a point is `publish`, and is accepted by it. -/
theorem act_emits (geo : Geo) (t : Task) (c : Input) (a : Act Section Task) (s : Shared)
    (h : t.act c = some a) (emitted : LatLng) (he : a.op.emits geo s = some emitted) :
    t.passed = false ∧ ((client geo).heir a s).passed = true := by
  -- Only `publish` has a section that emits.
  have hissuer : a.op.issuer = some .publish := by
    rcases a with ⟨op, next⟩
    cases op <;> first | rfl | cases he
  have hkind := act_issuer t c a h .publish hissuer
  cases t with
  | publish pc =>
      revert he
      unfold Machine.heir
      revert h
      simp only [Task.act]
      fun_cases Task.publishAct pc c <;> intro h <;> cases h
      case publish.case4.refl point now wall =>
        have hrun : (client geo).run (Section.publishWork now wall point) s =
            publishWork geo now wall point s := rfl
        intro he
        refine ⟨rfl, ?_⟩
        simp only [hrun]
        simp only [Section.emits, publishEmits] at he
        split at he
        · next hrate =>
          rcases hpush : s.inner.filter.push geo wall (stampLatLng wall point) with ⟨f, out⟩
          rw [hpush] at he
          simp only [publishWork, hrate, hpush, he, Bool.not_true, Bool.false_eq_true, if_false]
          -- Staged or sent live, the call is past its turn.
          by_cases hopen : publishOpen { s.inner with
              nextPublishAt := nextPublishAllowedAt s.inner.nextPublishAt now 1,
              filter := f } = true
          · simp only [hopen, Bool.not_true, Bool.false_eq_true, if_false]
            rfl
          · simp only [hopen, Bool.not_false, if_true]
            rfl
        · cases he
      all_goals exact fun he => by cases he
  | _ => cases hkind

/-- An operation on the queue, and the task it was done for. -/
structure Booking where
  caller : Nat
  op : QueueOp
  deriving DecidableEq

/-- Note the operations a step does to the queue, oldest first. -/
def noteBookings (geo : Geo) (p : Pool Shared Task) (i : Nat) (_ : Task) (a : Act Section Task)
    (log : List Booking) : List Booking :=
  log ++ (a.op.queueOps geo p.shared).map fun op => ⟨i, op⟩

/-- The points put into the queue, each with the call that did. -/
def insertions (log : List Booking) : List (Nat × LatLng) :=
  log.filterMap fun x => x.op.inserts.map fun point => (x.caller, point)

/-- The books of a run: the queue of the session is as the operations made it,
    every point put in by an accepted `publish` of its own is in one place, and
    none has left it but for a reason. -/
structure Accounted (geo : Geo) (cfg : Config) (p : Pool Shared Task) (log : List Booking) :
    Prop where
  queue : (Account.run geo cfg.maxQueueSize (log.map (·.op))).track.q = p.shared.inner.queue
  conserved : Conserved (Account.run geo cfg.maxQueueSize (log.map (·.op))).track
  balanced : Balanced (log.map (·.op)) (Account.run geo cfg.maxQueueSize (log.map (·.op)))
  calls : ∀ x ∈ insertions log, ∃ t, p.tasks[x.1]? = some t ∧ t.passed = true
  once : ((insertions log).map (·.1)).Nodup

/-- What a step adds to the points put in. -/
theorem note_insertions (geo : Geo) (p : Pool Shared Task) (i : Nat) (t : Task)
    (a : Act Section Task) (log : List Booking) :
    insertions (noteBookings geo p i t a log) =
      insertions log ++ (a.op.emits geo p.shared).toList.map fun point => (i, point) := by
  rw [noteBookings, insertions, insertions, List.filterMap_append, List.filterMap_map,
    ← queueOps_inserts, List.map_filterMap]
  rfl

section Runs

variable (geo : Geo) (cfg : Config)

/-- A step keeps the books. -/
theorem step_calls (p : Pool Shared Task) (i : Nat) (c : Input) (t : Task) (a : Act Section Task)
    (log : List Booking) (ht : p.tasks[i]? = some t) (ha : t.act c = some a)
    (hcalls : ∀ x ∈ insertions log, ∃ t, p.tasks[x.1]? = some t ∧ t.passed = true)
    (honce : ((insertions log).map (·.1)).Nodup) :
    (∀ x ∈ insertions (noteBookings geo p i t a log),
      ∃ t, ((client geo).resumed p i a).tasks[x.1]? = some t ∧ t.passed = true) ∧
      ((insertions (noteBookings geo p i t a log)).map (·.1)).Nodup := by
  have hself := (client geo).resumed_get_self p i a t ht
  -- Calls that were accepted still are.
  have hold : ∀ x ∈ insertions log,
      ∃ t, ((client geo).resumed p i a).tasks[x.1]? = some t ∧ t.passed = true := by
    intro x hx
    rcases hcalls x hx with ⟨u, hu, hpassed⟩
    by_cases hxi : x.1 = i
    · rw [hxi, ht, Option.some.injEq] at hu
      exact ⟨_, hxi ▸ hself, passed_next geo t c a p.shared ha (hu ▸ hpassed)⟩
    · exact ⟨u, (client geo).resumed_get_other p i x.1 a u hxi hu, hpassed⟩
  rw [note_insertions]
  rcases he : a.op.emits geo p.shared with _ | emitted
  · simp only [Option.toList_none, List.map_nil, List.append_nil]
    exact ⟨hold, honce⟩
  · rcases act_emits geo t c a p.shared ha emitted he with ⟨hbefore, hafter⟩
    simp only [Option.toList_some, List.map_cons, List.map_nil, List.map_append]
    refine ⟨fun x hx => ?_, List.nodup_append.mpr ⟨honce, List.nodup_singleton _, ?_⟩⟩
    · rcases List.mem_append.mp hx with hx | hx
      · exact hold x hx
      · rw [List.mem_singleton.mp hx]
        exact ⟨_, hself, hafter⟩
    · -- The call that puts in a point now was not accepted before.
      intro n hn m hm hnm
      rw [hnm, List.mem_singleton.mp hm] at hn
      rcases List.mem_map.mp hn with ⟨x, hx, hxi⟩
      rcases hcalls x hx with ⟨u, hu, hpassed⟩
      rw [hxi, ht, Option.some.injEq] at hu
      rw [← hu, hbefore] at hpassed
      cases hpassed

/-- In every run the session's queue is as its operations made it, and the books
    of its points balance: each was put in by an accepted `publish` of its own, and
    is in the queue or has left it by an `Ack` for it, by the start or the end of a
    track, or because the queue was full. -/
theorem reach_accounted (C : List Booking → Pool Shared Task → Nat → Task → Act Section Task → Prop)
    (p : Pool Shared Task) (log : List Booking)
    (h : (client geo).Tallied (Started cfg) C (noteBookings geo) [] p log) :
    Accounted geo cfg p log := by
  -- The queue is the fold of what the log says was done to it.
  have hqueue : (log.map (·.op)).foldl (QueueOp.run geo) (OfflineQueue.new cfg.maxQueueSize) =
      p.shared.inner.queue := by
    refine (client geo).tallied_inv (Started cfg) C (noteBookings geo) [] (fun _ => True)
      (fun _ _ => trivial)
      (fun p log => (log.map (·.op)).foldl (QueueOp.run geo)
        (OfflineQueue.new cfg.maxQueueSize) = p.shared.inner.queue) ?_ ?_ ?_ p log h
    · intro p hp
      rcases started_pool cfg p hp with ⟨now, rfl⟩
      rfl
    · intro p i c t a log _ _ _ _ hI
      have hops : (noteBookings geo p i t a log).map (·.op) =
          log.map (·.op) ++ a.op.queueOps geo p.shared := by
        simp only [noteBookings, List.map_append, List.map_map, Function.comp_def, List.map_id']
      rw [hops, List.foldl_append, hI]
      exact (run_queue geo a.op p.shared).symm
    · exact fun p t log _ _ hI => hI
  -- Each insertion is that of a call which is past its turn, so no call has two.
  have hcalls : (∀ x ∈ insertions log, ∃ t, p.tasks[x.1]? = some t ∧ t.passed = true) ∧
      ((insertions log).map (·.1)).Nodup := by
    refine (client geo).tallied_inv (Started cfg) C (noteBookings geo) [] (fun _ => True)
      (fun _ _ => trivial)
      (fun p log => (∀ x ∈ insertions log, ∃ t, p.tasks[x.1]? = some t ∧ t.passed = true) ∧
        ((insertions log).map (·.1)).Nodup) ?_ ?_ ?_ p log h
    · exact fun p _ => ⟨by rintro x ⟨⟩, List.nodup_nil⟩
    · rintro p i c t a log ht ha _ _ ⟨hcalls, honce⟩
      exact step_calls geo p i c t a log ht ha hcalls honce
    · rintro p t log _ _ ⟨hcalls, honce⟩
      refine ⟨fun x hx => ?_, honce⟩
      rcases hcalls x hx with ⟨u, hu, hpassed⟩
      exact ⟨u, Machine.entered_get_old p.tasks t u x.1 hu, hpassed⟩
  rcases run_balanced geo cfg.maxQueueSize (log.map (·.op)) with ⟨hconserved, hbalanced⟩
  refine ⟨?_, hconserved, hbalanced, hcalls.1, hcalls.2⟩
  rw [run_track, ← hqueue]
  exact (run_tracked geo _ _).1

end Runs

/-- A point is sent live and acknowledged. -/
def publishedAndAcked : List (Label Task Input) :=
  tracking ++ publishSteps 4 2000 ++ [.resume 4 .go, .resume 2 (.frame (.ack 1))]

theorem reach_accounted_acked :
    ∃ p log, Accounted flatGeo someConfig p log ∧
      log.map (·.op) = [.clear, .enqueue 1 (sample 2000), .recordFrame 1, .ackThrough 1] := by
  rcases (client flatGeo).exists_tallied (Started someConfig) (fun _ _ _ _ _ => True)
    (noteBookings flatGeo) [] (fun _ _ _ _ _ => true) (fun _ _ _ _ _ _ => trivial)
    publishedAndAcked fresh started_fresh
    (fun _ log => decide (log.map (·.op) =
      [.clear, .enqueue 1 (sample 2000), .recordFrame 1, .ackThrough 1]))
    (by decide +kernel) with ⟨p, log, hp, hrun⟩
  exact ⟨p, log, reach_accounted flatGeo someConfig _ p log hp, of_decide_eq_true hrun⟩

end Tracking

end Pickpoint
