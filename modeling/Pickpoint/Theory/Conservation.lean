import Pickpoint.Theory.Eviction

/-!
# Conservation

What becomes of the points that are put into the offline queue.

Two points may hold the same values, so a point is told apart by when it was
put in (`Item`). `Tracked` runs the queue and keeps, next to each of its two
lists, which items are in it; next to the whole it keeps the items in the order
in which they were pushed, and those in the order in which they got a number.
The queue itself does what the code does (`step_q`), and the items move as its
points do: `evict_cases` says once what making room does to both.

Every operation adds one point at most, so there is one point too many at most,
and `enforce_cap` drops that one: a middle point of a straight stretch of
Staging, or else the oldest of Staging, or else the oldest of InFlight.

## Main definitions

* `QueueOp`, `QueueOp.run`: The operations.
* `Item`, `Tracked`, `Tracked.step`: The queue with its items.
* `Placed`, `Conserved`: The items are where they should be, once each.
* `LosesOnly`: Which items an operation loses.

## Theorems

* `step_q`: The tracked queue is the queue of the code.
* `enqueue_evicted`: What `enqueue` returns.
* `evict_cases`: What making room does.
* `step_conserved`, `step_losesOnly`: What an operation does to the items.
* `queue_conserves`: The same along every sequence of operations.
-/

namespace Pickpoint

namespace Tracking

/-! ## Operations -/

/-- An operation on the queue. -/
inductive QueueOp where
  | pushStaging (point : LatLng)
  | assignFromStaging (n nextSeq : Nat)
  | enqueue (seq : Nat) (point : LatLng)
  | pushInflightUnsent (seq : Nat) (point : LatLng)
  | recordFrame (lastSeq : Nat)
  | markUnsent
  | ackThrough (ack : Nat)
  | clear
  deriving DecidableEq

namespace QueueOp

/-- What an operation does to the queue. -/
def run (geo : Geo) (q : OfflineQueue) : QueueOp → OfflineQueue
  | .pushStaging point => q.pushStaging geo point
  | .assignFromStaging n nextSeq => (q.assignFromStaging n nextSeq).1
  | .enqueue seq point => q.enqueue geo seq point
  | .pushInflightUnsent seq point => q.pushInflightUnsent geo seq point
  | .recordFrame lastSeq => q.recordFrame lastSeq
  | .markUnsent => q.markUnsent
  | .ackThrough ack => q.ackThrough ack
  | .clear => q.clear

/-- The point an operation puts into the queue. -/
def inserts : QueueOp → Option LatLng
  | .pushStaging point => some point
  | .enqueue _ point => some point
  | .pushInflightUnsent _ point => some point
  | _ => none

/-- The point an operation puts into Staging. -/
def pushes : QueueOp → Option LatLng
  | .pushStaging point => some point
  | _ => none

end QueueOp

/-! ## Items -/

/-- A point that was put into the queue, and as the how manieth. Two points with the
    same fields are two items. -/
structure Item where
  id : Nat
  point : LatLng
  deriving DecidableEq

/-- The queue, and which items are in it. `inflight` pairs an item with its
    number; `pushed` and `numbered` are all items that were pushed to Staging
    and all that got a number, oldest first. -/
structure Tracked where
  q : OfflineQueue
  staging : List Item := []
  inflight : List (Nat × Item) := []
  pushed : List Item := []
  numbered : List (Nat × Item) := []
  next : Nat := 0

/-- Number items as `OfflineQueue.numbered` does points. -/
def numberItems (nextSeq : Nat) : List Item → List (Nat × Item)
  | [] => []
  | x :: xs => (nextSeq + 1, x) :: numberItems (nextSeq + 1) xs

namespace Tracked

/-- The items in the queue. -/
def present (t : Tracked) : List Item := t.staging ++ t.inflight.map (·.2)

/-- Make room: the items of Staging move with its points, and InFlight only loses
    points at the front. -/
def evict (geo : Geo) (t : Tracked) : Tracked :=
  { t with
    q := t.q.enforceCap geo
    staging := evictTags geo t.q.size t.q t.staging
    inflight := t.inflight.drop (t.q.inflight.length - (t.q.enforceCap geo).inflight.length) }

/-- Put a new item into Staging. -/
def stage (t : Tracked) (point : LatLng) : Tracked :=
  { t with
    q := { t.q with staging := t.q.staging ++ [point] }
    staging := t.staging ++ [⟨t.next, point⟩]
    pushed := t.pushed ++ [⟨t.next, point⟩]
    next := t.next + 1 }

/-- Put a new item into InFlight. -/
def launch (t : Tracked) (p : QueuedPoint) : Tracked :=
  { t with
    q := { t.q with inflight := t.q.inflight ++ [p] }
    inflight := t.inflight ++ [(p.seq, ⟨t.next, p.point⟩)]
    numbered := t.numbered ++ [(p.seq, ⟨t.next, p.point⟩)]
    next := t.next + 1 }

/-- An operation on the queue and its items. -/
def step (geo : Geo) (t : Tracked) : QueueOp → Tracked
  | .pushStaging point => (t.stage point).evict geo
  | .assignFromStaging n nextSeq =>
    { t with
      q := (t.q.assignFromStaging n nextSeq).1
      staging := t.staging.drop n
      inflight := t.inflight ++ numberItems nextSeq (t.staging.take n)
      numbered := t.numbered ++ numberItems nextSeq (t.staging.take n) }
  | .enqueue seq point => (t.launch { seq := seq, point := point, sent := true }).evict geo
  | .pushInflightUnsent seq point =>
    (t.launch { seq := seq, point := point, sent := false }).evict geo
  | .recordFrame lastSeq => { t with q := t.q.recordFrame lastSeq }
  | .markUnsent => { t with q := t.q.markUnsent }
  | .ackThrough ack =>
    { t with
      q := t.q.ackThrough ack
      inflight := t.inflight.filter fun x => decide (ack < x.1) }
  | .clear => { t with q := t.q.clear, staging := [], inflight := [] }

/-- The queue after a sequence of operations. -/
def run (geo : Geo) (maxSize : Nat) (ops : List QueueOp) : Tracked :=
  ops.foldl (step geo) { q := OfflineQueue.new maxSize }

end Tracked

/-- The items are those of the points in the queue, in the order in which they
    came, and once each. -/
structure Placed (t : Tracked) : Prop where
  staging : t.staging.map (·.point) = t.q.staging
  inflight : t.inflight.map (fun x => (x.1, x.2.point)) = t.q.inflight.map fun p => (p.seq, p.point)
  stagingOrder : t.staging.Sublist t.pushed
  inflightOrder : t.inflight.Sublist t.numbered
  once : (t.present.map (·.id)).Nodup
  apart : (t.pushed.map (·.id)).Pairwise (· < ·)
  known : ∀ x ∈ t.pushed ++ t.numbered.map (·.2), x.id < t.next

/-- The items are in their places, and there are no more of them than the queue has
    room for. -/
structure Conserved (t : Tracked) : Prop extends Placed t where
  cap : t.q.size ≤ t.q.maxSize

/-- An item leaves by an acknowledgement of its number, by `clear`, or when one
    more would be too many; then just one leaves, and one of InFlight only when
    Staging was empty before the operation. (What is pushed onto an empty Staging
    counts as the operation here, so nothing is said of whether it spares InFlight.)
    What comes is the new item. -/
structure LosesOnly (geo : Geo) (t : Tracked) (op : QueueOp) : Prop where
  gone : ∀ x ∈ t.present, x ∉ (t.step geo op).present →
    (∃ ack seq, op = .ackThrough ack ∧ (seq, x) ∈ t.inflight ∧ seq ≤ ack) ∨ op = .clear ∨
      (op.inserts.isSome = true ∧ t.q.maxSize < t.q.size + 1)
  come : ∀ x ∈ (t.step geo op).present,
    x ∈ t.present ∨ (op.inserts = some x.point ∧ x.id = t.next)
  excess : op.inserts.isSome = true →
    (t.step geo op).present.length + (t.q.size + 1 - t.q.maxSize) = t.present.length + 1
  inflightLast : op.inserts.isSome = true → ∀ x ∈ t.inflight, x ∉ (t.step geo op).inflight →
    t.staging = []

/-- The tracked queue is the queue of the code. -/
theorem step_q (geo : Geo) (t : Tracked) (op : QueueOp) : (t.step geo op).q = op.run geo t.q := by
  cases op <;> rfl

/-! ## Making room -/

/-- Making room for one point drops a middle point of a straight stretch of
    Staging, or else the oldest of Staging, or else the oldest of InFlight. -/
theorem evict_cases (geo : Geo) (t : Tracked) (h : t.q.size ≤ t.q.maxSize + 1) :
    (t.q.size ≤ t.q.maxSize ∧ t.evict geo = t) ∨
      (t.q.size = t.q.maxSize + 1 ∧
        ((∃ k, collapseIndex geo t.q.staging = some k ∧
            t.evict geo =
              { t with
                q := { t.q with staging := t.q.staging.eraseIdx k }
                staging := t.staging.eraseIdx k }) ∨
          (collapseIndex geo t.q.staging = none ∧ t.q.staging ≠ [] ∧
            t.evict geo =
              { t with
                q := { t.q with staging := t.q.staging.tail }, staging := t.staging.tail }) ∨
          (t.q.staging = [] ∧
            t.evict geo =
              { t with
                q := { t.q with inflight := t.q.inflight.tail }
                inflight := t.inflight.tail }))) := by
  by_cases hroom : t.q.size ≤ t.q.maxSize
  · refine Or.inl ⟨hroom, ?_⟩
    have hq : t.q.enforceCap geo = t.q := enforceCapLoop_room geo t.q.size t.q hroom
    simp only [Tracked.evict, hq, evictTags_room geo t.q.size t.q t.staging hroom, Nat.sub_self,
      List.drop_zero]
  · have hsize : t.q.size = t.q.maxSize + 1 := by omega
    have hfull : t.q.maxSize < t.q.size := Nat.lt_of_not_le hroom
    refine Or.inr ⟨hsize, ?_⟩
    -- After one round the capacity holds.
    have hround : ∀ q', enforceCapRound geo t.q = some q' → t.q.enforceCap geo = q' ∧
        q'.size ≤ q'.maxSize := by
      intro q' hq'
      rcases round_size geo t.q q' hq' with ⟨_, hsize', hmax⟩
      have hle : q'.size ≤ q'.maxSize := by omega
      rw [OfflineQueue.enforceCap, hsize, enforceCapLoop_succ, hq']
      exact ⟨enforceCapLoop_room geo _ q' hle, hle⟩
    simp only [enforceCapRound, if_pos hfull] at hround
    rcases hk : collapseIndex geo t.q.staging with _ | k
    · simp only [hk] at hround
      by_cases hstaging : t.q.staging = []
      · have hinflight : t.q.inflight ≠ [] := by
          intro hnil
          simp only [OfflineQueue.size, hstaging, hnil, List.length_nil] at hfull
          omega
        rw [if_neg (not_not.mpr hstaging), if_pos hinflight] at hround
        rcases hround _ rfl with ⟨hq, hle⟩
        refine Or.inr (Or.inr ⟨hstaging, ?_⟩)
        have hlen : t.q.inflight.length - t.q.inflight.tail.length = 1 := by
          have := List.length_pos_of_ne_nil hinflight
          rw [List.length_tail]
          omega
        simp only [Tracked.evict, hq, hlen, List.drop_one]
        rw [hsize, evictTags, if_pos hfull, hk]
        simp only [if_neg (not_not.mpr hstaging), if_pos hinflight]
        simp only [evictTags_room geo _ { t.q with inflight := t.q.inflight.tail } _ hle]
      · rw [if_pos hstaging] at hround
        rcases hround _ rfl with ⟨hq, hle⟩
        refine Or.inr (Or.inl ⟨rfl, hstaging, ?_⟩)
        simp only [Tracked.evict, hq, Nat.sub_self, List.drop_zero]
        rw [hsize, evictTags, if_pos hfull, hk]
        simp only [if_pos hstaging]
        simp only [evictTags_room geo _ { t.q with staging := t.q.staging.tail } _ hle]
    · simp only [hk] at hround
      rcases hround _ rfl with ⟨hq, hle⟩
      refine Or.inl ⟨k, rfl, ?_⟩
      simp only [Tracked.evict, hq, Nat.sub_self, List.drop_zero]
      rw [hsize, evictTags, if_pos hfull, hk]
      simp only [evictTags_room geo _ { t.q with staging := t.q.staging.eraseIdx k } _ hle]

/-! ## Where the items are -/

theorem placed_lengths (t : Tracked) (h : Placed t) :
    t.staging.length = t.q.staging.length ∧ t.inflight.length = t.q.inflight.length := by
  have hstaging := congrArg List.length h.staging
  have hinflight := congrArg List.length h.inflight
  rw [List.length_map] at hstaging
  rw [List.length_map, List.length_map] at hinflight
  exact ⟨hstaging, hinflight⟩

/-- Staging has no items when it has no points. -/
theorem placed_empty (t : Tracked) (h : Placed t) (hnil : t.q.staging = []) : t.staging = [] := by
  rw [← h.staging] at hnil
  exact List.map_eq_nil_iff.mp hnil

/-- As many items are in the queue as points. -/
theorem placed_present (t : Tracked) (h : Placed t) : t.present.length = t.q.size := by
  rcases placed_lengths t h with ⟨hstaging, hinflight⟩
  rw [Tracked.present, List.length_append, List.length_map, hstaging, hinflight,
    OfflineQueue.size]

/-- A new item is not in the queue yet. -/
theorem placed_fresh (t : Tracked) (h : Placed t) : ∀ x ∈ t.present, x.id < t.next := by
  intro x hx
  refine h.known x (List.mem_append.mpr ?_)
  rcases List.mem_append.mp hx with hx | hx
  · exact Or.inl (h.stagingOrder.subset hx)
  · exact Or.inr ((h.inflightOrder.map _).subset hx)

/-- Items that leave let the others be where they were. -/
theorem placed_sublist (t t' : Tracked) (h : Placed t)
    (hstaging : t'.staging.map (·.point) = t'.q.staging)
    (hinflight : t'.inflight.map (fun x => (x.1, x.2.point)) =
      t'.q.inflight.map fun p => (p.seq, p.point))
    (hs : t'.staging.Sublist t.staging) (hi : t'.inflight.Sublist t.inflight)
    (hpushed : t'.pushed = t.pushed) (hnumbered : t'.numbered = t.numbered)
    (hnext : t'.next = t.next) : Placed t' where
  staging := hstaging
  inflight := hinflight
  stagingOrder := hpushed ▸ hs.trans h.stagingOrder
  inflightOrder := hnumbered ▸ hi.trans h.inflightOrder
  once := (((hs.append (hi.map _)).map _).nodup h.once :)
  apart := hpushed ▸ h.apart
  known := by
    rw [hpushed, hnumbered, hnext]
    exact h.known

theorem placed_evict (geo : Geo) (t : Tracked) (h : Placed t) : Placed (t.evict geo) := by
  refine placed_sublist t _ h (evictTags_points geo _ _ t.q t.staging h.staging) ?_
    (evictTags_sublist geo _ t.q t.staging) (List.drop_sublist _ _) rfl rfl rfl
  rcases OfflineQueue.enforceCap_eq geo t.q with ⟨staging, k, hk⟩
  simp only [Tracked.evict, hk, List.length_drop, List.map_drop, h.inflight]
  -- Dropping as many as have left is dropping the same ones.
  rcases Nat.le_total k t.q.inflight.length with hle | hge
  · rw [Nat.sub_sub_self hle]
  · rw [Nat.sub_eq_zero_of_le hge, Nat.sub_zero, List.drop_of_length_le (by rw [List.length_map]),
      List.drop_of_length_le (by rw [List.length_map]; exact hge)]

theorem stage_present (t : Tracked) (point : LatLng) :
    (t.stage point).present.Perm (⟨t.next, point⟩ :: t.present) := by
  simp only [Tracked.present, Tracked.stage, List.append_assoc, List.singleton_append]
  exact List.perm_middle

theorem launch_present (t : Tracked) (p : QueuedPoint) :
    (t.launch p).present.Perm (⟨t.next, p.point⟩ :: t.present) := by
  simp only [Tracked.present, Tracked.launch, List.map_append, List.map_cons, List.map_nil,
    ← List.append_assoc]
  exact List.perm_append_singleton _ _

/-- A new item keeps the items apart. -/
theorem placed_once (t t' : Tracked) (point : LatLng) (h : Placed t)
    (hpresent : t'.present.Perm (⟨t.next, point⟩ :: t.present)) :
    (t'.present.map (·.id)).Nodup := by
  refine (hpresent.map _).nodup_iff.mpr (List.nodup_cons.mpr ⟨fun hmem => ?_, h.once⟩)
  rcases List.mem_map.mp hmem with ⟨x, hx, hid⟩
  exact absurd hid (Nat.ne_of_lt (placed_fresh t h x hx))

theorem placed_stage (t : Tracked) (point : LatLng) (h : Placed t) : Placed (t.stage point) where
  staging := by
    simp only [Tracked.stage, List.map_append, h.staging, List.map_cons, List.map_nil]
  inflight := h.inflight
  stagingOrder := h.stagingOrder.append (List.Sublist.refl _)
  inflightOrder := h.inflightOrder
  once := placed_once t _ point h (stage_present t point)
  -- The new item is younger than all the others.
  apart := by
    simp only [Tracked.stage, List.map_append, List.map_cons, List.map_nil]
    refine List.pairwise_append.mpr ⟨h.apart, List.pairwise_singleton _ _, ?_⟩
    intro a ha b hb
    rcases List.mem_map.mp ha with ⟨x, hx, rfl⟩
    rw [List.mem_singleton.mp hb]
    exact h.known x (List.mem_append_left _ hx)
  known := by
    intro x hx
    refine Nat.lt_succ_iff.mpr ?_
    rcases List.mem_append.mp hx with hx | hx
    · rcases List.mem_append.mp hx with hx | hx
      · exact Nat.le_of_lt (h.known x (List.mem_append_left _ hx))
      · rw [List.mem_singleton.mp hx]
    · exact Nat.le_of_lt (h.known x (List.mem_append_right _ hx))

theorem placed_launch (t : Tracked) (p : QueuedPoint) (h : Placed t) : Placed (t.launch p) where
  staging := h.staging
  inflight := by
    simp only [Tracked.launch, List.map_append, h.inflight, List.map_cons, List.map_nil]
  stagingOrder := h.stagingOrder
  inflightOrder := h.inflightOrder.append (List.Sublist.refl _)
  once := placed_once t _ p.point h (launch_present t p)
  apart := h.apart
  -- The new item takes the next name.
  known := by
    intro x hx
    refine Nat.lt_succ_iff.mpr ?_
    rcases List.mem_append.mp hx with hx | hx
    · exact Nat.le_of_lt (h.known x (List.mem_append_left _ hx))
    · rcases List.mem_map.mp hx with ⟨y, hy, rfl⟩
      rcases List.mem_append.mp hy with hy | hy
      · exact Nat.le_of_lt (h.known y.2 (List.mem_append_right _ (List.mem_map_of_mem hy)))
      · rw [List.mem_singleton.mp hy]

theorem numberItems_items (nextSeq : Nat) (xs : List Item) :
    (numberItems nextSeq xs).map (·.2) = xs := by
  induction xs generalizing nextSeq with
  | nil => rfl
  | cons x xs ih => rw [numberItems, List.map_cons, ih]

/-- Items are numbered as their points are. -/
theorem numberItems_numbered (nextSeq : Nat) (xs : List Item) :
    (numberItems nextSeq xs).map (fun x => (x.1, x.2.point)) =
      (OfflineQueue.numbered nextSeq (xs.map (·.point))).map fun p => (p.seq, p.point) := by
  induction xs generalizing nextSeq with
  | nil => rfl
  | cons x xs ih =>
      rw [numberItems, List.map_cons, ih, List.map_cons, OfflineQueue.numbered, List.map_cons]

/-- Numbering moves items and loses none. -/
theorem assign_present (geo : Geo) (t : Tracked) (n nextSeq : Nat) :
    (t.step geo (.assignFromStaging n nextSeq)).present.Perm t.present := by
  simp only [Tracked.present, Tracked.step, List.map_append, numberItems_items]
  have hsplit : t.staging ++ t.inflight.map (·.2) =
      t.staging.take n ++ (t.staging.drop n ++ t.inflight.map (·.2)) := by
    rw [← List.append_assoc, List.take_append_drop]
  rw [hsplit, ← List.append_assoc]
  exact List.perm_append_comm

theorem placed_assign (geo : Geo) (t : Tracked) (n nextSeq : Nat) (h : Placed t) :
    Placed (t.step geo (.assignFromStaging n nextSeq)) where
  staging := by
    simp only [Tracked.step, OfflineQueue.assignFromStaging, List.map_drop, h.staging]
  inflight := by
    simp only [Tracked.step, OfflineQueue.assignFromStaging, List.map_append, h.inflight,
      numberItems_numbered, List.map_take, h.staging]
  -- The first ones of Staging go to the end of InFlight.
  stagingOrder := (List.drop_sublist _ _).trans h.stagingOrder
  inflightOrder := h.inflightOrder.append (List.Sublist.refl _)
  once := ((assign_present geo t n nextSeq).map _).nodup_iff.mpr h.once
  apart := h.apart
  known := by
    intro x hx
    simp only [Tracked.step, List.map_append, numberItems_items, ← List.append_assoc] at hx
    rcases List.mem_append.mp hx with hx | hx
    · exact h.known x hx
    · exact h.known x (List.mem_append_left _ (h.stagingOrder.subset (List.mem_of_mem_take hx)))

/-! ## Steps -/

theorem step_placed (geo : Geo) (t : Tracked) (op : QueueOp) (h : Placed t) :
    Placed (t.step geo op) := by
  cases op with
  | pushStaging point => exact placed_evict geo _ (placed_stage t point h)
  | assignFromStaging n nextSeq => exact placed_assign geo t n nextSeq h
  | enqueue seq point => exact placed_evict geo _ (placed_launch t _ h)
  | pushInflightUnsent seq point => exact placed_evict geo _ (placed_launch t _ h)
  | recordFrame lastSeq =>
      refine placed_sublist t _ h h.staging (h.inflight.trans ?_) (.refl _) (.refl _) rfl rfl rfl
      simp only [Tracked.step, OfflineQueue.recordFrame, List.map_map]
      refine List.map_congr_left fun p _ => ?_
      simp only [Function.comp_apply]
      split <;> rfl
  | markUnsent =>
      refine placed_sublist t _ h h.staging (h.inflight.trans ?_) (.refl _) (.refl _) rfl rfl rfl
      simp only [Tracked.step, OfflineQueue.markUnsent, List.map_map]
      rfl
  | ackThrough ack =>
      refine placed_sublist t _ h h.staging ?_ (.refl _) List.filter_sublist rfl rfl rfl
      -- Both lists are filtered by the number alone.
      have hfilter := congrArg (List.filter fun y => decide (ack < y.1)) h.inflight
      rwa [List.filter_map, List.filter_map] at hfilter
  | clear =>
      exact placed_sublist t _ h rfl rfl (List.nil_sublist _) (List.nil_sublist _) rfl rfl rfl

/-- One more point in Staging. -/
theorem size_stage (q : OfflineQueue) (point : LatLng) :
    OfflineQueue.size { q with staging := q.staging ++ [point] } = q.size + 1 := by
  simp only [OfflineQueue.size, List.length_append, List.length_singleton]
  omega

/-- One more point in InFlight. -/
theorem size_launch (q : OfflineQueue) (p : QueuedPoint) :
    OfflineQueue.size { q with inflight := q.inflight ++ [p] } = q.size + 1 := by
  simp only [OfflineQueue.size, List.length_append, List.length_singleton]
  omega

/-- The size after an operation. -/
theorem run_size (geo : Geo) (q : OfflineQueue) (op : QueueOp) :
    (op.run geo q).maxSize = q.maxSize ∧
      (op.inserts.isSome = true → (op.run geo q).size = min (q.size + 1) q.maxSize) ∧
      (op.inserts = none → (op.run geo q).size ≤ q.size) := by
  -- What is inserted is one more, and then room is made.
  have hinsert : ∀ q' : OfflineQueue, q'.size = q.size + 1 → q'.maxSize = q.maxSize →
      (q'.enforceCap geo).maxSize = q.maxSize ∧
        (q'.enforceCap geo).size = min (q.size + 1) q.maxSize := by
    intro q' hsize hmax
    rcases enforceCap_size geo q' with ⟨hsize', hmax'⟩
    exact ⟨hmax'.trans hmax, by rw [hsize', hsize, hmax]⟩
  cases op with
  | pushStaging point =>
      rcases hinsert _ (size_stage q point) rfl with ⟨hmax, hsize⟩
      exact ⟨hmax, fun _ => hsize, by rintro ⟨⟩⟩
  | enqueue seq point =>
      rcases hinsert _ (size_launch q ⟨seq, point, true⟩) rfl with ⟨hmax, hsize⟩
      exact ⟨hmax, fun _ => hsize, by rintro ⟨⟩⟩
  | pushInflightUnsent seq point =>
      rcases hinsert _ (size_launch q ⟨seq, point, false⟩) rfl with ⟨hmax, hsize⟩
      exact ⟨hmax, fun _ => hsize, by rintro ⟨⟩⟩
  | assignFromStaging n nextSeq =>
      refine ⟨rfl, by rintro ⟨⟩, fun _ => ?_⟩
      simp only [QueueOp.run, OfflineQueue.assignFromStaging, OfflineQueue.size, List.length_append,
        numbered_length, List.length_drop, List.length_take]
      omega
  | recordFrame lastSeq =>
      refine ⟨rfl, by rintro ⟨⟩, fun _ => ?_⟩
      simp only [QueueOp.run, OfflineQueue.recordFrame, OfflineQueue.size, List.length_map]
      exact Nat.le_refl _
  | markUnsent =>
      refine ⟨rfl, by rintro ⟨⟩, fun _ => ?_⟩
      simp only [QueueOp.run, OfflineQueue.markUnsent, OfflineQueue.size, List.length_map]
      exact Nat.le_refl _
  | ackThrough ack =>
      exact ⟨rfl, by rintro ⟨⟩, fun _ => Nat.add_le_add_left (List.length_filter_le _ _) _⟩
  | clear => exact ⟨rfl, by rintro ⟨⟩, fun _ => Nat.zero_le _⟩

/-- `enqueue` returns 1 when the queue was full before, and 0 otherwise. -/
theorem enqueue_evicted (geo : Geo) (q : OfflineQueue) (seq : Nat) (point : LatLng)
    (h : q.size ≤ q.maxSize) :
    q.enqueueEvicted geo seq point = if q.size = q.maxSize then 1 else 0 := by
  have hsize : (q.enqueue geo seq point).size = min (q.size + 1) q.maxSize :=
    (run_size geo q (.enqueue seq point)).2.1 rfl
  unfold OfflineQueue.enqueueEvicted
  rw [hsize]
  split <;> omega

/-- An operation keeps the items where they should be. -/
theorem step_conserved (geo : Geo) (t : Tracked) (op : QueueOp) (h : Conserved t) :
    Conserved (t.step geo op) := by
  refine ⟨step_placed geo t op h.toPlaced, ?_⟩
  rw [step_q]
  rcases run_size geo t.q op with ⟨hmax, hsome, hnone⟩
  rw [hmax]
  rcases hop : op.inserts with _ | point
  · exact Nat.le_trans (hnone hop) h.cap
  · rw [hsome (by rw [hop]; rfl)]
    exact Nat.min_le_right _ _

/-- What an operation that inserts loses. -/
theorem inserted_losesOnly (geo : Geo) (t t' : Tracked) (op : QueueOp) (point : LatLng)
    (h : Conserved t) (hstep : t.step geo op = t'.evict geo) (hop : op.inserts = some point)
    (hpresent : t'.present.Perm (⟨t.next, point⟩ :: t.present)) (hplaced : Placed t')
    (hmax : t'.q.maxSize = t.q.maxSize) (hfly : t.inflight ⊆ t'.inflight)
    (hstaging : t'.q.staging = [] → t.staging = []) : LosesOnly geo t op := by
  have hsize : t'.q.size = t.q.size + 1 := by
    rw [← placed_present t' hplaced, ← placed_present t h.toPlaced, hpresent.length_eq,
      List.length_cons]
  -- The one that is too many is the only one that leaves.
  have hroom := evict_cases geo t' (by have := h.cap; omega)
  have hsub : (t'.evict geo).present.Sublist t'.present :=
    (evictTags_sublist geo _ t'.q t'.staging).append ((List.drop_sublist _ _).map _)
  refine ⟨?_, ?_, ?_, ?_⟩
  · intro x hx hgone
    refine Or.inr (Or.inr ⟨by rw [hop]; rfl, ?_⟩)
    rcases hroom with ⟨_, hsame⟩ | ⟨hfull, _⟩
    · rw [hstep, hsame] at hgone
      exact absurd (hpresent.mem_iff.mpr (List.mem_cons_of_mem _ hx)) hgone
    · omega
  · intro x hx
    rw [hstep] at hx
    rcases List.mem_cons.mp (hpresent.mem_iff.mp (hsub.subset hx)) with rfl | hold
    · exact Or.inr ⟨hop, rfl⟩
    · exact Or.inl hold
  · intro _
    have hlen := placed_present _ (placed_evict geo t' hplaced)
    have hcap := (enforceCap_size geo t'.q).1
    have hold := placed_present t h.toPlaced
    rw [hstep, hlen, hold]
    simp only [Tracked.evict, hcap, hsize, hmax]
    omega
  · intro _ x hx hgone
    rw [hstep] at hgone
    rcases hroom with ⟨_, hsame⟩ | ⟨_, ⟨k, _, hk⟩ | ⟨_, _, ht⟩ | ⟨hnil, _⟩⟩
    · rw [hsame] at hgone
      exact absurd (hfly hx) hgone
    · rw [hk] at hgone
      exact absurd (hfly hx) hgone
    · rw [ht] at hgone
      exact absurd (hfly hx) hgone
    · exact hstaging hnil

/-- An operation loses no item without need. -/
theorem step_losesOnly (geo : Geo) (t : Tracked) (op : QueueOp) (h : Conserved t) :
    LosesOnly geo t op := by
  have hempty := placed_empty t h.toPlaced
  -- An operation that only moves items loses none.
  have hsame : op.inserts = none → (t.step geo op).present.Perm t.present →
      LosesOnly geo t op := by
    intro hop hpresent
    refine ⟨fun x hx hgone => absurd (hpresent.mem_iff.mpr hx) hgone,
      fun x hx => Or.inl (hpresent.mem_iff.mp hx), ?_, ?_⟩ <;>
      (rw [hop]; rintro ⟨⟩)
  cases op with
  | pushStaging point =>
      refine inserted_losesOnly geo t (t.stage point) _ point h rfl rfl (stage_present t point)
        (placed_stage t point h.toPlaced) rfl (List.Subset.refl _) ?_
      intro hnil
      cases (List.append_eq_nil_iff.mp hnil).2
  | enqueue seq point =>
      exact inserted_losesOnly geo t (t.launch ⟨seq, point, true⟩) _ point h rfl rfl
        (launch_present t _) (placed_launch t _ h.toPlaced) rfl (List.subset_append_left _ _) hempty
  | pushInflightUnsent seq point =>
      exact inserted_losesOnly geo t (t.launch ⟨seq, point, false⟩) _ point h rfl rfl
        (launch_present t _) (placed_launch t _ h.toPlaced) rfl (List.subset_append_left _ _) hempty
  | assignFromStaging n nextSeq => exact hsame rfl (assign_present geo t n nextSeq)
  | recordFrame lastSeq => exact hsame rfl (.refl _)
  | markUnsent => exact hsame rfl (.refl _)
  | ackThrough ack =>
      refine ⟨fun x hx hgone => ?_, fun x hx => ?_, by rintro ⟨⟩, by rintro ⟨⟩⟩
      · refine Or.inl ⟨ack, ?_⟩
        rcases List.mem_append.mp hx with hx | hx
        · exact absurd (List.mem_append_left _ hx) hgone
        · rcases List.mem_map.mp hx with ⟨⟨seq, y⟩, hy, rfl⟩
          refine ⟨seq, rfl, hy, ?_⟩
          by_contra hlt
          refine hgone (List.mem_append_right _ (List.mem_map.mpr ⟨(seq, y), ?_, rfl⟩))
          exact List.mem_filter.mpr ⟨hy, decide_eq_true (Nat.lt_of_not_le hlt)⟩
      · refine Or.inl (List.mem_append.mpr ((List.mem_append.mp hx).imp id fun hx => ?_))
        exact (List.filter_sublist.map _).subset hx
  | clear =>
      refine ⟨fun x _ _ => Or.inr (Or.inl rfl), fun x hx => ?_, by rintro ⟨⟩, by rintro ⟨⟩⟩
      cases hx

/-! ## Runs -/

/-- The tracked queue runs as the queue of the code does, and logs what is pushed. -/
theorem run_tracked (geo : Geo) (t : Tracked) (ops : List QueueOp) :
    (ops.foldl (Tracked.step geo) t).q = ops.foldl (QueueOp.run geo) t.q ∧
      (ops.foldl (Tracked.step geo) t).pushed.map (·.point) =
        t.pushed.map (·.point) ++ ops.filterMap QueueOp.pushes ∧
      (Conserved t → Conserved (ops.foldl (Tracked.step geo) t)) := by
  induction ops generalizing t with
  | nil => exact ⟨rfl, (List.append_nil _).symm, id⟩
  | cons op ops ih =>
      rcases ih (t.step geo op) with ⟨hq, hpushed, hconserved⟩
      refine ⟨?_, ?_, fun h => hconserved (step_conserved geo t op h)⟩
      · rw [List.foldl_cons, hq, step_q, List.foldl_cons]
      · rw [List.foldl_cons, hpushed]
        cases op with
        -- The one operation that pushes.
        | pushStaging point =>
            simp only [Tracked.step, Tracked.evict, Tracked.stage, List.map_append, List.map_cons,
              List.map_nil, List.filterMap_cons, QueueOp.pushes, List.append_assoc,
              List.singleton_append]
        | _ => rfl

theorem run_maxSize (geo : Geo) (q : OfflineQueue) (ops : List QueueOp) :
    (ops.foldl (QueueOp.run geo) q).maxSize = q.maxSize := by
  induction ops generalizing q with
  | nil => rfl
  | cons op ops ih => rw [List.foldl_cons, ih, (run_size geo q op).1]

theorem new_conserved (maxSize : Nat) : Conserved { q := OfflineQueue.new maxSize } where
  staging := rfl
  inflight := rfl
  stagingOrder := .refl _
  inflightOrder := .refl _
  once := List.nodup_nil
  apart := .nil
  known := by rintro x ⟨⟩
  cap := Nat.zero_le _

/-- The offline queue loses only what it must. After any operations on a new queue
    its items are those that were pushed and numbered, in that order, once each,
    and within the capacity; every further operation loses only what it has to;
    and the loop that makes room always comes to its end. -/
theorem queue_conserves (geo : Geo) (maxSize : Nat) (ops : List QueueOp) :
    (Tracked.run geo maxSize ops).q = ops.foldl (QueueOp.run geo) (OfflineQueue.new maxSize) ∧
      (Tracked.run geo maxSize ops).q.maxSize =
        (if maxSize = 0 then defaultMaxQueue else maxSize) ∧
      (Tracked.run geo maxSize ops).pushed.map (·.point) = ops.filterMap QueueOp.pushes ∧
      Conserved (Tracked.run geo maxSize ops) ∧
      (∀ op, LosesOnly geo (Tracked.run geo maxSize ops) op) ∧
      (WellFounded fun q' q => enforceCapRound geo q = some q') ∧
      ∀ q, Relation.ReflTransGen (fun q q' => enforceCapRound geo q = some q') q
          (q.enforceCap geo) ∧ enforceCapRound geo (q.enforceCap geo) = none := by
  rcases run_tracked geo { q := OfflineQueue.new maxSize } ops with ⟨hq, hpushed, hconserved⟩
  have hall := hconserved (new_conserved maxSize)
  refine ⟨hq, ?_, hpushed, hall, fun op => step_losesOnly geo _ op hall, round_wf geo,
    enforceCap_rounds geo⟩
  rw [Tracked.run, hq, run_maxSize]
  rfl

end Tracking

end Pickpoint
