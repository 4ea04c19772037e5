import Pickpoint.Theory.Conservation
import Pickpoint.Theory.Server

/-!
# The Newest Point

An offline queue that overflows is meant to keep the newest sample. A point
that goes into InFlight is always kept, as InFlight gives up its oldest. A
point that is staged is kept while InFlight leaves room for it.

What leaves is not always the oldest. Staging gives way before InFlight does,
and a middle point of a straight stretch before the oldest of Staging; both
are deliberate, the one as points in InFlight have been sent, the other as the
line is the same without it. So an older point may stay while a newer one goes
(`older_stays`), and in each list the oldest goes but for that (`newest_kept`).

## Main definitions

* `KeepsNewest`: The new item is last, and older ones leave first.
* `Tracked.offered`, `Thinned`: An item in the middle of a straight stretch.
* `EvictsInTurn`: What an operation evicts.

## Theorems

* `collapse_items`: Where the item that is thinned out lies.
* `newest_kept`: What is kept, and what leaves.
* `older_stays`: Older ones do not always leave first.
-/

namespace Pickpoint

namespace Tracking

/-- A new item is the last of its list, and what leaves is older than what stays
    in the list with it. -/
structure KeepsNewest (geo : Geo) (t : Tracked) (op : QueueOp) : Prop where
  staged : ∀ point, op = .pushStaging point →
    (t.step geo op).staging.getLast? = some ⟨t.next, point⟩
  launched : ∀ seq point, op = .enqueue seq point ∨ op = .pushInflightUnsent seq point →
    (t.step geo op).inflight.getLast? = some (seq, ⟨t.next, point⟩)
  olderFirst : op.inserts.isSome = true → ∀ x ∈ t.staging, x ∉ (t.step geo op).staging →
    ∀ y ∈ (t.step geo op).staging, x.id < y.id

/-- Staging with the item an operation pushes. -/
def Tracked.offered (t : Tracked) (op : QueueOp) : List Item :=
  t.staging ++ (op.pushes.map (Item.mk t.next)).toList

/-- An item has been taken out from between two others that it lay in line with. -/
def Thinned (geo : Geo) (x : Item) (items rest : List Item) : Prop :=
  ∃ pre a b post, items = pre ++ a :: x :: b :: post ∧ rest = pre ++ a :: b :: post ∧
    geo.perpendicularM a.point b.point x.point < max minMoveM (x.point.accuracy.getD 0)

/-- From Staging leaves the oldest, unless one is thinned out; from InFlight the
    oldest, and that only when Staging was empty before the operation. Whether a point
    pushed onto an empty Staging spares InFlight is not said. -/
structure EvictsInTurn (geo : Geo) (t : Tracked) (op : QueueOp) : Prop where
  staging : ∀ x ∈ t.staging, x ∉ (t.step geo op).staging →
    (∀ y ∈ (t.step geo op).staging, x.id < y.id) ∨
      Thinned geo x (t.offered op) (t.step geo op).staging
  inflight : ∀ x ∈ t.inflight, x ∉ (t.step geo op).inflight →
    t.staging = [] ∧ t.inflight.head? = some x

/-- The item that is thinned out lies between two others, in line with them. -/
theorem collapse_items (geo : Geo) (items : List Item) (k : Nat)
    (h : collapseIndex geo (items.map (·.point)) = some k) :
    ∃ pre a x b post, items = pre ++ a :: x :: b :: post ∧
      items.eraseIdx k = pre ++ a :: b :: post ∧
      geo.perpendicularM a.point b.point x.point < max minMoveM (x.point.accuracy.getD 0) := by
  rcases collapse_split geo _ k h with ⟨pre, a, x, b, post, hpoints, rfl, hline⟩
  rcases List.map_eq_append_iff.mp hpoints with ⟨pre', l, rfl, rfl, hl⟩
  rcases List.map_eq_cons_iff.mp hl with ⟨a', l₁, rfl, rfl, hl₁⟩
  rcases List.map_eq_cons_iff.mp hl₁ with ⟨x', l₂, rfl, rfl, hl₂⟩
  rcases List.map_eq_cons_iff.mp hl₂ with ⟨b', post', rfl, rfl, rfl⟩
  refine ⟨pre', a', x', b', post', rfl, ?_, hline⟩
  rw [List.length_map, List.eraseIdx_append_of_length_le (Nat.le_succ _),
    show pre'.length + 1 - pre'.length = 1 from Nat.add_sub_cancel_left _ _]
  rfl

section Room

variable (geo : Geo)

/-- What making room takes out of Staging. -/
theorem evict_staging (t : Tracked) (hplaced : Placed t) (hroom : t.q.size ≤ t.q.maxSize + 1)
    (x : Item) (hx : x ∈ t.staging) (hgone : x ∉ (t.evict geo).staging) :
    (∀ y ∈ (t.evict geo).staging, x.id < y.id) ∨
      Thinned geo x t.staging (t.evict geo).staging := by
  rcases evict_cases geo t hroom with
    ⟨_, hsame⟩ | ⟨_, ⟨k, hk, hevict⟩ | ⟨_, _, hevict⟩ | ⟨_, hevict⟩⟩
  · rw [hsame] at hgone
    exact absurd hx hgone
  · rw [hevict] at hgone ⊢
    rw [← hplaced.staging] at hk
    rcases collapse_items geo t.staging k hk with ⟨pre, a, x', b, post, hitems, herase, hline⟩
    refine Or.inr ⟨pre, a, b, post, ?_, herase, ?_⟩ <;>
      -- The item that is gone is the one between its neighbours.
      have hxx : x = x' := by
        by_contra hne
        refine hgone ?_
        simp only [herase]
        rw [hitems] at hx
        simp only [List.mem_append, List.mem_cons, hne, false_or] at hx ⊢
        exact hx
    · rw [hxx, hitems]
    · rw [hxx]
      exact hline
  · rw [hevict] at hgone ⊢
    refine Or.inl fun y hy => ?_
    have horder : (t.staging.map (·.id)).Pairwise (· < ·) :=
      hplaced.apart.sublist (hplaced.stagingOrder.map _)
    rcases hstaging : t.staging with _ | ⟨z, rest⟩
    · rw [hstaging] at hx
      cases hx
    · simp only [hstaging, List.tail_cons] at hx hgone hy horder
      rcases List.mem_cons.mp hx with rfl | hx
      · exact (List.pairwise_cons.mp horder).1 _ (List.mem_map_of_mem hy)
      · exact absurd hx hgone
  · rw [hevict] at hgone
    exact absurd hx hgone

/-- What making room takes out of InFlight. -/
theorem evict_inflight (t : Tracked) (hroom : t.q.size ≤ t.q.maxSize + 1) (x : Nat × Item)
    (hx : x ∈ t.inflight) (hgone : x ∉ (t.evict geo).inflight) :
    t.q.staging = [] ∧ t.inflight.head? = some x := by
  rcases evict_cases geo t hroom with
    ⟨_, hsame⟩ | ⟨_, ⟨k, _, hevict⟩ | ⟨_, _, hevict⟩ | ⟨hnil, hevict⟩⟩
  · rw [hsame] at hgone
    exact absurd hx hgone
  · rw [hevict] at hgone
    exact absurd hx hgone
  · rw [hevict] at hgone
    exact absurd hx hgone
  · rw [hevict] at hgone
    refine ⟨hnil, ?_⟩
    rcases hinflight : t.inflight with _ | ⟨z, rest⟩
    · rw [hinflight] at hx
      cases hx
    · simp only [hinflight, List.tail_cons] at hx hgone
      rcases List.mem_cons.mp hx with rfl | hx
      · rfl
      · exact absurd hx hgone

/-- One item more is at most one too many. -/
theorem stage_room (t : Tracked) (h : Conserved t) (point : LatLng) :
    (t.stage point).q.size ≤ (t.stage point).q.maxSize + 1 :=
  (size_stage t.q point).trans_le (Nat.succ_le_succ h.cap)

theorem launch_room (t : Tracked) (h : Conserved t) (p : QueuedPoint) :
    (t.launch p).q.size ≤ (t.launch p).q.maxSize + 1 :=
  (size_launch t.q p).trans_le (Nat.succ_le_succ h.cap)

/-- A staged item is kept while InFlight leaves room for it. -/
theorem stage_kept (t : Tracked) (h : Conserved t) (point : LatLng)
    (hinflight : t.q.inflight.length < t.q.maxSize) :
    ((t.stage point).evict geo).staging.getLast? = some ⟨t.next, point⟩ := by
  have hlen := (placed_lengths t h.toPlaced).1
  have hsize : (t.stage point).q.size = t.q.size + 1 := size_stage t.q point
  rcases evict_cases geo (t.stage point) (stage_room t h point) with
    ⟨_, hsame⟩ | ⟨hfull, ⟨k, hk, hevict⟩ | ⟨_, _, hevict⟩ | ⟨hnil, _⟩⟩
  · rw [hsame]
    exact List.getLast?_concat
  · rw [hevict]
    have hlt := (collapseIndex_lt geo _ k hk).2
    simp only [Tracked.stage, List.length_append, List.length_singleton] at hlt ⊢
    rw [List.eraseIdx_append_of_lt_length (by omega)]
    exact List.getLast?_concat
  · rw [hevict]
    have hne : t.staging ≠ [] := by
      intro hnil
      -- Alone in Staging, the new item is one too many only when InFlight has no room.
      have hmax : (t.stage point).q.maxSize = t.q.maxSize := rfl
      have hq : t.q.size = t.q.staging.length + t.q.inflight.length := rfl
      rw [hnil, List.length_nil] at hlen
      omega
    simp only [Tracked.stage]
    rw [List.tail_append_of_ne_nil hne]
    exact List.getLast?_concat
  · cases (List.append_eq_nil_iff.mp hnil).2

/-- An item that goes into InFlight is kept. -/
theorem launch_kept (t : Tracked) (h : Conserved t) (p : QueuedPoint) :
    ((t.launch p).evict geo).inflight.getLast? = some (p.seq, ⟨t.next, p.point⟩) := by
  have hlen := (placed_lengths t h.toPlaced).2
  have hsize : (t.launch p).q.size = t.q.size + 1 := size_launch t.q p
  rcases evict_cases geo (t.launch p) (launch_room t h p) with
    ⟨_, hsame⟩ | ⟨hfull, ⟨k, _, hevict⟩ | ⟨_, _, hevict⟩ | ⟨hnil, hevict⟩⟩
  · rw [hsame]
    exact List.getLast?_concat
  · rw [hevict]
    exact List.getLast?_concat
  · rw [hevict]
    exact List.getLast?_concat
  · rw [hevict]
    have hne : t.inflight ≠ [] := by
      intro hempty
      -- A capacity is at least one, so the new item alone is not too many.
      have hmax : (t.launch p).q.maxSize = t.q.maxSize := rfl
      have hq : t.q.size = t.q.staging.length + t.q.inflight.length := rfl
      have hstaging : t.q.staging.length = 0 := List.length_eq_zero_iff.mpr hnil
      have hpos := t.q.maxSize_pos
      rw [hempty, List.length_nil] at hlen
      omega
    simp only [Tracked.launch]
    rw [List.tail_append_of_ne_nil hne]
    exact List.getLast?_concat

theorem offered_none (t : Tracked) (op : QueueOp) (h : op.pushes = none) :
    t.offered op = t.staging := by
  rw [Tracked.offered, h, Option.map_none, Option.toList_none, List.append_nil]

/-- An operation evicts in turn. -/
theorem step_inTurn (t : Tracked) (h : Conserved t) (op : QueueOp)
    (hop : op.inserts.isSome = true) : EvictsInTurn geo t op := by
  -- Both ways into InFlight leave the same room.
  have hlaunch : ∀ p : QueuedPoint,
      (∀ x ∈ t.staging, x ∉ ((t.launch p).evict geo).staging →
        (∀ y ∈ ((t.launch p).evict geo).staging, x.id < y.id) ∨
          Thinned geo x t.staging ((t.launch p).evict geo).staging) ∧
      ∀ x ∈ t.inflight, x ∉ ((t.launch p).evict geo).inflight →
        t.staging = [] ∧ t.inflight.head? = some x := by
    intro p
    have hplaced := placed_launch t p h.toPlaced
    have hroom := launch_room t h p
    refine ⟨fun x hx hgone => evict_staging geo _ hplaced hroom x hx hgone, fun x hx hgone => ?_⟩
    rcases evict_inflight geo _ hroom x (List.mem_append_left _ hx) hgone with ⟨hnil, hhead⟩
    refine ⟨placed_empty t h.toPlaced hnil, ?_⟩
    rwa [Tracked.launch, List.head?_append_of_ne_nil _ (List.ne_nil_of_mem hx)] at hhead
  cases op with
  | pushStaging point =>
      have hplaced := placed_stage t point h.toPlaced
      have hroom := stage_room t h point
      refine ⟨fun x hx hgone =>
        evict_staging geo _ hplaced hroom x (List.mem_append_left _ hx) hgone, ?_⟩
      intro x hx hgone
      cases (List.append_eq_nil_iff.mp (evict_inflight geo _ hroom x hx hgone).1).2
  | enqueue seq point =>
      rcases hlaunch ⟨seq, point, true⟩ with ⟨hstaging, hinflight⟩
      refine ⟨?_, hinflight⟩
      rw [offered_none t _ rfl]
      exact hstaging
  | pushInflightUnsent seq point =>
      rcases hlaunch ⟨seq, point, false⟩ with ⟨hstaging, hinflight⟩
      refine ⟨?_, hinflight⟩
      rw [offered_none t _ rfl]
      exact hstaging
  | _ => cases hop

end Room

/-- An overflow keeps the newest. After any operations on a new queue, a point that
    is staged while InFlight leaves room is the last of Staging, one that goes into
    InFlight is the last there, and what leaves leaves in turn. -/
theorem newest_kept (geo : Geo) (maxSize : Nat) (ops : List QueueOp) :
    (Tracked.run geo maxSize ops).q = ops.foldl (QueueOp.run geo) (OfflineQueue.new maxSize) ∧
      (∀ op, ((Tracked.run geo maxSize ops).step geo op).q =
          op.run geo (Tracked.run geo maxSize ops).q ∧
        Placed ((Tracked.run geo maxSize ops).step geo op)) ∧
      (∀ point, (Tracked.run geo maxSize ops).q.inflight.length <
          (Tracked.run geo maxSize ops).q.maxSize →
        ((Tracked.run geo maxSize ops).step geo (.pushStaging point)).staging.getLast? =
          some ⟨(Tracked.run geo maxSize ops).next, point⟩) ∧
      (∀ seq point,
        ((Tracked.run geo maxSize ops).step geo (.enqueue seq point)).inflight.getLast? =
            some (seq, ⟨(Tracked.run geo maxSize ops).next, point⟩) ∧
          ((Tracked.run geo maxSize ops).step geo
              (.pushInflightUnsent seq point)).inflight.getLast? =
            some (seq, ⟨(Tracked.run geo maxSize ops).next, point⟩)) ∧
      ∀ op, op.inserts.isSome = true → EvictsInTurn geo (Tracked.run geo maxSize ops) op := by
  rcases run_tracked geo { q := OfflineQueue.new maxSize } ops with ⟨hq, _, hconserved⟩
  have h := hconserved (new_conserved maxSize)
  refine ⟨hq, fun op => ⟨step_q geo _ op, step_placed geo _ op h.toPlaced⟩,
    fun point hroom => stage_kept geo _ h point hroom, fun seq point => ⟨?_, ?_⟩,
    fun op hop => step_inTurn geo _ h op hop⟩
  · exact launch_kept geo _ h ⟨seq, point, true⟩
  · exact launch_kept geo _ h ⟨seq, point, false⟩

/-- A capacity of two is full with a point in InFlight and one in Staging. The next
    one pushed stays, and the one before it leaves in turn. -/
theorem newest_kept_two :
    ((Tracked.run flatGeo 2 [.enqueue 1 (sample 0), .pushStaging (sample 1)]).step flatGeo
        (.pushStaging (sample 2))).staging.getLast? = some ⟨2, sample 2⟩ ∧
      ⟨1, sample 1⟩ ∉ ((Tracked.run flatGeo 2 [.enqueue 1 (sample 0),
        .pushStaging (sample 1)]).step flatGeo (.pushStaging (sample 2))).staging ∧
      EvictsInTurn flatGeo (Tracked.run flatGeo 2 [.enqueue 1 (sample 0),
        .pushStaging (sample 1)]) (.pushStaging (sample 2)) := by
  have h := newest_kept flatGeo 2 [.enqueue 1 (sample 0), .pushStaging (sample 1)]
  exact ⟨h.2.2.1 (sample 2) (by decide +kernel), by decide +kernel,
    h.2.2.2.2 (.pushStaging (sample 2)) rfl⟩

/-- One unacknowledged point fills a queue of one: a point that is staged is gone at
    once. And of four points in line the second leaves and the first stays. -/
theorem older_stays :
    ¬ KeepsNewest flatGeo (Tracked.run flatGeo 1 [.enqueue 1 (sample 0)])
        (.pushStaging (sample 1)) ∧
      ¬ KeepsNewest flatGeo
        (Tracked.run flatGeo 3
          [.pushStaging (sample 0), .pushStaging (sample 1), .pushStaging (sample 2)])
        (.pushStaging (sample 3)) := by
  refine ⟨fun h => ?_, fun h => ?_⟩
  · exact absurd (h.staged (sample 1) rfl) (by decide +kernel)
  · have hleft := h.olderFirst rfl ⟨1, sample 1⟩ (by decide +kernel) (by decide +kernel)
      ⟨0, sample 0⟩ (by decide +kernel)
    exact absurd hleft (by decide)

end Tracking

end Pickpoint
