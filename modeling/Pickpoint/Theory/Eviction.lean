import Pickpoint.Theory.Window
import Mathlib.Logic.Relation

/-!
# Eviction

Which points leave Staging when the queue is over its capacity.

Points are not told apart by what they hold, so a statement about one point of
Staging needs a tag that travels with it. `evictTags` moves a list of tags the
way `enforce_cap` moves the points: which tags leave does not depend on what
they are (`evictTags_map`), and the points, taken as their own tags, come out as
Staging does (`evictTags_staging`). Tags leave, and the others keep their order
(`evictTags_sublist`).

`enforceCapRound` is one round of the loop. It drops one point, so the loop ends,
after as many rounds as there are points too many (`enforceCap_size`).

## Main definitions

* `collapseIndex`: The point `collapse_one_collinear` removes.
* `evictTags`: Tags in step with Staging.
* `enforceCapRound`: One round of the loop of `enforce_cap`.

## Theorems

* `round_size`, `round_none`: A round drops a point, and the last is over when
  the capacity holds.
* `round_wf`, `enforceCap_rounds`: The loop ends, and where.
* `enforceCap_size`: Just the points too many leave.
* `collapse_eq`: The point at the index is what is removed.
* `collapse_split`: It lies between two others, in line with them.
* `evictTags_map`, `evictTags_staging`, `evictTags_points`: Tags move as the
  points do.
* `evictTags_sublist`: Tags keep their order.
-/

namespace Pickpoint

namespace Tracking

/-- The index of the point that `collapseOneCollinear` removes. -/
def collapseIndex (geo : Geo) : List LatLng → Option Nat
  | a :: b :: c :: rest =>
    if geo.perpendicularM a c b < max minMoveM (b.accuracy.getD 0) then some 1
    else (collapseIndex geo (b :: c :: rest)).map (· + 1)
  | _ => none

/-- Move tags the way `enforceCapLoop` moves the points of Staging. -/
def evictTags {α : Type} (geo : Geo) : Nat → OfflineQueue → List α → List α
  | 0, _, tags => tags
  | fuel + 1, q, tags =>
    if q.maxSize < q.size then
      match collapseIndex geo q.staging with
      | some k => evictTags geo fuel { q with staging := q.staging.eraseIdx k } (tags.eraseIdx k)
      | none =>
        if q.staging ≠ [] then
          evictTags geo fuel { q with staging := q.staging.tail } tags.tail
        else if q.inflight ≠ [] then
          evictTags geo fuel { q with inflight := q.inflight.tail } tags
        else tags
    else tags

theorem collapse_eq (geo : Geo) (points : List LatLng) :
    collapseOneCollinear geo points =
      (collapseIndex geo points).map fun k => points.eraseIdx k := by
  induction points with
  | nil => rfl
  | cons a rest ih =>
      match rest with
      | [] => rfl
      | [b] => rfl
      | b :: c :: rest =>
        rw [collapseOneCollinear, collapseIndex]
        -- The three points in front decide whether the second one goes.
        by_cases h : geo.perpendicularM a c b < max minMoveM (b.accuracy.getD 0)
        · rw [if_pos h, if_pos h]
          rfl
        · rw [if_neg h, if_neg h, ih]
          rcases collapseIndex geo (b :: c :: rest) with _ | k
          · rfl
          · rfl

/-- The point that is thinned out lies between two others, in line with them. -/
theorem collapse_split (geo : Geo) (points : List LatLng) (k : Nat)
    (h : collapseIndex geo points = some k) :
    ∃ pre a b c post, points = pre ++ a :: b :: c :: post ∧ k = pre.length + 1 ∧
      geo.perpendicularM a c b < max minMoveM (b.accuracy.getD 0) := by
  induction points generalizing k with
  | nil => cases h
  | cons a rest ih =>
      match rest with
      | [] => cases h
      | [b] => cases h
      | b :: c :: rest =>
        rw [collapseIndex] at h
        split at h
        · next hline =>
          cases h
          exact ⟨[], a, b, c, rest, rfl, rfl, hline⟩
        · rcases Option.map_eq_some_iff.mp h with ⟨k', hk', rfl⟩
          rcases ih k' hk' with ⟨pre, a', b', c', post, hpoints, rfl, hline⟩
          exact ⟨a :: pre, a', b', c', post, by rw [hpoints]; rfl, rfl, hline⟩

theorem collapseIndex_lt (geo : Geo) (points : List LatLng) (k : Nat)
    (h : collapseIndex geo points = some k) : 0 < k ∧ k + 1 < points.length := by
  rcases collapse_split geo points k h with ⟨pre, a, b, c, post, rfl, rfl, _⟩
  simp only [List.length_append, List.length_cons]
  omega

section Rounds

variable (geo : Geo)

/-- One round of the loop of `enforce_cap`; `none` when the loop is over. -/
def enforceCapRound (q : OfflineQueue) : Option OfflineQueue :=
  if q.maxSize < q.size then
    match collapseIndex geo q.staging with
    | some k => some { q with staging := q.staging.eraseIdx k }
    | none =>
      if q.staging ≠ [] then some { q with staging := q.staging.tail }
      else if q.inflight ≠ [] then some { q with inflight := q.inflight.tail }
      else none
  else none

/-- The loop is its rounds. -/
theorem enforceCapLoop_succ (fuel : Nat) (q : OfflineQueue) :
    OfflineQueue.enforceCapLoop geo (fuel + 1) q =
      ((enforceCapRound geo q).map (OfflineQueue.enforceCapLoop geo fuel)).getD q := by
  rw [OfflineQueue.enforceCapLoop, enforceCapRound, collapse_eq]
  by_cases hfull : q.maxSize < q.size
  · rw [if_pos hfull, if_pos hfull]
    rcases collapseIndex geo q.staging with _ | k
    · simp only [Option.map_none]
      split
      · rfl
      · split <;> rfl
    · rfl
  · rw [if_neg hfull, if_neg hfull]
    rfl

/-- A round is taken when there are too many points, and drops one. -/
theorem round_size (q q' : OfflineQueue) (h : enforceCapRound geo q = some q') :
    q.maxSize < q.size ∧ q'.size + 1 = q.size ∧ q'.maxSize = q.maxSize := by
  unfold enforceCapRound at h
  by_cases hfull : q.maxSize < q.size
  · rw [if_pos hfull] at h
    refine ⟨hfull, ?_⟩
    -- A neighbour collapses, or the oldest point of one of the lists goes.
    rcases hk : collapseIndex geo q.staging with _ | k
    · simp only [hk] at h
      split at h
      · next hne =>
        cases h
        have := List.length_pos_of_ne_nil hne
        simp only [OfflineQueue.size, List.length_tail, and_true]
        omega
      · split at h
        · next hne =>
          cases h
          have := List.length_pos_of_ne_nil hne
          simp only [OfflineQueue.size, List.length_tail, and_true]
          omega
        · cases h
    · simp only [hk] at h
      cases h
      have := (collapseIndex_lt geo q.staging k hk).2
      simp only [OfflineQueue.size, List.length_eraseIdx,
        if_pos (show k < q.staging.length by omega), and_true]
      omega
  · rw [if_neg hfull] at h
    cases h

/-- The loop is over just when the capacity holds. -/
theorem round_none (q : OfflineQueue) : enforceCapRound geo q = none ↔ q.size ≤ q.maxSize := by
  unfold enforceCapRound
  by_cases hfull : q.maxSize < q.size
  · rw [if_pos hfull]
    refine iff_of_false ?_ (Nat.not_le_of_lt hfull)
    rcases collapseIndex geo q.staging with _ | k
    · simp only
      split
      · rintro ⟨⟩
      · next hstaging =>
        split
        · rintro ⟨⟩
        · next hinflight =>
          -- With both lists empty there is no point too many.
          simp only [ne_eq, not_not] at hstaging hinflight
          simp only [OfflineQueue.size, hstaging, hinflight, List.length_nil] at hfull
          omega
    · rintro ⟨⟩
  · rw [if_neg hfull]
    exact iff_of_true rfl (Nat.le_of_not_lt hfull)

/-- The loop of `enforce_cap` cannot go on for ever. -/
theorem round_wf : WellFounded fun q' q => enforceCapRound geo q = some q' :=
  Subrelation.wf (fun {q' q} h => Nat.lt_of_lt_of_eq (Nat.lt_succ_self q'.size)
    (round_size geo q q' h).2.1) (measure OfflineQueue.size).wf

theorem enforceCapLoop_room (fuel : Nat) (q : OfflineQueue) (h : q.size ≤ q.maxSize) :
    OfflineQueue.enforceCapLoop geo fuel q = q := by
  cases fuel with
  | zero => rfl
  | succ fuel => rw [enforceCapLoop_succ, (round_none geo q).mpr h]; rfl

/-- Enough rounds bring the loop to its end. -/
theorem enforceCapLoop_rounds (fuel : Nat) (q : OfflineQueue) (h : q.size ≤ fuel + q.maxSize) :
    Relation.ReflTransGen (fun q q' => enforceCapRound geo q = some q') q
        (OfflineQueue.enforceCapLoop geo fuel q) ∧
      (OfflineQueue.enforceCapLoop geo fuel q).size = min q.size q.maxSize ∧
      (OfflineQueue.enforceCapLoop geo fuel q).maxSize = q.maxSize := by
  induction fuel generalizing q with
  | zero =>
      refine ⟨.refl, ?_, rfl⟩
      rw [OfflineQueue.enforceCapLoop]
      omega
  | succ fuel ih =>
      rw [enforceCapLoop_succ]
      -- The loop ends, or goes on with one point less.
      rcases hround : enforceCapRound geo q with _ | q'
      · have := (round_none geo q).mp hround
        exact ⟨.refl, (Nat.min_eq_left this).symm, rfl⟩
      · rcases round_size geo q q' hround with ⟨hfull, hsize, hmax⟩
        rcases ih q' (by omega) with ⟨hsteps, hsize', hmax'⟩
        refine ⟨.head hround hsteps, ?_, hmax'.trans hmax⟩
        simp only [Option.map_some, Option.getD_some, hsize', hmax]
        omega

/-- `enforce_cap` takes the loop to its end. -/
theorem enforceCap_rounds (q : OfflineQueue) :
    Relation.ReflTransGen (fun q q' => enforceCapRound geo q = some q') q (q.enforceCap geo) ∧
      enforceCapRound geo (q.enforceCap geo) = none := by
  rcases enforceCapLoop_rounds geo q.size q (Nat.le_add_right _ _) with ⟨hsteps, hsize, hmax⟩
  refine ⟨hsteps, (round_none geo _).mpr ?_⟩
  rw [OfflineQueue.enforceCap, hsize, hmax]
  exact Nat.min_le_right _ _

/-- Just the points that are too many leave. -/
theorem enforceCap_size (q : OfflineQueue) :
    (q.enforceCap geo).size = min q.size q.maxSize ∧ (q.enforceCap geo).maxSize = q.maxSize :=
  (enforceCapLoop_rounds geo q.size q (Nat.le_add_right _ _)).2

end Rounds

section Tags

variable {α : Type} (geo : Geo)

/-- No tag leaves while the capacity holds. -/
theorem evictTags_room (fuel : Nat) (q : OfflineQueue) (tags : List α) (h : q.size ≤ q.maxSize) :
    evictTags geo fuel q tags = tags := by
  cases fuel with
  | zero => rfl
  | succ fuel => rw [evictTags, if_neg (Nat.not_lt_of_le h)]

/-- Tags leave, and the others keep their order. -/
theorem evictTags_sublist (fuel : Nat) (q : OfflineQueue) (tags : List α) :
    (evictTags geo fuel q tags).Sublist tags := by
  induction fuel generalizing q tags with
  | zero => exact List.Sublist.refl _
  | succ fuel ih =>
      rw [evictTags]
      split
      · split
        · exact (ih _ _).trans (List.eraseIdx_sublist _ _)
        · split
          · exact (ih _ _).trans (List.tail_sublist _)
          · split
            · exact ih _ _
            · exact List.Sublist.refl _
      · exact List.Sublist.refl _

/-- Which tags leave does not depend on the tags. -/
theorem evictTags_map {β : Type} (f : α → β) (fuel : Nat) (q : OfflineQueue) (tags : List α) :
    (evictTags geo fuel q tags).map f = evictTags geo fuel q (tags.map f) := by
  induction fuel generalizing q tags with
  | zero => rfl
  | succ fuel ih =>
      rw [evictTags, evictTags]
      split
      · split
        · rw [ih, List.eraseIdx_map]
        · split
          · rw [ih, List.map_tail]
          · split
            · exact ih _ _
            · rfl
      · rfl

/-- The points of Staging, taken as their own tags, come out as Staging does. -/
theorem evictTags_staging (fuel : Nat) (q : OfflineQueue) :
    evictTags geo fuel q q.staging = (OfflineQueue.enforceCapLoop geo fuel q).staging := by
  induction fuel generalizing q with
  | zero => rfl
  | succ fuel ih =>
      rw [evictTags, OfflineQueue.enforceCapLoop, collapse_eq]
      by_cases hfull : q.maxSize < q.size
      · rw [if_pos hfull, if_pos hfull]
        -- The tags follow the rounds: thinned out, the oldest staged, the oldest in flight.
        rcases collapseIndex geo q.staging with _ | k
        · simp only [Option.map_none]
          split
          · exact ih { q with staging := q.staging.tail }
          · split
            · exact ih { q with inflight := q.inflight.tail }
            · rfl
        · exact ih { q with staging := q.staging.eraseIdx k }
      · rw [if_neg hfull, if_neg hfull]

/-- Tags that stand for the points of Staging still do. -/
theorem evictTags_points (f : α → LatLng) (fuel : Nat) (q : OfflineQueue) (tags : List α)
    (h : tags.map f = q.staging) :
    (evictTags geo fuel q tags).map f = (OfflineQueue.enforceCapLoop geo fuel q).staging := by
  rw [evictTags_map, h, evictTags_staging]

/-- Making room only takes points out of Staging. -/
theorem enforceCap_staging (q : OfflineQueue) :
    (q.enforceCap geo).staging.Sublist q.staging := by
  rw [OfflineQueue.enforceCap, ← evictTags_staging]
  exact evictTags_sublist geo q.size q q.staging

end Tags

end Tracking

end Pickpoint
