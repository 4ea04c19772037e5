import Pickpoint.Theory.Eviction
import Pickpoint.Theory.SendOrder
import Pickpoint.Interleave.Tally

/-!
# Capture Order

Whether points get their numbers in the order the filter emitted them.

A point that finds the window closed waits in Staging, and `flush_queue` numbers
Staging from the front. A live point takes the next number at once, and
`publish` asks whether the session is ready and the window open, not whether
Staging is empty. `TrackStarted`, `ResumeOk` and `Ack` open the window in one
section and flush in the next, so a live point can come in between and get its
number before older points that wait (`live_overtakes`).

`Captures` follows every emitted point by the position it was emitted at, from
Staging to its number. If, while Staging holds points, live points wait for a
flush that is under way, no flush is broken off by a writer that has ended, and
no socket is installed on a session that is ready already, then an open window
means that a flush is under way (`step_awaited`), live points find Staging
empty, and numbers follow the order of capture (`reach_inCaptureOrder`).

## Main definitions

* `Captured`, `Given`, `Captures`: Emitted points, and the numbers they got.
* `InCaptureOrder`: Numbers follow the order of capture.
* `flushesFirst`: Live points wait for the flush that is due.
* `Captures.Sound`, `Awaited`: What holds throughout such a run.

## Theorems

* `publishWork_ledger`: What `publish` does with an emitted point.
* `run_captures`: A section keeps a sound account of the points.
* `run_opens`: How a window with points behind it comes to be open.
* `reach_inCaptureOrder`: Runs where live points wait.
* `live_overtakes`: Not so in general.
-/

namespace Pickpoint

namespace Tracking

open Interleave

/-! ## Captured points -/

/-- A point the filter emitted, and how many it emitted before. -/
structure Captured where
  index : Nat
  point : LatLng
  deriving DecidableEq

/-- A number given to a captured point, in the numbering `epoch`. The points in
    `behind` stayed in Staging. -/
structure Given where
  epoch : Nat
  sample : Captured
  seq : Nat
  behind : List Captured
  deriving DecidableEq

/-- How many points were emitted, which of them are in Staging, and the numbers
    given out, in the order they were given. Points are told apart by how many were
    emitted before. -/
structure Captures where
  emitted : Nat := 0
  staged : List Captured := []
  given : List Given := []
  deriving DecidableEq

/-- Consecutive numbers after `next` for a list of samples. -/
def handOut (epoch : Nat) (behind : List Captured) : Nat → List Captured → List Given
  | _, [] => []
  | next, x :: xs => ⟨epoch, x, next + 1, behind⟩ :: handOut epoch behind (next + 1) xs

/-- The point the filter emits for a sample that `publish` accepts. -/
def emits (geo : Geo) (now : Instant) (wall : Int) (point : LatLng) (g : Inner) :
    Option LatLng :=
  if canAcceptPublish g.nextPublishAt now 1 then
    (g.filter.push geo wall (stampLatLng wall point)).2
  else none

/-- The next point goes to Staging, where the capacity may push points out. -/
def Captures.stage (geo : Geo) (q : OfflineQueue) (point : LatLng) (b : Captures) : Captures :=
  let q := { q with staging := q.staging ++ [point] }
  { b with
    emitted := b.emitted + 1
    staged := evictTags geo q.size q (b.staged ++ [⟨b.emitted, point⟩]) }

/-- The next point gets the next number, and the capacity may push points out. -/
def Captures.live (geo : Geo) (s : Shared) (point : LatLng) (b : Captures) : Captures :=
  let q := { s.inner.queue with
    inflight := s.inner.queue.inflight ++ [⟨s.inner.lastAssignedSeq + 1, point, true⟩] }
  { emitted := b.emitted + 1
    staged := evictTags geo q.size q b.staged
    given := b.given ++
      handOut s.epoch b.staged s.inner.lastAssignedSeq [⟨b.emitted, point⟩] }

/-- How many points of Staging a flush numbers. -/
def flushTake (g : Inner) : Nat :=
  -- Points that have a number already go first, and are not numbered again.
  if flushReady g && g.queue.unsentInflight.isEmpty then
    min g.queue.stagingLen (100 * g.queue.windowRemaining)
  else 0

/-- A flush numbers the first `n` points of Staging. -/
def Captures.flush (s : Shared) (n : Nat) (b : Captures) : Captures :=
  { b with
    staged := b.staged.drop n
    given := b.given ++
      handOut s.epoch (b.staged.drop n) s.inner.lastAssignedSeq (b.staged.take n) }

/-- What a section does to the captured points. -/
def Captures.note (geo : Geo) (s : Shared) (b : Captures) : {α : Type} → Section α → Captures
  | _, .publishWork now wall point =>
    match emits geo now wall point s.inner with
    | none => b
    | some emitted =>
      if publishOpen s.inner then b.live geo s emitted else b.stage geo s.inner.queue emitted
  | _, .flush => b.flush s (flushTake s.inner)
  | _, op =>
    -- The other sections leave Staging alone or clear it.
    if (op.run geo s).1.inner.queue.staging.isEmpty then { b with staged := [] } else b

def noteCapture (geo : Geo) (p : Pool Shared Task) (_ : Nat) (_ : Task) (a : Act Section Task)
    (b : Captures) : Captures :=
  b.note geo p.shared a.op

/-- In each numbering an earlier point has the smaller number, and no point is
    given a number while an earlier one stays in Staging. -/
structure InCaptureOrder (b : Captures) : Prop where
  ordered : ∀ x ∈ b.given, ∀ y ∈ b.given, x.epoch = y.epoch →
    x.sample.index < y.sample.index → x.seq < y.seq
  noneBehind : ∀ x ∈ b.given, ∀ y ∈ x.behind, x.sample.index < y.index

/-! ## Live points that wait -/

/-- A reader that is in `flush_queue`. -/
def Task.flushing : Task → Bool
  | .reader _ _ (.flush _ _ _) | .reader _ _ (.sending _ _ _ _ _) => true
  | _ => false

/-- No live point comes in during a flush, no flush is broken off by a writer
    that has ended, and no socket is installed on a ready session. -/
def Section.inTurn (geo : Geo) (p : Pool Shared Task) (t : Task) : {α : Type} → Section α → Bool
  | _, .publishWork now wall point =>
    !goesLive geo now wall point p.shared.inner || !p.tasks.any Task.flushing
  | _, .sendBin _ _ =>
    !t.flushing || !publishOpen p.shared.inner || p.shared.inner.outTx.any p.shared.writing
  | _, .dialInstall _ => !p.shared.inner.sessionReady
  | _, _ => true

/-- This is so while Staging holds points. -/
def flushesFirst (geo : Geo) (p : Pool Shared Task) (_ : Nat) (t : Task) (a : Act Section Task) :
    Bool :=
  p.shared.inner.queue.staging.isEmpty || a.op.inTurn geo p t

/-! ## Handing out numbers -/

theorem handOut_index (epoch : Nat) (behind : List Captured) (next : Nat) (xs : List Captured) :
    (handOut epoch behind next xs).map (·.sample.index) = xs.map (·.index) := by
  induction xs generalizing next with
  | nil => rfl
  | cons x xs ih => rw [handOut, List.map_cons, List.map_cons, ih]

theorem handOut_mem (epoch : Nat) (behind : List Captured) (next : Nat) (xs : List Captured)
    (x : Given) (hx : x ∈ handOut epoch behind next xs) :
    x.epoch = epoch ∧ x.behind = behind ∧ x.sample ∈ xs ∧ next < x.seq ∧
      x.seq ≤ next + xs.length := by
  induction xs generalizing next with
  | nil => exact absurd hx List.not_mem_nil
  | cons y xs ih =>
      rw [List.length_cons]
      rcases List.mem_cons.mp hx with rfl | hx
      · exact ⟨rfl, rfl, List.mem_cons_self, Nat.lt_succ_self next, by dsimp only; omega⟩
      · rcases ih (next + 1) hx with ⟨he, hb, hmem, hlt, hle⟩
        exact ⟨he, hb, List.mem_cons_of_mem y hmem, by omega, by omega⟩

theorem handOut_pairwise (epoch : Nat) (behind : List Captured) (next : Nat)
    (xs : List Captured) :
    (handOut epoch behind next xs).Pairwise fun x y => x.epoch = y.epoch → x.seq < y.seq := by
  induction xs generalizing next with
  | nil => exact List.Pairwise.nil
  | cons x xs ih =>
      exact List.pairwise_cons.mpr
        ⟨fun y hy _ => (handOut_mem epoch behind (next + 1) xs y hy).2.2.2.1, ih (next + 1)⟩

/-- The positions of the numbered points and of those in Staging, in order. -/
def Captures.line (b : Captures) : List Nat :=
  b.given.map (·.sample.index) ++ b.staged.map (·.index)

/-- Staging holds the points it is said to hold, they come after the numbered
    ones, and numbers only grow. -/
structure Captures.Sound (s : Shared) (b : Captures) : Prop where
  points : b.staged.map (·.point) = s.inner.queue.staging
  line : b.line.Pairwise (· < ·)
  emitted : ∀ n ∈ b.line, n < b.emitted
  numbers : b.given.Pairwise fun x y => x.epoch = y.epoch → x.seq < y.seq
  below : ∀ x ∈ b.given,
    x.epoch ≤ s.epoch ∧ (x.epoch = s.epoch → x.seq ≤ s.inner.lastAssignedSeq)
  behind : ∀ x ∈ b.given, ∀ y ∈ x.behind, x.sample.index < y.index

/-- Numbers may be given to some points while others stay behind that come
    later. -/
theorem sound_give (s s' : Shared) (b : Captures) (xs rest behind : List Captured) (emitted : Nat)
    (h : b.Sound s) (hepoch : s'.epoch = s.epoch)
    (hlast : s'.inner.lastAssignedSeq = s.inner.lastAssignedSeq + xs.length)
    (hline : (b.given.map (·.sample.index) ++ xs.map (·.index) ++
      rest.map (·.index)).Pairwise (· < ·))
    (hemitted : ∀ n ∈ b.given.map (·.sample.index) ++ xs.map (·.index) ++ rest.map (·.index),
      n < emitted)
    (hpoints : rest.map (·.point) = s'.inner.queue.staging)
    (hbehind : ∀ x ∈ xs, ∀ y ∈ behind, x.index < y.index) :
    Captures.Sound s' { emitted := emitted, staged := rest
                        given := b.given ++
                          handOut s.epoch behind s.inner.lastAssignedSeq xs } := by
  -- The points handed out take consecutive numbers after the last one.
  have hspec := handOut_mem s.epoch behind s.inner.lastAssignedSeq xs
  refine ⟨hpoints, ?_, ?_, ?_, ?_, ?_⟩
  · rw [Captures.line, List.map_append, handOut_index]
    exact hline
  · rw [Captures.line, List.map_append, handOut_index]
    exact hemitted
  · -- A new number is larger than every number of its numbering.
    refine List.pairwise_append.mpr ⟨h.numbers, handOut_pairwise _ _ _ _, ?_⟩
    intro x hx y hy hxy
    rcases hspec y hy with ⟨hy', _, _, hlt, _⟩
    exact Nat.lt_of_le_of_lt ((h.below x hx).2 (hxy.trans hy')) hlt
  · intro x hx
    rcases List.mem_append.mp hx with hx | hx
    · rcases h.below x hx with ⟨hle, hsame⟩
      refine ⟨hepoch ▸ hle, fun he => ?_⟩
      -- An older capture of this epoch stays below the last number, which only grew.
      have := hsame (he.trans hepoch)
      omega
    · rcases hspec x hx with ⟨he, _, _, _, hle⟩
      exact ⟨Nat.le_of_eq (he.trans hepoch.symm), fun _ => hlast ▸ hle⟩
  · intro x hx y hy
    rcases List.mem_append.mp hx with hx | hx
    · exact h.behind x hx y hy
    · rcases hspec x hx with ⟨_, hb, hmem, _⟩
      exact hbehind _ hmem y (hb ▸ hy)

/-- Points may leave Staging, and the numbering may move on. -/
theorem sound_keep (s s' : Shared) (b : Captures) (staged : List Captured) (h : b.Sound s)
    (hsub : staged.Sublist b.staged) (hpoints : staged.map (·.point) = s'.inner.queue.staging)
    (hcursor : (s'.epoch = s.epoch ∧ s.inner.lastAssignedSeq ≤ s'.inner.lastAssignedSeq) ∨
      s'.epoch = s.epoch + 1) :
    Captures.Sound s' { b with staged := staged } := by
  have hline : (Captures.line { b with staged := staged }).Sublist b.line :=
    (List.Sublist.refl _).append (hsub.map _)
  refine ⟨hpoints, h.line.sublist hline, fun n hn => h.emitted n (hline.subset hn), h.numbers, ?_,
    h.behind⟩
  intro x hx
  rcases h.below x hx with ⟨hle, hsame⟩
  rcases hcursor with ⟨he, hlast⟩ | he
  · exact ⟨he ▸ hle, fun hx' => Nat.le_trans (hsame (hx'.trans he)) hlast⟩
  · exact ⟨by omega, fun hx' => by omega⟩

/-- Sound captures are in order. -/
theorem sound_inCaptureOrder (s : Shared) (b : Captures) (h : b.Sound s) : InCaptureOrder b := by
  refine ⟨fun x hx y hy he hlt => ?_, h.behind⟩
  have hindex : b.given.Pairwise fun x y => x.sample.index < y.sample.index :=
    List.pairwise_map.mp (List.pairwise_append.mp h.line).1
  rcases List.getElem_of_mem hx with ⟨i, hi, rfl⟩
  rcases List.getElem_of_mem hy with ⟨j, hj, rfl⟩
  -- Of two points the one captured first got its number first.
  rcases Nat.lt_trichotomy i j with hij | rfl | hij
  · exact List.pairwise_iff_getElem.mp h.numbers i j hi hj hij he
  · exact absurd hlt (Nat.lt_irrefl _)
  · exact absurd (Nat.lt_trans hlt (List.pairwise_iff_getElem.mp hindex j i hj hi hij))
      (Nat.lt_irrefl _)

section Client

variable (geo : Geo)

/-! ## The account of the points -/

theorem goesLive_iff (now : Instant) (wall : Int) (point : LatLng) (g : Inner) :
    goesLive geo now wall point g =
      ((emits geo now wall point g).isSome && publishOpen g) := by
  unfold goesLive emits
  split
  · next h => rw [h, Bool.true_and]
  · next h => rw [Bool.eq_false_iff.mpr h, Bool.false_and, Bool.false_and, Option.isSome_none,
      Bool.false_and]

/-- `publish` keeps an emitted point in Staging, or numbers it. -/
theorem publishWork_ledger (now : Instant) (wall : Int) (point : LatLng) (s : Shared) :
    (publishWork geo now wall point s).1.ledger =
      match emits geo now wall point s.inner with
      | none => s.ledger
      | some emitted =>
        if publishOpen s.inner then s.ledger.goLive geo s.ticket emitted
        else { s.ledger with queue := s.ledger.queue.pushStaging geo emitted } := by
  unfold publishWork emits
  by_cases hrate : canAcceptPublish s.inner.nextPublishAt now 1 = true
  · simp only [hrate, Bool.not_true, Bool.false_eq_true, if_false, if_true]
    rcases s.inner.filter.push geo wall (stampLatLng wall point) with ⟨f, _ | emitted⟩
    · rfl
    · by_cases hopen : publishOpen s.inner = true
      · have hopen' : publishOpen { s.inner with
            nextPublishAt := nextPublishAllowedAt s.inner.nextPublishAt now 1,
            filter := f } = true := hopen
        simp only [hopen, hopen', Bool.not_true, Bool.false_eq_true, if_false, if_true]
        rfl
      · have hopen' : ¬ publishOpen { s.inner with
            nextPublishAt := nextPublishAllowedAt s.inner.nextPublishAt now 1,
            filter := f } = true := hopen
        simp only [hopen, hopen', Bool.not_false, Bool.false_eq_true, if_false, if_true]
        rfl
  · simp only [hrate, Bool.not_false, Bool.false_eq_true, if_false, if_true]

/-- Staging a point keeps the account sound. -/
theorem sound_stage (s s' : Shared) (b : Captures) (point : LatLng) (h : b.Sound s)
    (hs' : s'.ledger =
      { s.ledger with queue := s.ledger.queue.pushStaging geo point }) :
    (b.stage geo s.inner.queue point).Sound s' := by
  have hstaged : (b.stage geo s.inner.queue point).staged.Sublist
      (b.staged ++ [⟨b.emitted, point⟩]) := evictTags_sublist geo _ _ _
  have hline : (b.stage geo s.inner.queue point).line.Sublist (b.line ++ [b.emitted]) := by
    rw [Captures.line, Captures.line, List.append_assoc]
    refine (List.Sublist.refl _).append ?_
    have hmap := hstaged.map (·.index)
    rwa [List.map_append] at hmap
  have hnew : (b.line ++ [b.emitted]).Pairwise (· < ·) :=
    List.pairwise_append.mpr ⟨h.line, List.pairwise_singleton _ _, fun n hn m hm =>
      List.mem_singleton.mp hm ▸ h.emitted n hn⟩
  refine ⟨?_, hnew.sublist hline, ?_, h.numbers, ?_, h.behind⟩
  · have hq : s'.inner.queue = s.inner.queue.pushStaging geo point := congrArg Ledger.queue hs'
    rw [hq]
    refine evictTags_points geo Captured.point _ _ _ ?_
    rw [List.map_append, h.points]
    rfl
  · intro n hn
    rcases List.mem_append.mp (hline.subset hn) with hn | hn
    · exact Nat.lt_succ_of_lt (h.emitted n hn)
    · exact Nat.lt_succ_of_le (Nat.le_of_eq (List.mem_singleton.mp hn))
  · have he : s'.epoch = s.epoch := congrArg Ledger.epoch hs'
    have hlast : s'.inner.lastAssignedSeq = s.inner.lastAssignedSeq := congrArg Ledger.last hs'
    rw [he, hlast]
    exact h.below

/-- So does a live point, when Staging is empty. -/
theorem sound_live (s s' : Shared) (b : Captures) (point : LatLng) (ticket : Ticket)
    (h : b.Sound s) (hempty : s.inner.queue.staging = [])
    (hs' : s'.ledger = s.ledger.goLive geo ticket point) : (b.live geo s point).Sound s' := by
  have hnone : b.staged = [] := List.map_eq_nil_iff.mp (h.points.trans hempty)
  have hrest : ∀ q : OfflineQueue, evictTags geo q.size q b.staged = [] := fun q =>
    List.sublist_nil.mp (hnone ▸ evictTags_sublist geo q.size q b.staged)
  have hq : s'.inner.queue =
      (s.inner.queue.enqueue geo (s.inner.lastAssignedSeq + 1) point).recordFrame
        (s.inner.lastAssignedSeq + 1) := congrArg Ledger.queue hs'
  refine sound_give s s' b [⟨b.emitted, point⟩] _ b.staged (b.emitted + 1) h
    (congrArg Ledger.epoch hs') (congrArg Ledger.last hs') ?_ ?_ ?_ ?_
  · rw [hrest]
    have hline := h.line
    have hemitted := h.emitted
    rw [Captures.line, hnone] at hline hemitted
    rw [List.map_nil, List.append_nil] at hline hemitted ⊢
    exact List.pairwise_append.mpr ⟨hline, List.pairwise_singleton _ _, fun n hn m hm =>
      List.mem_singleton.mp hm ▸ hemitted n hn⟩
  · intro n hn
    rw [hrest, List.map_nil, List.append_nil] at hn
    rcases List.mem_append.mp hn with hn | hn
    · exact Nat.lt_succ_of_lt (h.emitted n (List.mem_append_left _ hn))
    · exact Nat.lt_succ_of_le (Nat.le_of_eq (List.mem_singleton.mp hn))
  · rw [hq]
    exact evictTags_points geo Captured.point _ _ _ h.points
  · rw [hnone]
    exact fun _ _ y hy => absurd hy List.not_mem_nil

/-- The points a round takes, when it takes them from Staging. -/
theorem flushPoints_take (g : Inner) (hready : flushReady g = true)
    (hunsent : g.queue.unsentInflight = []) :
    (flushPoints g).1.queue.staging = g.queue.staging.drop (flushTake g) ∧
      (flushPoints g).1.lastAssignedSeq =
        g.lastAssignedSeq + (g.queue.staging.take (flushTake g)).length ∧
      (flushPoints g).2 =
        OfflineQueue.numbered g.lastAssignedSeq (g.queue.staging.take (flushTake g)) := by
  simp only [flushPoints, flushTake, hready, hunsent, ne_eq, not_true_eq_false, if_false,
    List.isEmpty_nil, Bool.and_self, if_true, OfflineQueue.assignFromStaging, numbered_lastSeq,
    and_self]

/-- A flush numbers points at the front of Staging. -/
theorem flush_staging (s : Shared) :
    (flush s).1.epoch = s.epoch ∧
      (flush s).1.inner.queue.staging = s.inner.queue.staging.drop (flushTake s.inner) ∧
      (flush s).1.inner.lastAssignedSeq =
        s.inner.lastAssignedSeq + (s.inner.queue.staging.take (flushTake s.inner)).length := by
  -- With nothing taken, nothing changes.
  have hnone : s.inner.queue.staging.take (flushTake s.inner) = [] →
      s.inner.queue.staging = s.inner.queue.staging.drop (flushTake s.inner) ∧
        s.inner.lastAssignedSeq = s.inner.lastAssignedSeq +
          (s.inner.queue.staging.take (flushTake s.inner)).length := by
    intro htake
    have happ := List.take_append_drop (flushTake s.inner) s.inner.queue.staging
    rw [htake, List.nil_append] at happ
    exact ⟨happ.symm, by rw [htake, List.length_nil, Nat.add_zero]⟩
  by_cases hcond : (flushReady s.inner && s.inner.queue.unsentInflight.isEmpty) = true
  · rcases Bool.and_eq_true_iff.mp hcond with ⟨hready, hempty⟩
    rcases flushPoints_take s.inner hready (List.isEmpty_iff.mp hempty) with ⟨hstaging, hlast, hp⟩
    rcases flush_cases s with hf | ⟨_, last, _, hf⟩
    · -- Staging is empty.
      have hnil : OfflineQueue.numbered s.inner.lastAssignedSeq
          (s.inner.queue.staging.take (flushTake s.inner)) = [] :=
        hp.symm.trans (flush_done s hready (by rw [hf]))
      have hlen := numbered_length s.inner.lastAssignedSeq
        (s.inner.queue.staging.take (flushTake s.inner))
      rw [hnil] at hlen
      rw [hf]
      exact ⟨rfl, hnone (List.length_eq_zero_iff.mp hlen.symm)⟩
    -- Recording frames leaves Staging as the flush left it.
    · rcases recordFrames_eq s.inner.queue.windowRemaining (flushPoints s.inner).1.queue
        (splitLocFrames last.seq ((flushPoints s.inner).2.map (·.point))) with ⟨_, _, hq⟩
      rw [hf]
      refine ⟨rfl, ?_, hlast⟩
      dsimp only
      rw [hq]
      exact hstaging
  · -- A flush that is not ready, or has unsent points to mark, numbers nothing.
    have hzero : flushTake s.inner = 0 := if_neg hcond
    rw [hzero, List.drop_zero, List.take_zero, List.length_nil, Nat.add_zero]
    rcases flush_cases s with hf | ⟨hready, last, _, hf⟩
    · rw [hf]
      exact ⟨rfl, rfl, rfl⟩
    · rcases recordFrames_eq s.inner.queue.windowRemaining (flushPoints s.inner).1.queue
        (splitLocFrames last.seq ((flushPoints s.inner).2.map (·.point))) with ⟨_, _, hq⟩
      have hunsent : s.inner.queue.unsentInflight ≠ [] := fun hnil =>
        hcond (by rw [hready, hnil]; rfl)
      have hp : (flushPoints s.inner).1 = s.inner := by rw [flushPoints, if_pos hunsent]
      rw [hf]
      refine ⟨rfl, ?_, ?_⟩
      · dsimp only
        rw [hq, hp]
      · dsimp only
        rw [hp]

/-- A flush numbers points in the order they wait. -/
theorem sound_flush (s : Shared) (b : Captures) (h : b.Sound s) :
    (b.flush s (flushTake s.inner)).Sound (flush s).1 := by
  rcases flush_staging s with ⟨he, hstaging, hlast⟩
  have hsplit := List.take_append_drop (flushTake s.inner) b.staged
  have hline : (b.given.map (·.sample.index) ++
      (b.staged.take (flushTake s.inner)).map (·.index) ++
      (b.staged.drop (flushTake s.inner)).map (·.index)) = b.line := by
    rw [List.append_assoc, ← List.map_append, hsplit, Captures.line]
  have hlen : (s.inner.queue.staging.take (flushTake s.inner)).length =
      (b.staged.take (flushTake s.inner)).length := by
    rw [← h.points, ← List.map_take, List.length_map]
  refine sound_give s _ b _ _ _ b.emitted h he (hlen ▸ hlast) (hline ▸ h.line)
    (hline ▸ h.emitted) ?_ ?_
  · rw [List.map_drop, h.points, hstaging]
  · intro x hx y hy
    have hstaged : (b.staged.map (·.index)).Pairwise (· < ·) := (List.pairwise_append.mp h.line).2.1
    rw [← hsplit, List.map_append, List.pairwise_append] at hstaged
    exact hstaged.2.2 _ (List.mem_map_of_mem hx) _ (List.mem_map_of_mem hy)

/-- Whether a section numbers a live point while others wait. -/
def Section.overtakes (s : Shared) : {α : Type} → Section α → Bool
  | _, .publishWork now wall point =>
    goesLive geo now wall point s.inner && !s.inner.queue.staging.isEmpty
  | _, _ => false

/-- The sections that put points into Staging or take them out. -/
def Section.captures : {α : Type} → Section α → Bool
  | _, .publishWork _ _ _ | _, .flush => true
  | _, _ => false

/-- The others leave Staging alone or clear it. -/
theorem ledger_staging {α : Type} (op : Section α) (s : Shared) (l' : Ledger)
    (hstep : LedgerStep geo s op l') (h : op.captures = false) :
    l'.queue.staging = s.inner.queue.staging ∨ l'.queue.staging = [] := by
  cases hstep with
  | stopped => exact Or.inr rfl
  | startTrack => exact Or.inr rfl
  | publishStart => exact Or.inr rfl
  | error sock e uid queue starting hdrop =>
      rcases hdrop with ⟨_, rfl⟩ | ⟨_, rfl⟩
      · exact Or.inl rfl
      · exact Or.inr rfl
  | flush => cases h
  | publishStaged => cases h
  | publishLive => cases h
  | _ => exact Or.inl rfl

theorem note_rest (s : Shared) (b : Captures) {α : Type} (op : Section α)
    (h : op.captures = false) :
    b.note geo s op =
      if (op.run geo s).1.inner.queue.staging.isEmpty then { b with staged := [] } else b := by
  cases op with
  | publishWork => cases h
  | flush => cases h
  | _ => rfl

/-- A section that lets no live point overtake others keeps the account
    sound. -/
theorem run_captures {α : Type} (op : Section α) (s : Shared) (b : Captures)
    (hcond : op.overtakes geo s = false) (h : b.Sound s) :
    (b.note geo s op).Sound (op.run geo s).1 := by
  by_cases hop : op.captures = false
  · -- Other sections leave Staging as it is or empty it.
    rw [note_rest geo s b op hop]
    have hcursor := ledger_cursor geo op s _ (run_ledger geo op s)
    rcases ledger_staging geo op s _ (run_ledger geo op s) hop with hsame | hnone
    · have hstaging : (op.run geo s).1.inner.queue.staging = s.inner.queue.staging := hsame
      split
      · next hempty =>
        rw [List.isEmpty_iff] at hempty
        exact sound_keep s _ b [] h (List.nil_sublist _) hempty.symm hcursor
      · exact sound_keep s _ b b.staged h (List.Sublist.refl _) (h.points.trans hstaging.symm)
          hcursor
    · have hstaging : (op.run geo s).1.inner.queue.staging = [] := hnone
      rw [if_pos (List.isEmpty_iff.mpr hstaging)]
      exact sound_keep s _ b [] h (List.nil_sublist _) hstaging.symm hcursor
  · cases op with
    -- The two sections that number points.
    | flush => exact sound_flush s b h
    | publishWork now wall point =>
        have hl := publishWork_ledger geo now wall point s
        simp only [Captures.note]
        -- A sample the filter holds back is captured nowhere.
        rcases he : emits geo now wall point s.inner with _ | emitted
        · rw [he] at hl
          exact sound_keep s _ b b.staged h (List.Sublist.refl _)
            (h.points.trans (congrArg (fun l : Ledger => l.queue.staging) hl).symm)
            (ledger_cursor geo _ s _ (run_ledger geo (.publishWork now wall point) s))
        · rw [he] at hl
          by_cases hopen : publishOpen s.inner = true
          · -- A live point, and nothing waits.
            simp only [hopen, if_true] at hl ⊢
            refine sound_live geo s _ b emitted s.ticket h ?_ hl
            simp only [Section.overtakes, goesLive_iff, he, hopen, Option.isSome_some,
              Bool.true_and, Bool.not_eq_false'] at hcond
            exact List.isEmpty_iff.mp hcond
          -- The point waits behind those in Staging.
          · simp only [hopen] at hl ⊢
            exact sound_stage geo s _ b emitted h hl
    | _ => exact absurd rfl hop

/-! ## Windows with points behind them -/

theorem publishOpen_iff (g : Inner) :
    publishOpen g = true ↔ g.sessionReady = true ∧ g.state = .open ∧ g.outTx.isSome = true ∧
      g.queue.windowFull = false := by
  simp only [publishOpen, Bool.and_eq_true, beq_iff_eq, Bool.not_eq_true', and_assoc]

/-- The sections that open the window. -/
def Section.opens : {α : Type} → Section α → Bool
  | _, .dispatchResumeOk _ _ _ | _, .dispatchTrackStarted _ _ _ | _, .dispatchAck _ _ => true
  | _, _ => false

/-- A connection comes to be live by a binding or an install. -/
theorem move_live (d : Drive) (l l' : Link) (hm : Link.Move d l l') (hready : l'.ready = true)
    (hopen : l'.state = .open) (hcur : l'.current.isSome = true) :
    (l.ready = true ∧ l.state = .open ∧ l.current.isSome = true) ∨ (∃ sock, d = .bind sock) ∨
      ∃ gen, d = .install gen := by
  cases hm with
  | idle => exact Or.inl ⟨hready, hopen, hcur⟩
  | superseded => exact Or.inl ⟨hready, hopen, hcur⟩
  | stale => exact Or.inl ⟨hready, hopen, hcur⟩
  | bind _ sock => exact Or.inr (Or.inl ⟨sock, rfl⟩)
  | install => exact Or.inr (Or.inr ⟨_, rfl⟩)
  | unbind _ _ h => exact Or.inl ⟨h hready, hopen, hcur⟩
  | begin => cases hready
  | refresh => cases hready
  | lose => cases hready
  | shut => cases hopen

/-- The window has room after a section only if it had room before, or the
    section opened it, or Staging is empty, or the socket is given up. -/
theorem ledger_room {α : Type} (op : Section α) (s : Shared) (l' : Ledger)
    (hstep : LedgerStep geo s op l') (hroom : l'.queue.windowFull = false) :
    s.inner.queue.windowFull = false ∨ op.opens = true ∨ l'.queue.staging = [] ∨
      op.drive = .lose s.inner.dialGen := by
  have hless : ∀ q : OfflineQueue, s.inner.queue.sentFrameSeqs.length ≤ q.sentFrameSeqs.length →
      q.windowFull = false → s.inner.queue.windowFull = false := by
    intro q hle hq
    have := of_decide_eq_false hq
    exact decide_eq_false (by omega)
  cases hstep with
  | resumeOk => exact Or.inr (Or.inl rfl)
  | trackStarted => exact Or.inr (Or.inl rfl)
  | ack => exact Or.inr (Or.inl rfl)
  | closed => exact Or.inr (Or.inr (Or.inr rfl))
  | stopped => exact Or.inr (Or.inr (Or.inl rfl))
  | startTrack => exact Or.inr (Or.inr (Or.inl rfl))
  | publishStart => exact Or.inr (Or.inr (Or.inl rfl))
  | error sock e uid queue starting hdrop =>
      rcases hdrop with ⟨_, rfl⟩ | ⟨_, rfl⟩
      · exact Or.inl hroom
      · exact Or.inr (Or.inr (Or.inl rfl))
  -- What a flush or a publish adds to the window only fills it.
  | flush last =>
      refine Or.inl (hless _ ?_ hroom)
      rw [flushFrames_window, List.length_append]
      exact Nat.le_add_right _ _
  | publishStaged now wall point emitted =>
      rcases s.inner.queue.pushStaging_inflight geo emitted with ⟨_, _, hseqs⟩
      exact Or.inl (hless _ (Nat.le_of_eq (congrArg List.length hseqs.symm)) hroom)
  | publishLive now wall point emitted =>
      refine Or.inl (hless _ ?_ hroom)
      rw [goLive_window, List.length_append]
      exact Nat.le_add_right _ _
  | _ => exact Or.inl hroom

/-- Points wait after a section only if they did before, or one was staged with
    the window closed. -/
theorem ledger_waits {α : Type} (op : Section α) (s : Shared) (l' : Ledger)
    (hstep : LedgerStep geo s op l') (hwaits : l'.queue.staging ≠ []) :
    s.inner.queue.staging ≠ [] ∨ publishOpen s.inner = false := by
  cases hstep with
  | stopped => exact absurd rfl hwaits
  | startTrack => exact absurd rfl hwaits
  | publishStart => exact absurd rfl hwaits
  | error sock e uid queue starting hdrop =>
      rcases hdrop with ⟨_, rfl⟩ | ⟨_, rfl⟩
      · exact Or.inl hwaits
      · exact absurd rfl hwaits
  | flush last =>
      refine Or.inl fun hnone => hwaits ?_
      rw [(flushFrames_eq s.inner last.seq).2]
      rcases flushPoints_cases s.inner with ⟨_, hp⟩ | ⟨_, n, hp⟩
      · rw [hp]
        exact hnone
      · rw [hp]
        dsimp only
        rw [hnone, List.drop_nil]
  | publishStaged now wall point emitted hclosed => exact Or.inr hclosed
  | publishLive now wall point emitted =>
      refine Or.inl fun hnone => hwaits ?_
      have hsub : (s.ledger.goLive geo s.ticket emitted).queue.staging.Sublist
          s.inner.queue.staging := enforceCap_staging geo { s.inner.queue with inflight := _ }
      exact List.sublist_nil.mp (hnone ▸ hsub)
  | _ => exact Or.inl hwaits

/-- So points wait behind an open window after a section only if they did
    before, or the section opened it, or installed a socket on a ready
    session. -/
theorem run_opens {α : Type} (op : Section α) (s : Shared)
    (hwaits : (op.run geo s).1.inner.queue.staging ≠ [])
    (hopen : publishOpen (op.run geo s).1.inner = true) :
    (s.inner.queue.staging ≠ [] ∧ publishOpen s.inner = true) ∨ op.opens = true ∨
      ∃ gen, op.drive = .install gen ∧ s.inner.sessionReady = true := by
  rcases (publishOpen_iff _).mp hopen with ⟨hready', hstate', hcur', hroom'⟩
  have hstep := run_ledger geo op s
  rcases ledger_room geo op s _ hstep hroom' with hroom | hop | hnone | hlose
  · rcases move_live op.drive s.link _ (run_moves geo op s) hready' hstate' hcur' with
      ⟨hready, hstate, hcur⟩ | ⟨sock, hbind⟩ | ⟨gen, hinst⟩
    · have hopen₀ := (publishOpen_iff s.inner).mpr ⟨hready, hstate, hcur, hroom⟩
      rcases ledger_waits geo op s _ hstep hwaits with hwaits₀ | hclosed
      · exact Or.inl ⟨hwaits₀, hopen₀⟩
      · cases hclosed.symm.trans hopen₀
    · refine Or.inr (Or.inl ?_)
      cases op <;> first | rfl | cases hbind
    · refine Or.inr (Or.inr ⟨gen, hinst, ?_⟩)
      rcases (move_ready _ _ _ (run_moves geo op s) hready').2 with hready | ⟨sock, hbind⟩
      · exact hready
      · cases hinst.symm.trans hbind
  · exact Or.inr (Or.inl hop)
  · exact absurd hnone hwaits
  · -- The socket given up was the one the window was of.
    have hmove := run_moves geo op s
    rw [hlose] at hmove
    have hnone : (op.run geo s).1.link.current = none := move_lose s.link _ hmove
    cases (congrArg Option.isSome hnone).symm.trans hcur'

/-! ## Runs -/

/-- Points that wait behind an open window have a flush coming. -/
def Awaited (p : Pool Shared Task) : Prop :=
  p.shared.inner.queue.staging ≠ [] → publishOpen p.shared.inner = true →
    ∃ t ∈ p.tasks, t.flushing = true

/-- A reader that opens the window goes on to flush. -/
theorem act_opens (t : Task) (c : Input) (a : Act Section Task) (s : Shared)
    (h : t.act c = some a) (hop : a.op.opens = true) :
    ((client geo).heir a s).flushing = true := by
  have hhears : ∃ k evt, a.op.hears = some (k, evt) := by
    rcases a with ⟨op, next⟩
    cases op <;> first | exact ⟨_, _, rfl⟩ | cases hop
  rcases hhears with ⟨k, evt, hh⟩
  rcases act_hears t c a h k evt hh with ⟨gen, _, rfl⟩
  cases evt <;> first | rfl | cases hop

/-- A round of `flush_queue` without frames leaves no points behind an open
    window. -/
theorem flush_ends (s : Shared) (h : (flush s).2.2 = []) (hopen : publishOpen s.inner = true) :
    s.inner.queue.staging = [] := by
  rcases (publishOpen_iff s.inner).mp hopen with ⟨hready, hstate, hcur, hroom⟩
  have hlt := of_decide_eq_false hroom
  have hwindow : 0 < s.inner.queue.windowRemaining := Nat.sub_pos_of_lt (Nat.lt_of_not_le hlt)
  have hflush : flushReady s.inner = true := by
    simp only [flushReady, hready, hstate, hcur, hwindow, beq_self_eq_true, decide_true,
      Bool.and_self]
  have hnone := flush_done s hflush h
  by_cases hunsent : s.inner.queue.unsentInflight = []
  · rcases flushPoints_take s.inner hflush hunsent with ⟨_, _, hp⟩
    have hlen := numbered_length s.inner.lastAssignedSeq
      (s.inner.queue.staging.take (flushTake s.inner))
    have htake : flushTake s.inner =
        min s.inner.queue.staging.length (100 * s.inner.queue.windowRemaining) := by
      rw [flushTake, hflush, hunsent]
      rfl
    rw [← hp, hnone, List.length_nil, List.length_take, htake] at hlen
    exact List.length_eq_zero_iff.mp (by omega)
  · rw [flushPoints, if_pos hunsent] at hnone
    exact absurd hnone hunsent

/-- A flush goes on while points wait behind an open window, unless the writer
    has ended. -/
theorem flushing_goes_on (t : Task) (c : Input) (a : Act Section Task) (p : Pool Shared Task)
    (h : t.act c = some a) (hf : t.flushing = true) (hcond : a.op.inTurn geo p t = true)
    (hwaits : ((client geo).after a p.shared).inner.queue.staging ≠ [])
    (hopen : publishOpen ((client geo).after a p.shared).inner = true) :
    ((client geo).heir a p.shared).flushing = true := by
  unfold Machine.heir
  unfold Machine.after at hwaits hopen
  cases t with
  | reader sock gen pc =>
      cases pc with
      | reading => cases hf
      | settle => cases hf
      | flush cell r forward =>
          cases c <;> cases h
          have hrun : (client geo).run Section.flush p.shared = flush p.shared := rfl
          rcases hres : (flush p.shared).2 with ⟨ticket, _ | ⟨f, fs⟩⟩
          · -- A round without frames did nothing, so nothing was waiting.
            have hs : (flush p.shared).1 = p.shared := by
              rcases flush_cases p.shared with hi | ⟨hready, last, hlast, _⟩
              · rw [hi]
              · have hnone := flush_done p.shared hready (congrArg Prod.snd hres)
                rw [hnone] at hlast
                cases hlast
            rw [hrun, hs] at hwaits hopen
            exact absurd (flush_ends p.shared (congrArg Prod.snd hres) hopen) hwaits
          · simp only [hrun, hres]
            rfl
      | sending ticket frames cell r forward =>
          rcases frames with _ | ⟨f, fs⟩
          · cases c <;> cases h
            rfl
          · cases c <;> cases h
            -- The frame is taken, since the writer of an open connection still writes.
            have hrun : (client geo).run (Section.sendBin (.loc f) (some ticket)) p.shared =
                sendBin (.loc f) (some ticket) p.shared := rfl
            have hinner := (sendBin_frame (.loc f) (some ticket) p.shared).1
            rw [hrun, hinner] at hopen
            rcases (publishOpen_iff p.shared.inner).mp hopen with ⟨_, hstate, hcur, _⟩
            rcases Option.isSome_iff_exists.mp hcur with ⟨k, hk⟩
            have hw : p.shared.writing k = true := by
              simp only [Section.inTurn, hf, hopen, hk, Option.any_some, Bool.not_true,
                Bool.false_or] at hcond
              exact hcond
            have hsend := sendBin_open (.loc f) (some ticket) p.shared k
              (by rw [hstate]; rintro ⟨⟨⟩, _⟩) hk hw
            simp only [hrun, hsend]
            rfl
  | _ => cases hf

theorem install_keeps {α : Type} (op : Section α) (s : Shared) (gen : Nat)
    (h : op.drive = .install gen) : (op.run geo s).1.ledger = s.ledger := by
  refine run_ledger_quiet geo op s ?_
  cases op <;> first | rfl | cases h

theorem inTurn_install {α : Type} (op : Section α) (p : Pool Shared Task) (t : Task) (gen : Nat)
    (h : op.drive = .install gen) (hcond : op.inTurn geo p t = true) :
    p.shared.inner.sessionReady = false := by
  cases op with
  | dialInstall => exact Bool.not_eq_true' _ ▸ hcond
  | _ => cases h

/-- A step leaves a flush coming. -/
theorem step_awaited (p : Pool Shared Task) (i : Nat) (c : Input) (t : Task)
    (a : Act Section Task) (ht : p.tasks[i]? = some t) (ha : t.act c = some a)
    (hcond : flushesFirst geo p i t a = true) (hI : Awaited p) :
    Awaited ((client geo).resumed p i a) := by
  intro hwaits hopen
  have hself := List.mem_of_getElem? ((client geo).resumed_get_self p i a t ht)
  -- Without points before the step, the step itself left some.
  rcases run_opens geo a.op p.shared hwaits hopen with ⟨hw, ho⟩ | hop | ⟨gen, hinst, hready⟩
  · have hturn : a.op.inTurn geo p t = true := by
      rcases Bool.or_eq_true_iff.mp hcond with hnone | hturn
      · exact absurd (List.isEmpty_iff.mp hnone) hw
      · exact hturn
    by_cases hf : t.flushing = true
    · exact ⟨_, hself, flushing_goes_on geo t c a p ha hf hturn hwaits hopen⟩
    · rcases hI hw ho with ⟨u, hu, hflush⟩
      rcases List.mem_iff_getElem?.mp hu with ⟨j, hj⟩
      have hji : j ≠ i := by
        rintro rfl
        rw [ht, Option.some.injEq] at hj
        exact hf (hj ▸ hflush)
      exact ⟨u, List.mem_of_getElem? ((client geo).resumed_get_other p i j a u hji hj), hflush⟩
  · exact ⟨_, hself, act_opens geo t c a p.shared ha hop⟩
  · have hsame : ((client geo).resumed p i a).shared.inner.queue = p.shared.inner.queue :=
      congrArg Ledger.queue (install_keeps geo a.op p.shared gen hinst)
    rw [hsame] at hwaits
    rcases Bool.or_eq_true_iff.mp hcond with hnone | hturn
    · exact absurd (List.isEmpty_iff.mp hnone) hwaits
    · cases hready.symm.trans (inTurn_install geo a.op p t gen hinst hturn)

/-- With a flush coming, no live point overtakes others. -/
theorem inTurn_overtakes (p : Pool Shared Task) (i : Nat) (t : Task) (a : Act Section Task)
    (hcond : flushesFirst geo p i t a = true) (hI : Awaited p) :
    a.op.overtakes geo p.shared = false := by
  rcases a with ⟨op, next⟩
  cases op with
  | publishWork now wall point =>
      by_contra hover
      rw [Bool.not_eq_false] at hover
      rcases Bool.and_eq_true_iff.mp hover with ⟨hlive, hwaits⟩
      have hflush : p.tasks.any Task.flushing = true :=
        List.any_eq_true.mpr (hI (by simpa only [Bool.not_eq_true', List.isEmpty_eq_false_iff]
          using hwaits) (goesLive_open geo now wall point p.shared.inner hlive))
      simp only [flushesFirst, Section.inTurn, hlive, hflush, Bool.not_true, Bool.or_self,
        Bool.or_false] at hcond
      rw [hcond] at hwaits
      cases hwaits
  | _ => rfl

variable (cfg : Config)

/-- In every run where, while Staging holds points, live points wait for the flush
    that is due, numbers follow the order of capture. A live point takes its number
    in the section that captures it, and Staging takes its numbers from a flush, so
    what can go wrong is a live point before that flush. -/
theorem reach_inCaptureOrder (p : Pool Shared Task) (b : Captures)
    (h : (client geo).Tallied (Started cfg) (fun _ p i t a => flushesFirst geo p i t a = true)
      (noteCapture geo) {} p b) : InCaptureOrder b := by
  refine sound_inCaptureOrder p.shared b ((client geo).tallied_inv (Started cfg) _ _ _
    (fun _ => True) (fun _ _ => trivial) (fun p b => Awaited p ∧ b.Sound p.shared) ?_ ?_ ?_ p b h).2
  · intro p hp
    rcases started_pool cfg p hp with ⟨now, rfl⟩
    refine ⟨fun hwaits => absurd rfl hwaits, rfl, List.Pairwise.nil, ?_, List.Pairwise.nil, ?_, ?_⟩
    · exact fun n hn => absurd hn List.not_mem_nil
    · exact fun x hx => absurd hx List.not_mem_nil
    · exact fun x hx => absurd hx List.not_mem_nil
  · rintro p i c t a b ht ha hcond _ ⟨hawaited, hsound⟩
    exact ⟨step_awaited geo p i c t a ht ha hcond hawaited,
      run_captures geo a.op p.shared b (inTurn_overtakes geo p i t a hcond hawaited) hsound⟩
  · rintro p t b _ _ ⟨hawaited, hsound⟩
    refine ⟨fun hwaits hopen => ?_, hsound⟩
    rcases hawaited hwaits hopen with ⟨u, hu, hflush⟩
    exact ⟨u, List.mem_append_left _ hu, hflush⟩

end Client

/-- While the track is being started a point goes to Staging, and the server
    confirms the track. -/
def stagedOne : List (Label Task Input) :=
  opening ++ [.spawn (.publish (.start (sample 0))), .resume 3 (.clock 0 0), .resume 3 .go] ++
    publishSteps 4 1000 ++ [.resume 2 (.frame (.trackStarted "T" []))]

/-- The flush numbers it, and then comes a live point. -/
theorem reach_inCaptureOrder_flushed :
    ∃ b : Captures, b.given.map (fun x => (x.sample.index, x.seq)) = [(0, 1), (1, 2)] ∧
      InCaptureOrder b := by
  rcases (client flatGeo).exists_tallied (Started someConfig)
    (fun _ p i t a => flushesFirst flatGeo p i t a = true) (noteCapture flatGeo) {}
    (fun _ => flushesFirst flatGeo) (fun _ _ _ _ _ h => h)
    (stagedOne ++ [.resume 2 .go, .resume 2 .go, .resume 2 .go, .resume 2 .go] ++
      publishSteps 5 2000) fresh started_fresh
    (fun _ b => decide (b.given.map (fun x => (x.sample.index, x.seq)) = [(0, 1), (1, 2)]))
    (by decide +kernel) with ⟨p, b, hp, hrun⟩
  exact ⟨b, of_decide_eq_true hrun, reach_inCaptureOrder flatGeo someConfig p b hp⟩

/-- A live point comes between the confirmation and the flush: it gets the first
    number, and the older point gets the second. -/
theorem live_overtakes :
    ¬ ∀ p b, (client flatGeo).Tallied (Started someConfig) (fun _ _ _ _ _ => True)
      (noteCapture flatGeo) {} p b → InCaptureOrder b := by
  intro hall
  rcases (client flatGeo).exists_tallied (Started someConfig) (fun _ _ _ _ _ => True)
    (noteCapture flatGeo) {} (fun _ _ _ _ _ => true) (fun _ _ _ _ _ _ => trivial)
    (stagedOne ++ publishSteps 5 2000 ++ [.resume 2 .go]) fresh started_fresh
    (fun _ b => b.given.any fun x => b.given.any fun y => decide (x.epoch = y.epoch ∧
      x.sample.index < y.sample.index ∧ y.seq < x.seq))
    (by decide +kernel) with ⟨p, b, hp, hrun⟩
  rcases List.any_eq_true.mp hrun with ⟨x, hx, hrun⟩
  rcases List.any_eq_true.mp hrun with ⟨y, hy, hxy⟩
  rcases of_decide_eq_true hxy with ⟨he, hlt, hseq⟩
  exact absurd ((hall p b hp).ordered x hx y hy he hlt) (Nat.lt_asymm hseq)

end Tracking

end Pickpoint
