import Pickpoint.Theory.Binding
import Pickpoint.Theory.Framing

/-!
# The Order on the Wire

Points get their numbers under one lock and are handed over under another, one
frame at a time. In between other tasks number and hand over theirs, so a
later point may overtake an earlier one (`publish_overtakes`). A frame may also
outlive its socket: when `markUnsent` has run, its points will be framed again,
and both frames may meet on the next socket.

A Loc frame says the numbers of its points: they end at its own. `Span` keeps
them with the numbering they belong to. If frames are handed over in the order
of their numbers, and never after their points have been marked unsent, the
spans on every wire follow each other, so numbers increase and no point is
handed over twice (`reach_wireInOrder`).

## Main definitions

* `Span`, `Traffic.locSpan`, `spans`: The numbers that went over a wire.
* `wireInOrder`: They follow each other.
* `Task.held`: The frames a task is about to hand over.
* `handsInOrder`: Frames are handed over in order, before they are void.
* `Orderly`, `Holds`: What holds throughout such a run.

## Theorems

* `heir_held`: Where held frames come from.
* `act_spans`: What a task hands over is the first frame it holds.
* `ledger_cursor`, `ledger_unsent`: What a section does to the cursor and to
  unsent points.
* `reach_orderly`: Runs that hand frames over in order.
* `reach_wireInOrder`: Wires are in order.
* `publish_overtakes`: Not so in general.
-/

namespace Pickpoint

namespace Tracking

open Interleave

/-! ## Spans -/

/-- The numbers of a Loc frame, in the numbering it was built in. -/
structure Span where
  epoch : Nat
  lo : Nat
  hi : Nat
  deriving DecidableEq

/-- In the same numbering, `a` ends before `b` begins. -/
def Span.before (a b : Span) : Prop := a.epoch = b.epoch → a.hi < b.lo

instance (a b : Span) : Decidable (a.before b) :=
  inferInstanceAs (Decidable (a.epoch = b.epoch → a.hi < b.lo))

/-- A span of a numbering up to `epoch` that ends by `last`. -/
def Span.within (epoch last : Nat) (x : Span) : Prop :=
  x.epoch ≤ epoch ∧ (x.epoch = epoch → x.hi ≤ last)

/-- The numbers of the points of a frame count down from its own. -/
def LocFrame.span (epoch : Nat) (f : LocFrame) : Span :=
  { epoch := epoch, lo := f.seq + 1 - f.points.length, hi := f.seq }

/-- The numbers of a Loc frame on a wire, `LocationAdd` included. -/
def Traffic.locSpan : Traffic → Option Span
  | .sent (.bin (.loc f)) (some ticket) => some (f.span ticket.epoch)
  | .sent (.bin (.cmd (.locationAdd _ seq _))) (some ticket) =>
    some { epoch := ticket.epoch, lo := truncU32 seq, hi := truncU32 seq }
  | _ => none

/-- The numbers that went over a wire, newest first. -/
def spans (w : List Traffic) : List Span := w.filterMap Traffic.locSpan

/-- The numbers on a wire follow each other: the Loc numbers of one numbering
    increase, and none is there twice. -/
def wireInOrder (w : List Traffic) : Prop :=
  ((spans w).Pairwise fun newer older => older.before newer) ∧ ∀ x ∈ spans w, x.lo ≤ x.hi

/-- The frames a task is about to hand over, first one first. -/
def Task.held : Task → List Span
  | .reader _ _ (.sending ticket frames _ _ _) => frames.map (LocFrame.span ticket.epoch)
  | .publish (.send seq _ ticket) =>
    [{ epoch := ticket.epoch, lo := truncU32 seq, hi := truncU32 seq }]
  | _ => []

/-- When a task may hand over `g`: no other task holds a frame with a number up
    to its own, and none of its points, or of those before them, was marked
    unsent. -/
def mayHand (p : Pool Shared Task) (i : Nat) (g : Span) : Bool :=
  (p.tasks.eraseIdx i).all (fun u => u.held.all fun g' => decide (g.before g')) &&
    (!decide (g.epoch = p.shared.epoch) ||
      p.shared.inner.queue.inflight.all fun q => q.sent || decide (g.hi < q.seq))

/-- Numbers fit the width of the wire field when they are given out. -/
def numbersFit (s : Shared) : Task → Bool
  | .reader _ _ (.flush _ _ _) => !flushReady s.inner ||
    decide (s.inner.lastAssignedSeq + s.inner.queue.stagingLen < 2 ^ 32)
  | .publish (.work _) => !publishOpen s.inner || decide (s.inner.lastAssignedSeq + 1 < 2 ^ 32)
  | _ => true

/-- Frames are handed over in order and before they are void, numbers fit the
    wire, and the numbering restarts with InFlight empty. -/
def handsInOrder (p : Pool Shared Task) (i : Nat) (t : Task) (a : Act Section Task) : Bool :=
  (!p.shared.inner.outTx.any p.shared.writing || t.held.head?.all (mayHand p i)) &&
    numbersFit p.shared t && a.op.renumbers p.shared

theorem spans_cons_none (t : Traffic) (w : List Traffic) (h : t.locSpan = none) :
    spans (t :: w) = spans w := List.filterMap_cons_none h

theorem spans_cons_some (t : Traffic) (w : List Traffic) (g : Span) (h : t.locSpan = some g) :
    spans (t :: w) = g :: spans w := List.filterMap_cons_some h

/-- Cursor and numbering only move on. -/
theorem within_grow (x : Span) (epoch last epoch' last' : Nat) (h : x.within epoch last)
    (hgrow : (epoch' = epoch ∧ last ≤ last') ∨ epoch' = epoch + 1) : x.within epoch' last' := by
  rcases h with ⟨hle, hhi⟩
  rcases hgrow with ⟨rfl, hlast⟩ | rfl
  · exact ⟨hle, fun he => Nat.le_trans (hhi he) hlast⟩
  · exact ⟨Nat.le_succ_of_le hle, fun he => absurd he (by omega)⟩

theorem call_held (t : Task) (h : t.isCall = true) : t.held = [] := by
  cases t with
  | reader sock gen pc => cases h
  | publish pc =>
      cases pc with
      | send => cases h
      | _ => rfl
  | _ => rfl

/-! ## The ledger -/

theorem flushPoints_le (g : Inner) :
    (flushPoints g).1.lastAssignedSeq ≤ g.lastAssignedSeq + g.queue.stagingLen := by
  rcases flushPoints_cases g with ⟨_, hp⟩ | ⟨_, n, hp⟩
  · rw [hp]
    exact Nat.le_add_right _ _
  · rw [hp, OfflineQueue.stagingLen]
    exact Nat.add_le_add_left (List.length_take_le' n _) _

/-- A flush takes points that were in flight unsent, or numbers them beyond the
    cursor. -/
theorem flushPoints_queued (g : Inner) (q : QueuedPoint) (hq : q ∈ (flushPoints g).2) :
    (q ∈ g.queue.inflight ∧ q.sent = false) ∨ g.lastAssignedSeq < q.seq := by
  rcases flushPoints_cases g with ⟨_, hp⟩ | ⟨_, n, hp⟩
  · rw [hp] at hq
    exact Or.inl ((OfflineQueue.unsentInflight_mem _ q).mp hq)
  · rw [hp] at hq
    exact Or.inr (numbered_gt _ _ q hq)

/-- The frames of a flush say the numbers they carry: they follow each other,
    end by the new cursor, and begin with points the flush took. -/
theorem flush_spans (s : Shared) (h : InOrder s.ledger) (last : QueuedPoint)
    (hlast : (flushPoints s.inner).2.getLast? = some last)
    (hfit : s.inner.lastAssignedSeq + s.inner.queue.stagingLen < 2 ^ 32) :
    ((flushFrames s.inner last.seq).2.map (LocFrame.span s.epoch)).Pairwise Span.before ∧
      ∀ g ∈ (flushFrames s.inner last.seq).2.map (LocFrame.span s.epoch),
        g.epoch = s.epoch ∧ g.lo ≤ g.hi ∧ g.hi ≤ (flushPoints s.inner).1.lastAssignedSeq ∧
          ∃ q ∈ (flushPoints s.inner).2, q.seq = g.lo := by
  have hcut := flush_cut s h last hlast
  have hnum := flushPoints_numbered s h
  have hle := flushPoints_le s.inner
  have hspan := cut_span _ _ _ hcut _ hnum.seqs fun q hq =>
    Nat.lt_of_le_of_lt (numbered_mem _ _ hnum q hq).2 (by omega)
  have hpair := cut_pairwise _ _ _ hcut (numbered_pairwise _ _ hnum)
  rw [← carry_frame s.ticket (flushPoints s.inner).2 (flushFrames s.inner last.seq).2, List.map_map]
  -- A span is the numbers of the points its frame carries.
  refine ⟨List.pairwise_map.mpr (hpair.imp_of_mem ?_), fun g hg => ?_⟩
  · intro b b' hb hb' hbb' _
    rcases hspan b hb with ⟨_, ⟨x, hx, hxhi⟩, _⟩
    rcases hspan b' hb' with ⟨_, _, y, hy, hylo⟩
    show b.frame.seq < b'.frame.seq + 1 - b'.frame.points.length
    rw [← hxhi, ← hylo]
    exact hbb' x hx y hy
  · rcases List.mem_map.mp hg with ⟨b, hb, rfl⟩
    rcases hspan b hb with ⟨hpos, ⟨x, hx, hxhi⟩, y, hy, hylo⟩
    rcases cut_mem_carried _ _ _ hcut b hb x hx with ⟨qx, hqx, rfl⟩
    rcases cut_mem_carried _ _ _ hcut b hb y hy with ⟨qy, hqy, rfl⟩
    refine ⟨rfl, ?_, ?_, qy, hqy, hylo⟩
    · show b.frame.seq + 1 - b.frame.points.length ≤ b.frame.seq
      omega
    · show b.frame.seq ≤ _
      rw [← hxhi]
      exact (numbered_mem _ _ hnum qx hqx).2

/-- A section leaves the numbering alone and moves the cursor on, or starts a
    new numbering. -/
theorem ledger_cursor (geo : Geo) {α : Type} (op : Section α) (s : Shared) (l' : Ledger)
    (hstep : LedgerStep geo s op l') :
    (l'.epoch = s.epoch ∧ s.ledger.last ≤ l'.last) ∨ l'.epoch = s.epoch + 1 := by
  cases hstep with
  | resumeOk sock uid acked =>
      refine Or.inl ⟨rfl, ?_⟩
      dsimp only
      split <;> omega
  | trackStarted => exact Or.inr rfl
  | startTrack => exact Or.inr rfl
  | resumeTrack => exact Or.inr rfl
  | publishStart => exact Or.inr rfl
  | flush => exact Or.inl ⟨rfl, (flushPoints_old s.inner).1⟩
  | publishLive => exact Or.inl ⟨rfl, Nat.le_succ _⟩
  | _ => exact Or.inl ⟨rfl, Nat.le_refl _⟩

/-- An unsent point was unsent before, or got its number beyond the cursor,
    unless the current socket is being given up. -/
theorem ledger_unsent (geo : Geo) {α : Type} (op : Section α) (s : Shared) (l' : Ledger)
    (hstep : LedgerStep geo s op l') (q : QueuedPoint) (hq : q ∈ l'.queue.inflight)
    (hunsent : q.sent = false) :
    (∃ q₀ ∈ s.inner.queue.inflight, q₀.sent = false ∧ q₀.seq = q.seq) ∨
      s.ledger.last < q.seq ∨ op.drive = .lose s.inner.dialGen := by
  have hold : q ∈ s.inner.queue.inflight →
      (∃ q₀ ∈ s.inner.queue.inflight, q₀.sent = false ∧ q₀.seq = q.seq) ∨
        s.ledger.last < q.seq ∨ op.drive = .lose s.inner.dialGen :=
    fun hmem => Or.inl ⟨q, hmem, hunsent, rfl⟩
  -- A point unsent now was unsent before, has just got its number, or was marked
  -- unsent when the connection was lost.
  cases hstep with
  | resumeOk => exact hold (List.mem_of_mem_filter hq)
  | ack => exact hold (List.mem_of_mem_filter hq)
  | stopped => exact absurd hq List.not_mem_nil
  | startTrack => exact absurd hq List.not_mem_nil
  | publishStart => exact absurd hq List.not_mem_nil
  | error sock e uid queue starting hdrop =>
      rcases hdrop with ⟨_, rfl⟩ | ⟨_, rfl⟩
      · exact hold hq
      · exact absurd hq List.not_mem_nil
  | closed => exact Or.inr (Or.inr rfl)
  | flush last hready hlast =>
      have hmem : q ∈ (flushFrames s.inner last.seq).1.inflight := hq
      rw [flushFrames_inflight] at hmem
      rcases List.mem_map.mp hmem with ⟨q₀, hq₀, rfl⟩
      rcases (flushPoints_old s.inner).2 q₀ hq₀ with hmem₀ | hgt
      · exact Or.inl ⟨q₀, hmem₀, (Bool.or_eq_false_iff.mp hunsent).1, rfl⟩
      · exact Or.inr (Or.inl hgt)
  | publishStaged now wall point emitted =>
      rcases s.inner.queue.pushStaging_inflight geo emitted with ⟨k, hk, _⟩
      exact hold (List.mem_of_mem_drop (hk ▸ hq))
  | publishLive now wall point emitted =>
      have hmem : q ∈ (s.ledger.goLive geo s.ticket emitted).queue.inflight := hq
      rw [Ledger.goLive, OfflineQueue.recordFrame_eq] at hmem
      rcases List.mem_map.mp hmem with ⟨q₀, _, rfl⟩
      have hgt := of_decide_eq_false (Bool.or_eq_false_iff.mp hunsent).2
      exact Or.inr (Or.inl (by dsimp only; omega))
  | _ => exact hold hq

/-! ## Runs -/

/-- Wires are in order, behind the cursor, and behind every unsent point on the
    current socket: what is still to be built comes after what is on the wire. -/
structure Orderly (s : Shared) : Prop where
  ledger : InOrder s.ledger
  wires : ∀ k, wireInOrder (s.wire k)
  bounded : ∀ k, ∀ x ∈ spans (s.wire k), x.within s.epoch s.inner.lastAssignedSeq
  unsent : ∀ k, s.inner.outTx = some k → ∀ x ∈ spans (s.wire k), x.epoch = s.epoch →
    ∀ q ∈ s.inner.queue.inflight, q.sent = false → x.hi < q.seq

/-- What a task holds is in order, behind the cursor, and ahead of the wire of
    the current socket. -/
structure Holds (s : Shared) (t : Task) : Prop where
  order : t.held.Pairwise Span.before
  proper : ∀ g ∈ t.held, g.lo ≤ g.hi
  bounded : ∀ g ∈ t.held, g.within s.epoch s.inner.lastAssignedSeq
  ahead : ∀ k, s.inner.outTx = some k → ∀ x ∈ spans (s.wire k), ∀ g ∈ t.held, x.before g

theorem holds_nil (s : Shared) (t : Task) (h : t.held = []) : Holds s t := by
  have hnone : ∀ g ∈ t.held, False := fun g hg => absurd (h ▸ hg) List.not_mem_nil
  exact ⟨h ▸ .nil, fun g hg => (hnone g hg).elim, fun g hg => (hnone g hg).elim,
    fun _ _ _ _ g hg => (hnone g hg).elim⟩

theorem hands_quiet {α : Type} (op : Section α) (out : Outbound) (ticket : Option Ticket)
    (h : op.hands = some (out, ticket)) : op.books = false := by
  cases op <;> cases h <;> rfl

/-- What the condition says about a frame that meets an open channel. -/
theorem mayHand_spec (p : Pool Shared Task) (i : Nat) (t : Task) (a : Act Section Task)
    (hcond : handsInOrder p i t a = true) (g : Span) (rest : List Span)
    (hheld : t.held = g :: rest) (k : Nat) (hk : p.shared.inner.outTx = some k)
    (hw : p.shared.writing k = true) :
    (∀ (j : Nat) u, j ≠ i → p.tasks[j]? = some u → ∀ g' ∈ u.held, g.before g') ∧
      (g.epoch = p.shared.epoch → ∀ q ∈ p.shared.inner.queue.inflight, q.sent = false →
        g.hi < q.seq) := by
  -- The condition asks it of the first frame that is held.
  have hmay : mayHand p i g = true := by
    have h := (Bool.and_eq_true_iff.mp (Bool.and_eq_true_iff.mp hcond).1).1
    rw [hk, Option.any_some, hw, hheld] at h
    exact h
  rcases Bool.and_eq_true_iff.mp hmay with ⟨hothers, hvoid⟩
  -- No other task holds an earlier frame, and no unsent point is as early.
  refine ⟨fun j u hji hu g' hg' => ?_, fun hepoch q hq hunsent => ?_⟩
  · have hmem : u ∈ p.tasks.eraseIdx i := List.mem_eraseIdx_iff_getElem?.mpr ⟨j, hji, hu⟩
    exact of_decide_eq_true (List.all_eq_true.mp (List.all_eq_true.mp hothers u hmem) g' hg')
  · rw [decide_eq_true hepoch, Bool.not_true, Bool.false_or] at hvoid
    have hq' := List.all_eq_true.mp hvoid q hq
    rw [hunsent, Bool.false_or] at hq'
    exact of_decide_eq_true hq'

section Client

variable (geo : Geo)

theorem spawned_held (t : Task) (c : Input) (a : Act Section Task) (s : Shared)
    (h : t.act c = some a) (u : Task) (hu : u ∈ (client geo).spawned a s) : u.held = [] := by
  rcases spawned_cases geo t c a s h u hu with
    ⟨_, _, _, _, rfl | rfl⟩ | ⟨_, _, _, rfl | rfl | ⟨_, rfl⟩⟩ | ⟨_, _, _, rfl⟩ <;> rfl

/-- A task goes on with what it holds, or holds what it has just numbered. -/
theorem heir_held (t : Task) (c : Input) (a : Act Section Task) (s : Shared)
    (h : t.act c = some a) :
    ((client geo).heir a s).held <:+ t.held ∨
      ((∃ sock gen cell r forward, t = .reader sock gen (.flush cell r forward)) ∧
        flushReady s.inner = true ∧
        ∃ last, (flushPoints s.inner).2.getLast? = some last ∧
          ((client geo).heir a s).held =
            (flushFrames s.inner last.seq).2.map (LocFrame.span s.epoch) ∧
          ((client geo).after a s).inner.lastAssignedSeq =
            (flushPoints s.inner).1.lastAssignedSeq) ∨
      ((∃ point, t = .publish (.work point)) ∧ publishOpen s.inner = true ∧
        ((client geo).heir a s).held = [{ epoch := s.epoch
                                          lo := truncU32 (s.inner.lastAssignedSeq + 1)
                                          hi := truncU32 (s.inner.lastAssignedSeq + 1) }] ∧
        ((client geo).after a s).inner.lastAssignedSeq = s.inner.lastAssignedSeq + 1) := by
  have hnil : ∀ u : Task, u.kind ≠ .reader → u.kind ≠ .publish → u.held <:+ t.held := by
    intro u h₁ h₂
    cases u with
    | reader => exact absurd rfl h₁
    | publish => exact absurd rfl h₂
    | _ => exact List.nil_suffix
  -- Only a reader that flushes and a publish that goes live come to hold spans.
  rcases heir_kind geo t c a s h with hk | hk | ⟨_, _, _, _, hk⟩
  · unfold Machine.heir Machine.after at *
    revert h
    cases t with
    | reader sock gen pc =>
        simp only [Task.act]
        fun_cases Task.readerAct sock gen pc c <;> intro h <;> cases h
        case reader.case1.refl msg => cases msg <;> exact Or.inl List.nil_suffix
        case reader.case3.refl cell r forward =>
          have hrun : (client geo).run Section.flush s = flush s := rfl
          rcases flush_cases s with hf | ⟨hready, last, hlast, hf⟩
          · simp only [hrun, hf]
            exact Or.inl List.nil_suffix
          · refine Or.inr (Or.inl ⟨⟨sock, gen, cell, r, forward, rfl⟩, hready, last, hlast, ?_⟩)
            rcases hframes : (flushFrames s.inner last.seq).2 with _ | ⟨f, fs⟩
            · simp only [flushFrames] at hframes
              simp only [hrun, hf, hframes]
              exact ⟨rfl, by trivial⟩
            · simp only [flushFrames] at hframes
              simp only [hrun, hf, hframes]
              exact ⟨rfl, by trivial⟩
        case reader.case4.refl ticket f fs cell r forward =>
          refine Or.inl ?_
          dsimp only
          split
          · exact List.nil_suffix
          · exact List.suffix_cons _ _
        all_goals exact Or.inl List.nil_suffix
    | publish pc =>
        simp only [Task.act]
        fun_cases Task.publishAct pc c <;> intro h <;> cases h
        case publish.case4.refl point now wall =>
          have hrun : (client geo).run (Section.publishWork now wall point) s =
              publishWork geo now wall point s := rfl
          rcases publishWork_cases geo now wall point s with
            hw | ⟨_, _, hw | ⟨emitted, ⟨_, hw⟩ | ⟨hlive, hw⟩⟩⟩
          · simp only [hrun, hw]
            exact Or.inl List.nil_suffix
          · simp only [hrun, hw]
            exact Or.inl List.nil_suffix
          · simp only [hrun, hw]
            exact Or.inl List.nil_suffix
          · refine Or.inr (Or.inr ⟨⟨point, rfl⟩, goesLive_open geo now wall point _ hlive, ?_⟩)
            simp only [hrun, hw, publishLive]
            exact ⟨rfl, by trivial⟩
        all_goals
          refine Or.inl ?_
          dsimp only
          (try split) <;> exact List.nil_suffix
    | _ =>
        intro _
        exact Or.inl (hnil _ (by rw [hk]; rintro ⟨⟩) (by rw [hk]; rintro ⟨⟩))
  · exact Or.inl (hnil _ (by rw [hk]; rintro ⟨⟩) (by rw [hk]; rintro ⟨⟩))
  · rw [hk]
    exact Or.inl List.nil_suffix

/-- What a task hands over is the first frame it holds. -/
theorem act_spans (t : Task) (c : Input) (a : Act Section Task) (s : Shared)
    (h : t.act c = some a) (out : Outbound) (ticket : Option Ticket)
    (hop : a.op.hands = some (out, ticket)) :
    (Traffic.sent out ticket).locSpan = none ∨
      ∃ g rest, t.held = g :: rest ∧ (Traffic.sent out ticket).locSpan = some g ∧
        ((client geo).heir a s).held <:+ rest := by
  rcases out with frame | _
  · cases act_sends t c a h frame ticket hop with
    | readerFlush sock gen ticket f fs cell r forward =>
        cases c <;> cases h
        refine Or.inr ⟨_, _, rfl, rfl, ?_⟩
        -- The rest is sent next, or dropped when the socket refused the frame.
        dsimp only [Machine.heir]
        split
        · exact List.nil_suffix
        · exact List.suffix_refl _
    | publish seq point ticket =>
        cases c <;> cases h
        exact Or.inr ⟨_, _, rfl, rfl, List.nil_suffix⟩
    | _ => exact Or.inl rfl
  · exact Or.inl rfl

/-- A step leaves the spans of a wire alone, or puts on it what its task held
    first. -/
theorem after_spans (t : Task) (c : Input) (a : Act Section Task) (s : Shared)
    (h : t.act c = some a) (k : Nat) :
    spans (((client geo).after a s).wire k) = spans (s.wire k) ∨
      ∃ g rest, t.held = g :: rest ∧ ((client geo).heir a s).held <:+ rest ∧
        s.inner.outTx = some k ∧ s.writing k = true ∧
        ((client geo).after a s).ledger = s.ledger ∧
        spans (((client geo).after a s).wire k) = g :: spans (s.wire k) := by
  rcases run_wire geo a.op s k with hw | ⟨evt, _, hw⟩ | ⟨out, ticket, hop, hk, hwriting, hw⟩
  · exact Or.inl (congrArg spans hw)
  · exact Or.inl ((congrArg spans hw).trans (spans_cons_none _ _ rfl))
  · rcases act_spans geo t c a s h out ticket hop with hnone | ⟨g, rest, hheld, hsome, hheir⟩
    · exact Or.inl ((congrArg spans hw).trans (spans_cons_none _ _ hnone))
    · exact Or.inr ⟨g, rest, hheld, hheir, hk, hwriting,
        run_ledger_quiet geo a.op s (hands_quiet a.op out ticket hop),
        (congrArg spans hw).trans (spans_cons_some _ _ g hsome)⟩

/-- The next current socket is the current one, or nothing has gone over its
    wire. -/
theorem after_current (a : Act Section Task) (s : Shared) (k : Nat)
    (hk : ((client geo).after a s).inner.outTx = some k) (x : Span)
    (hx : x ∈ spans (s.wire k)) : s.inner.outTx = some k := by
  rcases move_current _ _ _ (after_moves geo a s) k hk with hold | ⟨_, _, hlen⟩
  · exact hold
  · rw [hlen, gens_length, s.wire_length] at hx
    exact absurd hx List.not_mem_nil

theorem after_cursor (a : Act Section Task) (s : Shared) :
    (((client geo).after a s).epoch = s.epoch ∧
      s.inner.lastAssignedSeq ≤ ((client geo).after a s).inner.lastAssignedSeq) ∨
      ((client geo).after a s).epoch = s.epoch + 1 :=
  ledger_cursor geo a.op s _ (run_ledger geo a.op s)

/-- Handing frames over in order keeps the wires in order. -/
theorem after_orderly (p : Pool Shared Task) (i : Nat) (t : Task) (c : Input)
    (a : Act Section Task) (ha : t.act c = some a) (hcond : handsInOrder p i t a = true)
    (hI : Orderly p.shared) (hQ : Holds p.shared t) :
    Orderly ((client geo).after a p.shared) := by
  have hstep := run_ledger geo a.op p.shared
  have hgrow := after_cursor geo a p.shared
  -- A span reaches a wire when its holder hands it over, and `handsInOrder` lets it.
  refine ⟨ledger_inOrder geo a.op p.shared _ hstep (Bool.and_eq_true_iff.mp hcond).2 hI.ledger,
    fun k => ?_, fun k x hx => ?_, fun k hk x hx hepoch q hq hunsent => ?_⟩
  · rcases after_spans geo t c a p.shared ha k with hsp | ⟨g, rest, hheld, _, hk, _, _, hsp⟩
    · rw [wireInOrder, hsp]
      exact hI.wires k
    · have hg : g ∈ t.held := hheld ▸ List.mem_cons_self
      rw [wireInOrder, hsp]
      refine ⟨List.pairwise_cons.mpr ⟨fun x hx => hQ.ahead k hk x hx g hg, (hI.wires k).1⟩, ?_⟩
      intro x hx
      rcases List.mem_cons.mp hx with rfl | hx
      · exact hQ.proper x hg
      · exact (hI.wires k).2 x hx
  · refine within_grow x _ _ _ _ ?_ hgrow
    rcases after_spans geo t c a p.shared ha k with hsp | ⟨g, rest, hheld, _, _, _, _, hsp⟩
    · exact hI.bounded k x (hsp ▸ hx)
    · rw [hsp] at hx
      rcases List.mem_cons.mp hx with rfl | hx
      · exact hQ.bounded x (hheld ▸ List.mem_cons_self)
      · exact hI.bounded k x hx
  · rcases after_spans geo t c a p.shared ha k with hsp | ⟨g, rest, hheld, _, hk', hw, hled, hsp⟩
    · rw [hsp] at hx
      have hk' := after_current geo a p.shared k hk x hx
      have hbound := hI.bounded k x hx
      rcases hgrow with ⟨hsame, _⟩ | hnew
      · rw [hsame] at hepoch
        rcases ledger_unsent geo a.op p.shared _ hstep q hq hunsent with
          ⟨q₀, hq₀, hunsent₀, hseq⟩ | hgt | hlose
        · exact hseq ▸ hI.unsent k hk' x hx hepoch q₀ hq₀ hunsent₀
        · exact Nat.lt_of_le_of_lt (hbound.2 hepoch) hgt
        · -- The close handler leaves no current socket.
          have hmove := after_moves geo a p.shared
          rw [hlose] at hmove
          have hnone : ((client geo).after a p.shared).inner.outTx = none :=
            move_lose p.shared.link ((client geo).after a p.shared).link hmove
          cases hnone.symm.trans hk
      · have := hbound.1
        omega
    · have hepoch' : x.epoch = p.shared.epoch :=
        hepoch.trans (congrArg Ledger.epoch hled)
      have hq' : q ∈ p.shared.inner.queue.inflight :=
        congrArg (fun l : Ledger => l.queue.inflight) hled ▸ hq
      rw [hsp] at hx
      rcases List.mem_cons.mp hx with rfl | hx
      · exact (mayHand_spec p i t a hcond x rest hheld k hk' hw).2 hepoch' q hq' hunsent
      · exact hI.unsent k hk' x hx hepoch' q hq' hunsent

/-- And what a bystander holds stays ahead of the current wire. -/
theorem after_holds_other (p : Pool Shared Task) (i j : Nat) (t u : Task) (c : Input)
    (a : Act Section Task) (ha : t.act c = some a) (hcond : handsInOrder p i t a = true)
    (hu : p.tasks[j]? = some u) (hji : j ≠ i) (hQu : Holds p.shared u) :
    Holds ((client geo).after a p.shared) u := by
  refine ⟨hQu.order, hQu.proper, fun g hg => within_grow g _ _ _ _ (hQu.bounded g hg)
    (after_cursor geo a p.shared), fun k hk x hx g hg => ?_⟩
  rcases after_spans geo t c a p.shared ha k with hsp | ⟨g', rest, hheld, _, hk', hw, _, hsp⟩
  · rw [hsp] at hx
    exact hQu.ahead k (after_current geo a p.shared k hk x hx) x hx g hg
  · rw [hsp] at hx
    rcases List.mem_cons.mp hx with rfl | hx
    · exact (mayHand_spec p i t a hcond x rest hheld k hk' hw).1 j u hji hu g hg
    · exact hQu.ahead k hk' x hx g hg

/-- Frames just built follow everything on the current wire. -/
theorem holds_new (t : Task) (c : Input) (a : Act Section Task) (s : Shared)
    (h : t.act c = some a) (hnone : t.held = []) (hI : Orderly s)
    (horder : ((client geo).heir a s).held.Pairwise Span.before)
    (hnew : ∀ g ∈ ((client geo).heir a s).held, g.epoch = s.epoch ∧ g.lo ≤ g.hi ∧
      g.hi ≤ ((client geo).after a s).inner.lastAssignedSeq ∧
      ((∃ q ∈ s.inner.queue.inflight, q.sent = false ∧ q.seq = g.lo) ∨
        s.inner.lastAssignedSeq < g.lo)) :
    Holds ((client geo).after a s) ((client geo).heir a s) := by
  refine ⟨horder, fun g hg => (hnew g hg).2.1, fun g hg => ?_, fun k hk x hx g hg => ?_⟩
  -- The cursor stays in its numbering, or a new one begins.
  · rcases hnew g hg with ⟨hepoch, _, hhi, _⟩
    rcases after_cursor geo a s with ⟨hsame, _⟩ | hnext
    · exact ⟨by omega, fun _ => hhi⟩
    · exact ⟨by omega, fun he => by omega⟩
  -- A new frame begins at an unsent point, or beyond the cursor, so behind all on the wire.
  · rcases hnew g hg with ⟨hepoch, _, _, hfirst⟩
    rcases after_spans geo t c a s h k with hsp | ⟨g', rest, hheld, _⟩
    · rw [hsp] at hx
      intro hxg
      have hx' := hxg.trans hepoch
      rcases hfirst with ⟨q, hq, hunsent, hseq⟩ | hgt
      · exact hseq ▸ hI.unsent k (after_current geo a s k hk x hx) x hx hx' q hq hunsent
      · exact Nat.lt_of_le_of_lt ((hI.bounded k x hx).2 hx') hgt
    · cases hnone.symm.trans hheld

/-- What a task goes on holding stays ahead of the current wire. -/
theorem holds_rest (t : Task) (c : Input) (a : Act Section Task) (s : Shared)
    (h : t.act c = some a) (hheir : ((client geo).heir a s).held <:+ t.held)
    (hQ : Holds s t) : Holds ((client geo).after a s) ((client geo).heir a s) := by
  refine ⟨hQ.order.sublist hheir.sublist, fun g hg => hQ.proper g (hheir.subset hg),
    fun g hg => within_grow g _ _ _ _ (hQ.bounded g (hheir.subset hg)) (after_cursor geo a s),
    fun k hk x hx g hg => ?_⟩
  rcases after_spans geo t c a s h k with hsp | ⟨g', rest, hheld, hrest, hk', _, _, hsp⟩
  · rw [hsp] at hx
    exact hQ.ahead k (after_current geo a s k hk x hx) x hx g (hheir.subset hg)
  · rw [hsp] at hx
    rcases List.mem_cons.mp hx with rfl | hx
    · have horder := hQ.order
      rw [hheld] at horder
      exact (List.pairwise_cons.mp horder).1 g (hrest.subset hg)
    · exact hQ.ahead k hk' x hx g (hheir.subset hg)

/-- What a task holds after its own step is ahead of the current wire. -/
theorem after_holds (p : Pool Shared Task) (i : Nat) (t : Task) (c : Input)
    (a : Act Section Task) (ha : t.act c = some a) (hcond : handsInOrder p i t a = true)
    (hI : Orderly p.shared) (hQ : Holds p.shared t) :
    Holds ((client geo).after a p.shared) ((client geo).heir a p.shared) := by
  have hfit : numbersFit p.shared t = true :=
    (Bool.and_eq_true_iff.mp (Bool.and_eq_true_iff.mp hcond).1).2
  -- The task goes on with a rest of what it held, or holds new spans.
  rcases heir_held geo t c a p.shared ha with hrest |
    ⟨⟨_, _, _, _, _, rfl⟩, hready, last, hlast, hheir, hcursor⟩ | ⟨⟨_, rfl⟩, hopen, hheir, hcursor⟩
  · exact holds_rest geo t c a p.shared ha hrest hQ
  · have hlt : p.shared.inner.lastAssignedSeq + p.shared.inner.queue.stagingLen < 2 ^ 32 := by
      rcases Bool.or_eq_true_iff.mp hfit with hnot | hlt
      · rw [hready] at hnot
        cases hnot
      · exact of_decide_eq_true hlt
    rcases flush_spans p.shared hI.ledger last hlast hlt with ⟨horder, hspans⟩
    refine holds_new geo _ c a p.shared ha rfl hI (hheir ▸ horder) fun g hg => ?_
    rcases hspans g (hheir ▸ hg) with ⟨hepoch, hle, hhi, q, hq, hseq⟩
    refine ⟨hepoch, hle, hcursor ▸ hhi, ?_⟩
    rcases flushPoints_queued _ q hq with ⟨hmem, hunsent⟩ | hgt
    · exact Or.inl ⟨q, hmem, hunsent, hseq⟩
    · exact Or.inr (hseq ▸ hgt)
  · have hlt : p.shared.inner.lastAssignedSeq + 1 < 2 ^ 32 := by
      rcases Bool.or_eq_true_iff.mp hfit with hnot | hlt
      · rw [hopen] at hnot
        cases hnot
      · exact of_decide_eq_true hlt
    refine holds_new geo _ c a p.shared ha rfl hI ?_ fun g hg => ?_
    · rw [hheir]
      exact List.pairwise_singleton _ _
    · rw [hheir, truncU32_eq _ hlt, List.mem_singleton] at hg
      rw [hg]
      exact ⟨rfl, Nat.le_refl _, Nat.le_of_eq hcursor.symm, Or.inr (Nat.lt_succ_self _)⟩

variable (cfg : Config)

/-- In a run that hands frames over in order, wires are in order and held
    frames come after what is on the current one. -/
theorem reach_orderly (p : Pool Shared Task)
    (h : (client geo).Reach (Started cfg)
      ((client geo).whenever fun p i t a => handsInOrder p i t a = true) p) :
    Orderly p.shared ∧ ∀ (j : Nat) u, p.tasks[j]? = some u → Holds p.shared u := by
  refine (client geo).reach_tasks (Started cfg) _ Orderly Holds ?_ ?_ ?_ ?_ p h
  · intro p hp
    rcases started_pool cfg p hp with ⟨now, rfl⟩
    -- At the start there is no wire, and nobody holds a frame.
    refine ⟨⟨inOrder_nil _ _ _ _ _ _ rfl, fun _ => ⟨.nil, by rintro x ⟨⟩⟩, by rintro k x ⟨⟩,
      by rintro k ⟨⟩⟩, fun t ht => ?_⟩
    rw [List.mem_singleton.mp ht]
    exact holds_nil _ _ rfl
  · intro s t _ hent
    exact holds_nil s t (call_held t ((entry_iff geo s t).mp hent).2)
  · intro p i c t a _ ha hcond hI hQ _
    exact ⟨after_orderly geo p i t c a ha hcond hI hQ, after_holds geo p i t c a ha hcond hI hQ,
      fun u hu => holds_nil _ u (spawned_held geo t c a p.shared ha u hu)⟩
  · intro p i j c t u a _ hu hji ha hcond _ _ hQu
    exact after_holds_other geo p i j t u c a ha hcond hu hji hQu

/-- Loc frames leave in order, once, on every socket, in every run that hands frames
    over in order. Frames are built in order under the lock and handed over one by
    one after it, so what can go wrong is a second task that hands over in between. -/
theorem reach_wireInOrder (p : Pool Shared Task)
    (h : (client geo).Reach (Started cfg)
      ((client geo).whenever fun p i t a => handsInOrder p i t a = true) p) (k : Nat) :
    wireInOrder (p.shared.wire k) :=
  (reach_orderly geo cfg p h).1.wires k

end Client

/-- Two points were published and handed over one after the other. -/
theorem reach_wireInOrder_published :
    ∃ p : Pool Shared Task, spans (p.shared.wire 0) = [⟨2, 2, 2⟩, ⟨2, 1, 1⟩] ∧
      wireInOrder (p.shared.wire 0) := by
  rcases reach_of_watched handsInOrder
    (tracking ++ publishSteps 4 1000 ++ [.resume 4 .go] ++ publishSteps 5 2000 ++ [.resume 5 .go])
    (fun p => decide (spans (p.shared.wire 0) = [⟨2, 2, 2⟩, ⟨2, 1, 1⟩]))
    (by decide +kernel) with ⟨p, hp, hrun⟩
  exact ⟨p, of_decide_eq_true hrun, reach_wireInOrder flatGeo someConfig p hp 0⟩

/-- Two points get their numbers one after the other; the second one is handed
    over first. -/
def overtaking : List (Label Task Input) :=
  tracking ++ publishSteps 4 1000 ++ publishSteps 5 2000 ++ [.resume 5 .go, .resume 4 .go]

/-- The later point goes over the wire before the earlier one. -/
theorem publish_overtakes :
    ¬ ∀ p, (client flatGeo).Reach (Started someConfig) Machine.anyStep p →
      ∀ k, wireInOrder (p.shared.wire k) := by
  intro hall
  rcases reach_of_opening overtaking
    (fun p => decide (spans (p.shared.wire 0) = [⟨2, 1, 1⟩, ⟨2, 2, 2⟩]))
    (by decide +kernel) with ⟨p, hp, hrun⟩
  have hspans := of_decide_eq_true hrun
  have horder := (hall p hp 0).1
  rw [hspans] at horder
  exact absurd (List.pairwise_cons.mp horder).1 (by decide)

end Tracking

end Pickpoint
