import Pickpoint.Theory.Binding
import Pickpoint.Theory.SendOrder
import Pickpoint.Theory.Readers
import Pickpoint.Interleave.Tally

/-!
# Outstanding Frames

How many Loc frames a socket has been handed without an `Ack` after it.

The window of the queue lists the frames recorded since the last loss of a
socket, and never has more than `MAX_UNACKED_FRAMES` entries. It bounds what is
outstanding on the wire as long as every Loc frame that is on the wire of the
current socket, or is about to be put on it, has its entry. A frame handed to
another socket than the one it was recorded for has none
(`stale_frame_exceeds`), and entries whose frames still wait for their `Ack`
are dropped when the queue is cleared for another track: its numbers start from
one again, and the `Ack`s of the track before say nothing about them.

Frames and entries are matched by counting: from any number on, there are at most
as many frames as entries. An `Ack` takes both away up to its number, so it keeps
the balance.

## Main definitions

* `unacked`: The Loc frames of a wire that no later `Ack` covers.
* `Task.owes`: The frames a task is about to hand to a socket.
* `Section.keepsFrom`: Which entries of the window a section keeps.
* `Section.keepsEntries`, `matchesWindow`: The window matches what is outstanding.
* `Windowed`: What holds throughout such a run.

## Theorems

* `act_load`: What a step adds to the current socket is in the window.
* `run_window`: What stays in the window.
* `kept_covers`: What waits keeps its entries.
* `step_covered`: The entries cover the frames that wait.
* `reach_windowed`: Runs where the window matches.
* `reach_unacked`: At most `MAX_UNACKED_FRAMES` frames are outstanding.
* `stale_frame_exceeds`: Not so in general.
-/

namespace Pickpoint

namespace Tracking

open Interleave

/-! ## Wires -/

/-- The number an `Ack` carries. -/
def Traffic.ackSeq : Traffic → Option Nat
  | .got (.ack seq) => some seq
  | _ => none

/-- The Loc frames of a wire that no `Ack` covers which was received after them. The
    wire is listed from its end, so what stands below an `Ack` was there before. -/
def unacked : List Traffic → List Nat
  | [] => []
  | t :: w =>
    match t.ackSeq with
    | some seq => (unacked w).filter fun n => decide (seq + 1 ≤ n)
    | none => t.locSeq.toList ++ unacked w

/-- The Loc frames a task is about to hand to socket `k`, which they were built
    for. -/
def Task.owes (k : Nat) : Task → List Nat
  | .reader _ _ (.sending ticket frames _ _ _) =>
    if ticket.sock = some k then frames.map (·.seq) else []
  | .publish (.send seq _ ticket) => if ticket.sock = some k then [truncU32 seq] else []
  | _ => []

/-! ## The condition -/

/-- Whether an `Error` drops the track and its queue. -/
def errorDrops (e : Error) (g : Inner) : Bool :=
  (g.resumeWait.isSome && isFatalResumeError e.code) || e.code == .trackNotFound

/-- The number from which on a section that keeps the socket leaves the entries in
    the window, if it leaves any. -/
def Section.keepsFrom (s : Shared) : {α : Type} → Section α → Option Nat
  | _, .dispatchAck _ seq | _, .dispatchResumeOk _ _ seq => some (seq + 1)
  | _, .dispatchTrackStopped _ uid => if s.inner.trackUid = uid then none else some 0
  | _, .dispatchError _ e => if errorDrops e s.inner then none else some 0
  | _, .startTrack _ _ => none
  | _, .publishStart _ _ =>
    if s.inner.trackUid = "" ∧ s.inner.starting = false then none else some 0
  | _, _ => some 0

/-- The Loc frames built for a socket that it is about to be handed. -/
def owedTo (p : Pool Shared Task) (k : Nat) : List Nat := p.tasks.flatMap (Task.owes k)

/-- The Loc frames of a socket that wait for their `Ack`, or for being handed over. -/
def loadOf (p : Pool Shared Task) (k : Nat) : List Nat :=
  unacked (p.shared.wire k) ++ owedTo p k

/-- The frames whose entries a section must leave alone: an `Ack` read from the socket
    takes the frames that it covers out of the load, so only those that are still to be
    handed over matter. -/
def Section.bearsOn (p : Pool Shared Task) (k : Nat) : {α : Type} → Section α → List Nat
  | _, .dispatchAck sock _ => if sock = k then owedTo p k else loadOf p k
  | _, _ => loadOf p k

/-- The frames of the current socket keep their entries. -/
def Section.keepsEntries (p : Pool Shared Task) {α : Type} (op : Section α) : Bool :=
  p.shared.inner.outTx.all fun k => (op.bearsOn p k).all fun n =>
    (op.keepsFrom p.shared).any fun b => decide (b ≤ n)

/-- Loc frames are handed to the socket they were built for, and an entry leaves the
    window by an `Ack` from the current socket for its frame, or when its frame has its
    `Ack`. -/
def Section.matchesWindow (p : Pool Shared Task) : {α : Type} → Section α → Bool
  | _, .sendBin frame (some ticket) =>
    (Traffic.sent (.bin frame) (some ticket)).locSeq.isNone || p.shared.inner.outTx.isNone ||
      decide (ticket.sock = p.shared.inner.outTx)
  | _, op => op.keepsEntries p

def matchesWindow (p : Pool Shared Task) (_ : Nat) (_ : Task) (a : Act Section Task) : Bool :=
  a.op.matchesWindow p

/-! ## Counting from a number on -/

/-- How many of some numbers are at least `n`. -/
def countFrom (n : Nat) (ns : List Nat) : Nat := ns.countP fun m => decide (n ≤ m)

theorem countFrom_append (n : Nat) (ms ns : List Nat) :
    countFrom n (ms ++ ns) = countFrom n ms + countFrom n ns := List.countP_append

theorem countFrom_cons (n m : Nat) (ns : List Nat) :
    countFrom n (m :: ns) = countFrom n [m] + countFrom n ns :=
  countFrom_append n [m] ns

theorem countFrom_sublist (n : Nat) (ms ns : List Nat) (h : ms.Sublist ns) :
    countFrom n ms ≤ countFrom n ns := h.countP_le

/-- Larger numbers count no less. -/
theorem countFrom_singleton_mono (n m m' : Nat) (h : m ≤ m') :
    countFrom n [m] ≤ countFrom n [m'] := by
  unfold countFrom
  simp only [List.countP_singleton, decide_eq_true_eq]
  split <;> split <;> omega

/-- From `n` on, what is at least `b` is what is left from the larger of the two. -/
theorem countFrom_filter (n b : Nat) (ns : List Nat) :
    countFrom n (ns.filter fun m => decide (b ≤ m)) = countFrom (max n b) ns := by
  unfold countFrom
  rw [List.countP_filter]
  refine List.countP_congr fun m _ => ?_
  simp only [Bool.and_eq_true, decide_eq_true_eq]
  omega

/-- From 0 on there is everything. -/
theorem countFrom_zero (ns : List Nat) : countFrom 0 ns = ns.length :=
  List.countP_eq_length.mpr fun m _ => decide_eq_true (Nat.zero_le m)

/-- What is at least `b` is counted alike from `n` and from the larger of the two. -/
theorem countFrom_max (n b : Nat) (ns : List Nat) (h : ∀ m ∈ ns, b ≤ m) :
    countFrom n ns = countFrom (max n b) ns := by
  refine List.countP_congr fun m hm => ?_
  simp only [decide_eq_true_eq, Nat.max_le]
  exact ⟨fun hle => ⟨hle, h m hm⟩, fun hle => hle.1⟩

/-! ## What waits on a wire -/

theorem unacked_ack (seq : Nat) (w : List Traffic) :
    unacked (.got (.ack seq) :: w) = (unacked w).filter fun n => decide (seq + 1 ≤ n) := rfl

theorem unacked_sent (out : Outbound) (ticket : Option Ticket) (w : List Traffic) :
    unacked (.sent out ticket :: w) = (Traffic.sent out ticket).locSeq.toList ++ unacked w := rfl

/-- What arrives adds nothing. -/
theorem unacked_got (evt : ServerEvt) (w : List Traffic) :
    (unacked (.got evt :: w)).Sublist (unacked w) := by
  cases evt with
  | ack seq => exact List.filter_sublist
  | _ => exact List.Sublist.refl _

/-! ## The window -/

theorem recordFrames_window (room : Nat) (q : OfflineQueue) (fs : List LocFrame)
    (h : q.sentFrameSeqs.length ≤ maxUnackedFrames) :
    (recordFrames room q fs).1.sentFrameSeqs.length ≤ maxUnackedFrames := by
  induction fs generalizing room q with
  | nil => exact h
  | cons f fs ih =>
      rw [recordFrames]
      by_cases hfull : q.windowFull = true
      · rw [if_pos hfull]
        exact h
      · rw [if_neg hfull]
        -- There is room for one more.
        have hnext : (q.recordFrame f.seq).sentFrameSeqs.length ≤ maxUnackedFrames := by
          unfold OfflineQueue.windowFull at hfull
          simp only [decide_eq_true_eq] at hfull
          simp only [OfflineQueue.recordFrame, List.length_append, List.length_singleton]
          omega
        split
        · exact hnext
        · exact ih _ _ hnext

section Client

variable (geo : Geo)

/-- The window never has more entries than it may. -/
theorem ledger_full {α : Type} (op : Section α) (s : Shared) (l' : Ledger)
    (hstep : LedgerStep geo s op l')
    (h : s.inner.queue.sentFrameSeqs.length ≤ maxUnackedFrames) :
    l'.queue.sentFrameSeqs.length ≤ maxUnackedFrames := by
  have hfilter : ∀ seq, (s.inner.queue.ackThrough seq).sentFrameSeqs.length ≤ maxUnackedFrames :=
    fun seq => Nat.le_trans (List.length_filter_le _ _) h
  have hnone : ([] : List Nat).length ≤ maxUnackedFrames := Nat.zero_le _
  cases hstep with
  | resumeOk sock uid acked => exact hfilter acked
  | ack sock seq => exact hfilter seq
  | stopped => exact hnone
  | startTrack => exact hnone
  | publishStart => exact hnone
  | closed => exact hnone
  | error sock e uid queue starting hdrop =>
      rcases hdrop with ⟨_, rfl⟩ | ⟨_, rfl⟩
      · exact h
      · exact hnone
  | flush last =>
      refine recordFrames_window _ _ _ ?_
      rw [flushPoints_window]
      exact h
  | publishStaged now wall point emitted =>
      rcases s.inner.queue.pushStaging_inflight geo emitted with ⟨_, _, hseqs⟩
      exact hseqs ▸ h
  | publishLive now wall point emitted hlive =>
      -- The gate of a live publish has checked that the window is not full.
      have hopen := goesLive_open geo now wall point s.inner hlive
      have hroom : s.inner.queue.sentFrameSeqs.length < maxUnackedFrames := by
        unfold publishOpen OfflineQueue.windowFull at hopen
        simp only [Bool.and_eq_true, Bool.not_eq_true', decide_eq_false_iff_not] at hopen
        omega
      rw [goLive_window, List.length_append]
      exact hroom
  | _ => exact h

/-- An `Error` that does not drop the track leaves the queue alone. -/
theorem dispatchError_queue (sock : Nat) (e : Error) (s : Shared)
    (h : errorDrops e s.inner = false) :
    (dispatchError sock e s).inner.queue = s.inner.queue := by
  unfold errorDrops at h
  simp only [Bool.or_eq_false_iff, beq_eq_false_iff_ne, ne_eq] at h
  rcases h with ⟨hfatal, hcode⟩
  have hresume : ∀ s' : Shared, s'.inner = s.inner →
      (errorResume e s').inner.queue = s.inner.queue := by
    intro s' hs'
    unfold errorResume
    by_cases hwait : s'.inner.resumeWait.isSome = true
    · rw [← hs', hwait, Bool.true_and] at hfatal
      rw [if_pos hwait]
      simp only [Shared.resolve_frame, hfatal, Bool.false_eq_true, if_false]
      rw [hs']
    · rw [if_neg hwait, hs']
  unfold dispatchError errorTrackNotFound errorStop
  rw [if_neg fun hnot => hcode hnot.1]
  simp only [Shared.resolve_frame, errorStart_inner]
  exact hresume _ rfl

/-- A section that does not give the socket up keeps the entries its `keepsFrom`
    names. -/
theorem run_window {α : Type} (op : Section α) (s : Shared)
    (hstays : op.drive ≠ .lose s.inner.dialGen) (n b : Nat) (h : op.keepsFrom s = some b) :
    countFrom (max n b) s.inner.queue.sentFrameSeqs ≤
      countFrom n (op.run geo s).1.inner.queue.sentFrameSeqs := by
  have hacked : ∀ seq, countFrom (max n (seq + 1)) s.inner.queue.sentFrameSeqs =
      countFrom n (s.inner.queue.ackThrough seq).sentFrameSeqs :=
    fun seq => (countFrom_filter n (seq + 1) s.inner.queue.sentFrameSeqs).symm
  have hkept : countFrom (max n b) s.inner.queue.sentFrameSeqs ≤
      countFrom n s.inner.queue.sentFrameSeqs := by
    refine List.countP_mono_left fun m _ hm => ?_
    rw [decide_eq_true_eq] at *
    exact Nat.le_trans (Nat.le_max_left n b) hm
  have hstep := run_ledger geo op s
  have hqueue : (op.run geo s).1.ledger.queue = (op.run geo s).1.inner.queue := rfl
  rw [← hqueue]
  generalize hl : (op.run geo s).1.ledger = l' at hstep
  cases hstep with
  | resumeOk sock uid acked =>
      cases h
      exact Nat.le_of_eq (hacked acked)
  | ack sock seq =>
      cases h
      exact Nat.le_of_eq (hacked seq)
  | stopped sock =>
      have hnone : (Section.dispatchTrackStopped sock s.inner.trackUid).keepsFrom s = none :=
        if_pos rfl
      cases hnone.symm.trans h
  | error sock e uid queue starting =>
      -- Only an error that drops the track touches the window.
      by_cases hdrops : errorDrops e s.inner = true
      · have hnone : (Section.dispatchError sock e).keepsFrom s = none := if_pos hdrops
        cases hnone.symm.trans h
      · have hsame := dispatchError_queue sock e s (Bool.eq_false_of_not_eq_true hdrops)
        have hq : queue = (dispatchError sock e s).inner.queue := (congrArg Ledger.queue hl).symm
        have hsent : queue.sentFrameSeqs = _ := congrArg (·.sentFrameSeqs) (hq.trans hsame)
        rw [hsent]
        exact hkept
  | closed => exact absurd rfl hstays
  | flush last =>
      rw [flushFrames_window, countFrom_append]
      exact Nat.le_add_right_of_le hkept
  | startTrack => cases h
  | publishStart wall point hidle =>
      have hnone : (Section.publishStart wall point).keepsFrom s = none := if_pos hidle
      cases hnone.symm.trans h
  | publishStaged now wall point emitted =>
      rcases s.inner.queue.pushStaging_inflight geo emitted with ⟨_, _, hseqs⟩
      exact Nat.le_trans hkept (Nat.le_of_eq (congrArg (countFrom n) hseqs.symm))
  | publishLive now wall point emitted =>
      rw [goLive_window, countFrom_append]
      exact Nat.le_add_right_of_le hkept
  | _ => exact hkept

/-! ## What tasks are about to hand over -/

theorem owes_eq (k : Nat) (t : Task) :
    t.owes k = if t.ticket.bind (·.sock) = some k then t.held.map (·.hi) else [] := by
  have hhi : ∀ (epoch : Nat) (frames : List LocFrame),
      (frames.map (LocFrame.span epoch)).map (·.hi) = frames.map (·.seq) := by
    intro epoch frames
    rw [List.map_map]
    rfl
  cases t with
  | reader sock gen pc =>
      cases pc with
      | sending ticket frames cell r forward =>
          simp only [Task.owes, Task.ticket, Task.held, Option.bind_some, hhi]
      | _ => rfl
  | publish pc => cases pc <;> rfl
  | sendEvent pc =>
      cases pc with
      | send payload ticket =>
          simp only [Task.owes, Task.held, List.map_nil, ite_self]
      | _ => rfl
  | _ => rfl

theorem owes_le (n k : Nat) (t : Task) :
    countFrom n (t.owes k) ≤ countFrom n (t.held.map (·.hi)) := by
  rw [owes_eq]
  split
  · exact Nat.le_refl _
  · exact Nat.zero_le _

/-- A task that goes on with a rest of its frames owes them to the same socket. -/
theorem heir_owes (t : Task) (c : Input) (a : Act Section Task) (s : Shared) (k : Nat)
    (h : t.act c = some a) (hrest : ((client geo).heir a s).held <:+ t.held) :
    (((client geo).heir a s).owes k).Sublist (t.owes k) := by
  by_cases hnil : ((client geo).heir a s).held = []
  · rw [owes_eq, hnil]
    simp only [List.map_nil, ite_self, List.nil_sublist]
  · -- What it holds it held before, so it kept its ticket.
    have hticket : ((client geo).heir a s).ticket = t.ticket := by
      have hheld : t.held ≠ [] := by
        intro hnone
        rw [hnone] at hrest
        exact hnil (List.suffix_nil.mp hrest)
      revert hnil
      unfold Machine.heir
      cases t with
      -- A reader hands out the frames of a flush one by one.
      | reader sock gen pc =>
          cases pc with
          | sending ticket frames cell r forward =>
              rcases frames with _ | ⟨f, fs⟩
              · exact absurd rfl hheld
              · cases c <;> cases h
                dsimp only
                split
                · exact fun hnil => absurd rfl hnil
                · exact fun _ => rfl
          | _ => exact absurd rfl hheld
      -- A publish holds a single frame.
      | publish pc =>
          cases pc with
          | send seq point ticket =>
              cases c <;> cases h
              exact fun hnil => absurd rfl hnil
          | _ => exact absurd rfl hheld
      | _ => exact absurd rfl hheld
    rw [owes_eq, owes_eq, hticket]
    split
    · exact hrest.sublist.map _
    · exact List.nil_sublist _

theorem flush_window (s : Shared) (hready : flushReady s.inner = true) (last : QueuedPoint)
    (hlast : (flushPoints s.inner).2.getLast? = some last) :
    (flush s).1.inner.queue.sentFrameSeqs =
      s.inner.queue.sentFrameSeqs ++ (flushFrames s.inner last.seq).2.map (·.seq) := by
  rw [← flushFrames_window]
  simp only [flush, hready, hlast, Bool.not_true, Bool.false_eq_true, if_false]
  rfl

/-- A Loc frame with a ticket has the number its points end at. -/
theorem locSeq_span (frame : Frame) (ticket : Ticket) :
    (Traffic.sent (.bin frame) (some ticket)).locSeq =
      (Traffic.sent (.bin frame) (some ticket)).locSpan.map (·.hi) := by
  cases frame with
  | loc f => rfl
  | cmd cmd => cases cmd <;> rfl

theorem plain_locSeq (frame : Frame) (ticket : Option Ticket) (h : frame.isData = false) :
    (Traffic.sent (.bin frame) ticket).locSeq = none := by
  cases frame with
  | loc f => cases h
  | cmd cmd => cases cmd <;> first | rfl | cases h

/-- What a task hands over to the current socket it owed to it, unless it is no
    Loc frame. -/
theorem act_owes (t : Task) (c : Input) (a : Act Section Task) (s : Shared) (k : Nat)
    (h : t.act c = some a) (out : Outbound) (ticket : Option Ticket)
    (hop : a.op.hands = some (out, ticket))
    (hhome : ∀ frame tk, a.op.hands = some (.bin frame, some tk) →
      (Traffic.sent (.bin frame) (some tk)).locSeq = none ∨ tk.sock = some k) :
    (Traffic.sent out ticket).locSeq = none ∨
      ∃ m rest, (Traffic.sent out ticket).locSeq = some m ∧ t.owes k = m :: rest ∧
        (((client geo).heir a s).held.map (·.hi)).Sublist rest := by
  rcases out with frame | _
  · rcases act_hands t c a h frame ticket hop with ⟨_, hplain⟩ | ⟨hticket, hsome⟩
    · exact Or.inl (plain_locSeq frame ticket hplain)
    · rcases Option.isSome_iff_exists.mp hsome with ⟨tk, rfl⟩
      rcases hhome frame tk hop with hnone | hsock
      · exact Or.inl hnone
      · rcases act_spans geo t c a s h (.bin frame) (some tk) hop with
          hnone | ⟨g, rest, hheld, hsome, hheir⟩
        · exact Or.inl (by rw [locSeq_span, hnone]; rfl)
        · refine Or.inr ⟨g.hi, rest.map (·.hi), by rw [locSeq_span, hsome]; rfl, ?_,
            hheir.sublist.map _⟩
          rw [owes_eq, hticket, hheld, Option.bind_some, if_pos hsock]
          rfl
  · exact Or.inl rfl

/-- A section that neither hears nor hands over leaves the wires. -/
theorem run_quiet {α : Type} (sec : Section α) (s : Shared) (k : Nat) (hears : sec.hears = none)
    (hhands : sec.hands = none) : ((client geo).run sec s).1.wire k = s.wire k := by
  rcases run_wire geo sec s k with hw | ⟨evt, hop, _⟩ | ⟨out, ticket, hop, _⟩
  · exact hw
  · cases hears.symm.trans hop
  · cases hhands.symm.trans hop

/-- A step that builds no frame puts on the wire what the task owed. -/
theorem rest_load (t : Task) (c : Input) (a : Act Section Task) (s : Shared) (k : Nat)
    (h : t.act c = some a)
    (hhome : ∀ frame tk, a.op.hands = some (.bin frame, some tk) →
      (Traffic.sent (.bin frame) (some tk)).locSeq = none ∨ tk.sock = some k)
    (hrest : ((client geo).heir a s).held <:+ t.held) (n : Nat) :
    countFrom n (unacked (((client geo).after a s).wire k)) +
        countFrom n (((client geo).heir a s).owes k) ≤
      countFrom n (unacked (s.wire k)) + countFrom n (t.owes k) := by
  have howes := countFrom_sublist n _ _ (heir_owes geo t c a s k h hrest)
  rcases run_wire geo a.op s k with hw | ⟨evt, _, hw⟩ | ⟨out, ticket, hop, hk, _, hw⟩
  · have hwire : ((client geo).after a s).wire k = s.wire k := hw
    rw [hwire]
    omega
  · have hwire : ((client geo).after a s).wire k = _ := hw
    have hgot := countFrom_sublist n _ _ (unacked_got evt (s.wire k))
    rw [hwire]
    omega
  · have hwire : ((client geo).after a s).wire k = _ := hw
    rw [hwire, unacked_sent]
    rcases act_owes geo t c a s k h out ticket hop hhome with hnone | ⟨m, rest, hm, howed, hsub⟩
    · rw [hnone, Option.toList_none, List.nil_append]
      omega
    · -- The frame moves from the task to the wire.
      have hle := Nat.le_trans (owes_le n k ((client geo).heir a s)) (countFrom_sublist n _ _ hsub)
      rw [hm, Option.toList_some, countFrom_append, howed, countFrom_cons n m rest]
      omega

/-- Who reads an `Ack` owes no more afterwards. -/
theorem ack_owes (t : Task) (c : Input) (a : Act Section Task) (s : Shared) (k j seq : Nat)
    (h : t.act c = some a) (hop : a.op.hears = some (j, .ack seq)) (n : Nat) :
    countFrom n (((client geo).heir a s).owes k) ≤ countFrom n (t.owes k) := by
  rcases heir_held geo t c a s h with hrest | ⟨⟨_, _, _, _, _, rfl⟩, _⟩ | ⟨⟨_, rfl⟩, _⟩
  · exact countFrom_sublist n _ _ (heir_owes geo t c a s k h hrest)
  · cases c <;> cases h
    cases hop
  · cases c <;> cases h
    cases hop

/-- A point that goes live is recorded: the publish that holds its frame has added
    it to the window. -/
theorem publishWork_window (now : Instant) (wall : Int) (point : LatLng) (a : Act Section Task)
    (s : Shared) (h : (Task.publish (.work point)).act (.clock now wall) = some a)
    (hheld : ((client geo).heir a s).held ≠ []) :
    ((client geo).after a s).inner.queue.sentFrameSeqs =
      s.inner.queue.sentFrameSeqs ++ [s.inner.lastAssignedSeq + 1] := by
  cases h
  revert hheld
  unfold Machine.heir Machine.after
  have hrun : (client geo).run (Section.publishWork now wall point) s =
      publishWork geo now wall point s := rfl
  rcases publishWork_cases geo now wall point s with
    hi | ⟨_, _, hi | ⟨emitted, ⟨_, hi⟩ | ⟨_, hi⟩⟩⟩
  · simp only [hrun, hi]
    exact fun hnil => absurd rfl hnil
  · simp only [hrun, hi]
    exact fun hnil => absurd rfl hnil
  · simp only [hrun, hi]
    exact fun hnil => absurd rfl hnil
  · intro _
    simp only [hrun, hi]
    exact goLive_window geo s.ledger s.ticket emitted

/-- What a step adds to the frames of the current socket, handed over or owed,
    it adds to the window. -/
theorem act_load (t : Task) (c : Input) (a : Act Section Task) (s : Shared) (k : Nat)
    (h : t.act c = some a)
    (hhome : ∀ frame tk, a.op.hands = some (.bin frame, some tk) →
      (Traffic.sent (.bin frame) (some tk)).locSeq = none ∨ tk.sock = some k) :
    (∀ n, countFrom n (unacked (((client geo).after a s).wire k)) +
        countFrom n (((client geo).heir a s).owes k) ≤
      countFrom n (unacked (s.wire k)) + countFrom n (t.owes k)) ∨
    ∃ new, ((client geo).after a s).inner.queue.sentFrameSeqs =
        s.inner.queue.sentFrameSeqs ++ new ∧
      ∀ n, countFrom n (unacked (((client geo).after a s).wire k)) +
          countFrom n (((client geo).heir a s).owes k) ≤
        countFrom n (unacked (s.wire k)) + countFrom n new := by
  -- What a frame is built from is recorded in the window; the rest only moves.
  rcases heir_held geo t c a s h with
    hrest | ⟨⟨_, _, _, _, _, rfl⟩, hready, last, hlast, hheld, _⟩ | ⟨⟨point, rfl⟩, hopen, hheld, _⟩
  · exact Or.inl (rest_load geo t c a s k h hhome hrest)
  · cases c <;> cases h
    have hwindow : ((client geo).run Section.flush s).1.inner.queue.sentFrameSeqs =
        s.inner.queue.sentFrameSeqs ++ (flushFrames s.inner last.seq).2.map (·.seq) :=
      flush_window s hready last hlast
    have hwire : ((client geo).run Section.flush s).1.wire k = s.wire k :=
      run_quiet geo Section.flush s k rfl rfl
    refine Or.inr ⟨_, hwindow, fun n => ?_⟩
    refine Nat.add_le_add (Nat.le_of_eq (congrArg (fun w => countFrom n (unacked w)) hwire))
      (Nat.le_trans (owes_le n k _) (Nat.le_of_eq ?_))
    rw [hheld, List.map_map]
    rfl
  · cases c with
    | clock now wall =>
        have hne : ((client geo).heir a s).held ≠ [] := by
          rw [hheld]
          exact List.cons_ne_nil _ _
        refine Or.inr ⟨_, publishWork_window geo now wall point a s h hne, fun n => ?_⟩
        cases h
        have hwire : ((client geo).run (Section.publishWork now wall point) s).1.wire k =
            s.wire k := run_quiet geo _ s k rfl rfl
        refine Nat.add_le_add (Nat.le_of_eq (congrArg (fun w => countFrom n (unacked w)) hwire))
          (Nat.le_trans (owes_le n k _) ?_)
        rw [hheld]
        exact countFrom_singleton_mono n _ _ (truncU32_le _)
    | _ => cases h

/-! ## Runs -/

/-- The window has an entry for every Loc frame that the current socket was
    handed, or is about to be, and that no `Ack` covers. -/
structure Windowed (p : Pool Shared Task) : Prop where
  full : p.shared.inner.queue.sentFrameSeqs.length ≤ maxUnackedFrames
  covered : ∀ k, p.shared.inner.outTx = some k → ∀ n,
    countFrom n (loadOf p k) ≤ countFrom n p.shared.inner.queue.sentFrameSeqs
  unacked : ∀ k, (unacked (p.shared.wire k)).length ≤ maxUnackedFrames

/-- No task has a ticket for a socket that is not installed yet. -/
def Ticketed (p : Pool Shared Task) : Prop :=
  ∀ (j : Nat) t, p.tasks[j]? = some t → ∀ ticket k, t.ticket = some ticket →
    ticket.sock = some k → k < p.shared.sockets.length

theorem countFrom_loadOf (n k : Nat) (p : Pool Shared Task) :
    countFrom n (loadOf p k) = countFrom n (unacked (p.shared.wire k)) +
      (p.tasks.map fun t => countFrom n (t.owes k)).sum := by
  unfold loadOf owedTo
  rw [countFrom_append]
  unfold countFrom
  rw [List.countP_flatMap]
  rfl

theorem owes_none (k : Nat) (t : Task) (h : t.ticket = none) : t.owes k = [] := by
  rw [owes_eq, h]
  rfl

/-- How a step changes what the current socket was handed or will be. -/
theorem load_resumed (p : Pool Shared Task) (i : Nat) (c : Input) (t : Task)
    (a : Act Section Task) (ht : p.tasks[i]? = some t) (ha : t.act c = some a) (n k : Nat) :
    countFrom n (loadOf ((client geo).resumed p i a) k) +
        (countFrom n (unacked (p.shared.wire k)) + countFrom n (t.owes k)) =
      countFrom n (loadOf p k) +
        (countFrom n (unacked (((client geo).after a p.shared).wire k)) +
          countFrom n (((client geo).heir a p.shared).owes k)) := by
  have hsum := (client geo).resumed_sum p i a t ht fun t => countFrom n (t.owes k)
  have hnew : (((client geo).spawned a p.shared).map fun t => countFrom n (t.owes k)).sum = 0 := by
    refine List.sum_eq_zero fun m hm => ?_
    rcases List.mem_map.mp hm with ⟨u, hu, rfl⟩
    rw [owes_none k u (spawned_ticket geo t c a p.shared ha u hu)]
    rfl
  have hshared : ((client geo).resumed p i a).shared = (client geo).after a p.shared := rfl
  rw [countFrom_loadOf, countFrom_loadOf, hshared]
  omega

/-- An `Ack` comes from the current socket and covers no frame that is still to be
    handed over, or what waits keeps its entries. -/
theorem matchesWindow_cases {α : Type} (op : Section α) (p : Pool Shared Task) (k : Nat)
    (hk : p.shared.inner.outTx = some k) (hcond : op.matchesWindow p = true) :
    (∃ seq, op.hears = some (k, .ack seq) ∧ op.keepsFrom p.shared = some (seq + 1) ∧
      ∀ m ∈ owedTo p k, seq + 1 ≤ m) ∨
    ∀ m ∈ loadOf p k, ∃ b, op.keepsFrom p.shared = some b ∧ b ≤ m := by
  -- What the condition tests, as a statement.
  have hkept : ∀ ns : List Nat, (ns.all fun n =>
      (op.keepsFrom p.shared).any fun b => decide (b ≤ n)) = true →
      ∀ m ∈ ns, ∃ b, op.keepsFrom p.shared = some b ∧ b ≤ m := by
    intro ns hall m hm
    rcases Option.any_eq_true _ _ |>.mp (List.all_eq_true.mp hall m hm) with ⟨b, hb, hle⟩
    exact ⟨b, hb, of_decide_eq_true hle⟩
  cases op with
  | dispatchAck sock seq =>
      have hkeeps : (Section.dispatchAck sock seq).keepsEntries p = true := hcond
      unfold Section.keepsEntries at hkeeps
      rw [hk, Option.all_some] at hkeeps
      by_cases hsock : sock = k
      -- Read from the current socket, it takes the frames on the wire off the load itself.
      · have howed : (Section.dispatchAck sock seq).bearsOn p k = owedTo p k := if_pos hsock
        rw [howed] at hkeeps
        refine Or.inl ⟨seq, by rw [hsock]; rfl, rfl, fun m hm => ?_⟩
        rcases hkept _ hkeeps m hm with ⟨b, hb, hle⟩
        cases hb
        exact hle
      -- Read from another one, it takes nothing off.
      · have hload : (Section.dispatchAck sock seq).bearsOn p k = loadOf p k := if_neg hsock
        rw [hload] at hkeeps
        exact Or.inr (hkept _ hkeeps)
  | sendBin => exact Or.inr fun m _ => ⟨0, rfl, Nat.zero_le m⟩
  | _ =>
      refine Or.inr (hkept _ ?_)
      have hkeeps : (p.shared.inner.outTx.all fun k => (loadOf p k).all fun n =>
        (Section.keepsFrom p.shared _).any fun b => decide (b ≤ n)) = true := hcond
      rwa [hk, Option.all_some] at hkeeps

theorem matchesWindow_home {α : Type} (op : Section α) (p : Pool Shared Task) (k : Nat)
    (hk : p.shared.inner.outTx = some k) (hcond : op.matchesWindow p = true) (frame : Frame)
    (ticket : Ticket) (hop : op.hands = some (.bin frame, some ticket)) :
    (Traffic.sent (.bin frame) (some ticket)).locSeq = none ∨ ticket.sock = some k := by
  cases op <;> cases hop
  unfold Section.matchesWindow at hcond
  simpa only [hk, Option.isNone_some, Bool.or_false, Bool.or_eq_true, Option.isNone_iff_eq_none,
    decide_eq_true_eq] using hcond

theorem heir_ticket_lt (t : Task) (c : Input) (a : Act Section Task) (s : Shared)
    (h : t.act c = some a) (hs : s.link.Sound)
    (hold : ∀ ticket k, t.ticket = some ticket → ticket.sock = some k → k < s.sockets.length)
    (ticket : Ticket) (k : Nat) (hheir : ((client geo).heir a s).ticket = some ticket)
    (hk : ticket.sock = some k) : k < s.sockets.length := by
  rcases heir_ticket geo t c a s h ticket hheir with hkept | ⟨rfl, _⟩
  · exact hold ticket k hkept hk
  · have hlt := hs.current_lt k hk
    rwa [gens_length] at hlt

/-- A step gives nobody a ticket for a socket it installs. -/
theorem resumed_ticket_lt (p : Pool Shared Task) (i : Nat) (c : Input) (t : Task)
    (a : Act Section Task) (ht : p.tasks[i]? = some t) (ha : t.act c = some a)
    (hs : p.shared.link.Sound) (hT : Ticketed p) (j : Nat) (u : Task)
    (hu : ((client geo).resumed p i a).tasks[j]? = some u) (ticket : Ticket) (k : Nat)
    (hticket : u.ticket = some ticket) (hk : ticket.sock = some k) :
    k < p.shared.sockets.length := by
  rcases (client geo).resumed_get_cases p i j a t u ht hu with ⟨rfl, rfl⟩ | ⟨_, hu'⟩ | ⟨_, hu'⟩
  · exact heir_ticket_lt geo t c a p.shared ha hs (hT j t ht) ticket k hticket hk
  · exact hT j u hu' ticket k hticket hk
  · rw [spawned_ticket geo t c a p.shared ha u (List.mem_of_getElem? hu')] at hticket
    cases hticket

theorem reach_ticketed (cfg : Config)
    (C : Pool Shared Task → Nat → Task → Act Section Task → Prop) (p : Pool Shared Task)
    (h : (client geo).Reach (Started cfg) ((client geo).whenever C) p) : Ticketed p := by
  have hreach := (client geo).reach_knowing (Started cfg) _ Dialed
    (fun p h => reach_dialed geo cfg _ p h) p h
  refine (client geo).reach_pool (Started cfg) _ Ticketed ?_ ?_ ?_ p hreach
  · intro p hp j t ht ticket k hticket
    rcases started_pool cfg p hp with ⟨now, rfl⟩
    rw [List.mem_singleton.mp (List.mem_of_getElem? ht)] at hticket
    cases hticket
  · rintro p i c t a ht ha ⟨_, hdialed⟩ hI j u hu ticket k hticket hk
    exact Nat.lt_of_lt_of_le
      (resumed_ticket_lt geo p i c t a ht ha hdialed.sound hI j u hu ticket k hticket hk)
      (after_sockets_le geo a p.shared)
  · intro p t hent hI j u hu ticket k hticket hk
    rcases List.mem_append.mp (List.mem_of_getElem? hu) with hu' | hu'
    · rcases List.mem_iff_getElem?.mp hu' with ⟨j', hj'⟩
      exact hI j' u hj' ticket k hticket hk
    · rw [List.mem_singleton.mp hu', call_ticket t ((entry_iff geo p.shared t).mp hent).2]
        at hticket
      cases hticket

/-- Nothing was handed to a new socket, and nobody is about to. -/
theorem load_installed (p : Pool Shared Task) (i : Nat) (c : Input) (t : Task)
    (a : Act Section Task) (ht : p.tasks[i]? = some t) (ha : t.act c = some a)
    (hs : p.shared.link.Sound) (hT : Ticketed p) (gen : Nat) (hdrive : a.op.drive = .install gen) :
    loadOf ((client geo).resumed p i a) p.shared.sockets.length = [] := by
  have hwire : ((client geo).after a p.shared).wire p.shared.sockets.length = [] :=
    installed_wire geo a.op p.shared gen hdrive
  refine List.append_eq_nil_iff.mpr ⟨congrArg unacked hwire, List.flatMap_eq_nil_iff.mpr ?_⟩
  intro u hu
  rcases List.mem_iff_getElem?.mp hu with ⟨j, hj⟩
  rw [owes_eq]
  refine if_neg fun hticket => ?_
  rcases Option.bind_eq_some_iff.mp hticket with ⟨ticket, hsome, hk⟩
  exact Nat.lt_irrefl _
    (resumed_ticket_lt geo p i c t a ht ha hs hT j u hj ticket _ hsome hk)

/-- The entries a section leaves cover what keeps its entry. -/
theorem kept_covers (p : Pool Shared Task) (a : Act Section Task) (hI : Windowed p) (k : Nat)
    (hcur : p.shared.inner.outTx = some k) (hstays : a.op.drive ≠ .lose p.shared.inner.dialGen)
    (hkeeps : ∀ m ∈ loadOf p k, ∃ b, a.op.keepsFrom p.shared = some b ∧ b ≤ m) (n : Nat) :
    countFrom n (loadOf p k) ≤
      countFrom n ((client geo).after a p.shared).inner.queue.sentFrameSeqs := by
  rcases hload : loadOf p k with _ | ⟨m, ms⟩
  · exact Nat.zero_le _
  · -- There is an entry to keep, so the section says from where on it keeps them.
    rw [hload] at hkeeps
    rcases hkeeps m List.mem_cons_self with ⟨b, hfrom, _⟩
    have hbeyond : ∀ x ∈ loadOf p k, b ≤ x := by
      intro x hx
      rcases hkeeps x (hload ▸ hx) with ⟨b', hb', hle⟩
      cases hfrom.symm.trans hb'
      exact hle
    rw [← hload, countFrom_max n b _ hbeyond]
    exact Nat.le_trans (hI.covered k hcur _) (run_window geo a.op p.shared hstays n b hfrom)

/-- An `Ack` from the current socket takes as much from the frames as from their
    entries. -/
theorem acked_covers (p : Pool Shared Task) (i : Nat) (c : Input) (t : Task)
    (a : Act Section Task) (ht : p.tasks[i]? = some t) (ha : t.act c = some a)
    (hs : p.shared.link.Sound) (hI : Windowed p) (k : Nat)
    (hcur : p.shared.inner.outTx = some k) (hstays : a.op.drive ≠ .lose p.shared.inner.dialGen)
    (seq : Nat) (hop : a.op.hears = some (k, .ack seq))
    (hfrom : a.op.keepsFrom p.shared = some (seq + 1)) (howed : ∀ m ∈ owedTo p k, seq + 1 ≤ m)
    (n : Nat) :
    countFrom n (loadOf ((client geo).resumed p i a) k) ≤
      countFrom n ((client geo).after a p.shared).inner.queue.sentFrameSeqs := by
  have hlt : k < p.shared.sockets.length := by
    have hlt := hs.current_lt k hcur
    rwa [gens_length] at hlt
  have hwire : ((client geo).after a p.shared).wire k = .got (.ack seq) :: p.shared.wire k :=
    run_hears geo a.op p.shared k _ hop hlt
  -- What is left on the wire was there beyond the number of the `Ack`.
  have hleft : countFrom n (unacked (((client geo).after a p.shared).wire k)) =
      countFrom (max n (seq + 1)) (unacked (p.shared.wire k)) := by
    rw [hwire, unacked_ack, countFrom_filter]
  have hheir := ack_owes geo t c a p.shared k k seq ha hop n
  have hload := load_resumed geo p i c t a ht ha n k
  have hsplit : ∀ m, countFrom m (loadOf p k) =
      countFrom m (unacked (p.shared.wire k)) + countFrom m (owedTo p k) := fun m =>
    countFrom_append m _ _
  have hbefore := hsplit n
  have hbeyond := hsplit (max n (seq + 1))
  have hsame := countFrom_max n (seq + 1) _ howed
  have hcovered := hI.covered k hcur (max n (seq + 1))
  have hwindow := run_window geo a.op p.shared hstays n _ hfrom
  have hafter : (a.op.run geo p.shared).1 = (client geo).after a p.shared := rfl
  rw [hafter] at hwindow
  omega

/-- The entries cover what a step leaves and what it adds. -/
theorem step_covered (p : Pool Shared Task) (i : Nat) (c : Input) (t : Task)
    (a : Act Section Task) (ht : p.tasks[i]? = some t) (ha : t.act c = some a)
    (hcond : a.op.matchesWindow p = true) (hs : p.shared.link.Sound) (hT : Ticketed p)
    (hI : Windowed p) (k : Nat) (hk : ((client geo).after a p.shared).inner.outTx = some k)
    (n : Nat) :
    countFrom n (loadOf ((client geo).resumed p i a) k) ≤
      countFrom n ((client geo).after a p.shared).inner.queue.sentFrameSeqs := by
  have hmove := after_moves geo a p.shared
  rcases move_current _ _ _ hmove k hk with hcur | ⟨hdrive, _, hlen⟩
  · have hcur' : p.shared.inner.outTx = some k := hcur
    have hstays : a.op.drive ≠ .lose p.shared.inner.dialGen := by
      intro hlose
      have hnone := move_lose p.shared.link _ (hlose ▸ hmove)
      cases hk.symm.trans hnone
    -- An Ack that only drops numbers below what is owed, or a step that keeps every entry owed
    -- for.
    rcases matchesWindow_cases a.op p k hcur' hcond with ⟨seq, hop, hfrom, howed⟩ | hkeeps
    · exact acked_covers geo p i c t a ht ha hs hI k hcur' hstays seq hop hfrom howed n
    · have hload := load_resumed geo p i c t a ht ha n k
      rcases act_load geo t c a p.shared k ha (matchesWindow_home a.op p k hcur' hcond) with
        hle | ⟨new, hnew, hle⟩
      · -- The step adds to no load.
        have hle' := hle n
        have hkept := kept_covers geo p a hI k hcur' hstays hkeeps n
        omega
      · -- A flush or a live publish adds its frames to the entries as well.
        have hle' := hle n
        have hcovered := hI.covered k hcur' n
        rw [hnew, countFrom_append]
        omega
  · -- A new socket was handed nothing.
    have hlen' : k = p.shared.sockets.length := hlen.trans (gens_length p.shared)
    rw [hlen', load_installed geo p i c t a ht ha hs hT _ hdrive]
    exact Nat.zero_le _

theorem hands_bin_inner {α : Type} (op : Section α) (s : Shared) (frame : Frame)
    (ticket : Option Ticket) (h : op.hands = some (.bin frame, ticket)) :
    (op.run geo s).1.inner = s.inner := by
  cases op <;> cases h
  exact (sendBin_frame frame ticket s).1

/-- A step keeps what is outstanding, takes from it, or hands a Loc frame to the
    current socket. -/
theorem unacked_cases (a : Act Section Task) (s : Shared) (k : Nat) :
    (unacked (((client geo).after a s).wire k)).length ≤ (unacked (s.wire k)).length ∨
      ((client geo).after a s).inner.outTx = some k := by
  rcases run_wire geo a.op s k with hw | ⟨evt, _, hw⟩ | ⟨out, ticket, hop, hk, _, hw⟩
  · exact Or.inl (Nat.le_of_eq (congrArg (fun w => (unacked w).length) hw))
  · refine Or.inl ?_
    have hwire : ((client geo).after a s).wire k = _ := hw
    rw [hwire]
    exact (unacked_got evt _).length_le
  · rcases out with frame | _
    · refine Or.inr ?_
      have hinner : ((client geo).after a s).inner = s.inner :=
        hands_bin_inner geo a.op s frame ticket hop
      rw [hinner]
      exact hk
    · refine Or.inl ?_
      have hwire : ((client geo).after a s).wire k = _ := hw
      rw [hwire, unacked_sent]
      exact Nat.le_refl _

/-- In runs where the window matches, it has an entry for what is outstanding. -/
theorem reach_windowed (cfg : Config) (p : Pool Shared Task)
    (h : (client geo).Reach (Started cfg)
      ((client geo).whenever fun p i t a => matchesWindow p i t a = true) p) :
    Windowed p := by
  have hreach := (client geo).reach_knowing (Started cfg) _ (fun p => Dialed p ∧ Ticketed p)
    (fun p h => ⟨reach_dialed geo cfg _ p h, reach_ticketed geo cfg _ p h⟩) p h
  refine (client geo).reach_pool (Started cfg) _ Windowed ?_ ?_ ?_ p hreach
  · intro p hp
    -- At the start nothing is numbered and no socket is current.
    rcases started_pool cfg p hp with ⟨now, rfl⟩
    refine ⟨Nat.zero_le _, ?_, fun k => Nat.zero_le _⟩
    rintro k ⟨⟩
  · rintro p i c t a ht ha ⟨hcond, hdialed, hticketed⟩ hI
    have hfull : ((client geo).after a p.shared).inner.queue.sentFrameSeqs.length ≤
        maxUnackedFrames :=
      ledger_full geo a.op p.shared _ (run_ledger geo a.op p.shared) hI.full
    have hcovered := step_covered geo p i c t a ht ha hcond hdialed.sound hticketed hI
    refine ⟨hfull, hcovered, fun k => ?_⟩
    rcases unacked_cases geo a p.shared k with hle | hk
    · exact Nat.le_trans hle (hI.unacked k)
    · -- The entries cover all that is outstanding on the current socket.
      have hload := hcovered k hk 0
      rw [countFrom_loadOf, countFrom_zero, countFrom_zero] at hload
      have hshared : ((client geo).resumed p i a).shared = (client geo).after a p.shared := rfl
      rw [hshared] at hload ⊢
      omega
  · intro p t hent hI
    -- A call that comes in holds no frame.
    have hticket := call_ticket t ((entry_iff geo p.shared t).mp hent).2
    refine ⟨hI.full, fun k hk n => ?_, hI.unacked⟩
    have hload : loadOf { p with tasks := p.tasks ++ [t] } k = loadOf p k := by
      unfold loadOf owedTo
      rw [List.flatMap_append, List.flatMap_singleton, owes_none k t hticket, List.append_nil]
    rw [hload]
    exact hI.covered k hk n

/-- On each socket at most `MAX_UNACKED_FRAMES` Loc frames wait for their `Ack`, in
    every run where the window matches what is outstanding. The window is emptied
    with the queue, though frames of the socket may be outstanding, and the numbers
    start again with each track. So the invariant counts, on the current socket,
    what is on the wire or in the hands of a task, and bounds it by the entries of
    the window. -/
theorem reach_unacked (cfg : Config) (p : Pool Shared Task)
    (h : (client geo).Reach (Started cfg)
      ((client geo).whenever fun p i t a => matchesWindow p i t a = true) p) (k : Nat) :
    (unacked (p.shared.wire k)).length ≤ maxUnackedFrames :=
  (reach_windowed geo cfg p h).unacked k

end Client

/-- A live point is numbered, framed and handed over. -/
def publishSent (i : Nat) (ms : Nat) : List (Label Task Input) :=
  publishSteps i ms ++ [.resume i .go]

/-- Of two frames on the first socket, one has its `Ack` and one waits. -/
theorem reach_unacked_one :
    ∃ p : Pool Shared Task,
      (p.shared.wire 0).filterMap Traffic.locSeq = [2, 1] ∧ unacked (p.shared.wire 0) = [2] ∧
      ∀ k, (unacked (p.shared.wire k)).length ≤ maxUnackedFrames := by
  rcases reach_of_watched matchesWindow
    (tracking ++ publishSent 4 1000 ++ [.resume 2 (.frame (.ack 1))] ++ publishSent 5 2000)
    (fun p => decide ((p.shared.wire 0).filterMap Traffic.locSeq = [2, 1] ∧
      unacked (p.shared.wire 0) = [2]))
    (by decide +kernel) with ⟨p, hp, hrun⟩
  rcases of_decide_eq_true hrun with ⟨hsent, hwaits⟩
  exact ⟨p, hsent, hwaits, reach_unacked flatGeo someConfig p hp⟩

/-- Frame 1 is recorded for the first socket, which is lost before `publish` hands
    the frame over. The point goes out again on the second socket, and seven more
    fill the window. -/
def staleFrame : List (Label Task Input) :=
  tracking ++ publishSteps 4 1000 ++ [.resume 2 .eof, .resume 5 (.random 0), .resume 5 .go] ++
    dialSteps 5 ++ [.resume 5 .go, .resume 5 .go, .resume 7 (.frame (.resumeOk "T" 0)),
      .resume 7 .go, .resume 7 .go] ++
    publishSent 8 2000 ++ publishSent 9 3000 ++ publishSent 10 4000 ++ publishSent 11 5000 ++
    publishSent 12 6000 ++ publishSent 13 7000 ++ publishSent 14 8000

/-- Then the old frame comes on top of the eight. -/
theorem stale_frame_exceeds :
    ¬ ∀ p, (client flatGeo).Reach (Started someConfig) Machine.anyStep p →
      ∀ k, (unacked (p.shared.wire k)).length ≤ maxUnackedFrames := by
  intro hall
  rcases reach_of_opening (staleFrame ++ [.resume 4 .go])
    (fun p => decide (unacked (p.shared.wire 1) = [1, 8, 7, 6, 5, 4, 3, 2, 1]))
    (by decide +kernel) with ⟨p, hp, hwaits⟩
  have hle := hall p hp 1
  rw [of_decide_eq_true hwaits] at hle
  exact absurd hle (by decide)

end Tracking

end Pickpoint
