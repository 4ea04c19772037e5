import Pickpoint.Theory.Effects

/-!
# The Ledger

What the locked sections do to the track: its uid, the `starting` flag, the
queue, the last number assigned, and the Loc frames built.

About a dozen sections write to these. `LedgerStep` lists them one by one with
what each of them writes, and `run_ledger` says that this is all any section
does. Invariants of the queue and its numbers are proved by going through the
list.

## Main definitions

* `Ledger`, `Shared.ledger`: The track of a session.
* `Section.books`: The sections that write to it.
* `LedgerStep`: What they write.

## Theorems

* `run_ledger`: The sections write what `LedgerStep` says.
* `run_ledger_quiet`: The others write nothing.
-/

namespace Pickpoint

namespace Tracking

/-- The track of a session: all that publishing, flushing and acknowledging read and
    write, and nothing of the connection. -/
structure Ledger where
  trackUid : String
  starting : Bool
  queue : OfflineQueue
  last : Nat
  built : List Built
  epoch : Nat

def Inner.ledger (g : Inner) (built : List Built) (epoch : Nat) : Ledger where
  trackUid := g.trackUid
  starting := g.starting
  queue := g.queue
  last := g.lastAssignedSeq
  built := built
  epoch := epoch

/-- The track of a session. -/
def Shared.ledger (s : Shared) : Ledger := s.inner.ledger s.built s.epoch

/-- The sections that write to the ledger. -/
def Section.books : {α : Type} → Section α → Bool
  | _, .dispatchResumeOk _ _ _ | _, .dispatchTrackStarted _ _ _
  | _, .dispatchTrackStopped _ _ | _, .dispatchAck _ _ | _, .dispatchError _ _
  | _, .socketClosed _ _ | _, .flush | _, .startTrack _ _ | _, .startFailed
  | _, .resumeTrack _ _ | _, .publishStart _ _ | _, .publishStartFailed
  | _, .publishWork _ _ _ => true
  | _, _ => false

/-- The ledger of a track that starts anew. -/
def Ledger.restart (l : Ledger) : Ledger :=
  { l with starting := true, queue := l.queue.clear, last := 0, epoch := l.epoch + 1 }

/-- The ledger once a live point has been numbered and framed. -/
def Ledger.goLive (geo : Geo) (l : Ledger) (ticket : Ticket) (point : LatLng) : Ledger :=
  { l with
    last := l.last + 1
    queue := (l.queue.enqueue geo (l.last + 1) point).recordFrame (l.last + 1)
    built := l.built ++
      [{ ticket := ticket
         frame := { seq := truncU32 (l.last + 1), points := [stripLiveTime point] }
         carried := [(l.last + 1, point)] }] }

/-- The frames of a round of `flush_queue` that ends at number `last`. -/
def flushFrames (g : Inner) (last : Nat) : OfflineQueue × List LocFrame :=
  recordFrames g.queue.windowRemaining (flushPoints g).1.queue
    (splitLocFrames last ((flushPoints g).2.map (·.point)))

/-- What a section writes to the ledger: one case for each section that does, with
    the guard it ran under. -/
inductive LedgerStep (geo : Geo) (s : Shared) : {α : Type} → Section α → Ledger → Prop where
  | keep {α : Type} (op : Section α) (h : op.books = false) : LedgerStep geo s op s.ledger
  | resumeOk (sock : Nat) (uid : String) (acked : Nat) :
      LedgerStep geo s (.dispatchResumeOk sock uid acked)
        { s.ledger with
          trackUid := if uid ≠ "" then uid else s.ledger.trackUid
          last := if s.ledger.last < acked then acked else s.ledger.last
          queue := s.ledger.queue.ackThrough acked }
  | trackStarted (sock : Nat) (uid : String) (metadata : Bytes) :
      LedgerStep geo s (.dispatchTrackStarted sock uid metadata)
        { s.ledger with trackUid := uid, starting := false, last := 0, epoch := s.epoch + 1 }
  | stoppedOther (sock : Nat) (uid : String) (h : s.inner.trackUid ≠ uid) :
      LedgerStep geo s (.dispatchTrackStopped sock uid) s.ledger
  | stopped (sock : Nat) :
      LedgerStep geo s (.dispatchTrackStopped sock s.inner.trackUid)
        { s.ledger with trackUid := "", queue := s.ledger.queue.clear }
  | ack (sock seq : Nat) :
      LedgerStep geo s (.dispatchAck sock seq)
        { s.ledger with queue := s.ledger.queue.ackThrough seq }
  | error (sock : Nat) (e : Error) (uid : String) (queue : OfflineQueue) (starting : Bool)
      (hdrop : (uid = s.inner.trackUid ∧ queue = s.inner.queue) ∨
        (uid = "" ∧ queue = s.inner.queue.clear))
      (hstart : starting = false ∨
        (starting = s.inner.starting ∧ s.inner.startWait = none ∧ e.code ≠ .trackNotFound)) :
      LedgerStep geo s (.dispatchError sock e)
        { s.ledger with trackUid := uid, starting := starting, queue := queue }
  | closedStale (gen : Nat) (random : ℚ) (h : gen ≠ s.inner.dialGen) :
      LedgerStep geo s (.socketClosed gen random) s.ledger
  | closed (random : ℚ) :
      LedgerStep geo s (.socketClosed s.inner.dialGen random)
        { s.ledger with queue := s.ledger.queue.markUnsent }
  | flushDone : LedgerStep geo s .flush s.ledger
  | flush (last : QueuedPoint) (hready : flushReady s.inner = true)
      (hlast : (flushPoints s.inner).2.getLast? = some last) :
      LedgerStep geo s .flush
        { s.ledger with
          queue := (flushFrames s.inner last.seq).1
          last := (flushPoints s.inner).1.lastAssignedSeq
          built := s.ledger.built ++ Shared.carry s.ticket (flushPoints s.inner).2
            (flushFrames s.inner last.seq).2 }
  | startTrack (wall : Int) (loc : Option LatLng) :
      LedgerStep geo s (.startTrack wall loc) s.ledger.restart
  | startFailed : LedgerStep geo s .startFailed { s.ledger with starting := false }
  | resumeTrack (uid : String) (seq : Nat) :
      LedgerStep geo s (.resumeTrack uid seq)
        { s.ledger with trackUid := uid, last := seq, epoch := s.epoch + 1 }
  | publishStart (wall : Int) (point : LatLng)
      (h : s.inner.trackUid = "" ∧ s.inner.starting = false) :
      LedgerStep geo s (.publishStart wall point) s.ledger.restart
  | publishStartKept (wall : Int) (point : LatLng)
      (h : ¬ (s.inner.trackUid = "" ∧ s.inner.starting = false)) :
      LedgerStep geo s (.publishStart wall point) s.ledger
  | publishStartFailed : LedgerStep geo s .publishStartFailed { s.ledger with starting := false }
  | publishHeld (now : Instant) (wall : Int) (point : LatLng) :
      LedgerStep geo s (.publishWork now wall point) s.ledger
  | publishStaged (now : Instant) (wall : Int) (point emitted : LatLng)
      (h : publishOpen s.inner = false) :
      LedgerStep geo s (.publishWork now wall point)
        { s.ledger with queue := s.ledger.queue.pushStaging geo emitted }
  | publishLive (now : Instant) (wall : Int) (point emitted : LatLng)
      (h : goesLive geo now wall point s.inner = true) :
      LedgerStep geo s (.publishWork now wall point) (s.ledger.goLive geo s.ticket emitted)

/-- The sections that do not book leave the ledger alone. -/
theorem run_ledger_quiet (geo : Geo) {α : Type} (op : Section α) (s : Shared)
    (h : op.books = false) : (op.run geo s).1.ledger = s.ledger := by
  -- The sections that touch neither the queue nor the counter.
  cases op with
  | dialInstall gen =>
      rcases dialInstall_cases gen s with ⟨_, h⟩ | ⟨_, _, h⟩
      · simp only [Section.run, h]
      · simp only [Section.run, h]
        rfl
  | relocateEndpoint endpoint =>
      simp only [Section.run, relocateEndpoint_eq]
      rfl
  | dispatchCommand sock c => simp only [Section.run, Shared.ledger, dispatchCommand_frame]
  | settle cell r forward => simp only [Section.run, Shared.ledger, settle_frame]
  | authClose =>
      simp only [Section.run, Shared.ledger, authClose_frame]
      rfl
  | authRefreshed device listener =>
      rcases authRefreshed_frame device listener s with ⟨_, _, hi, _, hb, he⟩
      simp only [Section.run, Shared.ledger, hi, hb, he]
      rfl
  | closeFinal =>
      simp only [Section.run, Shared.ledger, closeFinal_frame]
      rfl
  | resumeLock =>
      rcases resumeLock_inner s with ⟨_, hi⟩
      simp only [Section.run, Shared.ledger, resumeLock_frame, hi]
      rfl
  | sendBin frame ticket => simp only [Section.run, Shared.ledger, sendBin_frame]
  | resumeFailed =>
      simp only [Section.run, Shared.ledger, resumeFailed_frame]
      rfl
  | stopTrack =>
      simp only [Section.run, Shared.ledger, stopTrack_frame]
      rfl
  | stopFailed =>
      simp only [Section.run, Shared.ledger, stopFailed_frame]
      rfl
  | sendEvent now =>
      rcases sendEvent_cases now s with ⟨_, hs, _⟩
      simp only [Section.run, hs]
      rfl
  | _ => first | rfl | cases h

/-- The sections write to the ledger what `LedgerStep` says. -/
theorem run_ledger (geo : Geo) {α : Type} (op : Section α) (s : Shared) :
    LedgerStep geo s op (op.run geo s).1.ledger := by
  by_cases hbooks : op.books = false
  · rw [run_ledger_quiet geo op s hbooks]
    exact .keep op hbooks
  cases op with
  | dispatchResumeOk sock uid acked => exact .resumeOk sock uid acked
  | dispatchTrackStarted sock uid metadata => exact .trackStarted sock uid metadata
  -- A `TrackStopped` for another track changes nothing.
  | dispatchTrackStopped sock uid =>
      by_cases huid : s.inner.trackUid = uid
      · subst huid
        have h := @LedgerStep.stopped geo s sock
        simp only [Section.run, dispatchTrackStopped, Shared.receive, Shared.ledger,
          Shared.logTraffic_frame, if_true] at h ⊢
        exact h
      · have h := @LedgerStep.stoppedOther geo s sock uid huid
        simp only [Section.run, dispatchTrackStopped, Shared.receive, Shared.ledger,
          Shared.logTraffic_frame, if_neg huid] at h ⊢
        exact h
  | dispatchAck sock seq => exact .ack sock seq
  -- Whether an error drops the track depends on its code and on who waits.
  | dispatchError sock e =>
      rcases dispatchError_inner sock e s with ⟨uid, queue, _, _, starting, hi, hdrop, hstart⟩
      simp only [Section.run, Shared.ledger, dispatchError_frame, hi]
      refine .error sock e uid queue starting ?_ hstart
      rcases hdrop with ⟨huid, hq, _⟩ | ⟨huid, hq, _⟩
      · exact Or.inl ⟨huid, hq⟩
      · exact Or.inr ⟨huid, hq⟩
  | socketClosed gen random =>
      rcases socketClosed_cases gen random s with
        ⟨hgen, h⟩ | ⟨rfl, _, _, _, _, _, _, _, hi, _, _, hb, he⟩
      · simp only [Section.run, h]
        exact .closedStale gen random hgen
      · simp only [Section.run, Shared.ledger, hi, hb, he]
        exact .closed random
  | flush =>
      rcases flush_cases s with h | ⟨hready, last, hlast, h⟩
      · simp only [Section.run, h]
        exact .flushDone
      · have hstep := @LedgerStep.flush geo s last hready hlast
        rcases flushPoints_inner s.inner with ⟨queue, seq, hp⟩
        simp only [Section.run, h, Shared.ledger, Inner.ledger, flushFrames, hp] at hstep ⊢
        exact hstep
  | startTrack wall loc =>
      rcases startTrack_inner wall loc s with ⟨_, hi⟩
      have h := @LedgerStep.startTrack geo s wall loc
      simp only [Section.run, Shared.ledger, hi, startTrack_frame] at h ⊢
      exact h
  | startFailed =>
      simp only [Section.run, Shared.ledger, startFailed_frame]
      exact .startFailed
  | resumeTrack uid seq =>
      simp only [Section.run, Shared.ledger, resumeTrack_inner, resumeTrack_frame]
      exact .resumeTrack uid seq
  | publishStart wall point =>
      rcases publishStart_cases wall point s with ⟨hidle, h⟩ | ⟨hidle, h⟩
      · simp only [Section.run, h]
        exact .publishStart wall point hidle
      · simp only [Section.run, h]
        exact .publishStartKept wall point hidle
  | publishStartFailed => exact .publishStartFailed
  -- A sample is held back by the filter, staged, or goes out live.
  | publishWork now wall point =>
      rcases publishWork_cases geo now wall point s with
        h | ⟨_, _, h | ⟨emitted, ⟨hopen, h⟩ | ⟨hopen, h⟩⟩⟩
      · simp only [Section.run, h]
        exact .publishHeld now wall point
      · simp only [Section.run, h]
        exact .publishHeld now wall point
      · simp only [Section.run, h]
        exact .publishStaged now wall point emitted hopen
      · simp only [Section.run, h]
        exact .publishLive now wall point emitted hopen
  | _ => exact absurd rfl hbooks

end Tracking

end Pickpoint
