import Pickpoint.Theory.Server

/-!
# Calls That Could Not Be Sent

`start_track_meta` and `resume` write several fields before they send their
command. When there is no socket to send it to they take their waiter back, and
`start_track_meta` also its `starting` flag; everything else keeps what was
written. `stop_track`, which writes its waiter only, leaves nothing behind.

A failed start therefore empties the queue, forgets the numbers and the filter
and unbinds the session, and a failed resume sets the track and the number it
was given. That is no loss exactly when the fields had these values before
(`Forgettable`, `Current`): nothing was queued, numbered or bound, or the resume
was for the live track at its last number.

## Main definitions

* `Unsendable`: No socket takes a command.
* `SameTrack`: The fields of a track are as they were.
* `startCall`, `resumeCall`: The steps of a call that fails to send.
* `Forgettable`, `Current`: When a failed call does no harm.

## Theorems

* `startTrack_failed`, `resumeTrack_failed`: What a failed call leaves.
* `failed_call_iff`: When it leaves the track as it was.
* `failed_start_forgets`: Not so in general.
-/

namespace Pickpoint

namespace Tracking

open Interleave

/-- No command can be handed to a socket: there is none, or its channel is
    closed. -/
def Unsendable (s : Shared) : Prop := ∀ k, s.inner.outTx = some k → s.writing k = false

/-- What a session knows about its track: the uid, the numbers, the queue, the
    filter and whether it is bound. -/
structure SameTrack (g g' : Inner) : Prop where
  trackUid : g'.trackUid = g.trackUid
  lastAssignedSeq : g'.lastAssignedSeq = g.lastAssignedSeq
  lastAckedSeq : g'.lastAckedSeq = g.lastAckedSeq
  sessionReady : g'.sessionReady = g.sessionReady
  filter : g'.filter = g.filter
  queue : g'.queue = g.queue

/-- The steps of a `start_track_meta` that fails to send. -/
def startCall (i : Nat) (now : Instant) (wall : Int) (now' : Instant) (wall' : Int) :
    List (Label Task Input) :=
  [.resume i (.clock now wall), .resume i (.clock now' wall'), .resume i .go]

/-- The steps of a `resume` that fails to send. -/
def resumeCall (i : Nat) : List (Label Task Input) :=
  [.resume i .go, .resume i .go, .resume i .go]

/-- The filter of a track that starts at `loc`. -/
def startFilter (wall : Int) (loc : Option LatLng) : NoiseFilter :=
  loc.elim {} fun p => NoiseFilter.seed {} (stampLatLng wall p)

/-- Nothing is bound, numbered or queued, and the filter knows at most the given
    start. -/
structure Forgettable (wall : Int) (loc : Option LatLng) (g : Inner) : Prop where
  sessionReady : g.sessionReady = false
  lastAssignedSeq : g.lastAssignedSeq = 0
  lastAckedSeq : g.lastAckedSeq = 0
  staging : g.queue.staging = []
  inflight : g.queue.inflight = []
  sentFrameSeqs : g.queue.sentFrameSeqs = []
  filter : g.filter = startFilter wall loc

/-- The track and the number are those of the session. -/
def Current (trackUid : String) (lastClientSeq : Nat) (g : Inner) : Prop :=
  trackUid = g.trackUid ∧ lastClientSeq = g.lastAssignedSeq

/-! ## What a failed call leaves -/

theorem sendBin_unsendable (frame : Frame) (ticket : Option Ticket) (s : Shared)
    (h : Unsendable s) : ∃ e, sendBin frame ticket s = (s, .error e) := by
  unfold sendBin
  split
  · exact ⟨_, rfl⟩
  · rcases hcur : s.inner.outTx with _ | k
    · exact ⟨_, rfl⟩
    · dsimp only
      rw [Shared.handOver_eq, if_neg (by rw [h k hcur]; decide)]
      exact ⟨_, rfl⟩

theorem clear_eq_iff (q : OfflineQueue) :
    q.clear = q ↔ q.staging = [] ∧ q.inflight = [] ∧ q.sentFrameSeqs = [] := by
  rcases q with ⟨maxSize, hpos, staging, inflight, sentFrameSeqs⟩
  simp only [OfflineQueue.clear, OfflineQueue.mk.injEq, true_and]
  constructor
  · rintro ⟨h1, h2, h3⟩
    exact ⟨h1.symm, h2.symm, h3.symm⟩
  · rintro ⟨h1, h2, h3⟩
    exact ⟨h1.symm, h2.symm, h3.symm⟩

theorem startTrack_filter (wall : Int) (loc : Option LatLng) (s : Shared) :
    (startTrack wall loc s).1.inner.filter = startFilter wall loc := by
  cases loc <;> rfl

theorem startTrack_failed (wall : Int) (loc : Option LatLng) (s : Shared) :
    SameTrack s.inner (startFailed (startTrack wall loc s).1).inner ↔
      Forgettable wall loc s.inner := by
  have hfilter := startTrack_filter wall loc s
  rcases startTrack_inner wall loc s with ⟨filter, hinner⟩
  rw [(startFailed_frame _).1]
  rw [hinner] at hfilter ⊢
  constructor
  · intro h
    rcases (clear_eq_iff _).mp h.queue with ⟨hstaging, hinflight, hwindow⟩
    exact ⟨h.sessionReady.symm, h.lastAssignedSeq.symm, h.lastAckedSeq.symm, hstaging, hinflight,
      hwindow, h.filter.symm.trans hfilter⟩
  · intro h
    exact ⟨rfl, h.lastAssignedSeq.symm, h.lastAckedSeq.symm, h.sessionReady.symm,
      hfilter.trans h.filter.symm, (clear_eq_iff _).mpr ⟨h.staging, h.inflight, h.sentFrameSeqs⟩⟩

theorem resumeTrack_failed (trackUid : String) (lastClientSeq : Nat) (s : Shared) :
    SameTrack s.inner (resumeFailed (resumeTrack trackUid lastClientSeq s).1).inner ↔
      Current trackUid lastClientSeq s.inner := by
  rw [(resumeFailed_frame _).1, resumeTrack_inner]
  constructor
  · intro h
    exact ⟨h.trackUid, h.lastAssignedSeq⟩
  · rintro ⟨huid, hseq⟩
    exact ⟨huid, hseq, rfl, rfl, rfl, rfl⟩

/-! ## The calls -/

section Client

variable (geo : Geo)

/-- A task whose command is refused. -/
theorem step_refused (s : Shared) (ts : List Task) (i : Nat) (c : Input) (t : Task) (frame : Frame)
    (ticket : Option Ticket) (next : Except Error Unit → Task × List Task) (u : Error → Task)
    (hs : Unsendable s) (ht : ts[i]? = some t) (ha : t.act c = some ⟨.sendBin frame ticket, next⟩)
    (hu : ∀ e, next (.error e) = (u e, [])) :
    ∃ e, (client geo).step ⟨s, ts⟩ (.resume i c) = some ⟨s, ts.set i (u e)⟩ := by
  rcases sendBin_unsendable frame ticket s hs with ⟨e, hsend⟩
  have hrun : (client geo).run (.sendBin frame ticket) s = (s, .error e) := hsend
  have hstep := (client geo).step_one s ts i c t (u e) _ ht ha (by rw [hrun]; exact hu e)
  rw [hrun] at hstep
  exact ⟨e, hstep⟩

/-- A call that installs its waiter, finds no socket, and cleans up. -/
theorem call_refused (s : Shared) (ts : List Task) (i : Nat) (c c' c'' : Input) (t sent : Task)
    (install : Section Nat) (next : Nat → Task × List Task) (frame : Frame)
    (ticket : Option Ticket) (next' : Except Error Unit → Task × List Task)
    (cleanUp : Section Unit) (failed back : Error → Task) (ht : ts[i]? = some t)
    (hinstall : t.act c = some ⟨install, next⟩) (hsent : next (install.run geo s).2 = (sent, []))
    (hs : Unsendable (install.run geo s).1)
    (hsend : sent.act c' = some ⟨.sendBin frame ticket, next'⟩)
    (hfailed : ∀ e, next' (.error e) = (failed e, []))
    (hclean : ∀ e, (failed e).act c'' = some ⟨cleanUp, fun _ => (back e, [])⟩) :
    ∃ q e, (client geo).replay (fun _ _ => true) ⟨s, ts⟩
        [.resume i c, .resume i c', .resume i c''] = some q ∧
      q.tasks[i]? = some (back e) ∧
      q.shared = (cleanUp.run geo (install.run geo s).1).1 := by
  have hlt : i < ts.length := (List.getElem?_eq_some_iff.mp ht).1
  -- The waiter, the command that is refused, and the clean-up.
  have h1 : (client geo).step ⟨s, ts⟩ (.resume i c) =
      some ⟨(install.run geo s).1, ts.set i sent⟩ :=
    (client geo).step_one s ts i c _ _ _ ht hinstall hsent
  rcases step_refused geo (install.run geo s).1 (ts.set i sent) i c' sent frame ticket next'
    failed hs (List.getElem?_set_self hlt) hsend hfailed with ⟨e, h2⟩
  rw [List.set_set] at h2
  have h3 : (client geo).step ⟨(install.run geo s).1, ts.set i (failed e)⟩ (.resume i c'') =
      some ⟨(cleanUp.run geo (install.run geo s).1).1, (ts.set i (failed e)).set i (back e)⟩ :=
    (client geo).step_one _ _ i c'' _ _ _ (List.getElem?_set_self hlt) (hclean e) rfl
  rw [List.set_set] at h3
  refine ⟨⟨(cleanUp.run geo (install.run geo s).1).1, ts.set i (back e)⟩, e, ?_,
    List.getElem?_set_self hlt, rfl⟩
  rw [Machine.replay_cons _ _ _ _ _ _ rfl h1, Machine.replay_cons _ _ _ _ _ _ rfl h2,
    Machine.replay_cons _ _ _ _ _ _ rfl h3]
  rfl

/-- A waiter changes nothing about the socket. -/
theorem unsendable_congr (s s' : Shared) (hsockets : s'.sockets = s.sockets)
    (hcurrent : s'.inner.outTx = s.inner.outTx) (hs : Unsendable s) : Unsendable s' := by
  intro k hk
  rw [hcurrent] at hk
  rw [(Shared.socket_congr _ _ hsockets).2.2]
  exact hs k hk

theorem start_fails (p : Pool Shared Task) (i : Nat) (loc : Option LatLng)
    (route : List LatLng) (metadata : Bytes) (now : Instant) (wall : Int) (now' : Instant)
    (wall' : Int) (hs : Unsendable p.shared)
    (ht : p.tasks[i]? = some (.startTrack (.start loc route metadata))) :
    ∃ q e, (client geo).replay (fun _ _ => true) p (startCall i now wall now' wall') = some q ∧
      q.tasks[i]? = some (.returned (.startTrack (.error e))) ∧
      q.shared = startFailed (startTrack wall loc p.shared).1 := by
  rcases startTrack_inner wall loc p.shared with ⟨filter, hinner⟩
  have hs' := unsendable_congr p.shared (startTrack wall loc p.shared).1
    (startTrack_frame wall loc p.shared).1 (by rw [hinner]) hs
  exact call_refused geo p.shared p.tasks i (.clock now wall) (.clock now' wall') .go _
    (.startTrack (.send (startTrack wall loc p.shared).2 loc route metadata))
    (.startTrack wall loc) _ _ _ _ .startFailed (fun e => .startTrack (.failed e))
    (fun e => .returned (.startTrack (.error e))) ht rfl rfl hs' rfl (fun _ => rfl) fun _ => rfl

theorem resume_fails (p : Pool Shared Task) (i : Nat) (trackUid : String) (lastClientSeq : Nat)
    (hs : Unsendable p.shared) (ht : p.tasks[i]? = some (.resume trackUid lastClientSeq .lock)) :
    ∃ q e, (client geo).replay (fun _ _ => true) p (resumeCall i) = some q ∧
      q.tasks[i]? = some (.returned (.resume (.error e))) ∧
      q.shared = resumeFailed (resumeTrack trackUid lastClientSeq p.shared).1 := by
  have hs' := unsendable_congr p.shared (resumeTrack trackUid lastClientSeq p.shared).1
    (resumeTrack_frame trackUid lastClientSeq p.shared).1
    (by rw [resumeTrack_inner]) hs
  exact call_refused geo p.shared p.tasks i .go .go .go _
    (.resume trackUid lastClientSeq (.send (resumeTrack trackUid lastClientSeq p.shared).2))
    (.resumeTrack trackUid lastClientSeq) _ _ _ _ .resumeFailed
    (fun e => .resume trackUid lastClientSeq (.failed e)) (fun e => .returned (.resume (.error e)))
    ht rfl rfl hs' rfl (fun _ => rfl) fun _ => rfl

/-- A start or resume that finds no socket fails, and leaves the track as it was
    if and only if a start had nothing to forget, and a resume was for the live
    track at its last number. -/
theorem failed_call_iff (p : Pool Shared Task) (i : Nat) (hs : Unsendable p.shared) :
    (∀ loc route metadata now wall now' wall',
      p.tasks[i]? = some (.startTrack (.start loc route metadata)) →
      ∃ q e, (client geo).replay (fun _ _ => true) p (startCall i now wall now' wall') = some q ∧
        q.tasks[i]? = some (.returned (.startTrack (.error e))) ∧
        (SameTrack p.shared.inner q.shared.inner ↔ Forgettable wall loc p.shared.inner)) ∧
    (∀ trackUid lastClientSeq, p.tasks[i]? = some (.resume trackUid lastClientSeq .lock) →
      ∃ q e, (client geo).replay (fun _ _ => true) p (resumeCall i) = some q ∧
        q.tasks[i]? = some (.returned (.resume (.error e))) ∧
        (SameTrack p.shared.inner q.shared.inner ↔
          Current trackUid lastClientSeq p.shared.inner)) := by
  constructor
  -- The start empties the queue before it finds out.
  · intro loc route metadata now wall now' wall' ht
    rcases start_fails geo p i loc route metadata now wall now' wall' hs ht with
      ⟨q, e, hrun, hret, hq⟩
    refine ⟨q, e, hrun, hret, ?_⟩
    rw [hq]
    exact startTrack_failed wall loc p.shared
  -- The resume takes over the uid and the number first.
  · intro trackUid lastClientSeq ht
    rcases resume_fails geo p i trackUid lastClientSeq hs ht with ⟨q, e, hrun, hret, hq⟩
    refine ⟨q, e, hrun, hret, ?_⟩
    rw [hq]
    exact resumeTrack_failed trackUid lastClientSeq p.shared

/-- No call that fails to send changes anything about the track. -/
def Harmless (p : Pool Shared Task) : Prop :=
  Unsendable p.shared → ∀ i q e,
    (∀ now wall now' wall',
      (client geo).replay (fun _ _ => true) p (startCall i now wall now' wall') = some q →
      q.tasks[i]? = some (.returned (.startTrack (.error e))) →
      SameTrack p.shared.inner q.shared.inner) ∧
    ((client geo).replay (fun _ _ => true) p (resumeCall i) = some q →
      q.tasks[i]? = some (.returned (.resume (.error e))) →
      SameTrack p.shared.inner q.shared.inner)

end Client

/-- A track is live, its socket is lost, and a sample is staged. Then
    `start_track` is called. -/
def startOffline : List (Label Task Input) :=
  tracking ++ [.resume 2 .eof, .resume 4 (.random 0)] ++ publishSteps 5 1000 ++
    [.spawn (.startTrack (.start none [] []))]

/-- The sample is gone after the call, although its error says that nothing was
    sent. -/
theorem failed_start_forgets :
    ¬ ∀ p, (client flatGeo).Reach (Started someConfig) Machine.anyStep p →
    Harmless flatGeo p := by
  intro hall
  rcases reach_of_opening startOffline
    (fun p => p.shared.inner.outTx.isNone && decide (p.shared.inner.queue.staging ≠ []) &&
      decide (p.tasks[6]? = some (Task.startTrack (.start none [] [])))) (by decide +kernel) with
    ⟨p, hp, h⟩
  simp only [Bool.and_eq_true, decide_eq_true_eq] at h
  rcases h with ⟨⟨hcur, hstaged⟩, ht⟩
  have hs : Unsendable p.shared := by
    intro k hk
    rw [hk] at hcur
    cases hcur
  rcases start_fails flatGeo p 6 none [] [] 0 0 0 0 hs ht with ⟨q, e, hrun, hret, hq⟩
  -- If the track were the same, nothing would have waited in Staging.
  have hsame := (hall p hp hs 6 q e).1 0 0 0 0 hrun hret
  rw [hq] at hsame
  exact hstaged ((startTrack_failed 0 none p.shared).mp hsame).staging

/-- One point of track T went out on a socket that closed, and the next waits in
    staging. Then the track is started anew, and resumed where it stands. -/
def callsOffline : List (Label Task Input) :=
  tracking ++ publishSteps 4 1000 ++ [.resume 4 .go, .resume 2 .eof, .resume 5 (.random 0)] ++
    publishSteps 6 2000 ++ [.spawn (.startTrack (.start none [] [])),
      .spawn (.resume "T" 1 .lock)]

/-- The start loses both points, and the resume leaves the track as it was. -/
theorem failed_call_iff_offline :
    ∃ p : Pool Shared Task, p.shared.inner.queue.inflight.map (·.seq) = [1] ∧
      p.shared.inner.queue.staging.length = 1 ∧
      (∃ q e, (client flatGeo).replay (fun _ _ => true) p (startCall 7 0 0 0 0) = some q ∧
        q.tasks[7]? = some (.returned (.startTrack (.error e))) ∧
        ¬ SameTrack p.shared.inner q.shared.inner) ∧
      ∃ q e, (client flatGeo).replay (fun _ _ => true) p (resumeCall 8) = some q ∧
        q.tasks[8]? = some (.returned (.resume (.error e))) ∧
        SameTrack p.shared.inner q.shared.inner := by
  rcases reach_of_opening callsOffline
    (fun p => p.shared.inner.outTx.isNone && decide (
      p.shared.inner.queue.inflight.map (·.seq) = [1] ∧
      p.shared.inner.queue.staging.length = 1 ∧
      p.tasks[7]? = some (Task.startTrack (.start none [] [])) ∧
      p.tasks[8]? = some (Task.resume "T" 1 .lock) ∧
      "T" = p.shared.inner.trackUid ∧ 1 = p.shared.inner.lastAssignedSeq))
    (by decide +kernel) with ⟨p, _, hrun⟩
  rcases Bool.and_eq_true_iff.mp hrun with ⟨hcur, hfacts⟩
  rcases of_decide_eq_true hfacts with ⟨hinflight, hstaging, hstart, hresume, huid, hlast⟩
  have hs : Unsendable p.shared := by
    intro k hk
    rw [hk] at hcur
    cases hcur
  rcases (failed_call_iff flatGeo p 7 hs).1 none [] [] 0 0 0 0 hstart with
    ⟨q, e, hq, hret, hsame⟩
  rcases (failed_call_iff flatGeo p 8 hs).2 "T" 1 hresume with ⟨q', e', hq', hret', hsame'⟩
  refine ⟨p, hinflight, hstaging, ⟨q, e, hq, hret, fun h => ?_⟩,
    ⟨q', e', hq', hret', hsame'.mpr ⟨huid, hlast⟩⟩⟩
  -- A queued point is something to forget.
  have hnone := (hsame.mp h).staging
  rw [hnone] at hstaging
  cases hstaging

end Tracking

end Pickpoint
