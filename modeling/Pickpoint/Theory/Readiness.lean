import Pickpoint.Theory.Lineage
import Pickpoint.Theory.Server
import Pickpoint.Theory.Ledger

/-!
# Readiness

What `session_ready` promises: the state is `Open`, there is a socket to hand
frames to, and there is a track. `send_event` relies on it, since it reports an
event as accepted whether or not it finds a socket.

`ResumeOk` and `TrackStarted` set the flag without a look at the connection. The
sections that take the connection down clear it, except for the two shutdowns of
`handle_auth_error`: after them the session is closed and still ready, and
events vanish (`event_vanishes`).

`run_backed` says exactly which sections keep the promise, and
`reach_keepsPromise` that it holds in every run made of such sections. Then an
event that is reported as accepted has been put on a socket.

## Main definitions

* `Inner.Backed`: A ready session is open, has a socket and a track.
* `Section.backs`: The sections that keep it so.
* `KeepsPromise`: The promise, and what `send_event` makes of it.

## Theorems

* `run_backed`: What the sections do to the promise.
* `sendEvent_accepted`: An event is accepted once it is handed over.
* `reach_keepsPromise`: Runs that keep the promise.
* `event_vanishes`: Not so in general.
-/

namespace Pickpoint

namespace Tracking

open Interleave

/-- A ready session is open, has a socket and a track. -/
def Inner.Backed (g : Inner) : Prop :=
  g.sessionReady = true → g.state = .open ∧ g.outTx.isSome = true ∧ g.trackUid ≠ ""

/-- Whether a section keeps it so: a session is made ready with its connection
    up and a track to name, and a ready one is not shut down by an auth error nor
    left without a name. -/
def Section.backs (s : Shared) : {α : Type} → Section α → Bool
  | _, .dispatchResumeOk _ uid _ =>
    s.inner.state == .open && s.inner.outTx.isSome &&
      (decide (uid ≠ "") || decide (s.inner.trackUid ≠ ""))
  | _, .dispatchTrackStarted _ uid _ =>
    s.inner.state == .open && s.inner.outTx.isSome && decide (uid ≠ "")
  | _, .authClose | _, .authFailed => !s.inner.sessionReady
  | _, .resumeTrack uid _ => !s.inner.sessionReady || decide (uid ≠ "")
  | _, _ => true

def staysBacked (p : Pool Shared Task) (_ : Nat) (_ : Task) (a : Act Section Task) : Bool :=
  a.op.backs p.shared

/-- The session keeps its promise, and `send_event` returns `Ok(true)` only in a
    step that puts the event on the wire of the current socket. -/
structure KeepsPromise (geo : Geo) (p : Pool Shared Task) : Prop where
  backed : p.shared.inner.Backed
  accepted : ∀ (i : Nat) t c a, p.tasks[i]? = some t → t.act c = some a →
    (client geo).heir a p.shared = .returned (.sendEvent (.ok true)) →
      ∃ payload ticket wall k, t = .sendEvent (.send payload ticket) ∧
        p.shared.inner.outTx = some k ∧
        ((client geo).after a p.shared).wire k =
          .sent (.bin (.cmd (.event "" payload (some wall)))) (some ticket) :: p.shared.wire k

/-- The sections that write the name of the track. -/
def Section.names : {α : Type} → Section α → Bool
  | _, .dispatchResumeOk _ _ _ | _, .dispatchTrackStarted _ _ _
  | _, .dispatchTrackStopped _ _ | _, .dispatchError _ _ | _, .resumeTrack _ _ => true
  | _, _ => false

section Client

variable (geo : Geo)

theorem ledger_uid {α : Type} (op : Section α) (s : Shared) (l' : Ledger)
    (hstep : LedgerStep geo s op l') (h : op.names = false) : l'.trackUid = s.inner.trackUid := by
  cases hstep with
  | resumeOk => cases h
  | trackStarted => cases h
  | stopped => cases h
  | error => cases h
  | resumeTrack => cases h
  | _ => rfl

/-- A section that leaves the connection and the name alone keeps the promise. -/
theorem idle_backed {α : Type} (op : Section α) (s : Shared) (h : s.inner.Backed)
    (hdrive : op.drive = .idle) (hnames : op.names = false) :
    (op.run geo s).1.inner.Backed := by
  have hm := run_moves geo op s
  rw [hdrive] at hm
  have huid : (op.run geo s).1.inner.trackUid = s.inner.trackUid :=
    ledger_uid geo op s _ (run_ledger geo op s) hnames
  have hlink : (op.run geo s).1.link = s.link := by
    generalize (op.run geo s).1.link = l' at hm
    cases hm
    rfl
  have hready : (op.run geo s).1.inner.sessionReady = s.inner.sessionReady :=
    congrArg Link.ready hlink
  have hstate : (op.run geo s).1.inner.state = s.inner.state := congrArg Link.state hlink
  have hcur : (op.run geo s).1.inner.outTx = s.inner.outTx := congrArg Link.current hlink
  rw [Inner.Backed, hready, hstate, hcur, huid]
  exact h

theorem not_ready_backed (g : Inner) (h : g.sessionReady = false) : g.Backed := by
  intro hready
  cases h.symm.trans hready

/-- A section keeps the promise exactly if `backs` says so. -/
theorem run_backed {α : Type} (op : Section α) (s : Shared) (h : s.inner.Backed) :
    (op.run geo s).1.inner.Backed ↔ op.backs s = true := by
  -- Only the sections that move the connection or name the track matter.
  cases op with
  | dialBegin => exact iff_of_true (not_ready_backed _ rfl) rfl
  | dialInstall gen =>
      refine iff_of_true ?_ rfl
      rcases dialInstall_cases gen s with ⟨_, hi⟩ | ⟨_, _, hi⟩
      · simp only [Section.run, hi]
        exact h
      · simp only [Section.run, hi]
        exact fun hready => ⟨rfl, rfl, (h hready).2.2⟩
  | dispatchResumeOk sock uid acked =>
      have huid : (if uid ≠ "" then uid else s.inner.trackUid) ≠ "" ↔
          uid ≠ "" ∨ s.inner.trackUid ≠ "" := by
        by_cases hu : uid = ""
        · simp only [hu, ne_eq, not_true_eq_false, if_false, false_or]
        · simp only [hu, ne_eq, not_false_eq_true, if_true, true_or]
      simp only [Section.run, dispatchResumeOk, Shared.receive, Shared.logTraffic_frame,
        Inner.Backed, forall_const, huid, Section.backs, Bool.and_eq_true, beq_iff_eq,
        Bool.or_eq_true, decide_eq_true_eq, and_assoc]
  | dispatchTrackStarted sock uid metadata =>
      simp only [Section.run, dispatchTrackStarted, Shared.receive, Shared.logTraffic_frame,
        Inner.Backed, forall_const, Section.backs, Bool.and_eq_true, beq_iff_eq,
        decide_eq_true_eq, and_assoc]
  | dispatchTrackStopped sock uid =>
      refine iff_of_true ?_ rfl
      simp only [Section.run, dispatchTrackStopped, Shared.receive, Shared.logTraffic_frame]
      split
      · exact not_ready_backed _ rfl
      · exact h
  | dispatchError sock e =>
      refine iff_of_true ?_ rfl
      rcases dispatchError_inner sock e s with ⟨uid, queue, ready, _, _, hi, hdrop, _⟩
      simp only [Section.run, hi]
      rcases hdrop with ⟨rfl, _, rfl⟩ | ⟨_, _, rfl⟩
      · exact h
      · exact not_ready_backed _ rfl
  | authClose =>
      simp only [Section.run, authClose_frame, Inner.Backed, Section.backs]
      rcases s.inner.sessionReady with _ | _
      · exact iff_of_true (by rintro ⟨⟩) rfl
      · exact iff_of_false (fun hb => by cases (hb rfl).1) (by rintro ⟨⟩)
  | authFailed =>
      simp only [Section.run, authFailed, Inner.Backed, Section.backs]
      rcases s.inner.sessionReady with _ | _
      · exact iff_of_true (by rintro ⟨⟩) rfl
      · exact iff_of_false (fun hb => by cases (hb rfl).1) (by rintro ⟨⟩)
  | authRefreshed device listener =>
      refine iff_of_true ?_ rfl
      rcases authRefreshed_frame device listener s with ⟨_, _, hi, _⟩
      simp only [Section.run, hi]
      exact not_ready_backed _ rfl
  | closeFinal =>
      refine iff_of_true ?_ rfl
      simp only [Section.run, closeFinal_frame]
      exact not_ready_backed _ rfl
  | socketClosed gen random =>
      refine iff_of_true ?_ rfl
      rcases socketClosed_cases gen random s with ⟨_, hi⟩ | ⟨_, _, _, _, _, _, _, _, hi, _⟩
      · simp only [Section.run, hi]
        exact h
      · simp only [Section.run, hi]
        exact not_ready_backed _ rfl
  | startTrack wall loc =>
      refine iff_of_true ?_ rfl
      rcases startTrack_inner wall loc s with ⟨_, hi⟩
      simp only [Section.run, hi]
      exact not_ready_backed _ rfl
  | publishStart wall point =>
      refine iff_of_true ?_ rfl
      rcases publishStart_cases wall point s with ⟨_, hi⟩ | ⟨_, hi⟩
      · simp only [Section.run, hi]
        exact not_ready_backed _ rfl
      · simp only [Section.run, hi]
        exact h
  | resumeTrack uid seq =>
      simp only [Section.run, resumeTrack_inner, Inner.Backed, Section.backs, Bool.or_eq_true,
        Bool.not_eq_true', decide_eq_true_eq]
      by_cases hready : s.inner.sessionReady = true
      · have hlive := h hready
        simp only [hready, hlive, forall_const, true_and, Bool.true_eq_false, false_or]
      · simp only [hready, Bool.false_eq_true, false_implies, true_or]
  | _ => exact iff_of_true (idle_backed geo _ s h rfl rfl) rfl

/-- The answer to a `send_event`. -/
def Task.eventAnswer : Task → Option (Except Error Bool)
  | .returned (.sendEvent r) => some r
  | _ => none

theorem eventAnswer_gives (t : Task) (r : Except Error Bool) (h : t.eventAnswer = some r) :
    t.gives = some .sendEvent := by
  cases t with
  | returned x =>
      cases x with
      | sendEvent r => rfl
      | _ => cases h
  | _ => cases h

/-- No other call gives it. -/
theorem heir_eventAnswer (t : Task) (c : Input) (a : Act Section Task) (s : Shared)
    (h : t.act c = some a) (ht : t.kind ≠ .sendEvent) :
    ((client geo).heir a s).eventAnswer = none := by
  rcases hr : ((client geo).heir a s).eventAnswer with _ | r
  · rfl
  · exact absurd (heir_gives geo t c a s h _ (eventAnswer_gives _ r hr)) ht

/-- On a session that keeps its promise the first block of `send_event` never
    answers `Ok(true)`. -/
theorem sendEvent_answers (now : Instant) (s : Shared) (h : s.inner.Backed) :
    (sendEvent now s).2 ≠ .inl (.ok true) := by
  unfold sendEvent
  dsimp only
  split
  · rintro ⟨⟩
  · next hready =>
    rw [not_or, not_not] at hready
    split
    · rintro ⟨⟩
    · rcases h hready.2 with ⟨hstate, hcur, _⟩
      rw [if_pos ⟨hstate, hcur⟩]
      rintro ⟨⟩

/-- An event is accepted once it is handed over. -/
theorem sendEvent_accepted (t : Task) (c : Input) (a : Act Section Task) (s : Shared)
    (h : t.act c = some a) (hb : s.inner.Backed)
    (hheir : (client geo).heir a s = .returned (.sendEvent (.ok true))) :
    ∃ payload ticket wall k, t = .sendEvent (.send payload ticket) ∧ s.inner.outTx = some k ∧
      ((client geo).after a s).wire k =
        .sent (.bin (.cmd (.event "" payload (some wall)))) (some ticket) :: s.wire k := by
  by_cases ht : t.kind = .sendEvent
  · cases t with
    | sendEvent pc =>
        revert hheir
        unfold Machine.heir Machine.after
        revert h
        simp only [Task.act]
        fun_cases Task.sendEventAct pc c <;> intro h <;> cases h
        case case1.refl => rintro ⟨⟩
        -- The first section answers with an error or takes a ticket; with a socket behind
        -- `session_ready` it takes one.
        case case2.refl payload now wall hlen =>
          have hrun : (client geo).run (Section.sendEvent now) s = sendEvent now s := rfl
          rw [hrun]
          have hne := sendEvent_answers now s hb
          rcases hres : (sendEvent now s).2 with r | ticket
          · intro hheir
            dsimp only at hheir
            cases hheir
            exact absurd hres hne
          · rintro ⟨⟩
        -- The second one hands the event over, or returns `Offline`.
        case case3.refl payload ticket now wall =>
          have hrun : (client geo).run
              (Section.sendBin (.cmd (.event "" payload (some wall))) (some ticket)) s =
              sendBin (.cmd (.event "" payload (some wall))) (some ticket) s := rfl
          rcases sendBin_cases (.cmd (.event "" payload (some wall))) (some ticket) s with
            ⟨_, hi⟩ | ⟨k, hk, hw, hi⟩
          · simp only [hrun, hi]
            rintro ⟨⟩
          · intro _
            refine ⟨payload, ticket, wall, k, rfl, hk, ?_⟩
            simp only [hrun, hi]
            exact s.wire_logTraffic_writing k _ hw
    | _ => cases ht
  -- No other task returns the answer of a `send_event`.
  · have hnone := heir_eventAnswer geo t c a s h ht
    rw [hheir] at hnone
    cases hnone

variable (cfg : Config)

/-- The promise is kept in every run made of sections that keep it: a session that
    says it is ready has a socket whose channel is open. -/
theorem reach_keepsPromise (p : Pool Shared Task)
    (h : (client geo).Reach (Started cfg)
      ((client geo).whenever fun p i t a => staysBacked p i t a = true) p) :
    KeepsPromise geo p := by
  have hb : p.shared.inner.Backed := by
    refine (client geo).reach_shared (Started cfg) _ (fun s => s.inner.Backed) ?_ ?_ p h
    · intro p hp
      rcases started_pool cfg p hp with ⟨now, rfl⟩
      exact not_ready_backed _ rfl
    · intro p i c t a _ _ hcond hI
      exact (run_backed geo a.op p.shared hI).mpr hcond
  exact ⟨hb, fun i t c a _ ha hheir => sendEvent_accepted geo t c a p.shared ha hb hheir⟩

end Client

/-- A track is live on the socket. -/
theorem reach_keepsPromise_tracking :
    ∃ p : Pool Shared Task, p.shared.inner.sessionReady = true ∧ KeepsPromise flatGeo p := by
  rcases reach_of_watched staysBacked tracking (fun p => p.shared.inner.sessionReady)
    (by decide +kernel) with ⟨p, hp, hrun⟩
  exact ⟨p, hrun, reach_keepsPromise flatGeo someConfig p hp⟩

/-- The server rejects the credentials, and without a refresh callback the
    session is shut down. Then an event is offered. -/
def rejected : List (Label Task Input) :=
  tracking ++ [.resume 2 (.frame (.error .unauthorized "" none none)), .resume 4 .go,
    .resume 4 .go, .spawn (.sendEvent (.start [1]))]

/-- The session is ready although it is closed and has no socket. The event is
    accepted, and nothing is handed to any socket. -/
theorem event_vanishes :
    ∃ p q, (client flatGeo).Reach (Started someConfig) Machine.anyStep p ∧
      ¬ p.shared.inner.Backed ∧ ¬ KeepsPromise flatGeo p ∧
      (client flatGeo).step p (.resume 5 (.clock 0 0)) = some q ∧
      q.tasks[5]? = some (.returned (.sendEvent (.ok true))) ∧
      q.shared.sockets = p.shared.sockets := by
  rcases reach_of_opening rejected
    (fun p => decide (p.shared.inner.sessionReady = true ∧ p.shared.inner.state = .closed) &&
      ((client flatGeo).step p (.resume 5 (.clock 0 0))).any fun q : Pool Shared Task =>
        decide (q.tasks[5]? = some (Task.returned (.sendEvent (.ok true))) ∧
          q.shared.sockets = p.shared.sockets))
    (by decide +kernel) with ⟨p, hp, hrun⟩
  rcases Bool.and_eq_true_iff.mp hrun with ⟨hinner, hstep⟩
  rcases of_decide_eq_true hinner with ⟨hready, hclosed⟩
  rcases Option.any_eq_true _ _ |>.mp hstep with ⟨q, hq, hsame⟩
  rcases of_decide_eq_true hsame with ⟨hanswer, hsockets⟩
  have hnot : ¬ p.shared.inner.Backed := by
    intro hb
    cases hclosed.symm.trans (hb hready).1
  exact ⟨p, q, hp, hnot, fun hkeeps => hnot hkeeps.backed, hq, hanswer, hsockets⟩

end Tracking

end Pickpoint
