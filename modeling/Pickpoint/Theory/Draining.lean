import Pickpoint.Theory.Capture
import Pickpoint.Theory.Flushing

/-!
# Draining

What is queued gets sent: no flush is ever missed.

A point that cannot be sent right away is left in Staging, or in InFlight with
its `sent` flag down, and nothing but `flush_queue` takes it from there. Nobody
watches the queue. What makes up for that is that every event that makes the
session ready or opens the send window is followed by a flush on the same reader,
and that a flush goes on until nothing is left or the window is full.

So a session that could send, and has something to send, has a flush under way.
The exception is a socket that is installed over a session that is ready already,
which a stale reply of the socket before it can bring about. Then the points wait
for the next event that opens the window (`install_strands`).

## Main definitions

* `Shared.Flows`: The session can send.
* `Inner.Drained`: It has nothing to send.
* `Section.revives`: A socket is installed over a ready session.

## Theorems

* `run_waits`: When points come to wait on a session that can send.
* `reach_drains`: They wait for a flush that is under way.
* `install_strands`: Or for an event, after an install over a ready session.
-/

namespace Pickpoint

namespace Tracking

open Interleave

/-- The session is ready and open, its window has room, and the writer of its
    socket still writes. -/
def Shared.Flows (s : Shared) : Prop :=
  publishOpen s.inner = true ∧ ∃ k, s.inner.outTx = some k ∧ s.writing k = true

/-- Every point in the queue has been sent: Staging is empty, and nothing in
    InFlight is marked unsent. -/
def Inner.Drained (g : Inner) : Prop :=
  g.queue.staging = [] ∧ ∀ x ∈ g.queue.inflight, x.sent = true

/-- A socket is installed over a session that is ready. -/
def Section.revives (s : Shared) : {α : Type} → Section α → Bool
  | _, .dialInstall gen =>
    decide (gen = s.inner.dialGen) && !s.inner.intentional && s.inner.sessionReady
  | _, _ => false

/-- Whether the current socket was installed over a ready session, and no event has
    opened the window since. -/
def noteRevived (p : Pool Shared Task) (_ : Nat) (_ : Task) (a : Act Section Task)
    (bare : Bool) : Bool :=
  !a.op.opens && (bare || a.op.revives p.shared)

/-- No flush is missed. -/
def NoneMissed (p : Pool Shared Task) : Prop :=
  p.shared.Flows → (∀ t ∈ p.tasks, t.flushing = false) → p.shared.inner.Drained

theorem drained_iff (g : Inner) :
    g.Drained ↔ g.queue.staging = [] ∧ g.queue.unsentInflight = [] := by
  refine and_congr_right fun _ => ?_
  rw [OfflineQueue.unsentInflight, List.filter_eq_nil_iff]
  simp only [Bool.not_eq_true', Bool.not_eq_false]

/-! ## The queue -/

section Client

variable (geo : Geo)

/-- Something is left to send, with room in the window, after a section only if both
    was so before, or a point was staged with the window closed, or the section opened
    the window, or the socket is given up. -/
theorem ledger_owes {α : Type} (op : Section α) (s : Shared) (l' : Ledger)
    (hstep : LedgerStep geo s op l') (hroom : l'.queue.windowFull = false)
    (howes : ¬ (l'.queue.staging = [] ∧ ∀ x ∈ l'.queue.inflight, x.sent = true)) :
    (s.inner.queue.windowFull = false ∧ (¬ s.inner.Drained ∨ publishOpen s.inner = false)) ∨
      op.opens = true ∨ op.drive = .lose s.inner.dialGen := by
  have hclear : s.inner.queue.clear.staging = [] ∧
      ∀ x ∈ s.inner.queue.clear.inflight, x.sent = true :=
    ⟨rfl, fun x hx => absurd hx List.not_mem_nil⟩
  have hless : ∀ q : OfflineQueue, s.inner.queue.sentFrameSeqs.length ≤ q.sentFrameSeqs.length →
      q.windowFull = false → s.inner.queue.windowFull = false := by
    intro q hle hq
    have hlt := of_decide_eq_false hq
    exact decide_eq_false (by omega)
  cases hstep with
  | resumeOk => exact Or.inr (Or.inl rfl)
  | trackStarted => exact Or.inr (Or.inl rfl)
  | ack => exact Or.inr (Or.inl rfl)
  | closed => exact Or.inr (Or.inr rfl)
  | stopped => exact absurd hclear howes
  | startTrack => exact absurd hclear howes
  | publishStart => exact absurd hclear howes
  | error sock e uid queue starting hdrop =>
      rcases hdrop with ⟨_, rfl⟩ | ⟨_, rfl⟩
      · exact Or.inl ⟨hroom, Or.inl howes⟩
      · exact absurd hclear howes
  -- What a flush or a publish adds to the window only fills it.
  | flush last hready hlast =>
      refine Or.inl ⟨hless _ ?_ hroom, Or.inl fun hnone => ?_⟩
      · rw [flushFrames_window, List.length_append]
        exact Nat.le_add_right _ _
      · -- There was something to flush.
        rcases flushPoints_cases s.inner with ⟨hne, _⟩ | ⟨_, n, hp⟩
        · exact hne ((drained_iff s.inner).mp hnone).2
        · rw [hp, hnone.1] at hlast
          simp only [List.take_nil, OfflineQueue.numbered, List.getLast?_nil, reduceCtorEq] at hlast
  | publishStaged now wall point emitted hclosed =>
      rcases s.inner.queue.pushStaging_inflight geo emitted with ⟨_, _, hseqs⟩
      exact Or.inl ⟨hless _ (Nat.le_of_eq (congrArg List.length hseqs.symm)) hroom, Or.inr hclosed⟩
  | publishLive now wall point emitted =>
      refine Or.inl ⟨hless _ ?_ hroom, Or.inl fun hnone => howes ⟨?_, ?_⟩⟩
      · rw [goLive_window, List.length_append]
        exact Nat.le_add_right _ _
      · have hsub : (s.ledger.goLive geo s.ticket emitted).queue.staging.Sublist
            s.inner.queue.staging := enforceCap_staging geo { s.inner.queue with inflight := _ }
        rw [hnone.1] at hsub
        exact List.sublist_nil.mp hsub
      · -- The point is enqueued as sent, and only points in front of it make room.
        rcases s.inner.queue.enqueue_inflight geo (s.inner.lastAssignedSeq + 1) emitted with
          ⟨k, hk, _⟩
        have heq : (s.ledger.goLive geo s.ticket emitted).queue.inflight =
            mark (fun n => decide (n ≤ s.inner.lastAssignedSeq + 1))
              (s.inner.queue.enqueue geo (s.inner.lastAssignedSeq + 1) emitted).inflight :=
          congrArg OfflineQueue.inflight (OfflineQueue.recordFrame_eq _ _)
        have hsent : ∀ x ∈ (s.inner.queue.inflight ++
            [QueuedPoint.mk (s.inner.lastAssignedSeq + 1) emitted true]).drop k,
            x.sent = true := by
          intro x hx
          rcases List.mem_append.mp (List.mem_of_mem_drop hx) with hx | hx
          · exact hnone.2 x hx
          · rw [List.mem_singleton.mp hx]
        rw [heq, hk, mark_sent _ _ hsent]
        exact hsent
  | _ => exact Or.inl ⟨hroom, Or.inl howes⟩

/-! ## The session -/

omit geo in
theorem flows_iff (s : Shared) :
    s.Flows ↔ s.inner.sessionReady = true ∧ s.inner.state = .open ∧
      s.inner.queue.windowFull = false ∧ ∃ k, s.inner.outTx = some k ∧ s.writing k = true := by
  rw [Shared.Flows, publishOpen_iff]
  constructor
  · rintro ⟨⟨hready, hstate, _, hroom⟩, hwrites⟩
    exact ⟨hready, hstate, hroom, hwrites⟩
  · rintro ⟨hready, hstate, hroom, k, hk, hw⟩
    exact ⟨⟨hready, hstate, by rw [hk]; rfl, hroom⟩, k, hk, hw⟩

/-- An install changes nothing, or revives the session, or finds it not ready. -/
theorem install_flows (gen : Nat) (s : Shared) (h : (dialInstall gen s).1.Flows) :
    (dialInstall gen s).1 = s ∨ (Section.dialInstall gen).revives s = true := by
  rcases dialInstall_cases gen s with ⟨_, hsame⟩ | ⟨rfl, hint, hnew⟩
  · exact Or.inl (by rw [hsame])
  · have hready := ((flows_iff _).mp h).1
    rw [hnew] at hready
    refine Or.inr ?_
    simp only [Section.revives, decide_true, hint, Bool.not_false, Bool.true_and]
    exact hready

/-- Points wait on a session that can send after a section only if they did before, or
    the section opened the window or revived the session. -/
theorem run_waits {α : Type} (op : Section α) (s : Shared) (hflows : (op.run geo s).1.Flows)
    (howes : ¬ (op.run geo s).1.inner.Drained) :
    (s.Flows ∧ ¬ s.inner.Drained) ∨ op.opens = true ∨ op.revives s = true := by
  -- An install that makes the session flow is a revival.
  by_cases hinst : ∃ gen, op.drive = .install gen
  · rcases hinst with ⟨gen, hgen⟩
    cases op with
    | dialInstall gen =>
        rcases install_flows gen s hflows with hsame | hrevives
        · have hrun : ((Section.dialInstall gen).run geo s).1 = s := hsame
          rw [hrun] at hflows howes
          exact Or.inl ⟨hflows, howes⟩
        · exact Or.inr (Or.inr hrevives)
    | _ => cases hgen
  -- Any other section that leaves the session flowing found it so, or bound the socket.
  · rcases (flows_iff _).mp hflows with ⟨hready', hstate', hroom', k, hk, hw⟩
    have hmove := run_moves geo op s
    rcases ledger_owes geo op s _ (run_ledger geo op s) hroom' howes with
      ⟨hroom, howed⟩ | hop | hlose
    · rcases move_live op.drive s.link _ hmove hready' hstate'
        (congrArg Option.isSome hk) with ⟨hready, hstate, hcur⟩ | ⟨sock, hbind⟩ | hgen
      · -- The session could send before, on the same socket.
        have hopen : publishOpen s.inner = true :=
          (publishOpen_iff s.inner).mpr ⟨hready, hstate, hcur, hroom⟩
        have hsock : s.inner.outTx = some k := by
          rcases move_current op.drive s.link _ hmove k hk with hold | ⟨hgen, _⟩
          · exact hold
          · exact absurd ⟨_, hgen⟩ hinst
        rcases howed with howed | hclosed
        · exact Or.inl ⟨⟨hopen, k, hsock, run_writes geo op s k
            (fun gen hgen => hinst ⟨gen, hgen⟩) hw⟩, howed⟩
        · cases hclosed.symm.trans hopen
      · refine Or.inr (Or.inl ?_)
        cases op <;> first | rfl | cases hbind
      · exact absurd hgen hinst
    · exact Or.inr (Or.inl hop)
    -- A section that loses the socket leaves nothing to flow through.
    · rw [hlose] at hmove
      have hnone : (op.run geo s).1.link.current = none := move_lose s.link _ hmove
      cases hnone.symm.trans hk

/-! ## Runs -/

omit geo in
/-- A round of `flush_queue` without frames leaves nothing to send on a session that
    can send. -/
theorem flush_drains (s : Shared) (h : (flush s).2.2 = []) (hopen : publishOpen s.inner = true) :
    s.inner.Drained := by
  refine (drained_iff s.inner).mpr ⟨flush_ends s h hopen, ?_⟩
  rcases (publishOpen_iff s.inner).mp hopen with ⟨hready, hstate, hcur, hroom⟩
  have hlt := of_decide_eq_false hroom
  have hwindow : 0 < s.inner.queue.windowRemaining := Nat.sub_pos_of_lt (Nat.lt_of_not_le hlt)
  have hflush : flushReady s.inner = true := by
    simp only [flushReady, hready, hstate, hcur, hwindow, beq_self_eq_true, decide_true,
      Bool.and_self]
  have hnone := flush_done s hflush h
  by_contra hunsent
  rw [flushPoints, if_pos hunsent] at hnone
  exact hunsent hnone

/-- A flush goes on while there is something to send on a session that can send. -/
theorem flushing_drains (t : Task) (c : Input) (a : Act Section Task) (s : Shared)
    (h : t.act c = some a) (hf : t.flushing = true) (hflows : ((client geo).after a s).Flows)
    (howes : ¬ ((client geo).after a s).inner.Drained) :
    ((client geo).heir a s).flushing = true := by
  unfold Machine.heir
  unfold Machine.after at hflows howes
  cases t with
  | reader sock gen pc =>
      cases pc with
      | reading => cases hf
      | settle => cases hf
      | flush cell r forward =>
          cases c <;> cases h
          have hrun : (client geo).run Section.flush s = flush s := rfl
          rcases hres : (flush s).2 with ⟨ticket, _ | ⟨f, fs⟩⟩
          · -- A round without frames did nothing, so nothing is left.
            have hs : (flush s).1 = s := by
              rcases flush_cases s with hi | ⟨hready, last, hlast, _⟩
              · rw [hi]
              · have hnone := flush_done s hready (congrArg Prod.snd hres)
                rw [hnone] at hlast
                cases hlast
            rw [hrun, hs] at hflows howes
            exact absurd (flush_drains s (congrArg Prod.snd hres) hflows.1) howes
          · simp only [hrun, hres]
            rfl
      | sending ticket frames cell r forward =>
          rcases frames with _ | ⟨f, fs⟩
          · cases c <;> cases h
            rfl
          · cases c <;> cases h
            -- The frame is taken, since the session can send before and after it.
            have hrun : (client geo).run (Section.sendBin (.loc f) (some ticket)) s =
                sendBin (.loc f) (some ticket) s := rfl
            rcases (flows_iff _).mp hflows with ⟨_, hstate, _, k, hk, hw⟩
            have hbefore := run_writes geo (Section.sendBin (.loc f) (some ticket)) s k
              (by rintro _ ⟨⟩) hw
            rw [hrun, (sendBin_frame (.loc f) (some ticket) s).1] at hstate hk
            have hsend := sendBin_open (.loc f) (some ticket) s k
              (by rw [hstate]; rintro ⟨⟨⟩, _⟩) hk hbefore
            simp only [hrun, hsend]
            rfl
  | _ => cases hf

/-- A step misses no flush. -/
theorem step_noneMissed (p : Pool Shared Task) (i : Nat) (c : Input) (t : Task)
    (a : Act Section Task) (bare : Bool) (ht : p.tasks[i]? = some t) (ha : t.act c = some a)
    (hI : bare = false → NoneMissed p) (hbare : noteRevived p i t a bare = false) :
    NoneMissed ((client geo).resumed p i a) := by
  intro hflows hidle
  have hself := hidle _ (List.mem_of_getElem? ((client geo).resumed_get_self p i a t ht))
  by_contra howes
  have hopens : a.op.opens = false := by
    rcases hop : a.op.opens with _ | _
    · rfl
    · exact absurd hself (by rw [act_opens geo t c a p.shared ha hop]; exact Bool.noConfusion)
  simp only [noteRevived, hopens, Bool.not_false, Bool.true_and, Bool.or_eq_false_iff] at hbare
  rcases run_waits geo a.op p.shared hflows howes with ⟨hflows₀, howes₀⟩ | hop | hrevives
  · -- A flush was under way before, and goes on or is another task's.
    refine howes₀ (hI hbare.1 hflows₀ fun u hu => ?_)
    rw [← Bool.not_eq_true]
    intro hflush
    rcases List.mem_iff_getElem?.mp hu with ⟨j, hj⟩
    by_cases hji : j = i
    · rw [hji, ht, Option.some.injEq] at hj
      subst hj
      cases hself.symm.trans (flushing_drains geo t c a p.shared ha hflush hflows howes)
    · cases (hidle u (List.mem_of_getElem?
        ((client geo).resumed_get_other p i j a u hji hj))).symm.trans hflush
  · cases hopens.symm.trans hop
  · cases hbare.2.symm.trans hrevives

variable (cfg : Config)

/-- In every run no flush is missed: a session that can send and has no flush under
    way has sent everything in its queue, unless its socket was installed over a ready
    session and no event has opened the window since. -/
theorem reach_drains (p : Pool Shared Task) (bare : Bool)
    (h : (client geo).Tallied (Started cfg) (fun _ _ _ _ _ => True) noteRevived false p bare)
    (hbare : bare = false) (hflows : p.shared.Flows)
    (hidle : ∀ t ∈ p.tasks, t.flushing = false) : p.shared.inner.Drained := by
  suffices hall : bare = false → NoneMissed p from hall hbare hflows hidle
  refine ((client geo).tallied_inv (Started cfg) _ _ _ (fun _ => True) (fun _ _ => trivial)
    (fun p b => b = false → NoneMissed p) ?_ ?_ ?_ p bare h)
  · intro p hp _ _ _
    rcases started_pool cfg p hp with ⟨now, rfl⟩
    exact ⟨rfl, fun x hx => absurd hx List.not_mem_nil⟩
  · rintro p i c t a b ht ha _ _ hI hb
    exact step_noneMissed geo p i c t a b ht ha hI hb
  · rintro p t b _ _ hI hb hflows hidle
    exact hI hb hflows fun u hu => hidle u (List.mem_append_left _ hu)

end Client

/-- The session can send, and no flush is under way. -/
def atRest (p : Pool Shared Task) : Bool :=
  publishOpen p.shared.inner && p.shared.inner.outTx.any p.shared.writing &&
    p.tasks.all fun t => !t.flushing

theorem atRest_flows (p : Pool Shared Task) (h : atRest p = true) :
    p.shared.Flows ∧ ∀ t ∈ p.tasks, t.flushing = false := by
  simp only [atRest, Bool.and_eq_true, List.all_eq_true, Bool.not_eq_true'] at h
  rcases h with ⟨⟨hopen, hw⟩, hidle⟩
  rcases Option.any_eq_true _ _ |>.mp hw with ⟨k, hk, hwrites⟩
  exact ⟨⟨hopen, k, hk, hwrites⟩, hidle⟩

/-- Once the flush after `TrackStarted` is through, the point that was staged is in
    InFlight, and sent. -/
theorem reach_drains_started :
    ∃ p : Pool Shared Task, p.shared.inner.queue.inflight ≠ [] ∧ p.shared.inner.Drained := by
  rcases (client flatGeo).exists_tallied (Started someConfig) (fun _ _ _ _ _ => True)
    noteRevived false (fun _ _ _ _ _ => true) (fun _ _ _ _ _ _ => trivial)
    (stagedOne ++ [.resume 2 .go, .resume 2 .go, .resume 2 .go, .resume 2 .go, .resume 2 .go])
    fresh started_fresh
    (fun p bare => !bare && atRest p && !p.shared.inner.queue.inflight.isEmpty)
    (by decide +kernel) with ⟨p, bare, hp, hrun⟩
  simp only [Bool.and_eq_true, Bool.not_eq_true', List.isEmpty_eq_false_iff] at hrun
  rcases hrun with ⟨⟨hbare, hrest⟩, hne⟩
  rcases atRest_flows p hrest with ⟨hflows, hidle⟩
  exact ⟨p, hne, reach_drains flatGeo someConfig p bare hp hbare hflows hidle⟩

/-- A track is being started and a point staged when the server sends the session to
    another node. The reader of the old socket hears `TrackStarted` while the new one is
    dialed. -/
def revived : List (Label Task Input) :=
  opening ++ [.spawn (.publish (.start (sample 0))), .resume 3 (.clock 0 0), .resume 3 .go] ++
    publishSteps 4 1000 ++
    [.resume 2 (.frame (.relocate "wss://b" 0)), .resume 5 .go, .resume 5 .go, .resume 5 .go,
      .resume 5 .opened, .resume 5 (.frame (.hello protocolVersion "n" 0)),
      .resume 2 (.frame (.trackStarted "T" [])), .resume 2 .go, .resume 2 .go, .resume 5 .go]

/-- Then the point is left in Staging, and no flush is under way. -/
theorem install_strands :
    ¬ ∀ p : Pool Shared Task, (client flatGeo).Reach (Started someConfig) Machine.anyStep p →
      NoneMissed p := by
  intro hall
  rcases reach_of_opening revived
    (fun p => atRest p && !p.shared.inner.queue.staging.isEmpty) (by decide +kernel) with
    ⟨p, hp, hrun⟩
  simp only [Bool.and_eq_true, Bool.not_eq_true', List.isEmpty_eq_false_iff] at hrun
  rcases atRest_flows p hrun.1 with ⟨hflows, hidle⟩
  exact hrun.2 (hall p hp hflows hidle).1

end Tracking

end Pickpoint
