import Pickpoint.Theory.Server

/-!
# Closing a Trip

`close` is documented to send a `TrackStop` if a track is live. It looks at
`trackUid`, which is set when `TrackStarted` arrives, while for the server the
trip exists from its `TrackStart` on. A `close` that comes before the reply
sends no `TrackStop`, and the trip stays open on the server
(`close_leaves_trip`).

`trip` follows a wire: the starts that wait for their answer, and the tracks
that the server confirmed. A `TrackStop` ends them all; besides, the server ends
a track with `TrackStopped`, and a start with an `Error` that answers it. The
protocol carries no request ids, so which errors answer a start is not on the
wire: a `Refusal` says so, and everything here holds for each of them.

If `close` finds a uid whenever a trip is open, is not refused by `send_bin`, and
no trip opens before its last block, no trip is open when it hangs up
(`reach_closesTrip`).

## Main definitions

* `Refusal`: Which errors answer a start.
* `Trip`, `trip`: The trips on a wire.
* `tripOver`: No trip is open on the current socket.
* `stopsTrip`: What `close` has to find.
* `ClosesTrip`: `close` hangs up after the trip is over.

## Theorems

* `heir_closing`: How `close` gets to its last block.
* `after_tripOver`: What keeps a trip over.
* `reach_closesTrip`: A trip is over when `close` hangs up.
* `close_leaves_trip`: Not so in general.
-/

namespace Pickpoint

namespace Tracking

open Interleave

/-- Whether the error on top of a socket's wire answers a `TrackStart` of that
    socket, and no other command. -/
abbrev Refusal := Nat → List Traffic → Bool

/-- The trips on a wire: how many starts wait for their answer, and the tracks that
    the server has confirmed. -/
structure Trip where
  pending : Nat
  live : List String
  deriving DecidableEq

/-- No start waits, and no track is live. -/
def Trip.over : Trip := { pending := 0, live := [] }

/-- What one entry of a wire does to the trips. An error ends no track, and ends
    a start only by answering it. -/
def Trip.next (refused : Bool) (t : Trip) : Traffic → Trip
  | .sent (.bin (.cmd (.trackStart _ _ _))) _ => { t with pending := t.pending + 1 }
  | .sent (.bin (.cmd (.trackStop _))) _ => .over
  -- A confirmed track is live, whether or not a start still waits for it.
  | .got (.trackStarted uid _) => { pending := t.pending - 1, live := uid :: t.live }
  | .got (.trackStopped uid) => { t with live := t.live.filter (· ≠ uid) }
  | .got (.error _ _ _ _) => if refused then { t with pending := t.pending - 1 } else t
  | _ => t

/-- The trips on the wire of socket `k`. -/
def trip (refusal : Refusal) (k : Nat) : List Traffic → Trip
  | [] => .over
  | t :: w => (trip refusal k w).next (refusal k (t :: w)) t

/-- No trip is open on the current socket, or its channel is closed. -/
def tripOver (refusal : Refusal) (s : Shared) : Bool :=
  match s.inner.outTx with
  | none => true
  | some k => !s.writing k || decide (trip refusal k (s.wire k) = .over)

/-- Whether a section opens a trip on the current socket: it hands over a
    `TrackStart`, or dispatches a `TrackStarted`. -/
def Section.opensTrip (s : Shared) {α : Type} (op : Section α) : Bool :=
  (op.hands.any fun x => (Traffic.sent x.1 x.2).isTrackStart && s.inner.outTx.any s.writing) ||
    op.hears.any fun x => (Traffic.got x.2).isTrackStarted && decide (s.inner.outTx = some x.1)

/-- A `close` that is about to hang up. -/
def Task.closing : Task → Bool
  | .close .final => true
  | _ => false

/-- With a trip open, `close` finds a uid and its `TrackStop` is not refused;
    and no trip opens while a `close` is about to hang up. -/
def stopsTrip (refusal : Refusal) (p : Pool Shared Task) (_ : Nat) (t : Task)
    (a : Act Section Task) : Bool :=
  match t with
  | .close .read => decide (p.shared.inner.trackUid ≠ "") || tripOver refusal p.shared
  | .close (.stop _) =>
    !(decide (p.shared.inner.state = .closed) && p.shared.inner.intentional) ||
      tripOver refusal p.shared
  | _ => !a.op.opensTrip p.shared || !p.tasks.any Task.closing

/-- The last block of a `close` puts its `Close` on the wire when no trip is open
    there. -/
def ClosesTrip (refusal : Refusal) (p : Pool Shared Task) : Prop :=
  ∀ (j k : Nat), p.tasks[j]? = some (.close .final) → p.shared.inner.outTx = some k →
    p.shared.writing k = true →
    (closeFinal p.shared).wire k = .sent .close none :: p.shared.wire k ∧
      trip refusal k (p.shared.wire k) = .over

theorem closing_kind (t : Task) (h : t.closing = true) : t.kind = .close := by
  cases t with
  | close pc => rfl
  | _ => cases h

/-- Only a `TrackStart` and a `TrackStarted` open a trip. -/
theorem trip_over_cons (refusal : Refusal) (k : Nat) (t : Traffic) (w : List Traffic)
    (hw : trip refusal k w = .over) (hstart : t.isTrackStart = false)
    (hstarted : t.isTrackStarted = false) : trip refusal k (t :: w) = .over := by
  rw [trip, hw]
  cases t with
  | got evt =>
      cases evt with
      | trackStarted => cases hstarted
      | error =>
          rw [Trip.next]
          split <;> rfl
      | _ => rfl
  | sent out ticket =>
      cases out with
      | close => rfl
      | bin frame =>
          cases frame with
          | loc f => rfl
          | cmd cmd =>
              cases cmd with
              | trackStart => cases hstart
              | _ => rfl

theorem tripOver_iff (refusal : Refusal) (s : Shared) :
    tripOver refusal s = true ↔ ∀ k, s.inner.outTx = some k → s.writing k = true →
      trip refusal k (s.wire k) = .over := by
  rw [tripOver]
  rcases s.inner.outTx with _ | k
  · exact ⟨fun _ _ h => absurd h (by rintro ⟨⟩), fun _ => rfl⟩
  · rw [Bool.or_eq_true_iff, Bool.not_eq_true', decide_eq_true_iff]
    constructor
    · rintro (h | h) j hj hw
      · cases hj
        cases h.symm.trans hw
      · cases hj
        exact h
    · intro h
      rcases hw : s.writing k with _ | _
      · exact Or.inl rfl
      · exact Or.inr (h k rfl hw)

/-- `close` hangs up on the current socket. -/
theorem closeFinal_wire (s : Shared) (k : Nat) (hk : s.inner.outTx = some k)
    (hw : s.writing k = true) : (closeFinal s).wire k = .sent .close none :: s.wire k := by
  rw [closeFinal]
  generalize hs' : Shared.rejectPending _ _ = s'
  have hframe : s'.inner.outTx = s.inner.outTx ∧ s'.sockets = s.sockets := by
    rw [← hs']
    simp only [Shared.rejectPending_frame, and_self]
  rcases Shared.socket_congr s s' hframe.2 with ⟨_, hwire, hwriting⟩
  rw [s'.hangUp_wire k (hframe.1.trans hk) (by rw [hwriting]; exact hw), hwire]

/-- What is handed over is no `TrackStart` when the section opens no trip. -/
theorem hands_plain {α : Type} (op : Section α) (s : Shared) (out : Outbound)
    (ticket : Option Ticket) (hop : op.hands = some (out, ticket))
    (hopens : op.opensTrip s = false) (k : Nat) (hk : s.inner.outTx = some k)
    (hw : s.writing k = true) : (Traffic.sent out ticket).isTrackStart = false := by
  have hhands := (Bool.or_eq_false_iff.mp hopens).1
  simpa only [hop, hk, Option.any_some, hw, Bool.and_true] using hhands

/-- What is dispatched is no `TrackStarted` when the section opens no trip. -/
theorem hears_plain {α : Type} (op : Section α) (s : Shared) (evt : ServerEvt) (k : Nat)
    (hop : op.hears = some (k, evt)) (hopens : op.opensTrip s = false)
    (hk : s.inner.outTx = some k) : (Traffic.got evt).isTrackStarted = false := by
  have hhears := (Bool.or_eq_false_iff.mp hopens).2
  simpa only [hop, hk, Option.any_some, decide_true, Bool.and_true] using hhears

/-- While a `close` is about to hang up, no section opens a trip. -/
theorem stopsTrip_plain (refusal : Refusal) (p : Pool Shared Task) (i : Nat) (t : Task)
    (c : Input) (a : Act Section Task) (h : t.act c = some a)
    (hcond : stopsTrip refusal p i t a = true) (j : Nat) (u : Task) (hu : p.tasks[j]? = some u)
    (hclosing : u.closing = true) : a.op.opensTrip p.shared = false := by
  have hany : p.tasks.any Task.closing = true :=
    List.any_eq_true.mpr ⟨u, List.mem_of_getElem? hu, hclosing⟩
  cases t with
  | close pc => cases pc <;> cases c <;> cases h <;> rfl
  | _ =>
      have hplain : (!a.op.opensTrip p.shared || !p.tasks.any Task.closing) = true := hcond
      rw [hany, Bool.not_true, Bool.or_false, Bool.not_eq_true'] at hplain
      exact hplain

section Client

variable (geo : Geo) (refusal : Refusal)

omit refusal in
/-- `close` gets to its last block by finding no track, or by sending a
    `TrackStop`. -/
theorem heir_closing (t : Task) (c : Input) (a : Act Section Task) (s : Shared)
    (h : t.act c = some a) (hheir : ((client geo).heir a s).closing = true) :
    (t = .close .read ∧ s.inner.trackUid = "" ∧ (client geo).after a s = s) ∨
      ∃ uid, t = .close (.stop uid) ∧
        (client geo).after a s = (sendBin (.cmd (.trackStop uid)) none s).1 := by
  revert hheir
  rcases heir_kind geo t c a s h with hk | hk | ⟨_, _, _, _, hk⟩
  · unfold Machine.heir at hk ⊢
    revert h
    cases t with
    | close pc =>
        cases pc with
        -- Without a track there is no `TrackStop` to send.
        | read =>
            cases c <;> intro h <;> cases h
            intro hheir
            refine Or.inl ⟨rfl, ?_, rfl⟩
            by_contra huid
            have hrun : (client geo).run Section.readTrackUid s = (s, s.inner.trackUid) := rfl
            simp only [hrun, if_neg huid] at hheir
            cases hheir
        -- The stop is handed over, or there is nobody to hand it to.
        | stop uid =>
            cases c <;> intro h <;> cases h
            exact fun _ => Or.inr ⟨uid, rfl, rfl⟩
        | final =>
            cases c <;> intro h <;> cases h
            rintro ⟨⟩
    | _ =>
        intro _ hheir
        exact absurd (closing_kind _ hheir) (by rw [hk]; rintro ⟨⟩)
  · intro hheir
    exact absurd (closing_kind _ hheir) (by rw [hk]; rintro ⟨⟩)
  · rw [hk]
    rintro ⟨⟩

/-- When no trip is open, none is after a section that opens none. -/
theorem after_tripOver (a : Act Section Task) (s : Shared)
    (hopens : a.op.opensTrip s = false) (hover : tripOver refusal s = true) :
    tripOver refusal ((client geo).after a s) = true := by
  refine (tripOver_iff refusal _).mpr fun k hk hw => ?_
  -- The socket was the current one before, or it is new and its wire is empty.
  rcases move_current _ _ _ (after_moves geo a s) k hk with hk' | ⟨hdrive, _, hlen⟩
  · have hold : trip refusal k (s.wire k) = .over := by
      rcases run_writing geo a.op s k hw with hw' | hnew
      · exact (tripOver_iff refusal s).mp hover k hk' hw'
      · rw [hnew, s.wire_length]
        rfl
    rcases run_wire geo a.op s k with
      hwire | ⟨evt, hop, hwire⟩ | ⟨out, ticket, hop, _, hw', hwire⟩
    · exact (congrArg (trip refusal k) hwire).trans hold
    · refine (congrArg (trip refusal k) hwire).trans ?_
      exact trip_over_cons refusal k _ _ hold rfl (hears_plain a.op s evt k hop hopens hk')
    · refine (congrArg (trip refusal k) hwire).trans ?_
      exact trip_over_cons refusal k _ _ hold
        (hands_plain a.op s out ticket hop hopens k hk' hw') rfl
  · rw [hlen, gens_length]
    exact congrArg (trip refusal _) (installed_wire geo a.op s _ hdrive)

/-- After its `TrackStop`, or when it needed none, `close` finds no trip open. -/
theorem heir_tripOver (p : Pool Shared Task) (i : Nat) (t : Task) (c : Input)
    (a : Act Section Task) (h : t.act c = some a) (hcond : stopsTrip refusal p i t a = true)
    (hheir : ((client geo).heir a p.shared).closing = true) :
    tripOver refusal ((client geo).after a p.shared) = true := by
  rcases heir_closing geo t c a p.shared h hheir with ⟨rfl, huid, hafter⟩ | ⟨uid, rfl, hafter⟩
  · rw [hafter]
    -- The call read no track: the condition says the trip is over then.
    rcases Bool.or_eq_true_iff.mp hcond with hsome | hover
    · exact absurd huid (of_decide_eq_true hsome)
    · exact hover
  · have hcases : (!(decide (p.shared.inner.state = .closed) && p.shared.inner.intentional) ||
        tripOver refusal p.shared) = true := hcond
    rw [hafter]
    refine (tripOver_iff refusal _).mpr fun k hk hw => ?_
    rw [(sendBin_frame _ _ _).1] at hk
    rcases sendBin_cases (.cmd (.trackStop uid)) none p.shared with
      ⟨e, hs⟩ | ⟨j, hj, hw', hs⟩
    -- The stop was not handed over, though the channel is open: the session was over.
    · rw [hs] at hw ⊢
      rcases Bool.or_eq_true_iff.mp hcases with hopen | hover
      · have hclosed : ¬ (p.shared.inner.state = .closed ∧ p.shared.inner.intentional = true) := by
          rintro ⟨hstate, hint⟩
          rw [hint, decide_eq_true hstate] at hopen
          cases hopen
        have hsent := congrArg Prod.snd
          (sendBin_open (.cmd (.trackStop uid)) none _ k hclosed hk hw)
        rw [hs] at hsent
        cases hsent
      · exact (tripOver_iff refusal _).mp hover k hk hw
    -- The stop is the last word on the wire.
    · have hjk : j = k := Option.some.inj (hj.symm.trans hk)
      rw [hs, ← hjk, Shared.wire_logTraffic_writing _ j _ hw']
      rfl

variable (cfg : Config)

/-- When `close` is about to hang up, no trip is open. -/
theorem reach_tripOver (p : Pool Shared Task)
    (h : (client geo).Reach (Started cfg)
      ((client geo).whenever fun p i t a => stopsTrip refusal p i t a = true) p) :
    ∀ (j : Nat) u, p.tasks[j]? = some u → u.closing = true → tripOver refusal p.shared = true := by
  refine ((client geo).reach_tasks (Started cfg) _ (fun _ => True)
    (fun s t => t.closing = true → tripOver refusal s = true) ?_ ?_ ?_ ?_ p h).2
  · intro p hp
    rcases started_pool cfg p hp with ⟨now, rfl⟩
    exact ⟨trivial, fun _ _ _ => rfl⟩
  · rintro s t _ hent hclosing
    have hcall := ((entry_iff geo s t).mp hent).2
    cases t with
    | close pc =>
        cases pc with
        | final => cases hcall
        | _ => cases hclosing
    | _ => cases hclosing
  · intro p i c t a _ ha hcond _ _ _
    refine ⟨trivial, heir_tripOver geo refusal p i t c a ha hcond, fun u hu hclosing => ?_⟩
    rcases spawned_cases geo t c a p.shared ha u hu with
      ⟨_, _, _, _, rfl | rfl⟩ | ⟨_, _, _, rfl | rfl | ⟨_, rfl⟩⟩ | ⟨_, _, _, rfl⟩ <;>
      cases hclosing
  · intro p i j c t u a _ hu _ ha hcond _ _ hQu hclosing
    exact after_tripOver geo refusal a p.shared
      (stopsTrip_plain refusal p i t c a ha hcond j u hu hclosing) (hQu hclosing)

/-- A trip is over when `close` hangs up, in every run in which a `close` that opens
    its goodbye finds the uid of the trip, its `TrackStop` is not refused, and none
    opens behind it. Without the condition a `TrackStart` that is still unanswered
    is missed, since `close` reads the uid once and sends nothing when it is empty. -/
theorem reach_closesTrip (p : Pool Shared Task)
    (h : (client geo).Reach (Started cfg)
      ((client geo).whenever fun p i t a => stopsTrip refusal p i t a = true) p) :
    ClosesTrip refusal p := by
  intro j k hj hk hw
  have hover := reach_tripOver geo refusal cfg p h j _ hj rfl
  exact ⟨closeFinal_wire p.shared k hk hw, (tripOver_iff refusal p.shared).mp hover k hk hw⟩

end Client

/-- `close` after `TrackStarted`: it hangs up after its `TrackStop`. -/
theorem reach_closesTrip_confirmed :
    ∃ p : Pool Shared Task, p.tasks[4]? = some (.close .final) ∧
      p.shared.wire 0 = [.sent (.bin (.cmd (.trackStop "T"))) none, .got (.trackStarted "T" []),
        .sent (.bin (.cmd (.trackStart (some (sample 0)) [] []))) none] ∧
      trip (fun _ _ => false) 0 (p.shared.wire 0) = .over := by
  rcases reach_of_watched (stopsTrip fun _ _ => false)
    (tracking ++ [.spawn (.close .read), .resume 4 .go, .resume 4 .go])
    (fun p => decide (p.tasks[4]? = some (Task.close .final) ∧ p.shared.inner.outTx = some 0 ∧
      p.shared.writing 0 = true ∧
      p.shared.wire 0 = [.sent (.bin (.cmd (.trackStop "T"))) none, .got (.trackStarted "T" []),
        .sent (.bin (.cmd (.trackStart (some (sample 0)) [] []))) none]))
    (by decide +kernel) with ⟨p, hp, hrun⟩
  rcases of_decide_eq_true hrun with ⟨htask, hk, hw, hwire⟩
  exact ⟨p, htask, hwire,
    (reach_closesTrip flatGeo (fun _ _ => false) someConfig p hp 4 0 htask hk hw).2⟩

/-- `publish` followed at once by `close`. -/
def closedEarly : List (Label Task Input) :=
  opening ++ [.spawn (.publish (.start (sample 0))), .resume 3 (.clock 0 0), .resume 3 .go,
    .spawn (.close .read), .resume 4 .go]

/-- `close` sees no track yet and hangs up on a trip that was started. No error was
    read, so it does not matter which ones answer a start. -/
theorem close_leaves_trip :
    ¬ ∀ p, (client flatGeo).Reach (Started someConfig) Machine.anyStep p →
      ClosesTrip (fun _ _ => false) p := by
  intro hall
  rcases reach_of_opening closedEarly
    (fun p => decide (p.tasks[4]? = some (Task.close .final) ∧ p.shared.inner.outTx = some 0 ∧
      p.shared.writing 0 = true ∧
      trip (fun _ _ => false) 0 (p.shared.wire 0) = { pending := 1, live := [] }))
    (by decide +kernel) with ⟨p, hp, hrun⟩
  rcases of_decide_eq_true hrun with ⟨htask, hk, hw, htrip⟩
  cases htrip.symm.trans (hall p hp 4 0 htask hk hw).2

end Tracking

end Pickpoint
