import Pickpoint.Theory.Server
import Pickpoint.Theory.Ledger

/-!
# The Starting Flag

`starting` is set when a `TrackStart` is about to be sent and keeps `publish`
from sending another. It is meant to last until the server answers. The
question is whether it can outlive its `TrackStart`: then the device has no
track, will not start one, and stages samples for ever.

It can. The flag is cleared by `TrackStarted`, by a failed send, and by an
`Error` when somebody waits for the start or the track does not exist. Losing
the socket does not clear it (`starting_outlives_socket`), and neither does an
`Error` that answers the `TrackStart` of a `publish`, which has no waiter.

`startsAnswered` rules these out, and with it the flag always has a `TrackStart`
behind it, so an idle device can start a track (`reach_canStart`).

## Main definitions

* `startPending`: The last `TrackStart` on a wire has not been answered.
* `Task.starts`: A task between setting the flag and returning from the send.
* `StartingBacked`: The flag has a `TrackStart` behind it.
* `startsAnswered`: No dial and no stray `Error` meets a pending start.

## Theorems

* `run_starting`: Who sets the flag.
* `starts_step`, `pending_step`: What a step does to what stands behind it.
* `reach_startingBacked`: The flag never outlives its `TrackStart`.
* `reach_canStart`: So an idle device can start a track.
* `starting_outlives_socket`: Not so in general.
-/

namespace Pickpoint

namespace Tracking

open Interleave

def Traffic.isError : Traffic → Bool
  | .got (.error _ _ _ _) => true
  | _ => false

/-- A `TrackStart` went out and neither a `TrackStarted` nor an `Error` came
    back since. -/
def startPending : List Traffic → Bool
  | [] => false
  | t :: w => t.isTrackStart || (!t.isTrackStarted && !t.isError && startPending w)

/-- A task that has set `starting` and has not returned from sending. -/
def Task.starts : Task → Bool
  | .publish (.sendStart _) | .publish .startFailed => true
  | .startTrack (.send _ _ _ _) | .startTrack (.failed _) => true
  | _ => false

/-- Whether some task has set `starting` and not returned. -/
def anyStarts (p : Pool Shared Task) : Bool := p.tasks.any Task.starts

/-- A `TrackStart` is pending on a socket of the current generation, or about
    to be sent. -/
def StartBehind (p : Pool Shared Task) : Prop :=
  (∃ k : Nat, p.shared.gens[k]? = some p.shared.inner.dialGen ∧
    startPending (p.shared.wire k) = true) ∨ anyStarts p = true

/-- The flag has a `TrackStart` behind it. -/
def StartingBacked (p : Pool Shared Task) : Prop :=
  p.shared.inner.starting = true → StartBehind p

/-- What `startsAnswered` asks of a section: `idle` says that the flag is clear
    or its task has not returned yet. -/
def Section.answersStart (s : Shared) (idle : Bool) : {α : Type} → Section α → Bool
  | _, .dialBegin => idle
  | _, .authRefreshed _ _ => idle
  | _, .sendBin (.cmd (.trackStart _ _ _)) _ =>
    match s.inner.outTx with
    | none => true
    | some k => !s.writing k || decide (s.gens[k]? = some s.inner.dialGen)
  | _, .dispatchError sock e =>
    idle || s.inner.startWait.isSome || e.code == .trackNotFound ||
      !decide (s.gens[sock]? = some s.inner.dialGen)
  | _, _ => true

/-- No dial begins while a start is pending, a `TrackStart` goes to the socket
    of the current generation, and an `Error` from that socket finds a pending
    start waited for, or says that there is no track. -/
def startsAnswered (p : Pool Shared Task) (_ : Nat) (_ : Task) (a : Act Section Task) : Bool :=
  a.op.answersStart p.shared (!p.shared.inner.starting || anyStarts p)

/-- The sections that set the flag. -/
def Section.raisesStarting : {α : Type} → Section α → Bool
  | _, .startTrack _ _ => true
  | _, .publishStart _ _ => true
  | _, _ => false

theorem anyStarts_iff (p : Pool Shared Task) :
    anyStarts p = true ↔ ∃ (j : Nat) (u : Task), p.tasks[j]? = some u ∧ u.starts = true := by
  rw [anyStarts, List.any_eq_true]
  constructor
  · rintro ⟨u, hu, hstarts⟩
    rcases List.mem_iff_getElem?.mp hu with ⟨j, hj⟩
    exact ⟨j, u, hj, hstarts⟩
  · rintro ⟨j, u, hu, hstarts⟩
    exact ⟨u, List.mem_of_getElem? hu, hstarts⟩

section Client

variable (geo : Geo)

/-- Who sets the flag. -/
theorem run_starting {α : Type} (op : Section α) (s : Shared) (hold : s.inner.starting = false)
    (hnew : (op.run geo s).1.inner.starting = true) : op.raisesStarting = true := by
  have hstep := run_ledger geo op s
  have hnew' : ((op.run geo s).1.ledger).starting = true := hnew
  have hold' : s.ledger.starting ≠ true := by
    rw [show s.ledger.starting = false from hold]
    rintro ⟨⟩
  generalize (op.run geo s).1.ledger = l at hstep hnew'
  cases hstep with
  -- Two sections set the flag.
  | startTrack => rfl
  | publishStart => rfl
  -- Replies only clear it.
  | error _ _ _ _ starting _ hstart =>
      rcases hstart with rfl | ⟨rfl, _⟩
      · cases hnew'
      · exact absurd hnew' hold'
  | trackStarted => cases hnew'
  | startFailed => cases hnew'
  | publishStartFailed => cases hnew'
  | _ => exact absurd hnew' hold'

/-- A task that sets the flag is one that is about to send. -/
theorem heir_starts (t : Task) (c : Input) (a : Act Section Task) (s : Shared)
    (h : t.act c = some a) (hold : s.inner.starting = false)
    (hnew : ((client geo).after a s).inner.starting = true) :
    ((client geo).heir a s).starts = true := by
  have hraise := run_starting geo a.op s hold hnew
  -- Two calls raise the flag, and both go on to send the command.
  have hissuer : a.op.issuer = some .startTrack ∨ a.op.issuer = some .publish := by
    rcases a with ⟨op, next⟩
    cases op <;> first | exact Or.inl rfl | exact Or.inr rfl | cases hraise
  have hkind : t.kind = .startTrack ∨ t.kind = .publish :=
    hissuer.imp (act_issuer t c a h _) (act_issuer t c a h _)
  revert hraise hnew
  revert h
  cases t with
  | startTrack pc =>
      simp only [Task.act]
      fun_cases Task.startTrackAct pc c <;> intro h <;> cases h
      case startTrack.case1.refl => exact fun _ _ => rfl
      all_goals exact fun _ hraise => absurd hraise (by rintro ⟨⟩)
  | publish pc =>
      simp only [Task.act]
      fun_cases Task.publishAct pc c <;> intro h <;> cases h
      case publish.case1.refl point now wall =>
        have hrun : (client geo).run (Section.publishStart wall point) s =
            publishStart wall point s := rfl
        intro hnew _
        rcases publishStart_cases wall point s with ⟨_, hs⟩ | ⟨_, hs⟩
        · simp only [Machine.heir, hrun, hs]
          rfl
        · simp only [Machine.after, hrun, hs, hold] at hnew
          cases hnew
      all_goals exact fun _ hraise => absurd hraise (by rintro ⟨⟩)
  | _ => exact hkind.elim (by rintro ⟨⟩) (by rintro ⟨⟩)

theorem startPending_sent (out : Outbound) (ticket : Option Ticket) (w : List Traffic)
    (h : startPending w = true) : startPending (.sent out ticket :: w) = true := by
  simp only [startPending, h, Traffic.isTrackStarted, Traffic.isError, Bool.not_false,
    Bool.and_true, Bool.or_true]

/-- A `TrackStart` that is handed over is pending on the current socket. -/
theorem sendBin_startPending (frame : Frame) (s : Shared) (k : Nat)
    (hstart : (Traffic.sent (.bin frame) none).isTrackStart = true)
    (hw : s.writing k = true) :
    startPending ((s.logTraffic k (.sent (.bin frame) none)).wire k) = true := by
  rw [Shared.wire_logTraffic_writing s k _ hw]
  simp only [startPending, hstart, Bool.true_or]

/-- Sending a `TrackStart` fails, or leaves it pending on a socket of the
    current generation. -/
theorem sendStart_cases (loc : Option LatLng) (route : List LatLng) (metadata : Bytes)
    (s : Shared)
    (hcond : (Section.sendBin (.cmd (.trackStart loc route metadata)) none).answersStart s true =
      true) :
    (∃ e, (sendBin (.cmd (.trackStart loc route metadata)) none s).2 = .error e) ∨
      ∃ k : Nat, (sendBin (.cmd (.trackStart loc route metadata)) none s).1.gens[k]? =
          some s.inner.dialGen ∧
        startPending ((sendBin (.cmd (.trackStart loc route metadata)) none s).1.wire k) =
          true := by
  rcases sendBin_cases (.cmd (.trackStart loc route metadata)) none s with
    ⟨e, hs⟩ | ⟨k, hk, hw, hs⟩
  · exact Or.inl ⟨e, congrArg Prod.snd hs⟩
  -- By the condition the socket is of the current generation.
  · refine Or.inr ⟨k, ?_, ?_⟩
    · rw [hs, Shared.gens_logTraffic]
      simp only [Section.answersStart, hk, hw, Bool.not_true, Bool.false_or] at hcond
      exact of_decide_eq_true hcond
    · rw [hs]
      exact sendBin_startPending _ s k rfl hw

/-- A task that has set the flag goes on towards its send, hands the
    `TrackStart` over, or clears the flag. -/
theorem starts_step (t : Task) (c : Input) (a : Act Section Task) (s : Shared)
    (h : t.act c = some a) (hstarts : t.starts = true)
    (hcond : a.op.answersStart s true = true) :
    ((client geo).heir a s).starts = true ∨
      ((client geo).after a s).inner.starting = false ∨
      ∃ k : Nat, ((client geo).after a s).gens[k]? =
          some ((client geo).after a s).inner.dialGen ∧
        startPending (((client geo).after a s).wire k) = true := by
  have hsend : ∀ loc route metadata,
      (sendBin (.cmd (.trackStart loc route metadata)) none s).1.inner.dialGen =
        s.inner.dialGen := by
    intro loc route metadata
    rw [(sendBin_frame _ none s).1]
  -- The command goes out, or the task is about to lower the flag.
  revert hcond
  revert h
  cases t with
  | publish pc =>
      cases pc with
      | sendStart loc =>
          cases c <;> intro h <;> cases h
          intro hcond
          have hrun : (client geo).run (Section.sendBin (.cmd (.trackStart (some loc) [] [])) none)
              s = sendBin (.cmd (.trackStart (some loc) [] [])) none s := rfl
          rcases sendStart_cases (some loc) [] [] s hcond with ⟨e, he⟩ | ⟨k, hg, hp⟩
          · refine Or.inl ?_
            simp only [Machine.heir, hrun, he]
            rfl
          · refine Or.inr (Or.inr ⟨k, ?_, hp⟩)
            simp only [Machine.after, hrun, hsend]
            exact hg
      | startFailed =>
          cases c <;> intro h <;> cases h
          exact fun _ => Or.inr (Or.inl rfl)
      | _ => cases hstarts
  | startTrack pc =>
      cases pc with
      | send cell loc route metadata =>
          cases c <;> intro h <;> cases h
          rename_i now wall
          intro hcond
          have hrun : (client geo).run (Section.sendBin (.cmd (.trackStart
              (loc.map (stampLatLng wall)) (stampLatLngs wall route) metadata)) none) s =
              sendBin (.cmd (.trackStart (loc.map (stampLatLng wall)) (stampLatLngs wall route)
                metadata)) none s := rfl
          rcases sendStart_cases _ _ _ s hcond with ⟨e, he⟩ | ⟨k, hg, hp⟩
          · refine Or.inl ?_
            simp only [Machine.heir, hrun, he]
            rfl
          · refine Or.inr (Or.inr ⟨k, ?_, hp⟩)
            simp only [Machine.after, hrun, hsend]
            exact hg
      | failed e =>
          cases c <;> intro h <;> cases h
          refine fun _ => Or.inr (Or.inl ?_)
          show (startFailed s).inner.starting = false
          rw [(startFailed_frame s).1]
      | _ => cases hstarts
  | _ => cases hstarts

/-- A pending start stays pending while nobody is starting another: what could
    end it either clears the flag or is excluded. -/
theorem pending_step (t : Task) (c : Input) (a : Act Section Task) (s : Shared)
    (h : t.act c = some a)
    (hnew : ((client geo).after a s).inner.starting = true)
    (hcond : a.op.answersStart s false = true) (k : Nat)
    (hk : s.gens[k]? = some s.inner.dialGen) (hp : startPending (s.wire k) = true) :
    ((client geo).after a s).gens[k]? = some ((client geo).after a s).inner.dialGen ∧
      startPending (((client geo).after a s).wire k) = true := by
  have hgen : ((client geo).after a s).inner.dialGen = s.inner.dialGen := by
    -- A new generation would leave the command on an old socket.
    rcases move_dialGen _ _ _ (after_moves geo a s) with hd | hd | hd
    · rcases a with ⟨op, next⟩
      cases op <;> cases hd
      cases hcond
    · rcases a with ⟨op, next⟩
      cases op <;> cases hd
      cases hcond
    · exact hd
  refine ⟨hgen ▸ after_gens_get geo a s k _ hk, ?_⟩
  rcases run_wire geo a.op s k with hw | ⟨evt, hears, hw⟩ | ⟨out, ticket, _, _, _, hw⟩
  · exact (congrArg startPending hw).trans hp
  · have hw' : ((client geo).after a s).wire k = .got evt :: s.wire k := hw
    rw [hw']
    rcases act_hears t c a h k evt hears with ⟨gen, rfl, rfl⟩
    cases evt with
    | trackStarted uid metadata => cases hnew
    | error code message uid ms =>
        -- The error ends the start, or it finds nobody waiting and is excluded.
        have hstart : (dispatchError k ⟨code, message, uid, ms⟩ s).inner.starting = true := hnew
        have hans : (false || s.inner.startWait.isSome || code == .trackNotFound ||
          !decide (s.gens[k]? = some s.inner.dialGen)) = true := hcond
        rcases dispatchError_inner k ⟨code, message, uid, ms⟩ s with
          ⟨_, _, _, _, starting, hi, _, hclear | ⟨_, hwait, hcode⟩⟩
        · rw [hi] at hstart
          cases hclear.symm.trans hstart
        · rw [hwait, beq_false_of_ne hcode, decide_eq_true hk] at hans
          cases hans
    | _ =>
        simp only [startPending, Traffic.isTrackStart, Traffic.isTrackStarted, Traffic.isError,
          Bool.not_false, Bool.true_and, Bool.false_or]
        exact hp
  · have hw' : ((client geo).after a s).wire k = .sent out ticket :: s.wire k := hw
    rw [hw']
    exact startPending_sent out ticket _ hp

/-- A step keeps a `TrackStart` behind the flag. -/
theorem step_startingBacked (p : Pool Shared Task) (i : Nat) (c : Input) (t : Task)
    (a : Act Section Task) (ht : p.tasks[i]? = some t) (ha : t.act c = some a)
    (hcond : startsAnswered p i t a = true) (hI : StartingBacked p) :
    StartingBacked ((client geo).resumed p i a) := by
  intro hnew
  have hnew' : ((client geo).after a p.shared).inner.starting = true := hnew
  -- Some task is about to send a start, or one is pending on a wire.
  by_cases hany : anyStarts p = true
  · rcases (anyStarts_iff p).mp hany with ⟨j, u, hu, hstarts⟩
    -- The task itself moves, and sends it, or another one does.
    by_cases hji : j = i
    · subst hji
      rw [Option.some.inj (ht.symm.trans hu)] at ha
      rw [startsAnswered, hany, Bool.or_true] at hcond
      rcases starts_step geo u c a p.shared ha hstarts hcond with hheir | hclear | hpending
      · exact Or.inr ((anyStarts_iff _).mpr
          ⟨j, _, (client geo).resumed_get_self p j a t ht, hheir⟩)
      · cases hclear.symm.trans hnew'
      · exact Or.inl hpending
    · exact Or.inr ((anyStarts_iff _).mpr
        ⟨j, u, (client geo).resumed_get_other p i j a u hji hu, hstarts⟩)
  -- Nobody was about to: the flag was set in this step, or it stands for a start on a wire.
  · rcases hold : p.shared.inner.starting with _ | _
    · exact Or.inr ((anyStarts_iff _).mpr ⟨i, _, (client geo).resumed_get_self p i a t ht,
        heir_starts geo t c a p.shared ha hold hnew'⟩)
    · rw [startsAnswered, hold, Bool.not_eq_true _ |>.mp hany] at hcond
      rcases hI hold with ⟨k, hk, hp⟩ | hstarts
      · exact Or.inl ⟨k, pending_step geo t c a p.shared ha hnew' hcond k hk hp⟩
      · exact absurd hstarts hany

variable (cfg : Config)

/-- The flag never outlives its `TrackStart`, in every run that answers its
    starts. -/
theorem reach_startingBacked (p : Pool Shared Task)
    (h : (client geo).Reach (Started cfg)
      ((client geo).whenever fun p i t a => startsAnswered p i t a = true) p) :
    StartingBacked p := by
  refine (client geo).reach_pool (Started cfg) _ StartingBacked ?_ ?_ ?_ p h
  · intro p hp hstart
    rcases started_pool cfg p hp with ⟨now, rfl⟩
    cases hstart
  · intro p i c t a ht ha hC hI
    exact step_startingBacked geo p i c t a ht ha hC hI
  · intro p t _ hI hnew
    refine (hI hnew).imp id fun hany => ?_
    exact List.any_append.trans (Bool.or_eq_true_iff.mpr (Or.inl hany))

/-- An idle device with an open socket can start a track: the first two
    sections of `publish` put a `TrackStart` on the wire. -/
theorem publish_canStart (s : Shared) (wall : Int) (point : LatLng) (k : Nat)
    (huid : s.inner.trackUid = "") (hstart : s.inner.starting = false)
    (hopen : s.inner.state = .open) (hk : s.inner.outTx = some k) (hw : s.writing k = true) :
    ∃ loc, (publishStart wall point s).2 = some loc ∧
      ((sendBin (.cmd (.trackStart (some loc) [] [])) none
        (publishStart wall point s).1).1.wire k).head? =
        some (.sent (.bin (.cmd (.trackStart (some loc) [] []))) none) := by
  refine ⟨stampLatLng wall point, ?_⟩
  rcases publishStart_cases wall point s with ⟨_, hs⟩ | ⟨hbusy, _⟩
  · have hopen' : (publishStart wall point s).1.inner.state = .open := by rw [hs]; exact hopen
    have hk' : (publishStart wall point s).1.inner.outTx = some k := by rw [hs]; exact hk
    have hw' : (publishStart wall point s).1.writing k = true := by rw [hs]; exact hw
    refine ⟨by rw [hs], ?_⟩
    rw [sendBin_open _ none _ k (fun hc => absurd (hc.1.symm.trans hopen') (by rintro ⟨⟩)) hk' hw',
      Shared.wire_logTraffic_writing _ k _ hw']
    rfl
  -- The flag or a track would be in the way.
  · exact absurd ⟨huid, hstart⟩ hbusy

/-- In every run that answers its starts the flag has a `TrackStart` behind it, and
    a device that has neither a track nor a start behind it, but an open socket, can
    start one by `publish`. The flag is cleared by a reply only. A socket that is
    lost with a start pending leaves it set, and then no `publish` starts a track
    any more. -/
theorem reach_canStart (p : Pool Shared Task)
    (h : (client geo).Reach (Started cfg)
      ((client geo).whenever fun p i t a => startsAnswered p i t a = true) p) :
    StartingBacked p ∧
      ∀ wall point k, p.shared.inner.trackUid = "" → ¬ StartBehind p →
        p.shared.inner.state = .open → p.shared.inner.outTx = some k →
        p.shared.writing k = true →
        ∃ loc, (publishStart wall point p.shared).2 = some loc ∧
          ((sendBin (.cmd (.trackStart (some loc) [] [])) none
            (publishStart wall point p.shared).1).1.wire k).head? =
            some (.sent (.bin (.cmd (.trackStart (some loc) [] []))) none) := by
  have hI := reach_startingBacked geo cfg p h
  refine ⟨hI, fun wall point k huid hbehind hopen hk hw => ?_⟩
  refine publish_canStart p.shared wall point k huid ?_ hopen hk hw
  exact Bool.not_eq_true _ |>.mp fun hstart => hbehind (hI hstart)

end Client

/-- The first `publish` has handed its `TrackStart` over and waits for the
    server; nothing can start another track. -/
theorem reach_canStart_pending :
    ∃ p : Pool Shared Task, p.shared.inner.starting = true ∧ anyStarts p = false ∧
      StartBehind p := by
  rcases reach_of_watched startsAnswered
    (opening ++ [.spawn (.publish (.start (sample 0))), .resume 3 (.clock 0 0), .resume 3 .go])
    (fun p => p.shared.inner.starting && !anyStarts p) (by decide +kernel) with ⟨p, hp, hrun⟩
  rcases Bool.and_eq_true_iff.mp hrun with ⟨hstart, hany⟩
  exact ⟨p, hstart, Bool.not_eq_true' _ |>.mp hany,
    (reach_canStart flatGeo someConfig p hp).1 hstart⟩

/-- The socket closes before the server has answered the `TrackStart` of the
    first `publish`, and the client dials again. -/
def startLost : List (Label Task Input) :=
  opening ++ [.spawn (.publish (.start (sample 0))), .resume 3 (.clock 0 0), .resume 3 .go,
    .resume 2 .eof, .resume 4 (.random 0), .resume 4 .go] ++ dialSteps 4

/-- The flag stays set with nothing behind it, so no `publish` will start a
    track on the new socket. -/
theorem starting_outlives_socket :
    ¬ ∀ p, (client flatGeo).Reach (Started someConfig) Machine.anyStep p → StartingBacked p := by
  intro hall
  rcases reach_of_opening startLost
    (fun p => decide (p.shared.inner.starting = true ∧ p.shared.gens = [1, 2] ∧
      p.shared.inner.dialGen = 2 ∧ p.shared.inner.outTx = some 1 ∧
      startPending (p.shared.wire 1) = false ∧ anyStarts p = false))
    (by decide +kernel) with ⟨p, hp, hrun⟩
  rcases of_decide_eq_true hrun with ⟨hstart, hgens, hgen, _, hpending, hany⟩
  rcases hall p hp hstart with ⟨k, hk, hbehind⟩ | hbehind
  · rw [hgens, hgen] at hk
    rcases k with _ | _ | k
    · exact absurd hk (by decide)
    · cases hpending.symm.trans hbehind
    · cases hk
  · cases hany.symm.trans hbehind

end Tracking

end Pickpoint
