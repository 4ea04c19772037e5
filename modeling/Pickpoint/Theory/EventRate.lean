import Pickpoint.Interleave.Gate
import Pickpoint.Theory.PublishRate

/-!
# Event Rate

How many events go out, whoever sends them.

`send_event` asks the gate `next_event_at` and moves it under one lock, and hands the
event over later, under no lock at all. So the calls it accepts are a second apart,
and events are never more than those calls; on the wire they may still be close to
each other. A payload is looked at before anything else, so none that is too long
comes as far as a socket.

## Main definitions

* `Section.takesEvent`, `eventGate`: The gate of `send_event`.
* `Shared.eventsOut`, `Task.sendsEvent`: The events handed over, and about to be.
* `EventsHeld`: No more than were accepted, and none too long.
* `EventsRated`: What the log of accepted calls says of a run.

## Theorems

* `run_nextEvent`: Only `send_event` moves the gate.
* `run_eventsOut`: What a section hands over.
* `reach_eventsRated`: The rate of events in every run.
-/

namespace Pickpoint

namespace Tracking

open Interleave

/-! ## The gate -/

/-- The answer of the locked block that lets an event go. -/
def eventTaken : Except Error Bool ⊕ Ticket → Bool
  | .inl (.ok accepted) => accepted
  | .inl (.error _) => false
  | .inr _ => true

/-- An event is accepted. -/
def Section.takesEvent (s : Shared) : {α : Type} → Section α → Bool
  | _, .sendEvent now => eventTaken (Tracking.sendEvent now s).2
  | _, _ => false

/-- An event is accepted when the gate is open, and moves it. -/
theorem sendEvent_gate (now : Instant) (s : Shared) :
    (eventTaken (sendEvent now s).2 = true → s.inner.nextEventAt ≤ now ∧
        (sendEvent now s).1.inner.nextEventAt = now + minEventInterval) ∧
      s.inner.nextEventAt ≤ (sendEvent now s).1.inner.nextEventAt := by
  unfold sendEvent
  by_cases hready : s.inner.trackUid = "" ∨ ¬ s.inner.sessionReady = true
  · simp only [if_pos hready]
    exact ⟨by rintro ⟨⟩, Nat.le_refl _⟩
  · by_cases hrate : now < s.inner.nextEventAt
    · simp only [if_neg hready, if_pos hrate]
      exact ⟨by rintro ⟨⟩, Nat.le_refl _⟩
    · have hopen := Nat.le_of_not_lt hrate
      simp only [if_neg hready, if_neg hrate]
      split <;> exact ⟨fun _ => ⟨hopen, rfl⟩, Nat.le_trans hopen (Nat.le_add_right _ _)⟩

/-- Only `send_event` moves the gate. -/
theorem run_nextEvent (geo : Geo) {α : Type} (op : Section α) (s : Shared) :
    s.inner.nextEventAt ≤ (op.run geo s).1.inner.nextEventAt := by
  cases op with
  -- The one section that moves the gate moves it forward; the others leave it.
  | sendEvent now => exact (sendEvent_gate now s).2
  | dialInstall gen =>
      rcases dialInstall_cases gen s with ⟨_, h⟩ | ⟨_, _, h⟩ <;>
        simp only [Section.run, h, Nat.le_refl]
  | relocateEndpoint endpoint => simp only [Section.run, relocateEndpoint_eq, Nat.le_refl]
  | dispatchTrackStopped sock uid =>
      simp only [Section.run, dispatchTrackStopped]
      split <;> exact Nat.le_refl _
  | dispatchError sock e =>
      rcases dispatchError_inner sock e s with ⟨_, _, _, _, _, h, _⟩
      simp only [Section.run, h, Nat.le_refl]
  | dispatchCommand sock c => simp only [Section.run, dispatchCommand_frame, Nat.le_refl]
  | settle cell r forward => simp only [Section.run, settle_frame, Nat.le_refl]
  | authClose => simp only [Section.run, authClose_frame, Nat.le_refl]
  | authRefreshed device listener =>
      rcases authRefreshed_frame device listener s with ⟨_, _, h, _⟩
      simp only [Section.run, h, Nat.le_refl]
  | socketClosed gen random =>
      rcases socketClosed_cases gen random s with ⟨_, h⟩ | ⟨_, _, _, _, _, _, _, _, h, _⟩ <;>
        simp only [Section.run, h, Nat.le_refl]
  | resumeLock =>
      rcases resumeLock_inner s with ⟨_, h⟩
      simp only [Section.run, h, Nat.le_refl]
  | flush =>
      rcases flush_cases s with h | ⟨_, _, _, h⟩
      · simp only [Section.run, h, Nat.le_refl]
      · rcases flushPoints_inner s.inner with ⟨_, _, hp⟩
        simp only [Section.run, h, hp, Nat.le_refl]
  | sendBin frame ticket => simp only [Section.run, sendBin_frame, Nat.le_refl]
  | startTrack wall loc =>
      rcases startTrack_inner wall loc s with ⟨_, h⟩
      simp only [Section.run, h, Nat.le_refl]
  | startFailed => simp only [Section.run, startFailed_frame, Nat.le_refl]
  | resumeTrack uid seq => simp only [Section.run, resumeTrack_inner, Nat.le_refl]
  | resumeFailed => simp only [Section.run, resumeFailed_frame, Nat.le_refl]
  | publishStart wall point =>
      rcases publishStart_cases wall point s with ⟨_, h⟩ | ⟨_, h⟩ <;>
        simp only [Section.run, h, Nat.le_refl]
  | publishWork now wall point =>
      rcases publishWork_cases geo now wall point s with
        h | ⟨_, _, h | ⟨_, ⟨_, h⟩ | ⟨_, h⟩⟩⟩ <;>
        simp only [Section.run, h, publishLive, Nat.le_refl]
  | stopTrack => simp only [Section.run, stopTrack_frame, Nat.le_refl]
  | stopFailed => simp only [Section.run, stopFailed_frame, Nat.le_refl]
  | closeFinal => simp only [Section.run, closeFinal_frame, Nat.le_refl]
  | _ => exact Nat.le_refl _

/-- An event is sent by `send_event`, which reads the clock. -/
theorem act_takesEvent (t : Task) (c : Input) (a : Act Section Task) (s : Shared)
    (h : t.act c = some a) (htake : a.op.takesEvent s = true) :
    ∃ payload now wall, t = .sendEvent (.start payload) ∧ c = .clock now wall ∧
      payload.length ≤ maxEventBytes ∧ eventTaken (sendEvent now s).2 = true ∧
      a = ⟨.sendEvent now, fun
        | .inl r => (.returned (.sendEvent r), [])
        | .inr ticket => (.sendEvent (.send payload ticket), [])⟩ := by
  have hissuer : a.op.issuer = some .sendEvent := by
    rcases a with ⟨op, next⟩
    cases op <;> first | rfl | cases htake
  have hkind := act_issuer t c a h .sendEvent hissuer
  cases t with
  | sendEvent pc =>
      revert htake
      revert h
      simp only [Task.act]
      fun_cases Task.sendEventAct pc c <;> intro h <;> cases h
      case sendEvent.case2.refl payload now wall hlong =>
        exact fun htake => ⟨payload, now, wall, rfl, rfl, Nat.le_of_not_lt hlong, htake, rfl⟩
      all_goals rintro ⟨⟩
  | _ => cases hkind

/-- The gate of `send_event`. -/
def eventGate (geo : Geo) : (client geo).Gate Input.shows minEventInterval where
  opens s := s.inner.nextEventAt
  passes s a := a.op.takesEvent s
  asks t c a s now h hshows hpass := by
    rcases act_takesEvent t c a s h hpass with ⟨payload, now', wall, _, rfl, _, htaken, rfl⟩
    have hnow : now' = now := beq_iff_eq.mp hshows
    subst hnow
    exact (sendEvent_gate now' s).1 htaken
  keeps t c a s h := run_nextEvent geo a.op s

/-! ## Events on the way -/

/-- An `Event` for the server. -/
def Traffic.isEvent : Traffic → Bool
  | .sent (.bin (.cmd (.event _ _ _))) _ => true
  | _ => false

/-- The events handed to any socket. -/
def Shared.eventsOut (s : Shared) : Nat :=
  (s.sockets.map fun k => k.wire.countP Traffic.isEvent).sum

/-- A call that is about to hand its event over. -/
def Task.sendsEvent : Task → Bool
  | .sendEvent (.send _ _) => true
  | _ => false

theorem sendsEvent_eq (t : Task) (h : t.sendsEvent = true) :
    ∃ payload ticket, t = .sendEvent (.send payload ticket) := by
  cases t with
  | sendEvent pc =>
      cases pc with
      | send payload ticket => exact ⟨payload, ticket, rfl⟩
      | start payload => cases h
  | _ => cases h

/-- Whether a section hands an event over. -/
def Section.handsEvent {α : Type} (op : Section α) : Bool :=
  op.hands.any fun x => (Traffic.sent x.1 x.2).isEvent

/-- A change of one socket changes a sum over all by as much at most. -/
theorem sum_modify_le (g : Socket → Nat) (f : Socket → Socket) (d : Nat)
    (h : ∀ k, g (f k) ≤ g k + d) (ks : List Socket) (j : Nat) :
    ((ks.modify j f).map g).sum ≤ (ks.map g).sum + d := by
  induction ks generalizing j with
  | nil =>
      rw [List.modify_nil]
      exact Nat.le_add_right _ _
  | cons k ks ih =>
      cases j with
      | zero =>
          have hk := h k
          rw [List.modify_zero_cons, List.map_cons, List.map_cons, List.sum_cons, List.sum_cons]
          omega
      | succ j =>
          have hrest := ih j
          rw [List.modify_succ_cons, List.map_cons, List.map_cons, List.sum_cons, List.sum_cons]
          omega

/-- A section puts one more event on a wire, if it hands one over. -/
theorem run_eventsOut (geo : Geo) {α : Type} (op : Section α) (s : Shared) :
    (op.run geo s).1.eventsOut ≤ s.eventsOut + (if op.handsEvent then 1 else 0) := by
  have hlog : ∀ (j : Nat) (t : Traffic) (d : Nat), (if t.isEvent then 1 else 0) ≤ d →
      ((s.logTraffic j t).sockets.map fun k => k.wire.countP Traffic.isEvent).sum ≤
        s.eventsOut + d := by
    intro j t d hd
    refine Nat.le_trans (sum_modify_le _ (fun k => { k with wire := t :: k.wire })
      (if t.isEvent then 1 else 0) (fun k => ?_) s.sockets j) (Nat.add_le_add_left hd _)
    exact Nat.le_of_eq (List.countP_cons ..)
  have hstep := run_sockets geo op s
  have hout : (op.run geo s).1.eventsOut =
      ((op.run geo s).1.sockets.map fun k => k.wire.countP Traffic.isEvent).sum := rfl
  rw [hout]
  generalize (op.run geo s).1.sockets = ks at hstep
  cases hstep with
  | same => exact Nat.le_add_right _ _
  | heard _ sock evt hop => exact hlog sock (.got evt) _ (Nat.zero_le _)
  | handed _ k out ticket hop hk hw =>
      refine hlog k (.sent out ticket) _ (Nat.le_of_eq ?_)
      simp only [Section.handsEvent, hop, Option.any_some]
  | opened gen hgen hint =>
      rw [List.map_append, List.sum_append]
      exact Nat.le_refl _
  | stopped sock =>
      refine Nat.le_trans (sum_modify_le (fun k => k.wire.countP Traffic.isEvent)
        (fun k => { k with writing := false }) 0 (fun k => Nat.le_refl _) s.sockets sock) ?_
      exact Nat.add_le_add_left (Nat.zero_le _) _

/-- Events are handed over by calls that are about to. -/
theorem act_handsEvent (t : Task) (c : Input) (a : Act Section Task) (h : t.act c = some a)
    (hev : a.op.handsEvent = true) :
    ∃ payload ticket wall, t = .sendEvent (.send payload ticket) ∧
      a.op.hands = some (.bin (.cmd (.event "" payload (some wall))), some ticket) := by
  rcases Option.any_eq_true _ _ |>.mp hev with ⟨⟨out, ticket⟩, hop, hisEvent⟩
  rcases out with frame | _
  · cases act_sends t c a h frame ticket hop with
    | sendEvent payload tk wall => exact ⟨payload, tk, wall, rfl, hop⟩
    | _ => cases hisEvent
  · cases hisEvent

/-- Who is about to hand an event over has just been accepted, and its event is not
    too long. -/
theorem heir_sendsEvent (geo : Geo) (t : Task) (c : Input) (a : Act Section Task) (s : Shared)
    (h : t.act c = some a) (payload : Bytes) (ticket : Ticket)
    (hheir : (client geo).heir a s = .sendEvent (.send payload ticket)) :
    t.sendsEvent = false ∧ a.op.takesEvent s = true ∧ payload.length ≤ maxEventBytes := by
  have hkind : t.kind = .sendEvent := by
    rcases heir_kind geo t c a s h with hk | hk | ⟨_, _, _, _, hk⟩
    · rw [← hk, hheir]
      rfl
    · rw [hheir] at hk
      cases hk
    · rw [hk] at hheir
      cases hheir
  cases t with
  | sendEvent pc =>
      revert hheir
      unfold Machine.heir
      revert h
      simp only [Task.act]
      fun_cases Task.sendEventAct pc c <;> intro h <;> cases h
      -- Past the length check, the section takes the turn or answers.
      case sendEvent.case2.refl payload' now wall hlong =>
        have hrun : (client geo).run (Section.sendEvent now) s = sendEvent now s := rfl
        simp only [hrun, Section.takesEvent]
        rcases (sendEvent now s).2 with r | tk
        · rintro ⟨⟩
        · intro hheir
          cases hheir
          exact ⟨rfl, rfl, Nat.le_of_not_lt hlong⟩
      all_goals rintro ⟨⟩
  | _ => cases hkind

/-- A call that returns `Ok(true)` is accepted now, or has been about to send. -/
theorem heir_answersEvent (geo : Geo) (t : Task) (c : Input) (a : Act Section Task) (s : Shared)
    (h : t.act c = some a)
    (hheir : (client geo).heir a s = .returned (.sendEvent (.ok true))) :
    a.op.takesEvent s = true ∨ t.sendsEvent = true := by
  have hkind : t.kind = .sendEvent :=
    heir_gives geo t c a s h .sendEvent (by rw [hheir]; rfl)
  cases t with
  | sendEvent pc =>
      revert hheir
      unfold Machine.heir
      revert h
      simp only [Task.act]
      fun_cases Task.sendEventAct pc c <;> intro h <;> cases h
      case sendEvent.case1.refl => rintro ⟨⟩
      case sendEvent.case2.refl payload now wall hlong =>
        have hrun : (client geo).run (Section.sendEvent now) s = sendEvent now s := rfl
        simp only [hrun, Section.takesEvent]
        rcases (sendEvent now s).2 with r | tk
        · intro hheir
          cases hheir
          exact Or.inl rfl
        · rintro ⟨⟩
      case sendEvent.case3.refl => exact fun _ => Or.inr rfl
  | _ => cases hkind

/-! ## Runs -/

/-- A call of `send_event` past its locked block. -/
def Task.pastEvent : Task → Bool
  | .sendEvent (.send _ _) | .returned (.sendEvent _) => true
  | _ => false

/-- Events were accepted, each call once, and are no more than that and not too
    long. -/
structure EventsHeld (p : Pool (Shared × Instant) Task) (log : List (Nat × Instant)) : Prop where
  logged : ∀ (i : Nat) t, p.tasks[i]? = some t →
    t.sendsEvent = true ∨ t = .returned (.sendEvent (.ok true)) → ∃ now, (i, now) ∈ log
  past : ∀ x ∈ log, ∃ t, p.tasks[x.1]? = some t ∧ t.pastEvent = true
  once : (log.map (·.1)).Nodup
  count : p.shared.1.eventsOut + p.tasks.countP Task.sendsEvent ≤ log.length
  short : ∀ (i : Nat) payload ticket, p.tasks[i]? = some (.sendEvent (.send payload ticket)) →
    payload.length ≤ maxEventBytes
  wires : ∀ (k : Nat) uid payload ts ticket,
    Traffic.sent (.bin (.cmd (.event uid payload ts))) ticket ∈ p.shared.1.wire k →
      payload.length ≤ maxEventBytes

/-- No step starts a call of `send_event`. -/
theorem spawned_noEvent (geo : Geo) (t : Task) (c : Input) (a : Act Section Task) (s : Shared)
    (h : t.act c = some a) (u : Task) (hu : u ∈ (client geo).spawned a s) :
    u.sendsEvent = false ∧ u ≠ .returned (.sendEvent (.ok true)) := by
  rcases spawned_cases geo t c a s h u hu with
    ⟨_, _, _, _, rfl | rfl⟩ | ⟨_, _, _, rfl | rfl | ⟨_, rfl⟩⟩ | ⟨_, _, _, rfl⟩ <;>
    exact ⟨rfl, by rintro ⟨⟩⟩

section Runs

variable (geo : Geo)

/-- A call that is past its locked block stays so. -/
theorem pastEvent_next (t : Task) (c : Input) (a : Act Section Task) (s : Shared)
    (h : t.act c = some a) (hpast : t.pastEvent = true) :
    ((client geo).heir a s).pastEvent = true := by
  cases t with
  | sendEvent pc =>
      cases pc with
      | send payload ticket =>
          cases c <;> cases h
          rfl
      | start payload => cases hpast
  | returned r => cases c <;> cases h
  | _ => cases hpast

/-- The calls that are past their locked block after one more is accepted. -/
theorem step_past (p : Pool (Shared × Instant) Task) (i : Nat) (c : Input × Instant) (t : Task)
    (a : Act (timedClient geo).Op Task) (log : List (Nat × Instant)) (ht : p.tasks[i]? = some t)
    (ha : t.act c.1 = some a.base) (h : EventsHeld p log) :
    (∀ x ∈ (eventGate geo).note p i t a log,
      ∃ t, ((timedClient geo).resumed p i a).tasks[x.1]? = some t ∧ t.pastEvent = true) ∧
      (((eventGate geo).note p i t a log).map (·.1)).Nodup := by
  have hself := (timedClient geo).resumed_get_self p i a t ht
  -- Who was past its block stays past it.
  have hold : ∀ x ∈ log,
      ∃ t, ((timedClient geo).resumed p i a).tasks[x.1]? = some t ∧ t.pastEvent = true := by
    intro x hx
    rcases h.past x hx with ⟨u, hu, hpast⟩
    by_cases hxi : x.1 = i
    · rw [hxi, ht, Option.some.injEq] at hu
      exact ⟨_, hxi ▸ hself, pastEvent_next geo t c.1 a.base p.shared.1 ha (hu ▸ hpast)⟩
    · exact ⟨u, (timedClient geo).resumed_get_other p i x.1 a u hxi hu, hpast⟩
  unfold Machine.Gate.note
  by_cases hpass : a.base.op.takesEvent p.shared.1 = true
  -- The call that takes its turn is past its block now.
  · have hpass' : (eventGate geo).passes p.shared.1 a.base = true := hpass
    rw [if_pos hpass', List.map_cons, List.nodup_cons]
    rcases act_takesEvent t c.1 a.base p.shared.1 ha hpass with
      ⟨payload, now, wall, rfl, _, _, htaken, hbase⟩
    refine ⟨fun x hx => ?_, fun hmem => ?_, h.once⟩
    · rcases List.mem_cons.mp hx with rfl | hx
      · refine ⟨_, hself, ?_⟩
        have hheir : (timedClient geo).heir a p.shared =
            (client geo).heir a.base p.shared.1 := rfl
        rw [hheir, hbase]
        show (match (sendEvent now p.shared.1).2 with
          | .inl r => (Task.returned (.sendEvent r), [])
          | .inr ticket => (Task.sendEvent (.send payload ticket), [])).1.pastEvent = true
        rcases (sendEvent now p.shared.1).2 with r | tk <;> rfl
      · exact hold x hx
    · -- The call that is accepted now was not past its block.
      rcases List.mem_map.mp hmem with ⟨x, hx, hxi⟩
      rcases h.past x hx with ⟨u, hu, hpast⟩
      rw [hxi, ht, Option.some.injEq] at hu
      rw [← hu] at hpast
      cases hpast
  · have hpass' : ¬ (eventGate geo).passes p.shared.1 a.base = true := hpass
    rw [if_neg hpass']
    exact ⟨hold, h.once⟩

/-- Events handed over and about to be are no more than those accepted. -/
theorem step_count (p : Pool (Shared × Instant) Task) (i : Nat) (c : Input × Instant) (t : Task)
    (a : Act (timedClient geo).Op Task) (log : List (Nat × Instant)) (ht : p.tasks[i]? = some t)
    (ha : t.act c.1 = some a.base) (h : EventsHeld p log) :
    ((timedClient geo).resumed p i a).shared.1.eventsOut +
        ((timedClient geo).resumed p i a).tasks.countP Task.sendsEvent ≤
      ((eventGate geo).note p i t a log).length := by
  have hcount := (timedClient geo).resumed_countP p i a t ht Task.sendsEvent
  have hnew : ((timedClient geo).spawned a p.shared).countP Task.sendsEvent = 0 := by
    refine List.countP_eq_zero.mpr fun u hu => ?_
    rw [(spawned_noEvent geo t c.1 a.base p.shared.1 ha u hu).1]
    exact Bool.false_ne_true
  have hout : ((timedClient geo).resumed p i a).shared.1.eventsOut ≤
      p.shared.1.eventsOut + (if a.base.op.handsEvent then 1 else 0) :=
    run_eventsOut geo a.base.op p.shared.1
  have hlen : ((eventGate geo).note p i t a log).length =
      log.length + (if a.base.op.takesEvent p.shared.1 then 1 else 0) := by
    show (if a.base.op.takesEvent p.shared.1 = true then (i, a.op.2) :: log else log).length = _
    split <;> rfl
  -- Who hands an event over was about to, and who will be about to is accepted now.
  have hhands : a.base.op.handsEvent = true → t.sendsEvent = true := by
    intro hev
    rcases act_handsEvent t c.1 a.base ha hev with ⟨payload, ticket, _, rfl, _⟩
    rfl
  have hheir : ((timedClient geo).heir a p.shared).sendsEvent = true →
      t.sendsEvent = false ∧ a.base.op.takesEvent p.shared.1 = true := by
    intro hsends
    rcases sendsEvent_eq _ hsends with ⟨payload, ticket, hcase⟩
    rcases heir_sendsEvent geo t c.1 a.base p.shared.1 ha payload ticket hcase with ⟨hb, htk, _⟩
    exact ⟨hb, htk⟩
  have hinv := h.count
  rw [hnew] at hcount
  rw [hlen]
  by_cases hsends : t.sendsEvent = true
  · have hdone : ¬ ((timedClient geo).heir a p.shared).sendsEvent = true :=
      fun hagain => by cases hsends.symm.trans (hheir hagain).1
    rw [if_pos hsends, if_neg hdone] at hcount
    split at hout <;> split <;> omega
  · have hquiet : ¬ a.base.op.handsEvent = true := fun hev => hsends (hhands hev)
    rw [if_neg hsends] at hcount
    rw [if_neg hquiet] at hout
    by_cases hnext : ((timedClient geo).heir a p.shared).sendsEvent = true
    · rw [if_pos hnext] at hcount
      rw [if_pos (hheir hnext).2]
      omega
    · rw [if_neg hnext] at hcount
      split <;> omega

/-- A step keeps to the calls that were accepted. -/
theorem step_eventsHeld (p : Pool (Shared × Instant) Task) (i : Nat) (c : Input × Instant)
    (t : Task) (a : Act (timedClient geo).Op Task) (log : List (Nat × Instant))
    (ht : p.tasks[i]? = some t) (ha : (timedClient geo).act t c = some a)
    (h : EventsHeld p log) :
    EventsHeld ((timedClient geo).resumed p i a) ((eventGate geo).note p i t a log) := by
  rcases (client geo).clocked_base Input.shows t c a ha with ⟨_, _, hbase⟩
  rcases step_past geo p i c t a log ht hbase h with ⟨hpast, honce⟩
  -- The log only grows, and a call that takes its turn is put into it.
  have hkeep : ∀ j, (∃ now, (j, now) ∈ log) →
      ∃ now, (j, now) ∈ (eventGate geo).note p i t a log := by
    rintro j ⟨now, hj⟩
    refine ⟨now, ?_⟩
    unfold Machine.Gate.note
    split
    · exact List.mem_cons_of_mem _ hj
    · exact hj
  have htaken : a.base.op.takesEvent p.shared.1 = true →
      ∃ now, (i, now) ∈ (eventGate geo).note p i t a log := by
    intro htake
    have hpass : (eventGate geo).passes p.shared.1 a.base = true := htake
    unfold Machine.Gate.note
    rw [if_pos hpass]
    exact ⟨_, List.mem_cons_self⟩
  refine ⟨?_, hpast, honce, step_count geo p i c t a log ht hbase h, ?_, ?_⟩
  -- A call that is about to send, or has sent, is in the log.
  · intro j u hu hwhich
    rcases (timedClient geo).resumed_get_cases p i j a t u ht hu with
      ⟨rfl, rfl⟩ | ⟨_, hu'⟩ | ⟨_, hu'⟩
    · rcases hwhich with hsends | hanswer
      · rcases sendsEvent_eq _ hsends with ⟨payload, ticket, hheir⟩
        exact htaken (heir_sendsEvent geo t c.1 a.base p.shared.1 hbase payload ticket hheir).2.1
      · rcases heir_answersEvent geo t c.1 a.base p.shared.1 hbase hanswer with htake | hsends
        · exact htaken htake
        · exact hkeep j (h.logged j t ht (Or.inl hsends))
    · exact hkeep j (h.logged j u hu' hwhich)
    · rcases spawned_noEvent geo t c.1 a.base p.shared.1 hbase u (List.mem_of_getElem? hu') with
        ⟨hnone, hne⟩
      rcases hwhich with hsends | hanswer
      · cases hsends.symm.trans hnone
      · exact absurd hanswer hne
  -- Its payload was measured when it took its turn.
  · intro j payload ticket hu
    rcases (timedClient geo).resumed_get_cases p i j a t _ ht hu with
      ⟨_, hheir⟩ | ⟨_, hu'⟩ | ⟨_, hu'⟩
    · exact (heir_sendsEvent geo t c.1 a.base p.shared.1 hbase payload ticket hheir.symm).2.2
    · exact h.short j payload ticket hu'
    · cases (spawned_noEvent geo t c.1 a.base p.shared.1 hbase _ (List.mem_of_getElem? hu')).1
  -- So an event on a wire was there before, or comes from such a call.
  · intro k uid payload ts ticket hsent
    have hwire : Traffic.sent (.bin (.cmd (.event uid payload ts))) ticket ∈
        (a.base.op.run geo p.shared.1).1.wire k := hsent
    rcases run_wire geo a.base.op p.shared.1 k with hw | ⟨evt, _, hw⟩ | ⟨out, tk, hop, _, _, hw⟩
    · rw [hw] at hwire
      exact h.wires k uid payload ts ticket hwire
    · rw [hw] at hwire
      rcases List.mem_cons.mp hwire with heq | hwire
      · cases heq
      · exact h.wires k uid payload ts ticket hwire
    · rw [hw] at hwire
      rcases List.mem_cons.mp hwire with heq | hwire
      · cases heq
        have hsends := act_sends t c.1 a.base hbase _ _ hop
        cases hsends with
        | sendEvent payload tk wall => exact h.short i payload tk ht
      · exact h.wires k uid payload ts ticket hwire

end Runs

/-- The rate of events. The calls of `send_event` that were accepted are in the log,
    each once: any two are `MIN_EVENT_INTERVAL` apart, so no window of `n` seconds has
    more than one beside `n`. A call that returned `Ok(true)` is among them, and on
    all sockets together there are no more events than calls in the log, none with a
    payload over the limit. -/
structure EventsRated (p : Pool (Shared × Instant) Task) (log : List (Nat × Instant)) : Prop where
  apart : log.Pairwise fun x y => y.2 + minEventInterval ≤ x.2
  window : ∀ (start : Instant) (n : Nat), (log.filter fun x =>
    decide (start ≤ x.2 ∧ x.2 ≤ start + n * minEventInterval)).length ≤ n + 1
  once : (log.map (·.1)).Nodup
  answered : ∀ i : Nat, p.tasks[i]? = some (.returned (.sendEvent (.ok true))) →
    ∃ now, (i, now) ∈ log
  count : p.shared.1.eventsOut ≤ log.length
  wires : ∀ (k : Nat) uid payload ts ticket,
    Traffic.sent (.bin (.cmd (.event uid payload ts))) ticket ∈ p.shared.1.wire k →
      payload.length ≤ maxEventBytes

/-- The rate of events, in every run and at any times. The gate is moved under the
    lock, and only by calls that pass it, so the calls that passed are spaced as it
    says. -/
theorem reach_eventsRated (geo : Geo) (cfg : Config)
    (C : List (Nat × Instant) → Pool (Shared × Instant) Task → Nat → Task →
      Act (timedClient geo).Op Task → Prop)
    (p : Pool (Shared × Instant) Task) (log : List (Nat × Instant))
    (h : (timedClient geo).Tallied (StartedAt cfg) C (eventGate geo).note [] p log) :
    EventsRated p log := by
  have hspaces := (eventGate geo).gate_spaced (StartedAt cfg) C p log h
  have hheld : EventsHeld p log := by
    refine (timedClient geo).tallied_inv (StartedAt cfg) C (eventGate geo).note []
      (fun _ => True) (fun _ _ => trivial) EventsHeld ?_ ?_ ?_ p log h
    -- At the start there is the first dial and nothing else.
    · intro p hp
      rcases started_pool cfg ⟨p.shared.1, p.tasks⟩ ⟨p.shared.2, hp⟩ with ⟨now, hpool⟩
      have hshared := congrArg Pool.shared hpool
      have htasks := congrArg Pool.tasks hpool
      dsimp only at hshared htasks
      refine ⟨?_, by rintro x ⟨⟩, List.nodup_nil, ?_, ?_, ?_⟩
      · intro i t ht hwhich
        rw [htasks] at ht
        rw [List.mem_singleton.mp (List.mem_of_getElem? ht)] at hwhich
        rcases hwhich with hsends | hanswer
        · cases hsends
        · cases hanswer
      · rw [hshared, htasks]
        exact Nat.le_refl 0
      · intro i payload ticket ht
        rw [htasks] at ht
        cases List.mem_singleton.mp (List.mem_of_getElem? ht)
      · intro k uid payload ts ticket hsent
        rw [hshared] at hsent
        cases k <;> cases hsent
    · exact fun p i c t a log ht ha _ _ hI => step_eventsHeld geo p i c t a log ht ha hI
    -- A call that comes in has neither taken a turn nor sent anything.
    · intro p t log hent _ hI
      have hcall := ((entry_iff geo p.shared.1 t).mp hent).2
      refine ⟨?_, ?_, hI.once, ?_, ?_, hI.wires⟩
      · intro i u hu hwhich
        rcases Machine.entered_get_cases p.tasks t u i hu with hold | rfl
        · exact hI.logged i u hold hwhich
        · rcases hwhich with hsends | rfl
          · cases u with
            | sendEvent pc =>
                cases pc with
                | send payload ticket => cases hcall
                | start payload => cases hsends
            | _ => cases hsends
          · cases hcall
      · intro x hx
        rcases hI.past x hx with ⟨u, hu, hpast⟩
        exact ⟨u, Machine.entered_get_old p.tasks t u x.1 hu, hpast⟩
      · have hnone : t.sendsEvent = false := by
          cases t with
          | sendEvent pc =>
              cases pc with
              | send payload ticket => cases hcall
              | start payload => rfl
          | _ => rfl
        rw [List.countP_append, List.countP_singleton, hnone]
        exact hI.count
      · intro i payload ticket hu
        rcases Machine.entered_get_cases p.tasks t _ i hu with hold | rfl
        · exact hI.short i payload ticket hold
        · cases hcall
  refine ⟨hspaces.apart, fun start n => ?_, hheld.once,
    fun i hi => hheld.logged i _ hi (Or.inr rfl),
    Nat.le_trans (Nat.le_add_right _ _) hheld.count, hheld.wires⟩
  -- Times that are an interval apart, in a window of `n` intervals.
  rw [← List.length_map (·.2)]
  refine spaced_length minEventInterval (by decide) _ ?_ start n fun at' hat => ?_
  · exact (List.pairwise_map.mpr hspaces.apart).sublist (List.filter_sublist.map _)
  · rcases List.mem_map.mp hat with ⟨x, hx, rfl⟩
    exact of_decide_eq_true (List.mem_filter.mp hx).2

/-- An event on a live track, and another one a nanosecond too early. -/
def eventCalls : List (Label Task (Input × Instant)) :=
  tracking.map (Label.stamped 0) ++
    [.spawn (.sendEvent (.start [1])), .resume 4 (.clock 5 0, 5), .resume 4 (.clock 5 0, 5),
      .spawn (.sendEvent (.start [2])), .resume 5 (.clock 1000000004 0, 1000000004)]

/-- The first is accepted and the second is not. -/
theorem reach_eventsRated_refused :
    ∃ p log, EventsRated p log ∧ log = [(4, 5)] ∧
      p.tasks[4]? = some (.returned (.sendEvent (.ok true))) ∧
      p.tasks[5]? = some (.returned (.sendEvent (.ok false))) := by
  rcases (timedClient flatGeo).exists_tallied (StartedAt someConfig) (fun _ _ _ _ _ => True)
    (eventGate flatGeo).note [] (fun _ _ _ _ _ => true) (fun _ _ _ _ _ _ => trivial) eventCalls
    ⟨(fresh.shared, 0), fresh.tasks⟩ rfl
    (fun p log => decide (log = [(4, 5)] ∧
      p.tasks[4]? = some (Task.returned (.sendEvent (.ok true))) ∧
      p.tasks[5]? = some (Task.returned (.sendEvent (.ok false)))))
    (by decide +kernel) with ⟨p, log, hp, hrun⟩
  exact ⟨p, log, reach_eventsRated flatGeo someConfig _ p log hp, of_decide_eq_true hrun⟩

end Tracking

end Pickpoint
