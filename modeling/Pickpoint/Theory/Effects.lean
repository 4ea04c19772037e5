import Pickpoint.Core.Tasks

/-!
# Effects of the Sections

What a section leaves alone, and what it puts on a wire.

The helpers of `Core.Shared` each touch one part of the shared state; the
first lemmas say so and are what `simp` uses below to see through them. The
rest is about the sockets. A section adds at most one entry to at most one
wire: it either dispatches an event from a socket (`Section.hears`) or hands a
message to the current one (`Section.hands`). `run_wire` is that inversion,
and every later statement about a wire goes through it.

## Main definitions

* `Shared.gens`, `Shared.wire`, `Shared.writing`: What is known of each socket.
* `Section.hears`: The event a section dispatches.
* `Section.hands`: The message a section tries to hand over.
* `SocketStep`: What a section may do to the sockets.
* `Settings`, `Section.setsUp`: What outlives a track, and who writes it.
* `Section.standsBy`: The sections that answer nobody.

## Theorems

* `wire_logTraffic`: One entry more on one wire.
* `run_settings`: Most sections leave the settings alone.
* `run_standsBy`: The sections that answer nobody.
* `run_sockets`: What a section does to the sockets.
* `run_wire`: What a section does to a wire.
* `run_wire_mem`: Nothing leaves a wire.
* `run_writing`: Channels only close.
* `run_hears`: A dispatched event is on its wire.
* `sendBin_cases`, `dialInstall_cases`, `socketClosed_cases`, `dispatchError_inner`,
  `publishStart_cases`, `publishWork_cases`, `flush_cases`, `sendEvent_cases`:
  What the branching sections do.
-/

namespace Pickpoint

namespace Tracking

namespace Shared

/-- The generations of the sockets, oldest first. -/
def gens (s : Shared) : List Nat := s.sockets.map (·.gen)

/-- The wire of a socket. -/
def wire (s : Shared) (k : Nat) : List Traffic := ((s.sockets[k]?).map (·.wire)).getD []

/-- Whether a socket's outbound channel is open. -/
def writing (s : Shared) (k : Nat) : Bool := ((s.sockets[k]?).map (·.writing)).getD false

/-! ## What the helpers leave alone -/

@[simp] theorem dropCell_frame (s : Shared) (c : Option Nat) :
    (s.dropCell c).inner = s.inner ∧ (s.dropCell c).sockets = s.sockets ∧
      (s.dropCell c).recvq = s.recvq ∧ (s.dropCell c).cmdq = s.cmdq ∧
      (s.dropCell c).connected = s.connected ∧ (s.dropCell c).built = s.built ∧
      (s.dropCell c).epoch = s.epoch := by
  unfold dropCell
  split
  · exact ⟨rfl, rfl, rfl, rfl, rfl, rfl, rfl⟩
  · split <;> exact ⟨rfl, rfl, rfl, rfl, rfl, rfl, rfl⟩

@[simp] theorem newCell_frame (s : Shared) :
    s.newCell.1.inner = s.inner ∧ s.newCell.1.sockets = s.sockets ∧
      s.newCell.1.recvq = s.recvq ∧ s.newCell.1.cmdq = s.cmdq ∧
      s.newCell.1.connected = s.connected ∧ s.newCell.1.built = s.built ∧
      s.newCell.1.epoch = s.epoch :=
  ⟨rfl, rfl, rfl, rfl, rfl, rfl, rfl⟩

@[simp] theorem resolve_frame (s : Shared) (c : Option Nat) (r : Except Error Reply) :
    (s.resolve c r).inner = s.inner ∧ (s.resolve c r).sockets = s.sockets ∧
      (s.resolve c r).recvq = s.recvq ∧ (s.resolve c r).cmdq = s.cmdq ∧
      (s.resolve c r).connected = s.connected ∧ (s.resolve c r).built = s.built ∧
      (s.resolve c r).epoch = s.epoch := by
  unfold resolve
  split
  · exact ⟨rfl, rfl, rfl, rfl, rfl, rfl, rfl⟩
  · split <;> exact ⟨rfl, rfl, rfl, rfl, rfl, rfl, rfl⟩

@[simp] theorem logTraffic_frame (s : Shared) (k : Nat) (t : Traffic) :
    (s.logTraffic k t).inner = s.inner ∧ (s.logTraffic k t).cells = s.cells ∧
      (s.logTraffic k t).recvq = s.recvq ∧ (s.logTraffic k t).cmdq = s.cmdq ∧
      (s.logTraffic k t).connected = s.connected ∧ (s.logTraffic k t).built = s.built ∧
      (s.logTraffic k t).epoch = s.epoch :=
  ⟨rfl, rfl, rfl, rfl, rfl, rfl, rfl⟩

@[simp] theorem rejectPending_frame (s : Shared) (e : Error) :
    (s.rejectPending e).inner =
        { s.inner with startWait := none, stopWait := none, resumeWait := none } ∧
      (s.rejectPending e).sockets = s.sockets ∧ (s.rejectPending e).connected = s.connected ∧
      (s.rejectPending e).built = s.built ∧ (s.rejectPending e).epoch = s.epoch := by
  simp only [rejectPending, resolve_frame, and_self]

/-- Handing a message over is logging it, or impossible. -/
theorem handOver_eq (s : Shared) (k : Nat) (out : Outbound) (ticket : Option Ticket) :
    s.handOver k out ticket =
      if s.writing k then some (s.logTraffic k (.sent out ticket)) else none := by
  unfold handOver writing
  rcases s.sockets[k]? with _ | sock <;> rfl

@[simp] theorem hangUp_frame (s : Shared) :
    s.hangUp.inner = { s.inner with outTx := none } ∧ s.hangUp.connected = s.connected ∧
      s.hangUp.built = s.built ∧ s.hangUp.epoch = s.epoch := by
  unfold hangUp
  rcases s.inner.outTx with _ | k
  · exact ⟨rfl, rfl, rfl, rfl⟩
  · simp only [handOver_eq]
    split <;> exact ⟨rfl, rfl, rfl, rfl⟩

/-- Hanging up logs a `Close` on the current socket, if it has one. -/
theorem hangUp_sockets (s : Shared) :
    s.hangUp.sockets = s.sockets ∨
      ∃ k, s.inner.outTx = some k ∧ s.writing k = true ∧
        s.hangUp.sockets = (s.logTraffic k (.sent .close none)).sockets := by
  unfold hangUp
  rcases s.inner.outTx with _ | k
  · exact Or.inl rfl
  · by_cases h : s.writing k = true
    · refine Or.inr ⟨k, rfl, h, ?_⟩
      have h' : ({ s with inner := { s.inner with outTx := none } } : Shared).writing k = true := h
      simp only [handOver_eq, if_pos h', Option.getD_some]
      rfl
    · refine Or.inl ?_
      have h' : ¬ ({ s with inner := { s.inner with outTx := none } } : Shared).writing k = true :=
        h
      simp only [handOver_eq, if_neg h', Option.getD_none]

/-! ## Sockets -/

theorem logTraffic_sockets (s : Shared) (k : Nat) (t : Traffic) :
    (s.logTraffic k t).sockets =
      s.sockets.modify k fun sock => { sock with wire := t :: sock.wire } := rfl

theorem gens_logTraffic (s : Shared) (k : Nat) (t : Traffic) :
    (s.logTraffic k t).gens = s.gens := by
  refine List.ext_getElem? fun i => ?_
  simp only [gens, logTraffic, List.getElem?_map, List.getElem?_modify]
  rcases s.sockets[i]? with _ | sock
  · rfl
  · by_cases hk : k = i
    · simp only [if_pos hk, Option.map_eq_map, Option.map_some]
    · simp only [if_neg hk, Option.map_eq_map, Option.map_some]

theorem wire_logTraffic (s : Shared) (k i : Nat) (t : Traffic) :
    (s.logTraffic k t).wire i =
      if k = i ∧ i < s.sockets.length then t :: s.wire i else s.wire i := by
  simp only [wire, logTraffic, List.getElem?_modify]
  rcases hs : s.sockets[i]? with _ | sock
  · rw [if_neg fun h => absurd (List.getElem?_eq_none_iff.mp hs) (Nat.not_le_of_lt h.2)]
    rfl
  · have hi : i < s.sockets.length := (List.getElem?_eq_some_iff.mp hs).1
    by_cases hk : k = i
    · rw [if_pos ⟨hk, hi⟩]
      simp only [if_pos hk, Option.map_eq_map, Option.map_some, Option.getD_some]
    · rw [if_neg fun h => hk h.1]
      simp only [if_neg hk, Option.map_eq_map, Option.map_some, Option.getD_some]

theorem writing_lt (s : Shared) (k : Nat) (h : s.writing k = true) : k < s.sockets.length := by
  by_contra hk
  rw [writing, List.getElem?_eq_none (Nat.le_of_not_lt hk)] at h
  cases h

/-- A message on an open channel is the newest entry of its wire. -/
theorem wire_logTraffic_writing (s : Shared) (k : Nat) (t : Traffic) (h : s.writing k = true) :
    (s.logTraffic k t).wire k = t :: s.wire k := by
  rw [wire_logTraffic, if_pos ⟨rfl, s.writing_lt k h⟩]

theorem wire_length (s : Shared) : s.wire s.sockets.length = [] := by
  rw [wire, List.getElem?_eq_none (Nat.le_refl _)]
  rfl

theorem writing_logTraffic (s : Shared) (k i : Nat) (t : Traffic) :
    (s.logTraffic k t).writing i = s.writing i := by
  simp only [writing, logTraffic, List.getElem?_modify]
  rcases s.sockets[i]? with _ | sock
  · rfl
  · by_cases hk : k = i
    · simp only [if_pos hk, Option.map_eq_map, Option.map_some, Option.getD_some]
    · simp only [if_neg hk, Option.map_eq_map, Option.map_some, Option.getD_some]

/-- Hanging up on an open channel puts a `Close` on its wire. -/
theorem hangUp_wire (s : Shared) (k : Nat) (hk : s.inner.outTx = some k)
    (hw : s.writing k = true) : s.hangUp.wire k = .sent .close none :: s.wire k := by
  have hw' : ({ s with inner := { s.inner with outTx := none } } : Shared).writing k = true := hw
  simp only [hangUp, hk, handOver_eq, if_pos hw', Option.getD_some]
  exact wire_logTraffic_writing _ k _ hw'

/-- The observations of the sockets depend on nothing else. -/
theorem socket_congr (s s' : Shared) (h : s'.sockets = s.sockets) :
    s'.gens = s.gens ∧ s'.wire = s.wire ∧ s'.writing = s.writing := by
  unfold gens wire writing
  rw [h]
  exact ⟨rfl, rfl, rfl⟩

end Shared

/-! ## What the sections put on a wire -/

/-- The event a section dispatches, and the socket it came from. -/
def Section.hears : {α : Type} → Section α → Option (Nat × ServerEvt)
  | _, .receive sock evt => some (sock, evt)
  | _, .dispatchResumeOk sock uid seq => some (sock, .resumeOk uid seq)
  | _, .dispatchTrackStarted sock uid metadata => some (sock, .trackStarted uid metadata)
  | _, .dispatchTrackStopped sock uid => some (sock, .trackStopped uid)
  | _, .dispatchAck sock seq => some (sock, .ack seq)
  | _, .dispatchError sock e => some (sock, .error e.code e.message e.trackUid e.retryAfterMs)
  | _, .dispatchSubscribed sock evt _ _ => some (sock, evt)
  | _, .dispatchStamp sock evt _ => some (sock, evt)
  | _, .dispatchCommand sock c => some (sock, .command c.commandId c.payload c.timestampMs)
  | _, _ => none

/-- The message a section tries to hand to the current socket. -/
def Section.hands : {α : Type} → Section α → Option (Outbound × Option Ticket)
  | _, .sendBin frame ticket => some (.bin frame, ticket)
  | _, .authClose => some (.close, none)
  | _, .authRefreshed _ _ => some (.close, none)
  | _, .closeFinal => some (.close, none)
  | _, _ => none

/-- How `send_bin` ends: refused, or with the frame on the current wire. -/
theorem sendBin_cases (frame : Frame) (ticket : Option Ticket) (s : Shared) :
    (∃ e, sendBin frame ticket s = (s, .error e)) ∨
      ∃ k, s.inner.outTx = some k ∧ s.writing k = true ∧
        sendBin frame ticket s = (s.logTraffic k (.sent (.bin frame) ticket), .ok ()) := by
  unfold sendBin
  split
  · exact Or.inl ⟨_, rfl⟩
  · rcases hk : s.inner.outTx with _ | k
    · exact Or.inl ⟨_, rfl⟩
    · simp only [Shared.handOver_eq]
      by_cases h : s.writing k = true
      · exact Or.inr ⟨k, rfl, h, by rw [if_pos h]⟩
      · exact Or.inl ⟨_, by rw [if_neg h]⟩

/-- `send_bin` on an open socket. -/
theorem sendBin_open (frame : Frame) (ticket : Option Ticket) (s : Shared) (k : Nat)
    (hopen : ¬ (s.inner.state = .closed ∧ s.inner.intentional = true))
    (hk : s.inner.outTx = some k) (hw : s.writing k = true) :
    sendBin frame ticket s = (s.logTraffic k (.sent (.bin frame) ticket), .ok ()) := by
  simp only [sendBin, if_neg hopen, hk, Shared.handOver_eq, if_pos hw]

/-- What a section may do to the sockets: nothing, log an event it dispatched or
    a message it handed over, open a new socket, or close a channel. -/
inductive SocketStep (s : Shared) : {α : Type} → Section α → List Socket → Prop where
  | same {α : Type} (op : Section α) (hquiet : op.hears = none) : SocketStep s op s.sockets
  | heard {α : Type} (op : Section α) (sock : Nat) (evt : ServerEvt)
      (hop : op.hears = some (sock, evt)) :
      SocketStep s op (s.logTraffic sock (.got evt)).sockets
  | handed {α : Type} (op : Section α) (k : Nat) (out : Outbound) (ticket : Option Ticket)
      (hop : op.hands = some (out, ticket)) (hk : s.inner.outTx = some k)
      (hw : s.writing k = true) : SocketStep s op (s.logTraffic k (.sent out ticket)).sockets
  | opened (gen : Nat) (hgen : gen = s.inner.dialGen) (hint : s.inner.intentional = false) :
      SocketStep s (.dialInstall gen) (s.sockets ++ [{ gen := gen, writing := true, wire := [] }])
  | stopped (sock : Nat) :
      SocketStep s (.writerStop sock)
        (s.sockets.modify sock fun k => { k with writing := false })

theorem hangUp_socketStep {α : Type} (s s' : Shared) (op : Section α) (hears : op.hears = none)
    (hop : op.hands = some (.close, none)) (hs : s'.sockets = s.sockets)
    (hout : s'.inner.outTx = s.inner.outTx) : SocketStep s op s'.hangUp.sockets := by
  rcases s'.hangUp_sockets with h | ⟨k, hk, hw, h⟩
  · rw [h, hs]
    exact .same op hears
  · rw [h, Shared.logTraffic_sockets, hs, ← Shared.logTraffic_sockets]
    rw [(Shared.socket_congr s s' hs).2.2] at hw
    exact .handed op k .close none hop (hout ▸ hk) hw

@[simp] theorem errorResume_frame (e : Error) (s : Shared) :
    (errorResume e s).sockets = s.sockets ∧ (errorResume e s).connected = s.connected ∧
      (errorResume e s).built = s.built ∧ (errorResume e s).epoch = s.epoch := by
  by_cases h : s.inner.resumeWait.isSome = true
  · simp only [errorResume, if_pos h, Shared.resolve_frame, and_self]
  · simp only [errorResume, if_neg h, and_self]

@[simp] theorem errorStart_frame (e : Error) (s : Shared) :
    (errorStart e s).sockets = s.sockets ∧ (errorStart e s).connected = s.connected ∧
      (errorStart e s).built = s.built ∧ (errorStart e s).epoch = s.epoch := by
  by_cases h : s.inner.startWait.isSome = true
  · simp only [errorStart, if_pos h, Shared.resolve_frame, and_self]
  · simp only [errorStart, if_neg h, and_self]

@[simp] theorem errorTrackNotFound_frame (e : Error) (s : Shared) :
    (errorTrackNotFound e s).sockets = s.sockets ∧
      (errorTrackNotFound e s).connected = s.connected ∧
      (errorTrackNotFound e s).built = s.built ∧ (errorTrackNotFound e s).epoch = s.epoch := by
  unfold errorTrackNotFound
  split <;> exact ⟨rfl, rfl, rfl, rfl⟩

@[simp] theorem dispatchError_frame (sock : Nat) (e : Error) (s : Shared) :
    (dispatchError sock e s).sockets =
        (s.receive sock (.error e.code e.message e.trackUid e.retryAfterMs)).sockets ∧
      (dispatchError sock e s).connected = s.connected ∧
      (dispatchError sock e s).built = s.built ∧ (dispatchError sock e s).epoch = s.epoch := by
  simp only [dispatchError, errorStop, errorTrackNotFound_frame, Shared.resolve_frame,
    errorStart_frame, errorResume_frame, Shared.receive, Shared.logTraffic_frame, and_self]

/-! ## Branching sections -/

/-- An install is refused, or makes the new socket current. -/
theorem dialInstall_cases (gen : Nat) (s : Shared) :
    ((gen ≠ s.inner.dialGen ∨ s.inner.intentional = true) ∧
      dialInstall gen s = (s, .error (newError .invalid "dial superseded"))) ∨
      (gen = s.inner.dialGen ∧ s.inner.intentional = false ∧
        dialInstall gen s =
          ({ s with
              inner :=
                { s.inner with
                  outTx := some s.sockets.length, state := .open
                  backoff := resetBackoff s.inner.backoff }
              sockets := s.sockets ++ [{ gen := gen, writing := true, wire := [] }] },
            .ok s.sockets.length)) := by
  -- The check that a later dial or a `close` makes fail.
  by_cases h : gen ≠ s.inner.dialGen ∨ s.inner.intentional = true
  · exact Or.inl ⟨h, by simp only [dialInstall, if_pos h]⟩
  · refine Or.inr ?_
    rw [dialInstall, if_neg h]
    simp only [not_or, not_not, Bool.not_eq_true] at h
    exact ⟨h.1, h.2, rfl⟩

/-- `on_socket_closed` runs for the current generation only. -/
theorem socketClosed_cases (gen : Nat) (random : ℚ) (s : Shared) :
    (gen ≠ s.inner.dialGen ∧ socketClosed gen random s = (s, none)) ∨
      (gen = s.inner.dialGen ∧ ∃ state backoff start stop resume,
        (state = .closed ∨ state = .reconnecting) ∧
        (s.inner.intentional = true → state = .closed) ∧
        (socketClosed gen random s).1.inner =
          { s.inner with
            outTx := none, sessionReady := false, queue := s.inner.queue.markUnsent
            subByDevice := fun _ => none, deviceBySub := fun _ => none
            state := state, backoff := backoff
            startWait := start, stopWait := stop, resumeWait := resume } ∧
        (socketClosed gen random s).1.sockets = s.sockets ∧
        (socketClosed gen random s).1.connected = s.connected ∧
        (socketClosed gen random s).1.built = s.built ∧
        (socketClosed gen random s).1.epoch = s.epoch) := by
  -- Superseded, closed by the caller, retries off, given up, or another attempt.
  by_cases hgen : gen = s.inner.dialGen
  · refine Or.inr ⟨hgen, ?_⟩
    simp only [socketClosed, hgen, ne_eq, not_true_eq_false, if_false]
    by_cases hint : s.inner.intentional = true
    · simp only [if_pos hint]
      exact ⟨_, _, _, _, _, Or.inl rfl, fun _ => rfl, rfl, by trivial⟩
    · simp only [if_neg hint]
      by_cases hdis : s.inner.cfg.disableReconnect = true
      · simp only [if_pos hdis, Shared.rejectPending_frame]
        exact ⟨_, _, _, _, _, Or.inl rfl, fun _ => rfl, rfl, by trivial⟩
      · simp only [if_neg hdis]
        rcases nextDelay s.inner.backoff random with _ | ⟨delay, backoff⟩
        · simp only [Shared.rejectPending_frame]
          exact ⟨_, _, _, _, _, Or.inl rfl, fun _ => rfl, rfl, by trivial⟩
        · exact ⟨_, _, _, _, _, Or.inr rfl, fun h => absurd h hint, rfl, rfl, rfl, rfl, rfl⟩
  · refine Or.inl ⟨hgen, ?_⟩
    simp only [socketClosed, ne_eq, hgen, not_false_eq_true, if_true]

@[simp] theorem startTrack_frame (wall : Int) (loc : Option LatLng) (s : Shared) :
    (startTrack wall loc s).1.sockets = s.sockets ∧
      (startTrack wall loc s).1.connected = s.connected ∧
      (startTrack wall loc s).1.built = s.built ∧
      (startTrack wall loc s).1.epoch = s.epoch + 1 := by
  simp only [startTrack, Shared.newCell_frame, Shared.dropCell_frame, and_self]

@[simp] theorem resumeTrack_frame (uid : String) (seq : Nat) (s : Shared) :
    (resumeTrack uid seq s).1.sockets = s.sockets ∧
      (resumeTrack uid seq s).1.connected = s.connected ∧
      (resumeTrack uid seq s).1.built = s.built ∧
      (resumeTrack uid seq s).1.epoch = s.epoch + 1 := by
  simp only [resumeTrack, Shared.newCell_frame, Shared.dropCell_frame, and_self]

@[simp] theorem resumeLock_frame (s : Shared) :
    (resumeLock s).1.sockets = s.sockets ∧ (resumeLock s).1.connected = s.connected ∧
      (resumeLock s).1.built = s.built ∧ (resumeLock s).1.epoch = s.epoch := by
  by_cases h : s.inner.trackUid = ""
  · simp only [resumeLock, if_pos h, and_self]
  · simp only [resumeLock, if_neg h, Shared.newCell_frame, Shared.dropCell_frame, and_self]

/-- `send_resume_and_wait` sets up nothing but its waiter. -/
theorem resumeLock_inner (s : Shared) :
    ∃ wait, (resumeLock s).1.inner = { s.inner with resumeWait := wait } := by
  by_cases h : s.inner.trackUid = ""
  · exact ⟨_, by simp only [resumeLock, if_pos h]; rfl⟩
  · exact ⟨_, by
      simp only [resumeLock, if_neg h, Shared.newCell_frame, Shared.dropCell_frame]
      rfl⟩

/-- `publish` starts a track when there is none and none is being started. -/
theorem publishStart_cases (wall : Int) (point : LatLng) (s : Shared) :
    ((s.inner.trackUid = "" ∧ s.inner.starting = false) ∧
      publishStart wall point s =
        ({ s with
            inner :=
              { s.inner with
                starting := true, queue := s.inner.queue.clear, lastAssignedSeq := 0
                lastAckedSeq := 0, sessionReady := false
                filter := s.inner.filter.reset.seed (stampLatLng wall point) }
            epoch := s.epoch + 1 },
          some (stampLatLng wall point))) ∨
      (¬ (s.inner.trackUid = "" ∧ s.inner.starting = false) ∧
        publishStart wall point s = (s, none)) := by
  -- It starts a track when there is none and none is on its way.
  by_cases h : s.inner.trackUid = "" ∧ s.inner.starting = false
  · refine Or.inl ⟨h, ?_⟩
    simp only [publishStart, h.1, h.2, Bool.false_eq_true, not_false_eq_true, and_self, if_true]
  · refine Or.inr ⟨h, ?_⟩
    simp only [publishStart, Bool.not_eq_true, if_neg h]

/-- Whether `publish` accepts the sample, emits a point and sends it right
    away. -/
def goesLive (geo : Geo) (now : Instant) (wall : Int) (point : LatLng) (g : Inner) : Bool :=
  canAcceptPublish g.nextPublishAt now 1 &&
    (g.filter.push geo wall (stampLatLng wall point)).2.isSome && publishOpen g

theorem goesLive_open (geo : Geo) (now : Instant) (wall : Int) (point : LatLng) (g : Inner)
    (h : goesLive geo now wall point g = true) : publishOpen g = true :=
  (Bool.and_eq_true_iff.mp h).2

/-- The working block of `publish` refuses the point, holds it back, stages
    it, or sends it. -/
theorem publishWork_cases (geo : Geo) (now : Instant) (wall : Int) (point : LatLng)
    (s : Shared) :
    publishWork geo now wall point s = (s, .returned s.inner.lastAssignedSeq false) ∨
      ∃ at' filter,
        publishWork geo now wall point s =
            ({ s with inner := { s.inner with nextPublishAt := at', filter := filter } },
              .returned s.inner.lastAssignedSeq true) ∨
          ∃ emitted,
            (publishOpen s.inner = false ∧
              publishWork geo now wall point s =
                ({ s with inner :=
                    { s.inner with
                      nextPublishAt := at', filter := filter
                      queue := s.inner.queue.pushStaging geo emitted } },
                  .returned s.inner.lastAssignedSeq true)) ∨
            (goesLive geo now wall point s.inner = true ∧
              publishWork geo now wall point s =
                publishLive geo emitted
                  { s with inner := { s.inner with nextPublishAt := at', filter := filter } }) := by
  -- Held back by the rate, held back by the filter, staged, or sent live.
  by_cases hrate : canAcceptPublish s.inner.nextPublishAt now 1 = true
  · refine Or.inr ⟨nextPublishAllowedAt s.inner.nextPublishAt now 1,
      (s.inner.filter.push geo wall (stampLatLng wall point)).1, ?_⟩
    rcases hpush : s.inner.filter.push geo wall (stampLatLng wall point) with ⟨f, _ | emitted⟩
    · refine Or.inl ?_
      simp only [publishWork, hrate, hpush, Bool.not_true, Bool.false_eq_true, if_false]
    · refine Or.inr ⟨emitted, ?_⟩
      by_cases hopen : publishOpen s.inner = true
      · refine Or.inr ⟨by simp only [goesLive, hrate, hpush, hopen, Option.isSome_some,
          Bool.and_true], ?_⟩
        have hopen' : publishOpen { s.inner with
            nextPublishAt := nextPublishAllowedAt s.inner.nextPublishAt now 1,
            filter := f } = true := hopen
        simp only [publishWork, hrate, hpush, hopen', Bool.not_true, Bool.false_eq_true, if_false]
      · have hopen' : publishOpen { s.inner with
            nextPublishAt := nextPublishAllowedAt s.inner.nextPublishAt now 1,
            filter := f } = false := Bool.not_eq_true _ ▸ hopen
        refine Or.inl ⟨Bool.not_eq_true _ ▸ hopen, ?_⟩
        simp only [publishWork, hrate, hpush, hopen', Bool.not_true, Bool.not_false,
          Bool.false_eq_true, if_false, if_true]
  · refine Or.inl ?_
    simp only [publishWork, hrate, Bool.not_false, if_true]

/-- Numbering points changes the queue and the last number. -/
theorem flushPoints_inner (g : Inner) :
    ∃ queue last, (flushPoints g).1 = { g with queue := queue, lastAssignedSeq := last } := by
  by_cases h : g.queue.unsentInflight ≠ []
  · exact ⟨g.queue, g.lastAssignedSeq, by simp only [flushPoints, if_pos h]⟩
  · exact ⟨_, _, by simp only [flushPoints, if_neg h]; rfl⟩

/-- A round of `flush_queue` does nothing, or records and builds frames. -/
theorem flush_cases (s : Shared) :
    flush s = (s, s.ticket, []) ∨
      (flushReady s.inner = true ∧ ∃ last, (flushPoints s.inner).2.getLast? = some last ∧
        flush s =
          ({ s with
              inner := { (flushPoints s.inner).1 with
                queue := (recordFrames s.inner.queue.windowRemaining (flushPoints s.inner).1.queue
                  (splitLocFrames last.seq ((flushPoints s.inner).2.map (·.point)))).1 }
              built := s.built ++ Shared.carry s.ticket (flushPoints s.inner).2
                (recordFrames s.inner.queue.windowRemaining (flushPoints s.inner).1.queue
                  (splitLocFrames last.seq ((flushPoints s.inner).2.map (·.point)))).2 },
            s.ticket,
            (recordFrames s.inner.queue.windowRemaining (flushPoints s.inner).1.queue
              (splitLocFrames last.seq ((flushPoints s.inner).2.map (·.point)))).2)) := by
  by_cases hready : flushReady s.inner = true
  -- Ready, but with nothing to take.
  · rcases hlast : (flushPoints s.inner).2.getLast? with _ | last
    · refine Or.inl ?_
      simp only [flush, hready, hlast, Bool.not_true, Bool.false_eq_true, if_false]
    · refine Or.inr ⟨hready, last, rfl, ?_⟩
      simp only [flush, hready, hlast, Bool.not_true, Bool.false_eq_true, if_false]
  · refine Or.inl ?_
    simp only [flush, hready, Bool.not_false, if_true]

/-- `send_event` answers right away, or has an event to send. -/
theorem sendEvent_cases (now : Instant) (s : Shared) :
    ∃ at', (sendEvent now s).1 = { s with inner := { s.inner with nextEventAt := at' } } ∧
      ((∃ r, (sendEvent now s).2 = .inl r) ∨
        (s.inner.sessionReady = true ∧ s.inner.outTx.isSome = true ∧
          (sendEvent now s).2 = .inr s.ticket)) := by
  -- The three checks in the order of the source: the track, the rate, the socket.
  by_cases hready : s.inner.trackUid = "" ∨ ¬ s.inner.sessionReady = true
  · exact ⟨s.inner.nextEventAt, by simp only [sendEvent, if_pos hready],
      Or.inl ⟨_, by simp only [sendEvent, if_pos hready]; rfl⟩⟩
  · by_cases hrate : now < s.inner.nextEventAt
    · exact ⟨s.inner.nextEventAt, by simp only [sendEvent, if_neg hready, if_pos hrate],
        Or.inl ⟨_, by simp only [sendEvent, if_neg hready, if_pos hrate]; rfl⟩⟩
    · simp only [sendEvent, if_neg hready, if_neg hrate]
      simp only [not_or, not_not] at hready
      by_cases hopen : s.inner.state = .open ∧ s.inner.outTx.isSome = true
      · simp only [if_pos hopen]
        exact ⟨_, rfl, Or.inr ⟨hready.2, hopen.2, trivial⟩⟩
      · simp only [if_neg hopen]
        exact ⟨_, rfl, Or.inl ⟨_, rfl⟩⟩

/-! ## What the sections do to the session -/

theorem relocateEndpoint_eq (endpoint : String) (s : Shared) :
    relocateEndpoint endpoint s =
      { s with inner :=
        { s.inner with cfg :=
          { s.inner.cfg with
            endpoint := if endpoint = "" then s.inner.cfg.endpoint else endpoint } } } := by
  by_cases h : endpoint = ""
  · simp only [relocateEndpoint, if_pos h]
  · simp only [relocateEndpoint, if_neg h]

@[simp] theorem dispatchCommand_frame (sock : Nat) (c : Command) (s : Shared) :
    (dispatchCommand sock c s).inner = s.inner ∧
      (dispatchCommand sock c s).connected = s.connected ∧
      (dispatchCommand sock c s).built = s.built ∧
      (dispatchCommand sock c s).epoch = s.epoch := by
  by_cases h : s.cmdq.length < Shared.cmdCapacity
  · simp only [dispatchCommand, Shared.receive, Shared.logTraffic_frame, if_pos h, and_self]
  · simp only [dispatchCommand, Shared.receive, Shared.logTraffic_frame, if_neg h, and_self]

@[simp] theorem settle_frame (cell : Option Nat) (r : Except Error Reply)
    (forward : Option ServerEvt) (s : Shared) :
    (settle cell r forward s).inner = s.inner ∧
      (settle cell r forward s).sockets = s.sockets ∧
      (settle cell r forward s).connected = s.connected ∧
      (settle cell r forward s).built = s.built ∧
      (settle cell r forward s).epoch = s.epoch := by
  rcases forward with _ | evt
  · simp only [settle, Shared.resolve_frame, and_self]
  · by_cases h : s.recvq.length < Shared.recvCapacity
    · simp only [settle, Shared.resolve_frame, if_pos h, and_self]
    · simp only [settle, Shared.resolve_frame, if_neg h, and_self]

@[simp] theorem sendBin_frame (frame : Frame) (ticket : Option Ticket) (s : Shared) :
    (sendBin frame ticket s).1.inner = s.inner ∧
      (sendBin frame ticket s).1.connected = s.connected ∧
      (sendBin frame ticket s).1.built = s.built ∧
      (sendBin frame ticket s).1.epoch = s.epoch := by
  rcases sendBin_cases frame ticket s with ⟨_, h⟩ | ⟨_, _, _, h⟩ <;>
    simp only [h, Shared.logTraffic_frame, and_self]

@[simp] theorem authClose_frame (s : Shared) :
    (authClose s).inner = { s.inner with intentional := true, state := .closed, outTx := none } ∧
      (authClose s).connected = s.connected ∧ (authClose s).built = s.built ∧
      (authClose s).epoch = s.epoch := by
  simp only [authClose, Shared.hangUp_frame, and_self]

/-- New credentials change the session's configuration in no other way. -/
theorem authRefreshed_frame (device : Option DeviceAuth) (listener : Option ListenerAuth)
    (s : Shared) :
    ∃ device' listener',
      (authRefreshed device listener s).1.inner =
          { s.inner with
            cfg := { s.inner.cfg with device := device', listener := listener' }
            dialGen := s.inner.dialGen + 1, sessionReady := false, outTx := none } ∧
        (authRefreshed device listener s).1.connected = s.connected ∧
        (authRefreshed device listener s).1.built = s.built ∧
        (authRefreshed device listener s).1.epoch = s.epoch := by
  rcases device with _ | d <;> rcases listener with _ | l <;>
    (simp only [authRefreshed, Shared.hangUp_frame]
     exact ⟨_, _, rfl, by trivial⟩)

@[simp] theorem closeFinal_frame (s : Shared) :
    (closeFinal s).inner =
        { s.inner with
          intentional := true, state := .closed, sessionReady := false, outTx := none
          startWait := none, stopWait := none, resumeWait := none } ∧
      (closeFinal s).connected = s.connected ∧ (closeFinal s).built = s.built ∧
      (closeFinal s).epoch = s.epoch := by
  simp only [closeFinal, Shared.hangUp_frame, Shared.rejectPending_frame, and_self]

theorem errorResume_inner (e : Error) (s : Shared) :
    ∃ uid queue ready filter,
      (errorResume e s).inner =
          { s.inner with
            trackUid := uid, queue := queue, sessionReady := ready, filter := filter
            resumeWait := none } ∧
        ((uid = s.inner.trackUid ∧ queue = s.inner.queue ∧ ready = s.inner.sessionReady) ∨
          (uid = "" ∧ queue = s.inner.queue.clear ∧ ready = false)) := by
  by_cases hwait : s.inner.resumeWait.isSome = true
  · simp only [errorResume, if_pos hwait, Shared.resolve_frame]
    -- Some codes end the track, others only the wait.
    by_cases hfatal : isFatalResumeError e.code = true
    · simp only [if_pos hfatal, Shared.dropTrack]
      exact ⟨_, _, _, _, rfl, Or.inr ⟨rfl, rfl, rfl⟩⟩
    · simp only [if_neg hfatal]
      exact ⟨_, _, _, _, rfl, Or.inl ⟨rfl, rfl, rfl⟩⟩
  · simp only [errorResume, if_neg hwait]
    refine ⟨_, _, _, s.inner.filter, ?_, Or.inl ⟨rfl, rfl, rfl⟩⟩
    rw [Bool.not_eq_true, Option.isSome_eq_false_iff, Option.isNone_iff_eq_none] at hwait
    rw [← hwait]

theorem errorStart_inner (e : Error) (s : Shared) :
    (errorStart e s).inner =
      { s.inner with
        starting := s.inner.starting && s.inner.startWait.isNone, startWait := none } := by
  rcases hwait : s.inner.startWait with _ | cell
  · simp only [errorStart, hwait, Option.isSome_none, Bool.false_eq_true, if_false,
      Option.isNone_none, Bool.and_true]
    rw [← hwait]
  · simp only [errorStart, hwait, Option.isSome_some, if_true, Shared.resolve_frame,
      Option.isNone_some, Bool.and_false]

theorem errorTrackNotFound_inner (e : Error) (s : Shared) (h : s.inner.resumeWait = none) :
    (errorTrackNotFound e s).inner =
      if e.code = .trackNotFound then { Shared.dropTrack s.inner with starting := false }
      else s.inner := by
  simp only [errorTrackNotFound, h, Option.isNone_none, and_true]
  split <;> rfl

/-- `Error` drops the track or leaves it alone, and keeps `starting` only when
    nobody waits for the start and the track exists. -/
theorem dispatchError_inner (sock : Nat) (e : Error) (s : Shared) :
    ∃ uid queue ready filter starting,
      (dispatchError sock e s).inner =
          { s.inner with
            trackUid := uid, queue := queue, sessionReady := ready, filter := filter
            starting := starting, startWait := none, stopWait := none, resumeWait := none } ∧
        ((uid = s.inner.trackUid ∧ queue = s.inner.queue ∧ ready = s.inner.sessionReady) ∨
          (uid = "" ∧ queue = s.inner.queue.clear ∧ ready = false)) ∧
        (starting = false ∨
          (starting = s.inner.starting ∧ s.inner.startWait = none ∧ e.code ≠ .trackNotFound)) := by
  -- The resume block first: it may drop the track.
  rcases errorResume_inner e
    (s.receive sock (.error e.code e.message e.trackUid e.retryAfterMs)) with
    ⟨uid, queue, ready, filter, hres, hcases⟩
  simp only [Shared.receive, Shared.logTraffic_frame] at hres hcases
  have hinner : (dispatchError sock e s).inner =
      (errorTrackNotFound e (errorStop e (errorStart e (errorResume e
        (s.receive sock (.error e.code e.message e.trackUid e.retryAfterMs)))))).inner := rfl
  rw [hinner, errorTrackNotFound_inner _ _ (by
    simp only [errorStop, Shared.resolve_frame, errorStart_inner, Shared.receive, hres])]
  -- A `TrackNotFound` drops the track in any case.
  by_cases hcode : e.code = .trackNotFound
  · rw [if_pos hcode]
    simp only [errorStop, Shared.resolve_frame, errorStart_inner, Shared.receive, hres,
      Shared.dropTrack]
    refine ⟨_, _, _, _, _, rfl, Or.inr ⟨rfl, ?_, rfl⟩, Or.inl rfl⟩
    rcases hcases with ⟨_, rfl, _⟩ | ⟨_, rfl, _⟩ <;> rfl
  · rw [if_neg hcode]
    simp only [errorStop, Shared.resolve_frame, errorStart_inner, Shared.receive, hres]
    refine ⟨_, _, _, _, _, rfl, hcases, ?_⟩
    rcases hwait : s.inner.startWait with _ | cell
    · exact Or.inr ⟨Bool.and_true _, rfl, hcode⟩
    · exact Or.inl (Bool.and_false _)

theorem startTrack_inner (wall : Int) (loc : Option LatLng) (s : Shared) :
    ∃ filter, (startTrack wall loc s).1.inner =
      { s.inner with
        startWait := some (startTrack wall loc s).2, starting := true
        queue := s.inner.queue.clear, lastAssignedSeq := 0, lastAckedSeq := 0
        sessionReady := false, filter := filter } := by
  simp only [startTrack, Shared.newCell_frame, Shared.dropCell_frame]
  exact ⟨_, rfl⟩

theorem resumeTrack_inner (uid : String) (seq : Nat) (s : Shared) :
    (resumeTrack uid seq s).1.inner =
      { s.inner with
        trackUid := uid, lastAssignedSeq := seq,
        resumeWait := some (resumeTrack uid seq s).2 } := by
  simp only [resumeTrack, Shared.newCell_frame, Shared.dropCell_frame]

@[simp] theorem startFailed_frame (s : Shared) :
    (startFailed s).inner = { s.inner with startWait := none, starting := false } ∧
      (startFailed s).sockets = s.sockets ∧ (startFailed s).connected = s.connected ∧
      (startFailed s).built = s.built ∧ (startFailed s).epoch = s.epoch := by
  simp only [startFailed, Shared.dropCell_frame, and_self]

@[simp] theorem resumeFailed_frame (s : Shared) :
    (resumeFailed s).inner = { s.inner with resumeWait := none } ∧
      (resumeFailed s).sockets = s.sockets ∧ (resumeFailed s).connected = s.connected ∧
      (resumeFailed s).built = s.built ∧ (resumeFailed s).epoch = s.epoch := by
  simp only [resumeFailed, Shared.dropCell_frame, and_self]

@[simp] theorem stopFailed_frame (s : Shared) :
    (stopFailed s).inner = { s.inner with stopWait := none } ∧
      (stopFailed s).sockets = s.sockets ∧ (stopFailed s).connected = s.connected ∧
      (stopFailed s).built = s.built ∧ (stopFailed s).epoch = s.epoch := by
  simp only [stopFailed, Shared.dropCell_frame, and_self]

@[simp] theorem stopTrack_frame (s : Shared) :
    (stopTrack s).1.inner = { s.inner with stopWait := some (stopTrack s).2 } ∧
      (stopTrack s).1.sockets = s.sockets ∧ (stopTrack s).1.connected = s.connected ∧
      (stopTrack s).1.built = s.built ∧ (stopTrack s).1.epoch = s.epoch := by
  simp only [stopTrack, Shared.newCell_frame, Shared.dropCell_frame, and_self]

/-! ## What outlives a track -/

/-- The part of a session that has nothing to do with its track: the options, the
    pacing of dials and of `publish`, and the subscriptions. -/
structure Settings where
  cfg : Config
  backoff : BackoffState
  nextPublishAt : Instant
  subscriptions : List String
  subByDevice : String → Option UInt8
  deviceBySub : UInt8 → Option String

def Inner.settings (g : Inner) : Settings where
  cfg := g.cfg
  backoff := g.backoff
  nextPublishAt := g.nextPublishAt
  subscriptions := g.subscriptions
  subByDevice := g.subByDevice
  deviceBySub := g.deviceBySub

/-- The sections that write settings. -/
def Section.setsUp : {α : Type} → Section α → Bool
  | _, .dialInstall _ => true
  | _, .relocateEndpoint _ => true
  | _, .authRefreshed _ _ => true
  | _, .socketClosed _ _ => true
  | _, .dispatchSubscribed .. => true
  | _, .resubscribe => true
  | _, .subscribe _ => true
  | _, .unsubscribe _ => true
  | _, .publishWork .. => true
  | _, _ => false

/-- The other sections leave them alone. -/
theorem run_settings (geo : Geo) {α : Type} (op : Section α) (s : Shared)
    (h : op.setsUp = false) : (op.run geo s).1.inner.settings = s.inner.settings := by
  cases op with
  -- Each of these writes fields of `Inner`, of which none is a setting.
  | dispatchError sock e =>
      rcases dispatchError_inner sock e s with ⟨_, _, _, _, _, hi, _⟩
      simp only [Section.run, hi]
      rfl
  | dispatchTrackStopped sock uid =>
      simp only [Section.run, dispatchTrackStopped]
      split <;> rfl
  | dispatchCommand sock c => simp only [Section.run, dispatchCommand_frame]
  | settle cell r forward => simp only [Section.run, settle_frame]
  | authClose =>
      simp only [Section.run, authClose_frame]
      rfl
  | closeFinal =>
      simp only [Section.run, closeFinal_frame]
      rfl
  | resumeLock =>
      rcases resumeLock_inner s with ⟨_, hi⟩
      simp only [Section.run, hi]
      rfl
  | flush =>
      rcases flush_cases s with hi | ⟨_, _, _, hi⟩
      · simp only [Section.run, hi]
      · rcases flushPoints_inner s.inner with ⟨_, _, hp⟩
        simp only [Section.run, hi, hp]
        rfl
  | sendBin frame ticket => simp only [Section.run, sendBin_frame]
  | startTrack wall loc =>
      rcases startTrack_inner wall loc s with ⟨_, hi⟩
      simp only [Section.run, hi]
      rfl
  | startFailed =>
      simp only [Section.run, startFailed_frame]
      rfl
  | resumeTrack uid seq =>
      simp only [Section.run, resumeTrack_inner]
      rfl
  | resumeFailed =>
      simp only [Section.run, resumeFailed_frame]
      rfl
  | publishStart wall point =>
      rcases publishStart_cases wall point s with ⟨_, hi⟩ | ⟨_, hi⟩
      · simp only [Section.run, hi]
        rfl
      · simp only [Section.run, hi]
  | stopTrack =>
      simp only [Section.run, stopTrack_frame]
      rfl
  | stopFailed =>
      simp only [Section.run, stopFailed_frame]
      rfl
  | sendEvent now =>
      rcases sendEvent_cases now s with ⟨_, hi, _⟩
      simp only [Section.run, hi]
      rfl
  | _ => first | rfl | cases h

/-! ## What callers see -/

/-- The sections of the connection, the queue and the gates that branch. -/
def Section.standsBy : {α : Type} → Section α → Bool
  | _, .dialInstall _ => true
  | _, .relocateEndpoint _ => true
  | _, .dispatchCommand _ _ => true
  | _, .flush => true
  | _, .sendBin _ _ => true
  | _, .publishStart _ _ => true
  | _, .publishWork .. => true
  | _, .sendEvent _ => true
  | _, _ => false

/-- They answer nobody: the cells, the event channel, the waiters and what
    `connect` returned stay. -/
theorem run_standsBy (geo : Geo) {α : Type} (op : Section α) (s : Shared)
    (h : op.standsBy = true) :
    (op.run geo s).1.cells = s.cells ∧ (op.run geo s).1.recvq = s.recvq ∧
      (op.run geo s).1.connected = s.connected ∧
      (op.run geo s).1.inner.startWait = s.inner.startWait ∧
      (op.run geo s).1.inner.stopWait = s.inner.stopWait ∧
      (op.run geo s).1.inner.resumeWait = s.inner.resumeWait := by
  cases op with
  -- Whichever way a section branches, it writes to none of these.
  | dialInstall gen =>
      rcases dialInstall_cases gen s with ⟨_, hi⟩ | ⟨_, _, hi⟩ <;>
        simp only [Section.run, hi, and_self]
  | relocateEndpoint endpoint => simp only [Section.run, relocateEndpoint_eq, and_self]
  | dispatchCommand sock c =>
      simp only [Section.run, dispatchCommand]
      split <;> exact ⟨rfl, rfl, rfl, rfl, rfl, rfl⟩
  | flush =>
      rcases flush_cases s with hi | ⟨_, _, _, hi⟩
      · simp only [Section.run, hi, and_self]
      · rcases flushPoints_inner s.inner with ⟨_, _, hp⟩
        simp only [Section.run, hi, hp, and_self]
  | sendBin frame ticket =>
      rcases sendBin_cases frame ticket s with ⟨_, hi⟩ | ⟨_, _, _, hi⟩ <;>
        simp only [Section.run, hi, Shared.logTraffic_frame, and_self]
  | publishStart wall point =>
      rcases publishStart_cases wall point s with ⟨_, hi⟩ | ⟨_, hi⟩ <;>
        simp only [Section.run, hi, and_self]
  | publishWork now wall point =>
      rcases publishWork_cases geo now wall point s with
        hi | ⟨_, _, hi | ⟨_, ⟨_, hi⟩ | ⟨_, hi⟩⟩⟩ <;>
        simp only [Section.run, hi, publishLive, and_self]
  | sendEvent now =>
      rcases sendEvent_cases now s with ⟨_, hi, _⟩
      simp only [Section.run, hi, and_self]
  | _ => cases h

/-! ## What the sections do to the sockets -/

theorem run_sockets (geo : Geo) {α : Type} (op : Section α) (s : Shared) :
    SocketStep s op (op.run geo s).1.sockets := by
  cases op with
  -- The only section that adds a socket.
  | dialInstall gen =>
      rcases dialInstall_cases gen s with ⟨_, h⟩ | ⟨hgen, hint, h⟩
      · simp only [Section.run, h]
        exact .same _ rfl
      · simp only [Section.run, h]
        exact .opened gen hgen hint
  -- The dispatchers log the event they were given.
  | receive sock evt => exact .heard _ sock evt rfl
  | dispatchResumeOk sock uid seq => exact .heard _ sock _ rfl
  | dispatchTrackStarted sock uid metadata => exact .heard _ sock _ rfl
  | dispatchTrackStopped sock uid => exact .heard _ sock _ rfl
  | dispatchAck sock seq => exact .heard _ sock _ rfl
  | dispatchError sock e =>
      simp only [Section.run, dispatchError_frame]
      exact .heard _ sock _ rfl
  | dispatchSubscribed sock evt sub uid => exact .heard _ sock evt rfl
  | dispatchStamp sock evt sub => exact .heard _ sock evt rfl
  | dispatchCommand sock c =>
      simp only [Section.run, dispatchCommand]
      split <;> exact .heard _ sock _ rfl
  -- A command, or a `Close`, goes to the current socket if its channel is open.
  | sendBin frame ticket =>
      rcases sendBin_cases frame ticket s with ⟨e, h⟩ | ⟨k, hk, hw, h⟩
      · simp only [Section.run, h]
        exact .same _ rfl
      · simp only [Section.run, h]
        exact .handed _ k (.bin frame) ticket rfl hk hw
  | authClose => exact hangUp_socketStep s _ _ rfl rfl rfl rfl
  | authRefreshed device listener => exact hangUp_socketStep s _ _ rfl rfl rfl rfl
  | closeFinal =>
      refine hangUp_socketStep s _ _ rfl rfl ?_ ?_
      · simp only [Shared.rejectPending_frame]
      · simp only [Shared.rejectPending_frame]
  | writerStop sock => exact .stopped sock
  -- The rest touches other fields.
  | relocateEndpoint endpoint =>
      simp only [Section.run, relocateEndpoint_eq]
      exact .same _ rfl
  | settle cell r forward =>
      simp only [Section.run, settle_frame]
      exact .same _ rfl
  | socketClosed gen random =>
      rcases socketClosed_cases gen random s with ⟨_, h⟩ | ⟨_, _, _, _, _, _, _, _, _, h, _⟩
      · simp only [Section.run, h]
        exact .same _ rfl
      · simp only [Section.run, h]
        exact .same _ rfl
  | resumeLock =>
      simp only [Section.run, resumeLock_frame]
      exact .same _ rfl
  | startTrack wall loc =>
      simp only [Section.run, startTrack_frame]
      exact .same _ rfl
  | resumeTrack uid seq =>
      simp only [Section.run, resumeTrack_frame]
      exact .same _ rfl
  | startFailed =>
      simp only [Section.run, startFailed_frame]
      exact .same _ rfl
  | resumeFailed =>
      simp only [Section.run, resumeFailed_frame]
      exact .same _ rfl
  | stopFailed =>
      simp only [Section.run, stopFailed_frame]
      exact .same _ rfl
  | stopTrack =>
      simp only [Section.run, stopTrack_frame]
      exact .same _ rfl
  | publishStart wall point =>
      rcases publishStart_cases wall point s with ⟨_, h⟩ | ⟨_, h⟩ <;>
        (simp only [Section.run, h]; exact .same _ rfl)
  | publishWork now wall point =>
      rcases publishWork_cases geo now wall point s with
        h | ⟨_, _, h | ⟨_, ⟨_, h⟩ | ⟨_, h⟩⟩⟩ <;>
        (simp only [Section.run, h]; exact .same _ rfl)
  | flush =>
      rcases flush_cases s with h | ⟨_, _, _, h⟩ <;>
        (simp only [Section.run, h]; exact .same _ rfl)
  | sendEvent now =>
      rcases sendEvent_cases now s with ⟨_, h, _⟩
      simp only [Section.run, h]
      exact .same _ rfl
  | _ => exact .same _ rfl

/-! ## Wires -/

/-- A section leaves a wire alone, logs the event it dispatched from it, or
    logs the message it handed to it. -/
theorem run_wire (geo : Geo) {α : Type} (op : Section α) (s : Shared) (k : Nat) :
    (op.run geo s).1.wire k = s.wire k ∨
      (∃ evt, op.hears = some (k, evt) ∧ (op.run geo s).1.wire k = .got evt :: s.wire k) ∨
      (∃ out ticket, op.hands = some (out, ticket) ∧ s.inner.outTx = some k ∧
        s.writing k = true ∧ (op.run geo s).1.wire k = .sent out ticket :: s.wire k) := by
  have hlog : ∀ (j : Nat) (t : Traffic) (ks : List Socket), ks = (s.logTraffic j t).sockets →
      (((ks[k]?).map (·.wire)).getD [] = s.wire k ∨
        (j = k ∧ ((ks[k]?).map (·.wire)).getD [] = t :: s.wire k)) := by
    rintro j t ks rfl
    have h := s.wire_logTraffic j k t
    by_cases hjk : j = k ∧ k < s.sockets.length
    · rw [if_pos hjk] at h
      exact Or.inr ⟨hjk.1, h⟩
    · rw [if_neg hjk] at h
      exact Or.inl h
  -- A wire is a part of the sockets, and what a section does to those is a step.
  have hwire : (op.run geo s).1.wire k =
      (((op.run geo s).1.sockets[k]?).map (·.wire)).getD [] := rfl
  rw [hwire]
  have hstep := run_sockets geo op s
  generalize (op.run geo s).1.sockets = ks at hstep ⊢
  cases hstep with
  | same _ _ => exact Or.inl rfl
  | heard _ sock evt hop =>
      rcases hlog sock (.got evt) _ rfl with h | ⟨rfl, h⟩
      · exact Or.inl h
      · exact Or.inr (Or.inl ⟨evt, hop, h⟩)
  | handed _ j out ticket hop hj hw =>
      rcases hlog j (.sent out ticket) _ rfl with h | ⟨rfl, h⟩
      · exact Or.inl h
      · exact Or.inr (Or.inr ⟨out, ticket, hop, hj, hw, h⟩)
  | opened gen _ _ =>
      -- The new socket comes last, with nothing on its wire.
      refine Or.inl ?_
      rcases Nat.lt_trichotomy k s.sockets.length with hk | hk | hk
      · rw [List.getElem?_append_left hk]
        rfl
      · rw [hk, List.getElem?_concat_length, Shared.wire, List.getElem?_eq_none (Nat.le_refl _)]
        rfl
      · rw [Shared.wire, List.getElem?_eq_none (Nat.le_of_lt hk), List.getElem?_eq_none (by
          rw [List.length_append, List.length_singleton]
          omega)]
  | stopped sock =>
      refine Or.inl ?_
      simp only [Shared.wire, List.getElem?_modify]
      rcases s.sockets[k]? with _ | x
      · rfl
      · by_cases hk : sock = k
        · simp only [if_pos hk, Option.map_eq_map, Option.map_some]
        · simp only [if_neg hk, Option.map_eq_map, Option.map_some]

/-- What was ever on a wire stays on it. -/
theorem run_wire_mem (geo : Geo) {α : Type} (op : Section α) (s : Shared) (k : Nat)
    (t : Traffic) (ht : t ∈ s.wire k) : t ∈ (op.run geo s).1.wire k := by
  rcases run_wire geo op s k with h | ⟨_, _, h⟩ | ⟨_, _, _, _, _, h⟩
  · rwa [h]
  · rw [h]
    exact List.mem_cons_of_mem _ ht
  · rw [h]
    exact List.mem_cons_of_mem _ ht

/-- Channels close and never open again; a new socket starts with an open one. -/
theorem run_writing (geo : Geo) {α : Type} (op : Section α) (s : Shared) (k : Nat)
    (h : (op.run geo s).1.writing k = true) : s.writing k = true ∨ k = s.sockets.length := by
  have hwriting : (((op.run geo s).1.sockets[k]?).map (·.writing)).getD false = true := h
  have hstep := run_sockets geo op s
  generalize (op.run geo s).1.sockets = ks at hstep hwriting
  cases hstep with
  | same => exact Or.inl hwriting
  | heard _ sock evt => exact Or.inl ((s.writing_logTraffic sock k (.got evt)).symm.trans hwriting)
  | handed _ j out ticket =>
      exact Or.inl ((s.writing_logTraffic j k (.sent out ticket)).symm.trans hwriting)
  | opened gen =>
      -- Only the new socket gets a channel.
      rcases Nat.lt_trichotomy k s.sockets.length with hk | hk | hk
      · rw [List.getElem?_append_left hk] at hwriting
        exact Or.inl hwriting
      · exact Or.inr hk
      · rw [List.getElem?_eq_none (by
          rw [List.length_append, List.length_singleton]
          omega)] at hwriting
        cases hwriting
  | stopped sock =>
      refine Or.inl ?_
      revert hwriting
      simp only [Shared.writing, List.getElem?_modify]
      rcases s.sockets[k]? with _ | x
      · exact id
      · by_cases hk : sock = k
        · simp only [if_pos hk, Option.map_eq_map, Option.map_some, Option.getD_some,
            Bool.false_eq_true, false_implies]
        · simp only [if_neg hk, Option.map_eq_map, Option.map_some]
          exact id

/-- A dispatched event is on the wire of its socket. -/
theorem run_hears (geo : Geo) {α : Type} (op : Section α) (s : Shared) (k : Nat)
    (evt : ServerEvt) (hop : op.hears = some (k, evt)) (hk : k < s.sockets.length) :
    (op.run geo s).1.wire k = .got evt :: s.wire k := by
  have hwire : (op.run geo s).1.wire k =
      (((op.run geo s).1.sockets[k]?).map (·.wire)).getD [] := rfl
  rw [hwire]
  have hstep := run_sockets geo op s
  generalize (op.run geo s).1.sockets = ks at hstep ⊢
  cases hstep with
  | same _ hquiet => cases hop.symm.trans hquiet
  -- A dispatcher logs what it hears, and sends nothing itself.
  | heard _ sock evt' hop' =>
      cases hop.symm.trans hop'
      have h := s.wire_logTraffic k k (.got evt)
      rw [if_pos ⟨rfl, hk⟩] at h
      exact h
  | handed _ j out ticket hhands =>
      cases op <;> cases hhands <;> cases hop
  | opened => cases hop
  | stopped => cases hop

end Tracking

end Pickpoint
