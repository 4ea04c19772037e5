import Pickpoint.Core.Shared
import Mathlib.Logic.Function.Basic

/-!
# Locked Sections

Every block of the tracking client that runs while it holds the lock, as a
function on the shared state, under the name of the function it is a part of.
The few steps that touch shared state without the lock (an outbound channel
losing its reader, a oneshot being sent or polled, a receive channel) are
sections of their own.

`Section` gathers them, indexed by what they return, and `Section.run` gives
each its effect.

## Main definitions

* `dialBegin`, `dialInstall`: `dial_inner`.
* `relocateEndpoint`, `relocateCheck`: `handle_relocate`.
* `dispatchResumeOk` to `dispatchStamp`: `dispatch`, one for each event.
* `authClose`, `authRefreshed`, `authFailed`: `handle_auth_error`.
* `socketClosed`: The task of `on_socket_closed`.
* `flush`: One round of `flush_queue`.
* `sendBin`: `send_bin`.
* `startTrack`, `publishStart`, `publishWork`, `closeFinal` and the others:
  The public calls.
* `Section`: All of them.
-/

namespace Pickpoint

namespace Tracking

/-! ## Dialing -/

/-- First block of `dial_inner`: a new generation; returns it. -/
def dialBegin (s : Shared) : Shared × Nat :=
  let g := s.inner
  -- The state is set whatever `intentional` says.
  let state := if g.state = .open ∨ g.state = .reconnecting then .reconnecting else .connecting
  ({ s with inner := { g with dialGen := g.dialGen + 1, sessionReady := false, state := state } },
    g.dialGen + 1)

/-- Second block of `dial_inner`: make the new socket current, unless a later
    dial took over; returns its index. -/
def dialInstall (gen : Nat) (s : Shared) : Shared × Except Error Nat :=
  let g := s.inner
  if gen ≠ g.dialGen ∨ g.intentional then
    -- A later dial or a close came first.
    (s, .error (newError .invalid "dial superseded"))
  else
    -- The backoff starts anew before any resume is answered.
    let sock := s.sockets.length
    ({ s with
        inner := { g with outTx := some sock, state := .open, backoff := resetBackoff g.backoff }
        sockets := s.sockets ++ [{ gen := gen, writing := true, wire := [] }] },
      .ok sock)

/-- First block of `handle_relocate`. -/
def relocateEndpoint (endpoint : String) (s : Shared) : Shared :=
  if endpoint = "" then s
  else { s with inner := { s.inner with cfg := { s.inner.cfg with endpoint := endpoint } } }

/-- Second block of `handle_relocate`: whether to resume, and `intentional`. -/
def relocateCheck (sendResume : Bool) (s : Shared) : Bool × Bool :=
  (sendResume || decide (s.inner.trackUid ≠ ""), s.inner.intentional)

/-! ## Dispatching events -/

/-- `ResumeOk`; returns the waiter. -/
def dispatchResumeOk (sock : Nat) (trackUid : String) (lastAckedSeq : Nat) (s : Shared) :
    Shared × Option Nat :=
  let s := s.receive sock (.resumeOk trackUid lastAckedSeq)
  let g := s.inner
  ({ s with inner :=
      { g with
        -- An empty uid keeps the track the client knows.
        trackUid := if trackUid ≠ "" then trackUid else g.trackUid
        lastAckedSeq := lastAckedSeq
        lastAssignedSeq := if g.lastAssignedSeq < lastAckedSeq then lastAckedSeq
          else g.lastAssignedSeq
        queue := g.queue.ackThrough lastAckedSeq
        sessionReady := true
        resumeWait := none } },
    g.resumeWait)

/-- `TrackStarted`; returns the waiter. -/
def dispatchTrackStarted (sock : Nat) (trackUid : String) (metadata : Bytes) (s : Shared) :
    Shared × Option Nat :=
  let s := s.receive sock (.trackStarted trackUid metadata)
  let g := s.inner
  ({ s with
      inner :=
        -- The queue stays as it is: it holds what was published since the start.
        { g with
          trackUid := trackUid
          lastAssignedSeq := 0
          lastAckedSeq := 0
          sessionReady := true
          starting := false
          startWait := none }
      epoch := s.epoch + 1 },
    g.startWait)

/-- `TrackStopped`; returns the waiter. -/
def dispatchTrackStopped (sock : Nat) (trackUid : String) (s : Shared) : Shared × Option Nat :=
  let s := s.receive sock (.trackStopped trackUid)
  let g := s.inner
  -- The stop waiter is answered even when another track has ended.
  let g' := if g.trackUid = trackUid then
      { Shared.dropTrack g with filter := g.filter.reset } else g
  ({ s with inner := { g' with stopWait := none } }, g.stopWait)

/-- `Ack`. -/
def dispatchAck (sock seq : Nat) (s : Shared) : Shared :=
  let s := s.receive sock (.ack seq)
  let g := s.inner
  { s with inner :=
      { g with
        lastAckedSeq := if g.lastAckedSeq < seq then seq else g.lastAckedSeq
        queue := g.queue.ackThrough seq } }

/-- The resume part of the `Error` block. -/
def errorResume (e : Error) (s : Shared) : Shared :=
  let g := s.inner
  if g.resumeWait.isSome then
    -- A fatal error takes the track and everything queued for it.
    let g' := if isFatalResumeError e.code then
        { Shared.dropTrack g with filter := g.filter.reset } else g
    { s with inner := { g' with resumeWait := none } }.resolve g.resumeWait (.error e)
  else s

/-- The start part of the `Error` block. -/
def errorStart (e : Error) (s : Shared) : Shared :=
  let g := s.inner
  if g.startWait.isSome then
    { s with inner := { g with starting := false, startWait := none } }.resolve g.startWait
      (.error e)
  else s

/-- The stop part of the `Error` block. -/
def errorStop (e : Error) (s : Shared) : Shared :=
  { s with inner := { s.inner with stopWait := none } }.resolve s.inner.stopWait (.error e)

/-- The last part of the `Error` block. The resume waiter has been taken
    before, so its guard always holds. -/
def errorTrackNotFound (e : Error) (s : Shared) : Shared :=
  if e.code = .trackNotFound ∧ s.inner.resumeWait.isNone then
    { s with inner := { Shared.dropTrack s.inner with starting := false } }
  else s

/-- `Error`. -/
def dispatchError (sock : Nat) (e : Error) (s : Shared) : Shared :=
  errorTrackNotFound e (errorStop e (errorStart e (errorResume e
    (s.receive sock (.error e.code e.message e.trackUid e.retryAfterMs)))))

/-- `Subscribed`; the whole event is `evt`. -/
def dispatchSubscribed (sock : Nat) (evt : ServerEvt) (sub : UInt8) (deviceUid : String)
    (s : Shared) : Shared :=
  let s := s.receive sock evt
  let g := s.inner
  -- Neither the device nor the socket is compared with anything.
  { s with inner :=
      { g with
        subByDevice := Function.update g.subByDevice deviceUid (some sub)
        deviceBySub := Function.update g.deviceBySub sub (some deviceUid) } }

/-- `LocationAdded`, `EventAdded` and `DevicePresence` look up the device. -/
def dispatchStamp (sock : Nat) (evt : ServerEvt) (sub : UInt8) (s : Shared) : Shared × String :=
  let s := s.receive sock evt
  (s, (s.inner.deviceBySub sub).getD "")

/-- The tail of `dispatch`: answer the waiter and forward the event. -/
def settle (cell : Option Nat) (r : Except Error Reply) (forward : Option ServerEvt)
    (s : Shared) : Shared :=
  let s := s.resolve cell r
  match forward with
  | none => s
  | some evt =>
    -- `try_send`: an event that finds the channel full is lost.
    if s.recvq.length < Shared.recvCapacity then { s with recvq := s.recvq ++ [evt] } else s

/-- `Command` goes to its own channel. -/
def dispatchCommand (sock : Nat) (c : Command) (s : Shared) : Shared :=
  let s := s.receive sock (.command c.commandId c.payload c.timestampMs)
  if s.cmdq.length < Shared.cmdCapacity then { s with cmdq := s.cmdq ++ [c] } else s

/-! ## Auth errors -/

/-- `handle_auth_error` with no refresh callback. -/
def authClose (s : Shared) : Shared :=
  { s with inner := { s.inner with intentional := true, state := .closed } }.hangUp

/-- `handle_auth_error` after a refresh: whether to resume, and `intentional`. -/
def authRefreshed (device : Option DeviceAuth) (listener : Option ListenerAuth) (s : Shared) :
    Shared × Bool × Bool :=
  let cfg := s.inner.cfg
  -- A device and a listener exclude each other; the listener is set last.
  let cfg := match device with
    | some d => { cfg with device := some d, listener := none }
    | none => cfg
  let cfg := match listener with
    | some l => { cfg with listener := some l, device := none }
    | none => cfg
  let s := { s with inner :=
    { s.inner with cfg := cfg, dialGen := s.inner.dialGen + 1, sessionReady := false } }.hangUp
  (s, decide (s.inner.trackUid ≠ ""), s.inner.intentional)

/-- `handle_auth_error` when the refresh failed. -/
def authFailed (s : Shared) : Shared :=
  { s with inner := { s.inner with intentional := true, state := .closed } }

/-! ## Losing a socket -/

/-- The task of `on_socket_closed`, up to its sleep. Returns whether the
    redial resumes and how long to sleep, or `none` when there is none. -/
def socketClosed (gen : Nat) (random : ℚ) (s : Shared) : Shared × Option (Bool × Nat) :=
  -- The close of an earlier generation is over before it begins.
  if gen ≠ s.inner.dialGen then (s, none)
  else
    let g := { s.inner with
      outTx := none
      sessionReady := false
      queue := s.inner.queue.markUnsent
      subByDevice := fun _ => none
      deviceBySub := fun _ => none }
    -- The waiters are rejected on two of the four ways out.
    if g.intentional then
      ({ s with inner := { g with state := .closed } }, none)
    else if g.cfg.disableReconnect then
      ({ s with inner := { g with state := .closed } }.rejectPending
        (newError .tryAgain "connection closed"), none)
    else
      match nextDelay g.backoff random with
      | some (delay, backoff) =>
        ({ s with inner := { g with state := .reconnecting, backoff := backoff } },
          some (decide (g.trackUid ≠ ""), delay))
      | none =>
        ({ s with inner := { g with state := .closed } }.rejectPending
          (newError .tryAgain "reconnect attempts exhausted"), none)

/-- First block of `resubscribe`: the devices to subscribe again. -/
def resubscribe (s : Shared) : Shared × List String :=
  -- The handles of the last socket mean nothing on this one.
  ({ s with inner :=
      { s.inner with subByDevice := fun _ => none, deviceBySub := fun _ => none } },
    s.inner.subscriptions)

/-- Block of `send_resume_and_wait`: the waiter and what to resume, or
    `none` when there is no track. -/
def resumeLock (s : Shared) : Shared × Option (Nat × String × Nat) :=
  if s.inner.trackUid = "" then (s, none)
  else
    -- A waiter that is still there is dropped, and its caller hears so.
    let (s, cell) := (s.dropCell s.inner.resumeWait).newCell
    ({ s with inner := { s.inner with resumeWait := some cell } },
      some (cell, s.inner.trackUid, s.inner.lastAssignedSeq))

/-! ## Sending -/

/-- The recording loop of `flush_queue`: take frames while the window and
    `room` allow. -/
def recordFrames : Nat → OfflineQueue → List LocFrame → OfflineQueue × List LocFrame
  | _, q, [] => (q, [])
  -- `room` was read before the loop; the window is looked at in each round.
  | room, q, f :: fs =>
    if q.windowFull then (q, [])
    else if room ≤ 1 then (q.recordFrame f.seq, [f])
    else
      let r := recordFrames (room - 1) (q.recordFrame f.seq) fs
      (r.1, f :: r.2)

/-- What a round of `flush_queue` encodes: the unsent InFlight points, or
    else staging points that it numbers now. -/
def flushPoints (g : Inner) : Inner × List QueuedPoint :=
  -- Points that have a number go first.
  if g.queue.unsentInflight ≠ [] then (g, g.queue.unsentInflight)
  else
    let take := min g.queue.stagingLen (100 * g.queue.windowRemaining)
    let (queue, assigned) := g.queue.assignFromStaging take g.lastAssignedSeq
    ({ g with
        queue := queue
        lastAssignedSeq := (assigned.getLast?.map (·.seq)).getD g.lastAssignedSeq }, assigned)

/-- Whether a round of `flush_queue` runs. -/
def flushReady (g : Inner) : Bool :=
  g.sessionReady && g.state == .open && g.outTx.isSome && decide (0 < g.queue.windowRemaining)

/-- One round of `flush_queue` under the lock: the frames to hand over, none
    when the flush is over. -/
def flush (s : Shared) : Shared × Ticket × List LocFrame :=
  if !flushReady s.inner then (s, s.ticket, [])
  else
    let (g, queued) := flushPoints s.inner
    match queued.getLast? with
    | none => (s, s.ticket, [])
    | some last =>
      -- All frames are numbered from the last point, then taken while there is room.
      let encoded := splitLocFrames last.seq (queued.map (·.point))
      let (queue, out) := recordFrames s.inner.queue.windowRemaining g.queue encoded
      ({ s with
          inner := { g with queue := queue }
          built := s.built ++ Shared.carry s.ticket queued out },
        s.ticket, out)

/-- `send_bin`. -/
def sendBin (frame : Frame) (ticket : Option Ticket) (s : Shared) :
    Shared × Except Error Unit :=
  if s.inner.state = .closed ∧ s.inner.intentional then
    (s, .error (newError .invalid "closed"))
  else
    match s.inner.outTx with
    | none => (s, .error (newError .tryAgain "socket not open"))
    | some sock =>
      -- The channel is closed once its writer has ended.
      match s.handOver sock (.bin frame) ticket with
      | none => (s, .error (newError .tryAgain "socket not open"))
      | some s' => (s', .ok ())

/-! ## Public calls -/

/-- First block of `start_track_meta`: the start waiter. -/
def startTrack (wall : Int) (loc : Option LatLng) (s : Shared) : Shared × Nat :=
  let (s, cell) := (s.dropCell s.inner.startWait).newCell
  let g := s.inner
  let filter := match loc with
    | none => g.filter.reset
    | some p => g.filter.reset.seed (stampLatLng wall p)
  -- What was queued belongs to the track before.
  ({ s with
      inner :=
        { g with
          startWait := some cell
          starting := true
          queue := g.queue.clear
          lastAssignedSeq := 0
          lastAckedSeq := 0
          sessionReady := false
          filter := filter }
      epoch := s.epoch + 1 },
    cell)

/-- `start_track_meta` when its command could not be sent. -/
def startFailed (s : Shared) : Shared :=
  let s' := s.dropCell s.inner.startWait
  { s' with inner := { s'.inner with startWait := none, starting := false } }

/-- Block of `resume`: the resume waiter. -/
def resumeTrack (trackUid : String) (lastClientSeq : Nat) (s : Shared) : Shared × Nat :=
  let (s, cell) := (s.dropCell s.inner.resumeWait).newCell
  -- The queue is kept, and new points are numbered after the number given.
  ({ s with
      inner :=
        { s.inner with
          trackUid := trackUid, lastAssignedSeq := lastClientSeq, resumeWait := some cell }
      epoch := s.epoch + 1 },
    cell)

/-- `resume` when its command could not be sent. -/
def resumeFailed (s : Shared) : Shared :=
  let s' := s.dropCell s.inner.resumeWait
  { s' with inner := { s'.inner with resumeWait := none } }

/-- First block of `publish`: the start location when a track has to be
    started. -/
def publishStart (wall : Int) (point : LatLng) (s : Shared) : Shared × Option LatLng :=
  let g := s.inner
  if g.trackUid = "" ∧ ¬ g.starting then
    -- The point travels as the start location and is not queued.
    ({ s with
        inner :=
          { g with
            starting := true
            queue := g.queue.clear
            lastAssignedSeq := 0
            lastAckedSeq := 0
            sessionReady := false
            filter := g.filter.reset.seed (stampLatLng wall point) }
        epoch := s.epoch + 1 },
      some (stampLatLng wall point))
  else (s, none)

/-- `publish` when its `TrackStart` could not be sent. -/
def publishStartFailed (s : Shared) : Shared :=
  { s with inner := { s.inner with starting := false } }

/-- What the working block of `publish` decides: the call returns at once, or it has
    a frame to hand over when the lock is released. -/
inductive PublishWork where
  | returned (seq : Nat) (accepted : Bool)
  | live (seq : Nat) (point : LatLng) (ticket : Ticket)
  deriving DecidableEq

/-- Whether `publish` sends the point right away. -/
def publishOpen (g : Inner) : Bool :=
  g.sessionReady && g.state == .open && g.outTx.isSome && !g.queue.windowFull

/-- `publish` numbers an emitted point and records its frame. -/
def publishLive (geo : Geo) (emitted : LatLng) (s : Shared) : Shared × PublishWork :=
  let g := s.inner
  let seq := g.lastAssignedSeq + 1
  ({ s with
      inner :=
        { g with
          lastAssignedSeq := seq
          queue := (g.queue.enqueue geo seq emitted).recordFrame seq }
      built := s.built ++
        [{ ticket := s.ticket
           frame := { seq := truncU32 seq, points := [stripLiveTime emitted] }
           carried := [(seq, emitted)] }] },
    .live seq (stripLiveTime emitted) s.ticket)

/-- Working block of `publish`. -/
def publishWork (geo : Geo) (now : Instant) (wall : Int) (point : LatLng) (s : Shared) :
    Shared × PublishWork :=
  let g := s.inner
  if !canAcceptPublish g.nextPublishAt now 1 then (s, .returned g.lastAssignedSeq false)
  else
    -- From here the point is accepted, whether or not it passes the filter.
    let (filter, emitted) := g.filter.push geo wall (stampLatLng wall point)
    let g := { g with
      nextPublishAt := nextPublishAllowedAt g.nextPublishAt now 1, filter := filter }
    match emitted with
    | none => ({ s with inner := g }, .returned g.lastAssignedSeq true)
    | some emitted =>
      if !publishOpen g then
        ({ s with inner := { g with queue := g.queue.pushStaging geo emitted } },
          .returned g.lastAssignedSeq true)
      else publishLive geo emitted { s with inner := g }

/-- Block of `stop_track`: the stop waiter. -/
def stopTrack (s : Shared) : Shared × Nat :=
  let (s, cell) := (s.dropCell s.inner.stopWait).newCell
  ({ s with inner := { s.inner with stopWait := some cell } }, cell)

/-- `stop_track` when its command could not be sent. -/
def stopFailed (s : Shared) : Shared :=
  let s' := s.dropCell s.inner.stopWait
  { s' with inner := { s'.inner with stopWait := none } }

/-- Block of `send_event`: the answer, or the ticket of an event to send. -/
def sendEvent (now : Instant) (s : Shared) : Shared × (Except Error Bool ⊕ Ticket) :=
  let g := s.inner
  if g.trackUid = "" ∨ ¬ g.sessionReady then
    (s, .inl (.error (newError .invalid "start_track() before send_event()")))
  else if now < g.nextEventAt then (s, .inl (.ok false))
  else
    let s' := { s with inner := { g with nextEventAt := now + minEventInterval } }
    -- An event that finds no socket counts as accepted all the same.
    if g.state = .open ∧ g.outTx.isSome then (s', .inr s.ticket) else (s', .inl (.ok true))

/-- Block of `subscribe`. -/
def subscribe (deviceUid : String) (s : Shared) : Shared :=
  { s with inner := { s.inner with subscriptions := s.inner.subscriptions.insert deviceUid } }

/-- Block of `unsubscribe`: the handle to drop. -/
def unsubscribe (deviceUid : String) (s : Shared) : Shared × Option UInt8 :=
  -- Without a handle in the map there is nothing to send.
  ({ s with inner :=
      { s.inner with
        subscriptions := s.inner.subscriptions.erase deviceUid
        subByDevice := Function.update s.inner.subByDevice deviceUid none } },
    s.inner.subByDevice deviceUid)

/-- Last block of `close`, with the `Close` it puts on the channel it took. -/
def closeFinal (s : Shared) : Shared :=
  ({ s with inner :=
      { s.inner with intentional := true, state := .closed, sessionReady := false } }.rejectPending
    (newError .invalid "client closed")).hangUp

/-! ## Channels -/

/-- The writer task of a socket ends. -/
def writerStop (sock : Nat) (s : Shared) : Shared :=
  { s with sockets := s.sockets.modify sock fun k => { k with writing := false } }

/-- Look at a oneshot cell. -/
def poll (cell : Nat) (s : Shared) : Oneshot := (s.cells[cell]?).getD .dropped

/-- Take the next event, if any. -/
def recv (s : Shared) : Shared × Option ServerEvt :=
  ({ s with recvq := s.recvq.tail }, s.recvq.head?)

/-- Take the next command, if any. -/
def recvCommand (s : Shared) : Shared × Option Command :=
  ({ s with cmdq := s.cmdq.tail }, s.cmdq.head?)

/-! ## The sections -/

/-- The sections, indexed by what they return. Each is one stretch of the client
    that runs with the lock held, or one use of a channel between two awaits. -/
inductive Section : Type → Type where
  | nop : Section Unit
  | dialBegin : Section Nat
  | dialInstall (gen : Nat) : Section (Except Error Nat)
  | relocateEndpoint (endpoint : String) : Section Unit
  | relocateCheck (sendResume : Bool) : Section (Bool × Bool)
  | receive (sock : Nat) (evt : ServerEvt) : Section Unit
  | dispatchResumeOk (sock : Nat) (trackUid : String) (lastAckedSeq : Nat) : Section (Option Nat)
  | dispatchTrackStarted (sock : Nat) (trackUid : String) (metadata : Bytes) :
      Section (Option Nat)
  | dispatchTrackStopped (sock : Nat) (trackUid : String) : Section (Option Nat)
  | dispatchAck (sock seq : Nat) : Section Unit
  | dispatchError (sock : Nat) (e : Error) : Section Unit
  | dispatchSubscribed (sock : Nat) (evt : ServerEvt) (sub : UInt8) (deviceUid : String) :
      Section Unit
  | dispatchStamp (sock : Nat) (evt : ServerEvt) (sub : UInt8) : Section String
  | dispatchCommand (sock : Nat) (c : Command) : Section Unit
  | settle (cell : Option Nat) (r : Except Error Reply) (forward : Option ServerEvt) :
      Section Unit
  | authLookup : Section Bool
  | authClose : Section Unit
  | authRefreshed (device : Option DeviceAuth) (listener : Option ListenerAuth) :
      Section (Bool × Bool)
  | authFailed : Section Unit
  | socketClosed (gen : Nat) (random : ℚ) : Section (Option (Bool × Nat))
  | readIntentional : Section Bool
  | readDialGen : Section Nat
  | resubscribe : Section (List String)
  | resumeLock : Section (Option (Nat × String × Nat))
  | flush : Section (Ticket × List LocFrame)
  | sendBin (frame : Frame) (ticket : Option Ticket) : Section (Except Error Unit)
  | startTrack (wall : Int) (loc : Option LatLng) : Section Nat
  | startFailed : Section Unit
  | resumeTrack (trackUid : String) (lastClientSeq : Nat) : Section Nat
  | resumeFailed : Section Unit
  | publishStart (wall : Int) (point : LatLng) : Section (Option LatLng)
  | publishStartFailed : Section Unit
  | publishWork (now : Instant) (wall : Int) (point : LatLng) : Section PublishWork
  | readTrackUid : Section String
  | stopTrack : Section Nat
  | stopFailed : Section Unit
  | sendEvent (now : Instant) : Section (Except Error Bool ⊕ Ticket)
  | subscribe (deviceUid : String) : Section Unit
  | unsubscribe (deviceUid : String) : Section (Option UInt8)
  | closeFinal : Section Unit
  | writerStop (sock : Nat) : Section Unit
  | poll (cell : Nat) : Section Oneshot
  | recv : Section (Option ServerEvt)
  | recvCommand : Section (Option Command)
  | connectReturn (ok : Bool) : Section Unit

/-- What a section does. -/
def Section.run (geo : Geo) : {α : Type} → Section α → Shared → Shared × α
  | _, .nop, s => (s, ())
  | _, .dialBegin, s => Tracking.dialBegin s
  | _, .dialInstall gen, s => Tracking.dialInstall gen s
  | _, .relocateEndpoint endpoint, s => (Tracking.relocateEndpoint endpoint s, ())
  | _, .relocateCheck sendResume, s => (s, Tracking.relocateCheck sendResume s)
  | _, .receive sock evt, s => (s.receive sock evt, ())
  | _, .dispatchResumeOk sock uid seq, s => Tracking.dispatchResumeOk sock uid seq s
  | _, .dispatchTrackStarted sock uid metadata, s =>
    Tracking.dispatchTrackStarted sock uid metadata s
  | _, .dispatchTrackStopped sock uid, s => Tracking.dispatchTrackStopped sock uid s
  | _, .dispatchAck sock seq, s => (Tracking.dispatchAck sock seq s, ())
  | _, .dispatchError sock e, s => (Tracking.dispatchError sock e s, ())
  | _, .dispatchSubscribed sock evt sub deviceUid, s =>
    (Tracking.dispatchSubscribed sock evt sub deviceUid s, ())
  | _, .dispatchStamp sock evt sub, s => Tracking.dispatchStamp sock evt sub s
  | _, .dispatchCommand sock c, s => (Tracking.dispatchCommand sock c s, ())
  | _, .settle cell r forward, s => (Tracking.settle cell r forward s, ())
  | _, .authLookup, s => (s, s.inner.cfg.refreshAuth)
  | _, .authClose, s => (Tracking.authClose s, ())
  | _, .authRefreshed device listener, s => Tracking.authRefreshed device listener s
  | _, .authFailed, s => (Tracking.authFailed s, ())
  | _, .socketClosed gen random, s => Tracking.socketClosed gen random s
  | _, .readIntentional, s => (s, s.inner.intentional)
  | _, .readDialGen, s => (s, s.inner.dialGen)
  | _, .resubscribe, s => Tracking.resubscribe s
  | _, .resumeLock, s => Tracking.resumeLock s
  | _, .flush, s => Tracking.flush s
  | _, .sendBin frame ticket, s => Tracking.sendBin frame ticket s
  | _, .startTrack wall loc, s => Tracking.startTrack wall loc s
  | _, .startFailed, s => (Tracking.startFailed s, ())
  | _, .resumeTrack uid seq, s => Tracking.resumeTrack uid seq s
  | _, .resumeFailed, s => (Tracking.resumeFailed s, ())
  | _, .publishStart wall point, s => Tracking.publishStart wall point s
  | _, .publishStartFailed, s => (Tracking.publishStartFailed s, ())
  | _, .publishWork now wall point, s => Tracking.publishWork geo now wall point s
  | _, .readTrackUid, s => (s, s.inner.trackUid)
  | _, .stopTrack, s => Tracking.stopTrack s
  | _, .stopFailed, s => (Tracking.stopFailed s, ())
  | _, .sendEvent now, s => Tracking.sendEvent now s
  | _, .subscribe deviceUid, s => (Tracking.subscribe deviceUid s, ())
  | _, .unsubscribe deviceUid, s => Tracking.unsubscribe deviceUid s
  | _, .closeFinal, s => (Tracking.closeFinal s, ())
  | _, .writerStop sock, s => (Tracking.writerStop sock s, ())
  | _, .poll cell, s => (s, Tracking.poll cell s)
  | _, .recv, s => Tracking.recv s
  | _, .recvCommand, s => Tracking.recvCommand s
  | _, .connectReturn ok, s => ({ s with connected := some ok }, ())

end Tracking

end Pickpoint
