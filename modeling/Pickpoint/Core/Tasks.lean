import Pickpoint.Core.Sections
import Pickpoint.Interleave.Machine

/-!
# Tasks

The asynchronous functions of the tracking client, cut at their locked
sections. A task records where its function is suspended and the locals it
still needs; `Task.act` gives the next section and what its result leads to.

A dial carries the generation it last began (`gen`), which is zero before the
first. Its owner says who called it, and with that what becomes of its error:
`connect` returns it, the reconnect task goes through `on_socket_closed`
again, and the Relocate and auth tasks drop it.

`Task.socketClosed` is the task `on_socket_closed` spawns. Besides the
generation it was called with it carries the generation of the dial or socket
whose end caused the call, which the code does not look at.

What the network, the clocks and the server do enters through `Input`: a
connection attempt may fail or open, a reader may be given any event at any
time or reach the end of its stream, a writer may stop at any time, and clock
readings and jitter are arbitrary. Frames that do not decode are ignored by
the reader and need no step.

## Main definitions

* `Input`: What resumes a task.
* `Task`: A suspended function.
* `Task.act`: Its next section.
* `client`: The session as a machine.
* `Started`: The pools `connect` starts from.
-/

namespace Pickpoint

namespace Tracking

open Interleave

/-- What resumes a task: the lock, a clock, or something from outside such as a
    frame, a dial that succeeded or a timeout. -/
inductive Input where
  /-- The lock is free, or a sleep is over. -/
  | go
  /-- The same, with readings of the monotonic and the wall clock. -/
  | clock (now : Instant) (wall : Int)
  /-- The same, with jitter for the backoff. -/
  | random (r : ℚ)
  /-- A connection attempt got its WebSocket. -/
  | opened
  /-- A connection attempt failed. -/
  | failed (e : Error)
  /-- A frame arrived and decoded. -/
  | frame (msg : ServerEvt)
  /-- The socket is closed. -/
  | eof
  /-- `refresh_auth` returned. -/
  | auth (r : Except String (Option DeviceAuth × Option ListenerAuth))

/-- Who called a dial, which decides what becomes of its error: `connect` returns
    it, the reconnect task tries again, and the others drop it. -/
inductive Owner where
  | connect
  | reconnect
  | relocate
  | auth
  deriving DecidableEq, Repr

/-- Where `dial_inner` is, `handle_relocate` and `send_resume_and_wait`
    included. -/
inductive DialPc where
  | begin (gen : Nat) (sendResume : Bool)
  | connecting (gen : Nat) (sendResume : Bool)
  | hello (gen : Nat) (sendResume : Bool)
  | install (gen : Nat) (sendResume : Bool)
  | relocate (gen : Nat) (rel : Relocate) (sendResume : Bool)
  | relocateSleep (gen : Nat) (sendResume : Bool)
  | relocateCheck (gen : Nat) (sendResume : Bool)
  | resumeLock (gen : Nat)
  | resumeSend (gen cell : Nat) (trackUid : String) (seq : Nat)
  | resumeReply (gen cell : Nat)
  | resumeSleep (gen : Nat)
  | resubscribe (gen : Nat)
  | subscribing (gen : Nat) (devices : List String)
  | finished (gen : Nat) (r : Except Error Unit)
  deriving DecidableEq

/-- Where the reader of a socket is, `dispatch` included: between two frames, in
    `flush_queue`, or about to settle a waiter or to forward an event. -/
inductive ReaderPc where
  | reading
  | flush (cell : Option Nat) (r : Except Error Reply) (forward : Option ServerEvt)
  | sending (ticket : Ticket) (frames : List LocFrame) (cell : Option Nat)
      (r : Except Error Reply) (forward : Option ServerEvt)
  | settle (cell : Option Nat) (r : Except Error Reply) (forward : Option ServerEvt)
  deriving DecidableEq

/-- Where `handle_auth_error` is. -/
inductive AuthPc where
  | lookup
  | close
  | refreshing
  | refreshed (device : Option DeviceAuth) (listener : Option ListenerAuth)
  | failed
  deriving DecidableEq

/-- Where `publish` is. -/
inductive PublishPc where
  | start (point : LatLng)
  | sendStart (location : LatLng)
  | startFailed
  | work (point : LatLng)
  | send (seq : Nat) (point : LatLng) (ticket : Ticket)
  deriving DecidableEq

/-- Where `start_track_meta` is. -/
inductive StartPc where
  | start (loc : Option LatLng) (route : List LatLng) (metadata : Bytes)
  | send (cell : Nat) (loc : Option LatLng) (route : List LatLng) (metadata : Bytes)
  | failed (e : Error)
  | reply (cell : Nat)
  deriving DecidableEq

/-- Where `resume` is. -/
inductive ResumePc where
  | lock
  | send (cell : Nat)
  | failed (e : Error)
  | reply (cell : Nat)
  | sleep
  deriving DecidableEq

/-- Where `stop_track` is. -/
inductive StopPc where
  | read (trackUid : Option String)
  | lock (trackUid : String)
  | send (cell : Nat) (trackUid : String)
  | failed (e : Error)
  | reply (cell : Nat)
  deriving DecidableEq

/-- Where `send_event` is. -/
inductive EventPc where
  | start (payload : Bytes)
  | send (payload : Bytes) (ticket : Ticket)
  deriving DecidableEq

/-- Where `close` is. -/
inductive ClosePc where
  | read
  | stop (trackUid : String)
  | final
  deriving DecidableEq

/-- What a finished call returned. -/
inductive Ret where
  | none
  | unit (r : Except Error Unit)
  | publish (seq : Nat) (accepted : Bool)
  | startTrack (r : Except Error String)
  | resume (r : Except Error Nat)
  | sendEvent (r : Except Error Bool)
  | recv (evt : ServerEvt)
  | recvCommand (c : Command)
  deriving DecidableEq

/-- A suspended function: a call of the public API, or one of the tasks the client
    spawns. It goes on when it is resumed, at any time. -/
inductive Task where
  | dial (owner : Owner) (pc : DialPc)
  | reader (sock gen : Nat) (pc : ReaderPc)
  | writer (sock : Nat)
  | socketClosed (cause gen : Nat)
  | reconnectSleep (cause : Nat) (sendResume : Bool)
  | authError (gen : Nat) (pc : AuthPc)
  | publish (pc : PublishPc)
  | startTrack (pc : StartPc)
  | resume (trackUid : String) (lastClientSeq : Nat) (pc : ResumePc)
  | stopTrack (pc : StopPc)
  | sendEvent (pc : EventPc)
  | subscribe (deviceUid : String)
  | subscribeSend (deviceUid : String)
  | unsubscribe (deviceUid : String)
  | unsubscribeSend (sub : UInt8)
  | ackCommand (commandId : String) (status : CommandAckStatus) (message : Option String)
  | close (pc : ClosePc)
  | recv
  | recvCommand
  | returned (r : Ret)
  deriving DecidableEq

namespace Task

/-- What the first frame of a connection leads to. -/
def helloReply (gen : Nat) (sendResume : Bool) : ServerEvt → DialPc
  | .hello version _ _ =>
    if version = protocolVersion then .install gen sendResume
    else .finished gen (.error (newError .invalid s!"unsupported hello version {version}"))
  | .relocate endpoint retryAfterMs => .relocate gen ⟨endpoint, retryAfterMs⟩ sendResume
  | .error code message trackUid retryAfterMs =>
    .finished gen (.error ⟨code, message, trackUid, retryAfterMs⟩)
  | _ => .finished gen (.error (newError .invalid "expected hello"))

/-- `dial_inner` and the code its callers run on its result. -/
def dialAct (owner : Owner) : DialPc → Input → Option (Act Section Task)
  | .begin _ sendResume, .go =>
    some ⟨.dialBegin, fun gen => (.dial owner (.connecting gen sendResume), [])⟩
  | .connecting gen sendResume, .opened =>
    some ⟨.nop, fun _ => (.dial owner (.hello gen sendResume), [])⟩
  | .connecting gen _, .failed e =>
    some ⟨.nop, fun _ => (.dial owner (.finished gen (.error e)), [])⟩
  | .hello gen sendResume, .frame msg =>
    some ⟨.nop, fun _ => (.dial owner (helloReply gen sendResume msg), [])⟩
  | .hello gen _, .failed e =>
    some ⟨.nop, fun _ => (.dial owner (.finished gen (.error e)), [])⟩
  | .install gen sendResume, .go =>
    some ⟨.dialInstall gen, fun
      | .error e => (.dial owner (.finished gen (.error e)), [])
      | .ok sock =>
        (.dial owner (if sendResume then .resumeLock gen else .resubscribe gen),
          [.writer sock, .reader sock gen .reading])⟩
  | .relocate gen rel sendResume, .go =>
    some ⟨.relocateEndpoint rel.endpoint, fun _ =>
      (.dial owner (if 0 < rel.retryAfterMs then .relocateSleep gen sendResume
        else .relocateCheck gen sendResume), [])⟩
  | .relocateSleep gen sendResume, .go =>
    some ⟨.nop, fun _ => (.dial owner (.relocateCheck gen sendResume), [])⟩
  -- The relocation dials again, under the owner of the dial it came from.
  | .relocateCheck gen sendResume, .go =>
    some ⟨.relocateCheck sendResume, fun
      | (sendResume, intentional) =>
        (.dial owner (if intentional then .finished gen (.error (newError .invalid "closed"))
          else .begin gen sendResume), [])⟩
  | .resumeLock gen, .go =>
    some ⟨.resumeLock, fun
      | none => (.dial owner (.resubscribe gen), [])
      | some (cell, trackUid, seq) => (.dial owner (.resumeSend gen cell trackUid seq), [])⟩
  -- A command that is refused ends the dial with its waiter still in place.
  | .resumeSend gen cell trackUid seq, .go =>
    some ⟨.sendBin (.cmd (.resume trackUid seq)) none, fun
      | .error e => (.dial owner (.finished gen (.error e)), [])
      | .ok _ => (.dial owner (.resumeReply gen cell), [])⟩
  -- The oneshot is looked at until it has something.
  | .resumeReply gen cell, .go =>
    some ⟨.poll cell, fun
      | .waiting => (.dial owner (.resumeReply gen cell), [])
      | .sent (.ok _) => (.dial owner (.resubscribe gen), [])
      | .sent (.error e) =>
        (.dial owner (if isRetryResumeError e.code then .resumeSleep gen
          else .finished gen (.error e)), [])
      | .dropped =>
        (.dial owner (.finished gen (.error (newError .tryAgain "resume cancelled"))), [])⟩
  | .resumeSleep gen, .go =>
    some ⟨.readIntentional, fun intentional =>
      (.dial owner (if intentional then .finished gen (.error (newError .invalid "closed"))
        else .resumeLock gen), [])⟩
  | .resubscribe gen, .go =>
    some ⟨.resubscribe, fun devices => (.dial owner (.subscribing gen devices), [])⟩
  -- Whether the command went out does not matter here.
  | .subscribing gen (d :: ds), .go =>
    some ⟨.sendBin (.cmd (.subscribe d true 0)) none, fun _ =>
      (.dial owner (.subscribing gen ds), [])⟩
  | .subscribing gen [], .go =>
    some ⟨.nop, fun _ => (.dial owner (.finished gen (.ok ())), [])⟩
  | .finished gen r, .go =>
    match owner, r with
    | .connect, r => some ⟨.connectReturn r.isOk, fun _ => (.returned (.unit r), [])⟩
    | .reconnect, .error _ =>
      -- The generation is read again here, not taken from the failed dial.
      some ⟨.readDialGen, fun gen' => (.returned .none, [.socketClosed gen gen'])⟩
    | _, _ => some ⟨.nop, fun _ => (.returned .none, [])⟩
  | _, _ => none

/-- `dispatch`, on the reader of a socket of generation `gen`. -/
def dispatchAct (sock gen : Nat) : ServerEvt → Act Section Task
  -- The new dial is a task of its own, and this reader reads on.
  | .relocate endpoint retryAfterMs =>
    ⟨.receive sock (.relocate endpoint retryAfterMs), fun _ =>
      (.reader sock gen .reading,
        [.dial .relocate (.relocate gen ⟨endpoint, retryAfterMs⟩ true)])⟩
  | .resumeOk trackUid seq =>
    ⟨.dispatchResumeOk sock trackUid seq, fun cell =>
      (.reader sock gen (.flush cell (.ok { seq := seq }) (some (.resumeOk trackUid seq))), [])⟩
  | .trackStarted trackUid metadata =>
    ⟨.dispatchTrackStarted sock trackUid metadata, fun cell =>
      (.reader sock gen (.flush cell (.ok { uid := trackUid })
        (some (.trackStarted trackUid metadata))), [])⟩
  | .trackStopped trackUid =>
    ⟨.dispatchTrackStopped sock trackUid, fun cell =>
      (.reader sock gen (.settle cell (.ok {}) (some (.trackStopped trackUid))), [])⟩
  | .ack seq =>
    ⟨.dispatchAck sock seq, fun _ => (.reader sock gen (.flush none (.ok {}) none), [])⟩
  | .command commandId payload timestampMs =>
    ⟨.dispatchCommand sock ⟨commandId, payload, timestampMs⟩, fun _ =>
      (.reader sock gen .reading, [])⟩
  | .error code message trackUid retryAfterMs =>
    ⟨.dispatchError sock ⟨code, message, trackUid, retryAfterMs⟩, fun _ =>
      (.reader sock gen (.settle none (.ok {}) (some (.error code message trackUid retryAfterMs))),
        if isAuthError code then [.authError gen .lookup] else [])⟩
  | .subscribed sub deviceUid trackUid lastLocation route distance duration start finish
      metadata online lastSeenMs =>
    ⟨.dispatchSubscribed sock (.subscribed sub deviceUid trackUid lastLocation route distance
        duration start finish metadata online lastSeenMs) sub deviceUid, fun _ =>
      (.reader sock gen (.settle none (.ok {}) (some (.subscribed sub deviceUid trackUid
        lastLocation route distance duration start finish metadata online lastSeenMs))), [])⟩
  -- A device that the event names itself is kept.
  | .locationAdded deviceUid trackUid point clientSeq sub =>
    ⟨.dispatchStamp sock (.locationAdded deviceUid trackUid point clientSeq sub) sub, fun uid =>
      (.reader sock gen (.settle none (.ok {}) (some (.locationAdded
        (if deviceUid = "" then uid else deviceUid) trackUid point clientSeq sub))), [])⟩
  | .eventAdded deviceUid trackUid payload timestampMs sub =>
    ⟨.dispatchStamp sock (.eventAdded deviceUid trackUid payload timestampMs sub) sub, fun uid =>
      (.reader sock gen (.settle none (.ok {}) (some (.eventAdded
        (if deviceUid = "" then uid else deviceUid) trackUid payload timestampMs sub))), [])⟩
  | .devicePresence deviceUid online lastSeenMs sub =>
    ⟨.dispatchStamp sock (.devicePresence deviceUid online lastSeenMs sub) sub, fun uid =>
      (.reader sock gen (.settle none (.ok {}) (some (.devicePresence
        (if deviceUid = "" then uid else deviceUid) online lastSeenMs sub))), [])⟩
  | .hello version nodeId shard =>
    ⟨.receive sock (.hello version nodeId shard), fun _ =>
      (.reader sock gen (.settle none (.ok {}) (some (.hello version nodeId shard))), [])⟩

/-- The reader task of a socket, with the `flush_queue` calls of `dispatch`. -/
def readerAct (sock gen : Nat) : ReaderPc → Input → Option (Act Section Task)
  | .reading, .frame msg => some (dispatchAct sock gen msg)
  | .reading, .eof =>
    some ⟨.nop, fun _ => (.returned .none, [.socketClosed gen gen])⟩
  | .flush cell r forward, .go =>
    some ⟨.flush, fun
      | (_, []) => (.reader sock gen (.settle cell r forward), [])
      | (ticket, f :: fs) => (.reader sock gen (.sending ticket (f :: fs) cell r forward), [])⟩
  -- A frame that is refused ends the flush; the rest stays recorded as sent.
  | .sending ticket (f :: fs) cell r forward, .go =>
    some ⟨.sendBin (.loc f) (some ticket), fun
      | .error _ => (.reader sock gen (.settle cell r forward), [])
      | .ok _ => (.reader sock gen (.sending ticket fs cell r forward), [])⟩
  | .sending _ [] cell r forward, .go =>
    some ⟨.nop, fun _ => (.reader sock gen (.flush cell r forward), [])⟩
  | .settle cell r forward, .go =>
    some ⟨.settle cell r forward, fun _ => (.reader sock gen .reading, [])⟩
  | _, _ => none

/-- `handle_auth_error`; `gen` is the generation of the socket it came from. -/
def authAct (gen : Nat) : AuthPc → Input → Option (Act Section Task)
  | .lookup, .go =>
    some ⟨.authLookup, fun refresh =>
      (.authError gen (if refresh then .refreshing else .close), [])⟩
  | .close, .go => some ⟨.authClose, fun _ => (.returned .none, [])⟩
  | .refreshing, .auth (.ok (device, listener)) =>
    some ⟨.nop, fun _ => (.authError gen (.refreshed device listener), [])⟩
  | .refreshing, .auth (.error _) =>
    some ⟨.nop, fun _ => (.authError gen .failed, [])⟩
  -- The dial of a refresh takes its own generation when it begins.
  | .refreshed device listener, .go =>
    some ⟨.authRefreshed device listener, fun
      | (sendResume, intentional) =>
        (if intentional then .returned .none else .dial .auth (.begin gen sendResume), [])⟩
  | .failed, .go => some ⟨.authFailed, fun _ => (.returned .none, [])⟩
  | _, _ => none

/-- `publish`. -/
def publishAct : PublishPc → Input → Option (Act Section Task)
  | .start point, .clock _ wall =>
    some ⟨.publishStart wall point, fun
      | some location => (.publish (.sendStart location), [])
      | none => (.publish (.work point), [])⟩
  | .sendStart location, .go =>
    some ⟨.sendBin (.cmd (.trackStart (some location) [] [])) none, fun
      | .error _ => (.publish .startFailed, [])
      | .ok _ => (.returned (.publish 0 true), [])⟩
  | .startFailed, .go =>
    some ⟨.publishStartFailed, fun _ => (.returned (.publish 0 false), [])⟩
  | .work point, .clock now wall =>
    some ⟨.publishWork now wall point, fun
      | .returned seq accepted => (.returned (.publish seq accepted), [])
      | .live seq point ticket => (.publish (.send seq point ticket), [])⟩
  -- The point is in the queue, so a refused frame is not reported.
  | .send seq point ticket, .go =>
    some ⟨.sendBin (.cmd (.locationAdd "" seq point)) (some ticket), fun _ =>
      (.returned (.publish seq true), [])⟩
  | _, _ => none

/-- `start_track_meta`. -/
def startTrackAct : StartPc → Input → Option (Act Section Task)
  | .start loc route metadata, .clock _ wall =>
    some ⟨.startTrack wall loc, fun cell => (.startTrack (.send cell loc route metadata), [])⟩
  | .send cell loc route metadata, .clock _ wall =>
    some ⟨.sendBin (.cmd (.trackStart (loc.map (stampLatLng wall)) (stampLatLngs wall route)
        metadata)) none, fun
      | .error e => (.startTrack (.failed e), [])
      | .ok _ => (.startTrack (.reply cell), [])⟩
  | .failed e, .go =>
    some ⟨.startFailed, fun _ => (.returned (.startTrack (.error e)), [])⟩
  | .reply cell, .go =>
    some ⟨.poll cell, fun
      | .waiting => (.startTrack (.reply cell), [])
      | .sent r => (.returned (.startTrack (r.map (·.uid))), [])
      | .dropped =>
        (.returned (.startTrack (.error (newError .tryAgain "start cancelled"))), [])⟩
  | _, _ => none

/-- `resume`. -/
def resumeAct (trackUid : String) (lastClientSeq : Nat) :
    ResumePc → Input → Option (Act Section Task)
  | .lock, .go =>
    some ⟨.resumeTrack trackUid lastClientSeq, fun cell =>
      (.resume trackUid lastClientSeq (.send cell), [])⟩
  | .send cell, .go =>
    some ⟨.sendBin (.cmd (.resume trackUid lastClientSeq)) none, fun
      | .error e => (.resume trackUid lastClientSeq (.failed e), [])
      | .ok _ => (.resume trackUid lastClientSeq (.reply cell), [])⟩
  | .failed e, .go => some ⟨.resumeFailed, fun _ => (.returned (.resume (.error e)), [])⟩
  | .reply cell, .go =>
    some ⟨.poll cell, fun
      | .waiting => (.resume trackUid lastClientSeq (.reply cell), [])
      | .sent (.ok r) => (.returned (.resume (.ok r.seq)), [])
      | .sent (.error e) =>
        (if isRetryResumeError e.code then .resume trackUid lastClientSeq .sleep
          else .returned (.resume (.error e)), [])
      | .dropped =>
        (.returned (.resume (.error (newError .tryAgain "resume cancelled"))), [])⟩
  | .sleep, .go => some ⟨.nop, fun _ => (.resume trackUid lastClientSeq .lock, [])⟩
  | _, _ => none

/-- `stop_track`. -/
def stopTrackAct : StopPc → Input → Option (Act Section Task)
  | .read trackUid, .go =>
    some ⟨.readTrackUid, fun uid =>
      let given := trackUid.getD ""
      let target := if given ≠ "" then given else uid
      (if target = "" then .returned (.unit (.ok ())) else .stopTrack (.lock target), [])⟩
  | .lock trackUid, .go =>
    some ⟨.stopTrack, fun cell => (.stopTrack (.send cell trackUid), [])⟩
  | .send cell trackUid, .go =>
    some ⟨.sendBin (.cmd (.trackStop trackUid)) none, fun
      | .error e => (.stopTrack (.failed e), [])
      | .ok _ => (.stopTrack (.reply cell), [])⟩
  | .failed e, .go => some ⟨.stopFailed, fun _ => (.returned (.unit (.error e)), [])⟩
  | .reply cell, .go =>
    some ⟨.poll cell, fun
      | .waiting => (.stopTrack (.reply cell), [])
      | .sent r => (.returned (.unit (r.map fun _ => ())), [])
      | .dropped => (.returned (.unit (.error (newError .tryAgain "stop cancelled"))), [])⟩
  | _, _ => none

/-- `send_event`. -/
def sendEventAct : EventPc → Input → Option (Act Section Task)
  | .start payload, .clock now _ =>
    if maxEventBytes < payload.length then
      some ⟨.nop, fun _ =>
        (.returned (.sendEvent (.error (newError .invalid "event payload exceeds 4 KiB"))), [])⟩
    else
      some ⟨.sendEvent now, fun
        | .inl r => (.returned (.sendEvent r), [])
        | .inr ticket => (.sendEvent (.send payload ticket), [])⟩
  | .send payload ticket, .clock _ wall =>
    some ⟨.sendBin (.cmd (.event "" payload (some wall))) (some ticket), fun r =>
      (.returned (.sendEvent (r.map fun _ => true)), [])⟩
  | _, _ => none

/-- `close`. -/
def closeAct : ClosePc → Input → Option (Act Section Task)
  | .read, .go =>
    some ⟨.readTrackUid, fun uid => (.close (if uid = "" then .final else .stop uid), [])⟩
  | .stop trackUid, .go =>
    some ⟨.sendBin (.cmd (.trackStop trackUid)) none, fun _ => (.close .final, [])⟩
  | .final, .go => some ⟨.closeFinal, fun _ => (.returned (.unit (.ok ())), [])⟩
  | _, _ => none

/-- The section a task issues when resumed, and what follows it. -/
def act : Task → Input → Option (Act Section Task)
  | .dial owner pc, c => dialAct owner pc c
  | .reader sock gen pc, c => readerAct sock gen pc c
  | .writer sock, .go => some ⟨.writerStop sock, fun _ => (.returned .none, [])⟩
  | .socketClosed cause gen, .random r =>
    some ⟨.socketClosed gen r, fun
      | none => (.returned .none, [])
      | some (sendResume, _) => (.reconnectSleep cause sendResume, [])⟩
  | .reconnectSleep cause sendResume, .go =>
    some ⟨.readIntentional, fun intentional =>
      (if intentional then .returned .none else .dial .reconnect (.begin cause sendResume), [])⟩
  | .authError gen pc, c => authAct gen pc c
  | .publish pc, c => publishAct pc c
  | .startTrack pc, c => startTrackAct pc c
  | .resume uid seq pc, c => resumeAct uid seq pc c
  | .stopTrack pc, c => stopTrackAct pc c
  | .sendEvent pc, c => sendEventAct pc c
  | .subscribe d, .go => some ⟨.subscribe d, fun _ => (.subscribeSend d, [])⟩
  | .subscribeSend d, .go =>
    some ⟨.sendBin (.cmd (.subscribe d true 0)) none, fun r => (.returned (.unit r), [])⟩
  | .unsubscribe d, .go =>
    some ⟨.unsubscribe d, fun
      | some sub => (.unsubscribeSend sub, [])
      | none => (.returned (.unit (.ok ())), [])⟩
  | .unsubscribeSend sub, .go =>
    some ⟨.sendBin (.cmd (.unsubscribe sub)) none, fun r => (.returned (.unit r), [])⟩
  | .ackCommand id status message, .go =>
    some ⟨.sendBin (.cmd (.commandAck id status message)) none, fun r =>
      (.returned (.unit r), [])⟩
  | .close pc, c => closeAct pc c
  | .recv, .go =>
    some ⟨.recv, fun
      | some evt => (.returned (.recv evt), [])
      | none => (.recv, [])⟩
  | .recvCommand, .go =>
    some ⟨.recvCommand, fun
      | some c => (.returned (.recvCommand c), [])
      | none => (.recvCommand, [])⟩
  | _, _ => none

/-- Whether a task is a call a holder of the session can make. -/
def isCall : Task → Bool
  | .publish (.start _) | .startTrack (.start _ _ _) | .resume _ _ .lock
  | .stopTrack (.read _) | .sendEvent (.start _) | .subscribe _ | .unsubscribe _
  | .ackCommand _ _ _ | .close .read | .recv | .recvCommand => true
  | _ => false

end Task

/-- The tracking client. Calls come in once `connect` has returned. -/
def client (geo : Geo) : Machine Shared Task Input where
  Op := Section
  run := Section.run geo
  act := Task.act
  entry s t := s.connected == some true && t.isCall

/-- `connect`: the checks on the configuration and the session it dials. -/
def connect (cfg : Config) (now : Instant) : Except Error (Pool Shared Task) :=
  if cfg.endpoint = "" then .error (newError .invalid "Endpoint is required")
  else if cfg.device.isNone ∧ cfg.listener.isNone then
    .error (newError .invalid "Device or Listener auth is required")
  else .ok { shared := { inner := Inner.new cfg now }, tasks := [.dial .connect (.begin 0 false)] }

/-- The pools `connect` starts from. -/
def Started (cfg : Config) (p : Pool Shared Task) : Prop := ∃ now, connect cfg now = .ok p

end Tracking

end Pickpoint
