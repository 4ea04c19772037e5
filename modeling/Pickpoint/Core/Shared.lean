import Pickpoint.Core.Inner

/-!
# Shared State

Everything the tasks of a session share: the locked fields, the sockets, the
oneshot cells callers wait on, and the two receive channels.

Each socket keeps a `wire`, the traffic seen by the client's end of it, newest
entry first: what was handed to its outbound channel and which events were
dispatched from it. `built` keeps the Loc frames built so far, each with the
socket that was current at that moment, the numbering it belongs to, and the
queue entries it was built from. `epoch` counts how often the numbering of
points was restarted. `wire`, `built`, `epoch` and the tickets that carry them
are read by no section; they let statements talk about the past.

## Main definitions

* `Oneshot`, `Reply`: The cells callers wait on.
* `Frame`, `Outbound`, `Traffic`, `Ticket`: What a socket sees.
* `Socket`: One dialed connection.
* `Shared`: The shared state.
* `Shared.handOver`: Put a message on a socket's outbound channel.
* `Shared.rejectPending`: Fail every waiter.
-/

namespace Pickpoint

namespace Tracking

/-- What a waiter is told. A started track fills `uid`, a resumed one `seq`. -/
structure Reply where
  uid : String := ""
  seq : Nat := 0
  deriving DecidableEq, Repr

/-- A oneshot channel. It ends once, with a reply or with its sender dropped, and
    nothing changes it after that. -/
inductive Oneshot where
  | waiting
  | sent (r : Except Error Reply)
  | dropped

/-- A message for the server: an encoded command, or a Loc frame. -/
inductive Frame where
  | cmd (c : ClientCmd)
  | loc (f : LocFrame)
  deriving DecidableEq

/-- What goes over an outbound channel. -/
inductive Outbound where
  | bin (frame : Frame)
  | close
  deriving DecidableEq

/-- When a data frame was built: the current socket and the numbering. The client
    keeps no such thing; it is carried along to compare with what is current when
    the frame is handed over. -/
structure Ticket where
  sock : Option Nat
  epoch : Nat
  deriving DecidableEq

/-- One entry of a socket's wire: what was handed to it, with the ticket of a data
    frame, or an event that was dispatched from it. -/
inductive Traffic where
  | sent (out : Outbound) (ticket : Option Ticket)
  | got (evt : ServerEvt)
  deriving DecidableEq

/-- A socket that became current. `writing` says whether its writer task
    still holds the receiving end of the outbound channel. -/
structure Socket where
  gen : Nat
  writing : Bool
  wire : List Traffic
  deriving DecidableEq

/-- A Loc frame together with when and from what it was built: the numbers and
    points of the queue entries it carries. -/
structure Built where
  ticket : Ticket
  frame : LocFrame
  carried : List (Nat × LatLng)
  deriving DecidableEq

/-- The shared state. `connected` is `none` while `connect` is dialing, and
    then says whether it returned a session. -/
structure Shared where
  inner : Inner
  sockets : List Socket := []
  cells : List Oneshot := []
  recvq : List ServerEvt := []
  cmdq : List Command := []
  connected : Option Bool := none
  built : List Built := []
  epoch : Nat := 0

namespace Shared

/-- Capacity of the event channel. -/
def recvCapacity : Nat := 64

/-- Capacity of the command channel. -/
def cmdCapacity : Nat := 16

/-- A new oneshot cell. -/
def newCell (s : Shared) : Shared × Nat :=
  ({ s with cells := s.cells ++ [.waiting] }, s.cells.length)

/-- Drop the sender of a cell. -/
def dropCell (s : Shared) : Option Nat → Shared
  | none => s
  | some c =>
    match s.cells[c]? with
    | some .waiting => { s with cells := s.cells.set c .dropped }
    -- Who has been told is not told again.
    | _ => s

/-- Send on a cell. -/
def resolve (s : Shared) (cell : Option Nat) (r : Except Error Reply) : Shared :=
  match cell with
  | none => s
  | some c =>
    match s.cells[c]? with
    | some .waiting => { s with cells := s.cells.set c (.sent r) }
    | _ => s

/-- Add an entry to a socket's wire. -/
def logTraffic (s : Shared) (sock : Nat) (t : Traffic) : Shared :=
  { s with sockets := s.sockets.modify sock fun k => { k with wire := t :: k.wire } }

/-- An event is dispatched from a socket. -/
def receive (s : Shared) (sock : Nat) (evt : ServerEvt) : Shared :=
  s.logTraffic sock (.got evt)

/-- Put a message on a socket's outbound channel; `none` when its receiving
    end is gone. -/
def handOver (s : Shared) (sock : Nat) (out : Outbound) (ticket : Option Ticket) :
    Option Shared :=
  match s.sockets[sock]? with
  | none => none
  | some k => if k.writing then some (s.logTraffic sock (.sent out ticket)) else none

/-- Give up the current socket and ask its writer to close it. -/
def hangUp (s : Shared) : Shared :=
  let s' := { s with inner := { s.inner with outTx := none } }
  match s.inner.outTx with
  | none => s'
  -- The `Close` is lost when the writer is gone.
  | some sock => (s'.handOver sock .close none).getD s'

/-- `reject_pending_locked`: fail the pending start, stop and resume. -/
def rejectPending (s : Shared) (err : Error) : Shared :=
  let s := s.resolve s.inner.startWait (.error err)
  let s := s.resolve s.inner.stopWait (.error err)
  let s := s.resolve s.inner.resumeWait (.error err)
  { s with inner := { s.inner with startWait := none, stopWait := none, resumeWait := none } }

/-- Clear a live track the way the event handlers do. -/
def dropTrack (g : Inner) : Inner :=
  { g with trackUid := "", queue := g.queue.clear, sessionReady := false }

/-- The ticket of a frame built now. -/
def ticket (s : Shared) : Ticket := { sock := s.inner.outTx, epoch := s.epoch }

/-- The frames of a flush with the queue entries they were built from. -/
def carry (ticket : Ticket) : List QueuedPoint → List LocFrame → List Built
  | _, [] => []
  | queued, f :: fs =>
    -- Frames take the points in order, so each is built from the next ones.
    { ticket := ticket, frame := f,
      carried := (queued.take f.points.length).map fun p => (p.seq, p.point) } ::
      carry ticket (queued.drop f.points.length) fs

end Shared

end Tracking

end Pickpoint
