import Pickpoint.Theory.Link
import Pickpoint.Interleave.Rules

/-!
# Lineage of Tasks

What a task can become and which tasks it can spawn. A statement about one
kind of task then needs no look at the others.

A task stays what it is or returns, except that the reconnect task and the
auth handler end by dialing. New tasks come from three places only: an
install spawns the writer and the reader of the new socket, a reader spawns
the handlers of what it read, and a failed reconnect dial spawns the close
handler again.

## Main definitions

* `Kind`, `Task.kind`: The function a task is suspended in.
* `Kind.Follows`, `Kind.Becomes`: What may follow a task.
* `Sends`: The tasks that are about to hand a frame over.

## Theorems

* `next_cases`, `heir_kind`: What a task becomes.
* `heir_gives`: A task gives the answers of its own function.
* `spawned_cases`: Which tasks a task spawns.
* `act_madeBy`: Which task makes a move of the connection.
* `act_issuer`: Which function a section belongs to.
* `act_hears`: Which task dispatches an event.
* `act_sends`: Which task hands a frame over.
-/

namespace Pickpoint

namespace Tracking

open Interleave

/-- The function a task is suspended in. -/
inductive Kind where
  | dial
  | reader
  | writer
  | lost
  | auth
  | publish
  | startTrack
  | resume
  | stopTrack
  | sendEvent
  | subscribe
  | unsubscribe
  | ackCommand
  | close
  | recv
  | returned
  deriving DecidableEq, Repr

/-- The function a task is suspended in. -/
def Task.kind : Task → Kind
  | .dial _ _ => .dial
  | .reader _ _ _ => .reader
  | .writer _ => .writer
  | .socketClosed _ _ | .reconnectSleep _ _ => .lost
  | .authError _ _ => .auth
  | .publish _ => .publish
  | .startTrack _ => .startTrack
  | .resume _ _ _ => .resume
  | .stopTrack _ => .stopTrack
  | .sendEvent _ => .sendEvent
  | .subscribe _ | .subscribeSend _ => .subscribe
  | .unsubscribe _ | .unsubscribeSend _ => .unsubscribe
  | .ackCommand _ _ _ => .ackCommand
  | .close _ => .close
  | .recv | .recvCommand => .recv
  | .returned _ => .returned

/-- What may follow a task of kind `k`. -/
def Kind.Follows (k : Kind) (t : Task) : Prop :=
  t.kind = k ∨ t.kind = .returned ∨
    ((k = .lost ∨ k = .auth) ∧ ∃ owner gen resume, t = .dial owner (.begin gen resume))

/-- A reader stays a reader while it dispatches. -/
theorem dispatchAct_next (sock gen : Nat) (evt : ServerEvt)
    (r : (Task.dispatchAct sock gen evt).α) :
    ∃ pc, ((Task.dispatchAct sock gen evt).next r).1 = .reader sock gen pc := by
  cases evt <;> exact ⟨_, rfl⟩

/-- The function whose answer this is, where just one gives such answers. -/
def Task.gives : Task → Option Kind
  | .returned (.publish _ _) => some .publish
  | .returned (.startTrack _) => some .startTrack
  | .returned (.resume _) => some .resume
  | .returned (.sendEvent _) => some .sendEvent
  | _ => none

/-- What a task of kind `k` may become. -/
def Kind.Becomes (k : Kind) (t : Task) : Prop :=
  t.kind = k ∨ (t.kind = .returned ∧ ∀ k', t.gives = some k' → k = k') ∨
    ((k = .lost ∨ k = .auth) ∧ ∃ owner gen resume, t = .dial owner (.begin gen resume))

/-- A task stays what it is, or returns an answer of its own, or goes on to dial. -/
theorem next_cases (t : Task) (c : Input) (a : Act Section Task) (h : t.act c = some a)
    (r : a.α) : t.kind.Becomes (a.next r).1 := by
  -- The ways to go on: as before, by returning something, or by dialing.
  have hstay : ∀ (k : Kind) (u : Task), u.kind = k → k.Becomes u := fun _ _ hu => Or.inl hu
  have hend : ∀ (k : Kind) (u : Task), u.kind = .returned → u.gives = none → k.Becomes u :=
    fun _ _ hu hnone => Or.inr (Or.inl ⟨hu, fun _ hk => by cases hnone.symm.trans hk⟩)
  have hret : ∀ (k : Kind) (u : Task), u.kind = .returned → u.gives = some k → k.Becomes u :=
    fun _ _ hu hgives => Or.inr (Or.inl ⟨hu, fun _ hk => Option.some.inj (hgives.symm.trans hk)⟩)
  have hdial : ∀ (k : Kind) owner gen resume, k = .lost ∨ k = .auth →
      k.Becomes (.dial owner (.begin gen resume)) :=
    fun _ _ _ _ hk => Or.inr (Or.inr ⟨hk, _, _, _, rfl⟩)
  revert h
  cases t with
  | dial owner pc =>
      simp only [Task.act]
      fun_cases Task.dialAct owner pc c <;> intro h <;> cases h <;> dsimp only <;>
        (try split) <;> first | exact hstay _ _ rfl | exact hend _ _ rfl rfl
  | reader sock gen pc =>
      simp only [Task.act]
      fun_cases Task.readerAct sock gen pc c <;> intro h <;> cases h
      -- What a reader does with a frame is given by the dispatcher of the frame.
      case reader.case1.refl msg =>
        rcases dispatchAct_next sock gen msg r with ⟨pc, hpc⟩
        rw [hpc]
        exact hstay _ _ rfl
      all_goals
        dsimp only
        (try split) <;> first | exact hstay _ _ rfl | exact hend _ _ rfl rfl
  | authError gen pc =>
      simp only [Task.act]
      fun_cases Task.authAct gen pc c <;> intro h <;> cases h <;> dsimp only <;>
        (try split) <;>
        first | exact hstay _ _ rfl | exact hend _ _ rfl rfl | exact hdial _ _ _ _ (Or.inr rfl)
  -- After its sleep a lost connection dials, unless the client was closed.
  | reconnectSleep cause resume =>
      cases c <;> intro h <;> cases h
      dsimp only
      split
      · exact hend _ _ rfl rfl
      · exact hdial _ _ _ _ (Or.inl rfl)
  | publish pc =>
      simp only [Task.act]
      fun_cases Task.publishAct pc c <;> intro h <;> cases h <;> dsimp only <;>
        (try split) <;> first | exact hstay _ _ rfl | exact hret _ _ rfl rfl
  | startTrack pc =>
      simp only [Task.act]
      fun_cases Task.startTrackAct pc c <;> intro h <;> cases h <;> dsimp only <;>
        (try split) <;> first | exact hstay _ _ rfl | exact hret _ _ rfl rfl
  | resume uid seq pc =>
      simp only [Task.act]
      fun_cases Task.resumeAct uid seq pc c <;> intro h <;> cases h <;> dsimp only <;>
        (try split) <;> (try split) <;> first | exact hstay _ _ rfl | exact hret _ _ rfl rfl
  | stopTrack pc =>
      simp only [Task.act]
      fun_cases Task.stopTrackAct pc c <;> intro h <;> cases h <;> dsimp only <;>
        (try split) <;> (try split) <;> first | exact hstay _ _ rfl | exact hend _ _ rfl rfl
  | sendEvent pc =>
      simp only [Task.act]
      fun_cases Task.sendEventAct pc c <;> intro h <;> cases h <;> dsimp only <;>
        (try split) <;> first | exact hstay _ _ rfl | exact hret _ _ rfl rfl
  | close pc =>
      simp only [Task.act]
      fun_cases Task.closeAct pc c <;> intro h <;> cases h <;> dsimp only <;>
        (try split) <;> first | exact hstay _ _ rfl | exact hend _ _ rfl rfl
  | returned r => cases c <;> intro h <;> cases h
  | _ =>
      cases c <;> intro h <;> cases h
      dsimp only
      (try split) <;> first | exact hstay _ _ rfl | exact hend _ _ rfl rfl

/-- A task stays what it is or returns, or goes on to dial. -/
theorem heir_kind (geo : Geo) (t : Task) (c : Input) (a : Act Section Task) (s : Shared)
    (h : t.act c = some a) : t.kind.Follows ((client geo).heir a s) :=
  (next_cases t c a h _).imp id (Or.imp And.left id)

/-- A task gives no answer of another function. -/
theorem heir_gives (geo : Geo) (t : Task) (c : Input) (a : Act Section Task) (s : Shared)
    (h : t.act c = some a) (k : Kind) (hk : ((client geo).heir a s).gives = some k) :
    t.kind = k := by
  have hreturned : ∀ u : Task, u.gives = some k → u.kind = .returned := by
    intro u hu
    cases u with
    | returned r => rfl
    | _ => cases hu
  rcases next_cases t c a h ((client geo).run a.op s).2 with hkind | ⟨_, hgives⟩ | ⟨_, _, _, _, hu⟩
  · -- What has returned takes no step.
    have hret : t.kind = .returned := hkind.symm.trans (hreturned _ hk)
    cases t with
    | returned r => cases c <;> cases h
    | _ => cases hret
  · exact hgives k hk
  · have hgives : (a.next ((client geo).run a.op s).2).1.gives = some k := hk
    rw [hu] at hgives
    cases hgives

/-- Close handlers are spawned, never continued into. -/
theorem heir_ne_socketClosed (geo : Geo) (t : Task) (c : Input) (a : Act Section Task)
    (s : Shared) (h : t.act c = some a) (cause gen : Nat) :
    (client geo).heir a s ≠ .socketClosed cause gen := by
  intro hheir
  have hkind := heir_kind geo t c a s h
  rw [hheir] at hkind
  rcases hkind with hk | hk | ⟨_, _, _, _, hk⟩
  · revert hheir
    unfold Machine.heir
    revert h
    cases t with
    | socketClosed cause' gen' =>
        cases c <;> intro h <;> cases h
        dsimp only
        split <;> rintro ⟨⟩
    | reconnectSleep cause' resume =>
        cases c <;> intro h <;> cases h
        dsimp only
        split <;> rintro ⟨⟩
    | _ => cases hk
  · cases hk
  · cases hk

/-- The handlers a reader spawns while it dispatches. -/
theorem dispatchAct_spawned (sock gen : Nat) (evt : ServerEvt)
    (r : (Task.dispatchAct sock gen evt).α) (u : Task)
    (hu : u ∈ ((Task.dispatchAct sock gen evt).next r).2) :
    u = .authError gen .lookup ∨ ∃ rel, u = .dial .relocate (.relocate gen rel true) := by
  cases evt with
  | relocate endpoint ms => exact Or.inr ⟨_, List.mem_singleton.mp hu⟩
  | error code message uid ms =>
      simp only [Task.dispatchAct] at hu
      split at hu
      · exact Or.inl (List.mem_singleton.mp hu)
      · exact absurd hu List.not_mem_nil
  | _ => exact absurd hu List.not_mem_nil

/-- Where new tasks come from. -/
theorem spawned_cases (geo : Geo) (t : Task) (c : Input) (a : Act Section Task) (s : Shared)
    (h : t.act c = some a) (u : Task) (hu : u ∈ (client geo).spawned a s) :
    (∃ owner resume, t = .dial owner (.install s.inner.dialGen resume) ∧
      s.inner.intentional = false ∧
      (u = .writer s.sockets.length ∨ u = .reader s.sockets.length s.inner.dialGen .reading)) ∨
    (∃ sock gen, t = .reader sock gen .reading ∧
      (u = .socketClosed gen gen ∨ u = .authError gen .lookup ∨
        ∃ rel, u = .dial .relocate (.relocate gen rel true))) ∨
    (∃ gen e, t = .dial .reconnect (.finished gen (.error e)) ∧
      u = .socketClosed gen s.inner.dialGen) := by
  have hnone : ∀ {P : Prop}, u ∈ ([] : List Task) → P := fun h => absurd h List.not_mem_nil
  revert hu
  unfold Machine.spawned
  revert h
  -- Tasks are started by an install, by a reader, and by a reconnect that failed.
  cases t with
  | dial owner pc =>
      simp only [Task.act]
      fun_cases Task.dialAct owner pc c <;> intro h <;> cases h
      case dial.case6.refl gen resume =>
        have hrun : (client geo).run (Section.dialInstall gen) s = dialInstall gen s := rfl
        rcases dialInstall_cases gen s with ⟨_, hi⟩ | ⟨rfl, hint, hi⟩
        · simp only [hrun, hi]
          exact hnone
        · simp only [hrun, hi, List.mem_cons, List.not_mem_nil, or_false]
          exact fun hu => Or.inl ⟨owner, resume, rfl, hint, hu⟩
      case dial.case18.refl gen e =>
        exact fun hu => Or.inr (Or.inr ⟨gen, e, rfl, List.mem_singleton.mp hu⟩)
      all_goals
        dsimp only
        (try split) <;> exact hnone
  | reader sock gen pc =>
      simp only [Task.act]
      fun_cases Task.readerAct sock gen pc c <;> intro h <;> cases h
      case reader.case1.refl msg =>
        exact fun hu => Or.inr (Or.inl ⟨sock, gen, rfl,
          Or.inr (dispatchAct_spawned sock gen msg _ u hu)⟩)
      case reader.case2.refl =>
        exact fun hu => Or.inr (Or.inl ⟨sock, gen, rfl, Or.inl (List.mem_singleton.mp hu)⟩)
      all_goals
        dsimp only
        (try split) <;> exact hnone
  | authError gen pc =>
      simp only [Task.act]
      fun_cases Task.authAct gen pc c <;> intro h <;> cases h <;> exact hnone
  | publish pc =>
      simp only [Task.act]
      fun_cases Task.publishAct pc c <;> intro h <;> cases h <;> dsimp only <;>
        (try split) <;> exact hnone
  | startTrack pc =>
      simp only [Task.act]
      fun_cases Task.startTrackAct pc c <;> intro h <;> cases h <;> dsimp only <;>
        (try split) <;> exact hnone
  | resume uid seq pc =>
      simp only [Task.act]
      fun_cases Task.resumeAct uid seq pc c <;> intro h <;> cases h <;> dsimp only <;>
        (try split) <;> exact hnone
  | stopTrack pc =>
      simp only [Task.act]
      fun_cases Task.stopTrackAct pc c <;> intro h <;> cases h <;> dsimp only <;>
        (try split) <;> exact hnone
  | sendEvent pc =>
      simp only [Task.act]
      fun_cases Task.sendEventAct pc c <;> intro h <;> cases h <;> dsimp only <;>
        (try split) <;> exact hnone
  | close pc =>
      simp only [Task.act]
      fun_cases Task.closeAct pc c <;> intro h <;> cases h <;> exact hnone
  | returned r => cases c <;> intro h <;> cases h
  | _ =>
      cases c <;> intro h <;> cases h
      dsimp only
      (try split) <;> exact hnone

/-- Which task makes a move of the connection. -/
def Drive.MadeBy (t : Task) : Drive → Prop
  | .begin => ∃ owner gen resume, t = .dial owner (.begin gen resume)
  | .install gen => ∃ owner resume, t = .dial owner (.install gen resume)
  | .bind sock => ∃ gen, t = .reader sock gen .reading
  | .refresh => ∃ gen device listener, t = .authError gen (.refreshed device listener)
  | .lose gen => ∃ cause, t = .socketClosed cause gen
  | .idle | .unbind | .shut => True

/-- The function a section is a block of, for the sections that belong to one
    function. -/
def Section.issuer : {α : Type} → Section α → Option Kind
  | _, .dialBegin | _, .dialInstall _ | _, .relocateEndpoint _ | _, .relocateCheck _
  | _, .readDialGen | _, .resubscribe | _, .resumeLock | _, .connectReturn _ => some .dial
  | _, .receive _ _ | _, .dispatchResumeOk _ _ _ | _, .dispatchTrackStarted _ _ _
  | _, .dispatchTrackStopped _ _ | _, .dispatchAck _ _ | _, .dispatchError _ _
  | _, .dispatchSubscribed _ _ _ _ | _, .dispatchStamp _ _ _ | _, .dispatchCommand _ _
  | _, .settle _ _ _ | _, .flush => some .reader
  | _, .authLookup | _, .authClose | _, .authRefreshed _ _ | _, .authFailed => some .auth
  | _, .socketClosed _ _ => some .lost
  | _, .startTrack _ _ | _, .startFailed => some .startTrack
  | _, .resumeTrack _ _ | _, .resumeFailed => some .resume
  | _, .publishStart _ _ | _, .publishStartFailed | _, .publishWork _ _ _ => some .publish
  | _, .stopTrack | _, .stopFailed => some .stopTrack
  | _, .sendEvent _ => some .sendEvent
  | _, .subscribe _ => some .subscribe
  | _, .unsubscribe _ => some .unsubscribe
  | _, .closeFinal => some .close
  | _, .writerStop _ => some .writer
  | _, .recv | _, .recvCommand => some .recv
  | _, .nop | _, .sendBin _ _ | _, .readTrackUid | _, .readIntentional | _, .poll _ => none

/-- A section is issued by the function it is a block of. -/
theorem act_issuer (t : Task) (c : Input) (a : Act Section Task) (h : t.act c = some a)
    (k : Kind) (hk : a.op.issuer = some k) : t.kind = k := by
  revert hk
  revert h
  cases t with
  -- Each kind of task issues the sections of its own function.
  | dial owner pc =>
      simp only [Task.act]
      fun_cases Task.dialAct owner pc c <;> intro h <;> cases h <;> intro hk <;> cases hk <;> rfl
  | reader sock gen pc =>
      simp only [Task.act]
      fun_cases Task.readerAct sock gen pc c <;> intro h <;> cases h
      -- A frame is dispatched by a section that belongs to its event.
      case reader.case1.refl msg => cases msg <;> intro hk <;> cases hk <;> rfl
      all_goals
        intro hk
        cases hk <;> rfl
  | authError gen pc =>
      simp only [Task.act]
      fun_cases Task.authAct gen pc c <;> intro h <;> cases h <;> intro hk <;> cases hk <;> rfl
  | publish pc =>
      simp only [Task.act]
      fun_cases Task.publishAct pc c <;> intro h <;> cases h <;> intro hk <;> cases hk <;> rfl
  | startTrack pc =>
      simp only [Task.act]
      fun_cases Task.startTrackAct pc c <;> intro h <;> cases h <;> intro hk <;> cases hk <;> rfl
  | resume uid seq pc =>
      simp only [Task.act]
      fun_cases Task.resumeAct uid seq pc c <;> intro h <;> cases h <;> intro hk <;> cases hk <;>
        rfl
  | stopTrack pc =>
      simp only [Task.act]
      fun_cases Task.stopTrackAct pc c <;> intro h <;> cases h <;> intro hk <;> cases hk <;> rfl
  | sendEvent pc =>
      simp only [Task.act]
      fun_cases Task.sendEventAct pc c <;> intro h <;> cases h <;> intro hk <;> cases hk
      rfl
  | close pc =>
      simp only [Task.act]
      fun_cases Task.closeAct pc c <;> intro h <;> cases h <;> intro hk <;> cases hk
      rfl
  | returned r => cases c <;> intro h <;> cases h
  | _ =>
      cases c <;> intro h <;> cases h
      intro hk
      cases hk <;> rfl

/-- Events are dispatched by the reader of the socket they came from. -/
theorem act_hears (t : Task) (c : Input) (a : Act Section Task) (h : t.act c = some a)
    (k : Nat) (evt : ServerEvt) (hh : a.op.hears = some (k, evt)) :
    ∃ gen, t = .reader k gen .reading ∧ a = Task.dispatchAct k gen evt := by
  have hissuer : a.op.issuer = some .reader := by
    rcases a with ⟨op, next⟩
    cases op <;> first | rfl | cases hh
  have hkind := act_issuer t c a h .reader hissuer
  revert hh
  revert h
  cases t with
  | reader sock gen pc =>
      simp only [Task.act]
      fun_cases Task.readerAct sock gen pc c <;> intro h <;> cases h
      case reader.case1.refl msg =>
        have hmsg : (Task.dispatchAct sock gen msg).op.hears = some (sock, msg) := by
          cases msg <;> rfl
        intro hh
        cases hmsg.symm.trans hh
        exact ⟨gen, rfl, rfl⟩
      all_goals rintro ⟨⟩
  | _ => cases hkind

/-- A move of the connection is made by one of these tasks. -/
theorem act_madeBy (t : Task) (c : Input) (a : Act Section Task) (h : t.act c = some a) :
    a.op.drive.MadeBy t := by
  -- The sections that move it are blocks of four functions.
  have hother : t.kind ≠ .dial → t.kind ≠ .reader → t.kind ≠ .auth → t.kind ≠ .lost →
      a.op.drive.MadeBy t := by
    intro hdial hreader hauth hlost
    have hissuer := act_issuer t c a h
    rcases a with ⟨op, next⟩
    cases op with
    | dialBegin => exact absurd (hissuer _ rfl) hdial
    | dialInstall gen => exact absurd (hissuer _ rfl) hdial
    | dispatchResumeOk sock uid seq => exact absurd (hissuer _ rfl) hreader
    | dispatchTrackStarted sock uid metadata => exact absurd (hissuer _ rfl) hreader
    | authRefreshed device listener => exact absurd (hissuer _ rfl) hauth
    | socketClosed gen random => exact absurd (hissuer _ rfl) hlost
    | _ => trivial
  revert h
  cases t with
  | dial owner pc =>
      simp only [Task.act]
      fun_cases Task.dialAct owner pc c <;> intro h <;> cases h <;>
        first | trivial | exact ⟨_, _, _, rfl⟩ | exact ⟨_, _, rfl⟩
  | reader sock gen pc =>
      simp only [Task.act]
      fun_cases Task.readerAct sock gen pc c <;> intro h <;> cases h
      case reader.case1.refl msg => cases msg <;> first | trivial | exact ⟨_, rfl⟩
      all_goals trivial
  | authError gen pc =>
      simp only [Task.act]
      fun_cases Task.authAct gen pc c <;> intro h <;> cases h <;>
        first | trivial | exact ⟨_, _, _, rfl⟩
  | socketClosed cause gen =>
      cases c <;> intro h <;> cases h
      exact ⟨_, rfl⟩
  | reconnectSleep cause resume =>
      cases c <;> intro h <;> cases h
      trivial
  | _ => exact fun _ => hother (by rintro ⟨⟩) (by rintro ⟨⟩) (by rintro ⟨⟩) (by rintro ⟨⟩)

/-- The tasks that are about to hand a frame to `send_bin`, each with its frame
    and ticket. -/
inductive Sends : Task → Frame → Option Ticket → Prop where
  | dialResume (owner : Owner) (gen cell : Nat) (uid : String) (seq : Nat) :
    Sends (.dial owner (.resumeSend gen cell uid seq)) (.cmd (.resume uid seq)) none
  | dialSubscribe (owner : Owner) (gen : Nat) (d : String) (ds : List String) :
    Sends (.dial owner (.subscribing gen (d :: ds))) (.cmd (.subscribe d true 0)) none
  | readerFlush (sock gen : Nat) (ticket : Ticket) (f : LocFrame) (fs : List LocFrame)
      (cell : Option Nat) (r : Except Error Reply) (forward : Option ServerEvt) :
    Sends (.reader sock gen (.sending ticket (f :: fs) cell r forward)) (.loc f) (some ticket)
  | publishStart (location : LatLng) :
    Sends (.publish (.sendStart location)) (.cmd (.trackStart (some location) [] [])) none
  | publish (seq : Nat) (point : LatLng) (ticket : Ticket) :
    Sends (.publish (.send seq point ticket)) (.cmd (.locationAdd "" seq point)) (some ticket)
  | startTrack (cell : Nat) (loc : Option LatLng) (route : List LatLng) (metadata : Bytes)
      (wall : Int) :
    Sends (.startTrack (.send cell loc route metadata))
      (.cmd (.trackStart (loc.map (stampLatLng wall)) (stampLatLngs wall route) metadata)) none
  | resume (uid : String) (seq cell : Nat) :
    Sends (.resume uid seq (.send cell)) (.cmd (.resume uid seq)) none
  | stopTrack (cell : Nat) (uid : String) :
    Sends (.stopTrack (.send cell uid)) (.cmd (.trackStop uid)) none
  | sendEvent (payload : Bytes) (ticket : Ticket) (wall : Int) :
    Sends (.sendEvent (.send payload ticket)) (.cmd (.event "" payload (some wall))) (some ticket)
  | close (uid : String) : Sends (.close (.stop uid)) (.cmd (.trackStop uid)) none
  | subscribe (d : String) : Sends (.subscribeSend d) (.cmd (.subscribe d true 0)) none
  | unsubscribe (sub : UInt8) : Sends (.unsubscribeSend sub) (.cmd (.unsubscribe sub)) none
  | ackCommand (id : String) (status : CommandAckStatus) (message : Option String) :
    Sends (.ackCommand id status message) (.cmd (.commandAck id status message)) none

/-- A frame is handed over by one of these tasks. -/
theorem act_sends (t : Task) (c : Input) (a : Act Section Task) (h : t.act c = some a)
    (frame : Frame) (ticket : Option Ticket) (hop : a.op.hands = some (.bin frame, ticket)) :
    Sends t frame ticket := by
  revert hop
  revert h
  cases t with
  | dial owner pc =>
      simp only [Task.act]
      fun_cases Task.dialAct owner pc c <;> intro h <;> cases h <;> intro hop <;> cases hop <;>
        constructor
  | reader sock gen pc =>
      simp only [Task.act]
      fun_cases Task.readerAct sock gen pc c <;> intro h <;> cases h
      -- The sections of dispatch hand nothing over.
      case reader.case1.refl msg => cases msg <;> rintro ⟨⟩
      case reader.case4.refl =>
        intro hop
        cases hop
        constructor
      all_goals rintro ⟨⟩
  | authError gen pc =>
      simp only [Task.act]
      fun_cases Task.authAct gen pc c <;> intro h <;> cases h <;> rintro ⟨⟩
  | publish pc =>
      simp only [Task.act]
      fun_cases Task.publishAct pc c <;> intro h <;> cases h <;> intro hop <;> cases hop <;>
        constructor
  | startTrack pc =>
      simp only [Task.act]
      fun_cases Task.startTrackAct pc c <;> intro h <;> cases h <;> intro hop <;> cases hop
      constructor
  | resume uid seq pc =>
      simp only [Task.act]
      fun_cases Task.resumeAct uid seq pc c <;> intro h <;> cases h <;> intro hop <;> cases hop
      constructor
  | stopTrack pc =>
      simp only [Task.act]
      fun_cases Task.stopTrackAct pc c <;> intro h <;> cases h <;> intro hop <;> cases hop
      constructor
  | sendEvent pc =>
      simp only [Task.act]
      fun_cases Task.sendEventAct pc c <;> intro h <;> cases h <;> intro hop <;> cases hop
      constructor
  | close pc =>
      simp only [Task.act]
      fun_cases Task.closeAct pc c <;> intro h <;> cases h <;> intro hop <;> cases hop
      constructor
  | _ =>
      cases c <;> intro h <;> cases h <;> intro hop <;> cases hop <;> constructor

/-- What `connect` starts from: a fresh session and its first dial. -/
theorem started_pool (cfg : Config) (p : Pool Shared Task) (h : Started cfg p) :
    ∃ now, p = { shared := { inner := Inner.new cfg now }
                 tasks := [.dial .connect (.begin 0 false)] } := by
  rcases h with ⟨now, h⟩
  refine ⟨now, ?_⟩
  unfold connect at h
  split at h
  · cases h
  · split at h
    · cases h
    · exact (Except.ok.inj h).symm

/-- A call that has not started holds nothing. -/
theorem call_kind (t : Task) (h : t.isCall = true) :
    t.kind ≠ .dial ∧ t.kind ≠ .reader ∧ t.kind ≠ .lost ∧ t.kind ≠ .auth := by
  cases t with
  | dial owner pc => cases h
  | reader sock gen pc => cases h
  | socketClosed cause gen => cases h
  | reconnectSleep cause resume => cases h
  | authError gen pc => cases h
  | _ => exact ⟨by rintro ⟨⟩, by rintro ⟨⟩, by rintro ⟨⟩, by rintro ⟨⟩⟩

/-- Calls enter a connected session, at their first block. -/
theorem entry_iff (geo : Geo) (s : Shared) (t : Task) :
    (client geo).entry s t = true ↔ s.connected = some true ∧ t.isCall = true := by
  simp only [client, Bool.and_eq_true, beq_iff_eq]

end Tracking

end Pickpoint
