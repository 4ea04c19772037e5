import Pickpoint.Theory.Starting
import Pickpoint.Interleave.Tally

/-!
# Waiters

`start_track`, `stop_track` and `resume` install a waiter, send their command
and wait for the reply, and so does the `Resume` of a dial. A waiter makes
sense as long as its reply can still come: while its task has yet to send, and
from then on while the command is unanswered on the open socket of the current
generation.

The locked fields do not say which command a waiter belongs to, so a run keeps
a list of the commands that were handed over (`Handed`), each with its waiter,
its cell and its place on the wire.

A waiter can outlive its command. A dial, an auth error and the close handler
on its way to a redial all give the socket up without failing who waits on it,
and a `Resume` that `send_bin` refuses leaves its waiter behind
(`waiter_outlives_socket`). `keepsWaiters` is the condition that this does not
happen, and with it every waiter is answerable (`reach_answerable`).

## Main definitions

* `Waiter`, `Waiter.asks`, `Waiter.replies`: The three waiters, their commands
  and their replies.
* `Waiter.pendingAt`: A command on a wire has no reply yet.
* `Task.asking`: A task that has installed a waiter and not sent.
* `Handed`, `noteHanded`: The commands handed over for a waiter.
* `Answerable`: The reply of a waiter can still come.
* `keepsWaiters`: No step strands a waiter.

## Theorems

* `after_wait`: Who installs a waiter.
* `after_replied`: A reply takes its waiter.
* `run_given_up`: What happens to the waiters when the socket is given up.
* `reach_answerable`: Every waiter is answerable.
* `waiter_outlives_socket`: Not so in general.
-/

namespace Pickpoint

namespace Tracking

open Interleave

/-- What somebody can wait for. -/
inductive Waiter where
  | start
  | stop
  | resume
  deriving DecidableEq, Repr

/-- The cell a waiter is waited for on. -/
def Inner.wait (g : Inner) : Waiter → Option Nat
  | .start => g.startWait
  | .stop => g.stopWait
  | .resume => g.resumeWait

/-- The command of a waiter. -/
def Waiter.asks : Waiter → Traffic → Bool
  | .start, t => t.isTrackStart
  | .stop, t => t.isTrackStop
  | .resume, t => t.isResume

/-- The replies to a waiter; an `Error` is one to all of them. -/
def Waiter.replies : Waiter → Traffic → Bool
  | .start, t => t.isTrackStarted || t.isError
  | .stop, t => t.isTrackStopped || t.isError
  | .resume, t => t.isResumeOk || t.isError

/-- The entry at height `n` of a wire is the waiter's command, and nothing newer
    replies to it. -/
def Waiter.pendingAt (w : Waiter) (n : Nat) : List Traffic → Bool
  | [] => false
  | t :: wire => if wire.length = n then w.asks t else !w.replies t && w.pendingAt n wire

/-- A task that has installed a waiter and has yet to send its command. -/
def Task.asking : Task → Option (Waiter × Nat)
  | .startTrack (.send cell _ _ _) => some (.start, cell)
  | .stopTrack (.send cell _) => some (.stop, cell)
  | .resume _ _ (.send cell) => some (.resume, cell)
  | .dial _ (.resumeSend _ cell _ _) => some (.resume, cell)
  | _ => none

/-- A command that was handed over for a waiter: the cell it is waited for on
    and its place on the wire of a socket. -/
structure Handed where
  waiter : Waiter
  cell : Nat
  sock : Nat
  height : Nat
  deriving DecidableEq, Repr

/-- `send_bin` hands over what it is given. -/
def Shared.accepts (s : Shared) : Option Nat :=
  if s.inner.state = .closed ∧ s.inner.intentional then none
  else s.inner.outTx.filter fun k => s.writing k

/-- Note the command of a task that is asking, if it is accepted. -/
def noteHanded (p : Pool Shared Task) (_ : Nat) (t : Task) (_ : Act Section Task)
    (b : List Handed) : List Handed :=
  match t.asking, p.shared.accepts with
  | some (w, c), some k =>
    { waiter := w, cell := c, sock := k, height := (p.shared.wire k).length } :: b
  | _, _ => b

/-- Socket `k` is the open socket of the current generation. -/
def Link.Carries (l : Link) (k : Nat) : Prop :=
  l.current = some k ∧ l.state = .open ∧ l.gens[k]? = some l.dialGen

instance (l : Link) (k : Nat) : Decidable (l.Carries k) :=
  inferInstanceAs (Decidable (_ ∧ _ ∧ _))

/-- Some task has installed the waiter with this cell and has yet to send. -/
def asked (p : Pool Shared Task) (w : Waiter) (c : Nat) : Bool :=
  p.tasks.any fun t => t.asking == some (w, c)

/-- The reply of a waiter can still come: its task has yet to send, or its
    command is unanswered on the open socket of the current generation. -/
def Answerable (p : Pool Shared Task) (b : List Handed) (w : Waiter) (c : Nat) : Prop :=
  asked p w c = true ∨
    ∃ m ∈ b, m.waiter = w ∧ m.cell = c ∧ p.shared.link.Carries m.sock ∧
      w.pendingAt m.height (p.shared.wire m.sock) = true

/-- Every waiter is answerable. -/
def AllAnswerable (p : Pool Shared Task) (b : List Handed) : Prop :=
  ∀ w c, p.shared.inner.wait w = some c → Answerable p b w c

/-- The sections that give the socket up and leave the waiters as they are. -/
def Section.strands (s : Shared) : {α : Type} → Section α → Bool
  | _, .dialBegin => true
  | _, .authRefreshed _ _ => true
  | _, .authClose => true
  | _, .authFailed => true
  | _, .socketClosed gen random =>
    gen == s.inner.dialGen &&
      (s.inner.intentional ||
        (!s.inner.cfg.disableReconnect && (nextDelay s.inner.backoff random).isSome))
  | _, _ => false

/-- Whoever waits on this cell is still about to send. -/
def Waiter.unsent (p : Pool Shared Task) (w : Waiter) : Bool :=
  match p.shared.inner.wait w with
  | none => true
  | some c => asked p w c

/-- The next message is accepted, by the open socket of the current
    generation. -/
def Shared.acceptsCurrent (s : Shared) : Bool :=
  match s.accepts with
  | none => false
  | some k => decide (s.link.Carries k)

/-- The command of a waiter goes to the open socket of the current generation,
    and a section that gives the socket up meets no waiter whose command has
    gone out. -/
def keepsWaiters (p : Pool Shared Task) (_ : Nat) (t : Task) (a : Act Section Task) : Bool :=
  (match t.asking with
    | none => true
    | some (w, c) => p.shared.inner.wait w != some c || p.shared.acceptsCurrent) &&
  (!a.op.strands p.shared ||
    (Waiter.start.unsent p && Waiter.stop.unsent p && Waiter.resume.unsent p))

theorem asked_iff (p : Pool Shared Task) (w : Waiter) (c : Nat) :
    asked p w c = true ↔
      ∃ (j : Nat) (u : Task), p.tasks[j]? = some u ∧ u.asking = some (w, c) := by
  rw [asked, List.any_eq_true]
  constructor
  · rintro ⟨u, hu, hask⟩
    rcases List.mem_iff_getElem?.mp hu with ⟨j, hj⟩
    exact ⟨j, u, hj, beq_iff_eq.mp hask⟩
  · rintro ⟨j, u, hu, hask⟩
    exact ⟨u, List.mem_of_getElem? hu, beq_iff_eq.mpr hask⟩

/-! ## Wires -/

theorem pendingAt_lt (w : Waiter) (n : Nat) (wire : List Traffic)
    (h : w.pendingAt n wire = true) : n < wire.length := by
  induction wire with
  | nil => cases h
  | cons t wire ih =>
      rw [List.length_cons]
      by_cases hn : wire.length = n
      · omega
      · rw [Waiter.pendingAt, if_neg hn] at h
        have := ih (Bool.and_eq_true_iff.mp h).2
        omega

/-- A command is pending as soon as it is on the wire. -/
theorem pendingAt_self (w : Waiter) (t : Traffic) (wire : List Traffic) (h : w.asks t = true) :
    w.pendingAt wire.length (t :: wire) = true := by
  rw [Waiter.pendingAt, if_pos rfl]
  exact h

/-- It stays pending while no reply comes. -/
theorem pendingAt_cons (w : Waiter) (n : Nat) (t : Traffic) (wire : List Traffic)
    (ht : w.replies t = false) (h : w.pendingAt n wire = true) :
    w.pendingAt n (t :: wire) = true := by
  have hlt := pendingAt_lt w n wire h
  rw [Waiter.pendingAt, if_neg (by omega), ht, h]
  rfl

/-- What the client sends replies to nothing. -/
theorem replies_sent (w : Waiter) (out : Outbound) (ticket : Option Ticket) :
    w.replies (.sent out ticket) = false := by
  cases w <;> rfl

/-! ## The connection -/

-- Generations settle the install: the socket of the current generation is
-- there already, and no dial installs that generation again.
theorem move_carries (d : Drive) (l l' : Link) (hm : Link.Move d l l')
    (hfresh : ∀ gen, d = .install gen → gen ∉ l.gens) (k : Nat) (h : l.Carries k) :
    l'.Carries k ∨ d = .begin ∨ d = .refresh ∨ d = .lose l.dialGen ∨ d = .shut := by
  cases hm with
  | begin => exact Or.inr (Or.inl rfl)
  | refresh => exact Or.inr (Or.inr (Or.inl rfl))
  | lose => exact Or.inr (Or.inr (Or.inr (Or.inl rfl)))
  | shut => exact Or.inr (Or.inr (Or.inr (Or.inr rfl)))
  | install => exact absurd (List.mem_of_getElem? h.2.2) (hfresh _ rfl)
  | _ => exact Or.inl h

/-! ## Waiters and sections -/

/-- The waiter a section installs. -/
def Section.installs : {α : Type} → Section α → Option Waiter
  | _, .startTrack _ _ => some .start
  | _, .stopTrack => some .stop
  | _, .resumeTrack _ _ => some .resume
  | _, .resumeLock => some .resume
  | _, _ => none

theorem wait_congr (g g' : Inner) (hstart : g'.startWait = g.startWait)
    (hstop : g'.stopWait = g.stopWait) (hresume : g'.resumeWait = g.resumeWait) :
    g'.wait = g.wait := by
  funext w
  cases w
  · exact hstart
  · exact hstop
  · exact hresume

theorem wait_none (g : Inner) (hstart : g.startWait = none) (hstop : g.stopWait = none)
    (hresume : g.resumeWait = none) : g.wait = fun _ => none := by
  funext w
  cases w
  · exact hstart
  · exact hstop
  · exact hresume

/-- The close handler fails every waiter, or leaves them all alone because it is
    stale or strands them. -/
theorem socketClosed_wait (gen : Nat) (random : ℚ) (s : Shared) :
    ((socketClosed gen random s).1.inner.wait = s.inner.wait ∧
      (gen = s.inner.dialGen → (Section.socketClosed gen random).strands s = true)) ∨
      (socketClosed gen random s).1.inner.wait = fun _ => none := by
  by_cases hgen : gen = s.inner.dialGen
  · simp only [socketClosed, Section.strands, hgen, ne_eq, not_true_eq_false, if_false,
      beq_self_eq_true, Bool.true_and, forall_const]
    by_cases hint : s.inner.intentional = true
    · simp only [hint, if_true, Bool.true_or]
      exact Or.inl ⟨wait_congr _ _ rfl rfl rfl, trivial⟩
    · simp only [if_neg hint]
      by_cases hdis : s.inner.cfg.disableReconnect = true
      · simp only [if_pos hdis, Shared.rejectPending_frame]
        exact Or.inr (wait_none _ rfl rfl rfl)
      · simp only [if_neg hdis]
        rcases hnext : nextDelay s.inner.backoff random with _ | ⟨delay, backoff⟩
        · simp only [Shared.rejectPending_frame]
          exact Or.inr (wait_none _ rfl rfl rfl)
        · refine Or.inl ⟨wait_congr _ _ rfl rfl rfl, ?_⟩
          simp only [Bool.not_eq_true] at hint hdis
          rw [hint, hdis]
          rfl
  · refine Or.inl ⟨?_, fun h => absurd h hgen⟩
    simp only [socketClosed, ne_eq, hgen, not_false_eq_true, if_true]

/-- A `Resume` of a dial has a waiter of its own, unless there is no track. -/
theorem resumeLock_cases (s : Shared) :
    (s.inner.trackUid = "" ∧ resumeLock s = (s, none)) ∨
      ∃ cell, (resumeLock s).1.inner = { s.inner with resumeWait := some cell } ∧
        (resumeLock s).2 = some (cell, s.inner.trackUid, s.inner.lastAssignedSeq) := by
  by_cases h : s.inner.trackUid = ""
  · exact Or.inl ⟨h, by simp only [resumeLock, if_pos h]⟩
  · refine Or.inr ⟨(s.dropCell s.inner.resumeWait).newCell.2, ?_⟩
    simp only [resumeLock, if_neg h, Shared.newCell_frame, Shared.dropCell_frame, and_self]

section Client

variable (geo : Geo)

/-- Where a waiter comes from. -/
theorem run_wait {α : Type} (op : Section α) (s : Shared) (w : Waiter) (c : Nat)
    (h : (op.run geo s).1.inner.wait w = some c) :
    s.inner.wait w = some c ∨ op.installs = some w := by
  by_cases hby : op.standsBy = true
  · rcases run_standsBy geo op s hby with ⟨_, _, _, hstart, hstop, hresume⟩
    rw [wait_congr _ _ hstart hstop hresume] at h
    exact Or.inl h
  revert h
  -- Four sections store a waiter; the others keep it or take it away.
  cases op with
  | dispatchResumeOk sock uid seq =>
      cases w
      · exact Or.inl
      · exact Or.inl
      · rintro ⟨⟩
  | dispatchTrackStarted sock uid metadata =>
      cases w
      · rintro ⟨⟩
      · exact Or.inl
      · exact Or.inl
  | dispatchTrackStopped sock uid =>
      simp only [Section.run, dispatchTrackStopped]
      cases w
      · split <;> exact Or.inl
      · rintro ⟨⟩
      · split <;> exact Or.inl
  | dispatchError sock e =>
      rcases dispatchError_inner sock e s with ⟨_, _, _, _, _, hi, _⟩
      simp only [Section.run, hi]
      cases w <;> rintro ⟨⟩
  | settle cell r forward =>
      simp only [Section.run, settle_frame]
      exact Or.inl
  | authClose =>
      simp only [Section.run, authClose_frame]
      cases w <;> exact Or.inl
  | authRefreshed device listener =>
      rcases authRefreshed_frame device listener s with ⟨_, _, hi, _⟩
      simp only [Section.run, hi]
      cases w <;> exact Or.inl
  | closeFinal =>
      simp only [Section.run, closeFinal_frame]
      cases w <;> rintro ⟨⟩
  | socketClosed gen random =>
      rcases socketClosed_wait gen random s with ⟨hi, _⟩ | hi
      · simp only [Section.run, hi]
        exact Or.inl
      · simp only [Section.run, hi]
        rintro ⟨⟩
  | resumeLock =>
      rcases resumeLock_inner s with ⟨_, hi⟩
      simp only [Section.run, hi]
      cases w
      · exact Or.inl
      · exact Or.inl
      · exact fun _ => Or.inr rfl
  | startTrack wall loc =>
      rcases startTrack_inner wall loc s with ⟨_, hi⟩
      simp only [Section.run, hi]
      cases w
      · exact fun _ => Or.inr rfl
      · exact Or.inl
      · exact Or.inl
  | startFailed =>
      simp only [Section.run, startFailed_frame]
      cases w
      · rintro ⟨⟩
      · exact Or.inl
      · exact Or.inl
  | resumeTrack uid seq =>
      simp only [Section.run, resumeTrack_inner]
      cases w
      · exact Or.inl
      · exact Or.inl
      · exact fun _ => Or.inr rfl
  | resumeFailed =>
      simp only [Section.run, resumeFailed_frame]
      cases w
      · exact Or.inl
      · exact Or.inl
      · rintro ⟨⟩
  | stopTrack =>
      simp only [Section.run, stopTrack_frame]
      cases w
      · exact Or.inl
      · exact fun _ => Or.inr rfl
      · exact Or.inl
  | stopFailed =>
      simp only [Section.run, stopFailed_frame]
      cases w
      · exact Or.inl
      · rintro ⟨⟩
      · exact Or.inl
  | _ => first | exact absurd rfl hby | (cases w <;> exact Or.inl)

/-- A task that installs a waiter goes on to ask. -/
theorem after_wait (t : Task) (c : Input) (a : Act Section Task) (s : Shared)
    (h : t.act c = some a) (w : Waiter) (cell : Nat)
    (hnew : ((client geo).after a s).inner.wait w = some cell) :
    s.inner.wait w = some cell ∨ ((client geo).heir a s).asking = some (w, cell) := by
  rcases run_wait geo a.op s w cell hnew with hold | hinst
  · exact Or.inl hold
  -- Whoever stores the waiter goes on to send its command.
  have hissuer : a.op.issuer = some .startTrack ∨ a.op.issuer = some .stopTrack ∨
      a.op.issuer = some .resume ∨ a.op.issuer = some .dial := by
    rcases a with ⟨op, next⟩
    cases op <;> first
      | exact Or.inl rfl
      | exact Or.inr (Or.inl rfl)
      | exact Or.inr (Or.inr (Or.inl rfl))
      | exact Or.inr (Or.inr (Or.inr rfl))
      | cases hinst
  have hkind : t.kind = .startTrack ∨ t.kind = .stopTrack ∨ t.kind = .resume ∨ t.kind = .dial :=
    hissuer.imp (act_issuer t c a h _) (Or.imp (act_issuer t c a h _)
      (Or.imp (act_issuer t c a h _) (act_issuer t c a h _)))
  revert hnew hinst
  revert h
  cases t with
  | startTrack pc =>
      simp only [Task.act]
      fun_cases Task.startTrackAct pc c <;> intro h <;> cases h
      case startTrack.case1.refl loc route metadata now wall =>
        intro hnew hinst
        cases hinst
        have hrun : (client geo).run (Section.startTrack wall loc) s = startTrack wall loc s := rfl
        rcases startTrack_inner wall loc s with ⟨_, hi⟩
        simp only [Machine.after, hrun, hi] at hnew
        refine Or.inr ?_
        simp only [Machine.heir, hrun, Task.asking]
        rw [Option.some.inj hnew]
      all_goals exact fun _ hinst => absurd hinst (by rintro ⟨⟩)
  | stopTrack pc =>
      simp only [Task.act]
      fun_cases Task.stopTrackAct pc c <;> intro h <;> cases h
      case stopTrack.case2.refl uid =>
        intro hnew hinst
        cases hinst
        have hrun : (client geo).run Section.stopTrack s = stopTrack s := rfl
        simp only [Machine.after, hrun, stopTrack_frame] at hnew
        refine Or.inr ?_
        simp only [Machine.heir, hrun, Task.asking]
        rw [Option.some.inj hnew]
      all_goals exact fun _ hinst => absurd hinst (by rintro ⟨⟩)
  | resume uid seq pc =>
      simp only [Task.act]
      fun_cases Task.resumeAct uid seq pc c <;> intro h <;> cases h
      case resume.case1.refl =>
        intro hnew hinst
        cases hinst
        have hrun : (client geo).run (Section.resumeTrack uid seq) s = resumeTrack uid seq s := rfl
        simp only [Machine.after, hrun, resumeTrack_inner] at hnew
        refine Or.inr ?_
        simp only [Machine.heir, hrun, Task.asking]
        rw [Option.some.inj hnew]
      all_goals exact fun _ hinst => absurd hinst (by rintro ⟨⟩)
  | dial owner pc =>
      simp only [Task.act]
      fun_cases Task.dialAct owner pc c <;> intro h <;> cases h
      case dial.case10.refl gen =>
        intro hnew hinst
        cases hinst
        have hrun : (client geo).run Section.resumeLock s = resumeLock s := rfl
        simp only [Machine.after, hrun] at hnew
        rcases resumeLock_cases s with ⟨_, hi⟩ | ⟨cell', hi, hres⟩
        · rw [hi] at hnew
          exact Or.inl hnew
        · refine Or.inr ?_
          rw [hi] at hnew
          simp only [Machine.heir, hrun, hres, Task.asking]
          rw [Option.some.inj hnew]
      all_goals exact fun _ hinst => absurd hinst (by rintro ⟨⟩)
  | _ => rcases hkind with hk | hk | hk | hk <;> cases hk

/-- A reply takes its waiter. -/
theorem after_replied (t : Task) (c : Input) (a : Act Section Task) (s : Shared)
    (h : t.act c = some a) (k : Nat) (evt : ServerEvt) (hears : a.op.hears = some (k, evt))
    (w : Waiter) (hreply : w.replies (.got evt) = true) :
    ((client geo).after a s).inner.wait w = none := by
  rcases act_hears t c a h k evt hears with ⟨gen, rfl, rfl⟩
  -- The event that answers a waiter takes it; an error takes all of them.
  cases evt with
  | resumeOk uid seq =>
      cases w
      · cases hreply
      · cases hreply
      · rfl
  | trackStarted uid metadata =>
      cases w
      · rfl
      · cases hreply
      · cases hreply
  | trackStopped uid =>
      cases w
      · cases hreply
      · rfl
      · cases hreply
  | error code message uid ms =>
      have hafter :
          ((client geo).after (Task.dispatchAct k gen (.error code message uid ms)) s).inner =
            (dispatchError k ⟨code, message, uid, ms⟩ s).inner := rfl
      rcases dispatchError_inner k ⟨code, message, uid, ms⟩ s with ⟨_, _, _, _, _, hi, _⟩
      rw [hafter, hi]
      cases w <;> rfl
  | _ => cases w <;> cases hreply

/-- A section that ends or replaces the connection strands the waiters, or
    fails them all. -/
theorem run_given_up {α : Type} (op : Section α) (s : Shared)
    (hdrive : op.drive = .begin ∨ op.drive = .refresh ∨ op.drive = .lose s.inner.dialGen ∨
      op.drive = .shut) :
    op.strands s = true ∨ (op.run geo s).1.inner.wait = fun _ => none := by
  cases op with
  | dialBegin => exact Or.inl rfl
  | authRefreshed device listener => exact Or.inl rfl
  | authClose => exact Or.inl rfl
  | authFailed => exact Or.inl rfl
  | closeFinal =>
      simp only [Section.run, closeFinal_frame]
      exact Or.inr (wait_none _ rfl rfl rfl)
  | socketClosed gen random =>
      rcases hdrive with hd | hd | hd | hd
      · cases hd
      · cases hd
      · rcases socketClosed_wait gen random s with ⟨_, hstrands⟩ | hnone
        · exact Or.inl (hstrands (Drive.lose.inj hd))
        · exact Or.inr hnone
      · cases hd
  | _ => rcases hdrive with hd | hd | hd | hd <;> cases hd

/-! ## Asking -/

/-- A task that is asking sends the command of its waiter next. -/
theorem asking_act (t : Task) (c : Input) (a : Act Section Task) (h : t.act c = some a)
    (w : Waiter) (cell : Nat) (hask : t.asking = some (w, cell)) :
    ∃ frame, w.asks (.sent (.bin frame) none) = true ∧
      ∀ s, (client geo).after a s = (sendBin frame none s).1 := by
  -- There is one place a task for each waiter where its command is about to be sent.
  cases t with
  | dial owner pc =>
      cases pc with
      | resumeSend gen cell' uid seq =>
          cases hask
          cases c <;> cases h
          exact ⟨_, rfl, fun _ => rfl⟩
      | _ => cases hask
  | startTrack pc =>
      cases pc with
      | send cell' loc route metadata =>
          cases hask
          cases c <;> cases h
          exact ⟨_, rfl, fun _ => rfl⟩
      | _ => cases hask
  | resume uid seq pc =>
      cases pc with
      | send cell' =>
          cases hask
          cases c <;> cases h
          exact ⟨_, rfl, fun _ => rfl⟩
      | _ => cases hask
  | stopTrack pc =>
      cases pc with
      | send cell' uid =>
          cases hask
          cases c <;> cases h
          exact ⟨_, rfl, fun _ => rfl⟩
      | _ => cases hask
  | _ => cases hask

/-- What is accepted goes on the wire of the current socket. -/
theorem sendBin_accepts (frame : Frame) (ticket : Option Ticket) (s : Shared) (k : Nat)
    (h : s.accepts = some k) :
    s.writing k = true ∧
      sendBin frame ticket s = (s.logTraffic k (.sent (.bin frame) ticket), .ok ()) := by
  unfold Shared.accepts at h
  by_cases hclosed : s.inner.state = .closed ∧ s.inner.intentional = true
  · rw [if_pos hclosed] at h
    cases h
  · rw [if_neg hclosed] at h
    rcases Option.filter_eq_some_iff.mp h with ⟨hk, hw⟩
    exact ⟨hw, sendBin_open frame ticket s k hclosed hk hw⟩

/-- A command that is accepted by the current socket is noted, and pending
    there. -/
theorem ask_step (p : Pool Shared Task) (i : Nat) (c : Input) (t : Task) (a : Act Section Task)
    (b : List Handed) (ha : t.act c = some a) (w : Waiter) (cell : Nat)
    (hask : t.asking = some (w, cell)) (hacc : p.shared.acceptsCurrent = true) :
    ∃ m ∈ noteHanded p i t a b, m.waiter = w ∧ m.cell = cell ∧
      ((client geo).after a p.shared).link.Carries m.sock ∧
      w.pendingAt m.height (((client geo).after a p.shared).wire m.sock) = true := by
  rcases hk : p.shared.accepts with _ | k
  · rw [Shared.acceptsCurrent, hk] at hacc
    cases hacc
  · rw [Shared.acceptsCurrent, hk] at hacc
    have hcarries : p.shared.link.Carries k := of_decide_eq_true hacc
    rcases asking_act geo t c a ha w cell hask with ⟨frame, hcmd, hafter⟩
    rcases sendBin_accepts frame none p.shared k hk with ⟨hw, hs⟩
    replace hafter := (hafter p.shared).trans (congrArg Prod.fst hs)
    refine ⟨{ waiter := w, cell := cell, sock := k, height := (p.shared.wire k).length }, ?_, rfl,
      rfl, ?_, ?_⟩
    · simp only [noteHanded, hask, hk]
      exact List.mem_cons_self
    · rw [hafter, Shared.link, Shared.gens_logTraffic]
      exact hcarries
    · rw [hafter, Shared.wire_logTraffic_writing p.shared k _ hw]
      exact pendingAt_self w _ _ hcmd

/-- Notes are kept. -/
theorem mem_noteHanded (p : Pool Shared Task) (i : Nat) (t : Task) (a : Act Section Task)
    (b : List Handed) (m : Handed) (hm : m ∈ b) : m ∈ noteHanded p i t a b := by
  unfold noteHanded
  split
  · exact List.mem_cons_of_mem _ hm
  · exact hm

/-- A command stays pending on its socket as long as its waiter is there and
    nothing gives the socket up. -/
theorem pending_kept (t : Task) (c : Input) (a : Act Section Task) (s : Shared)
    (h : t.act c = some a) (hfresh : ∀ gen, t.dialing = some gen → gen ∉ s.gens)
    (hstrands : a.op.strands s = false) (w : Waiter) (cell : Nat)
    (hnew : ((client geo).after a s).inner.wait w = some cell) (k n : Nat)
    (hk : s.link.Carries k) (hp : w.pendingAt n (s.wire k) = true) :
    ((client geo).after a s).link.Carries k ∧
      w.pendingAt n (((client geo).after a s).wire k) = true := by
  refine ⟨?_, ?_⟩
  · have hinst : ∀ gen, a.op.drive = .install gen → gen ∉ s.link.gens := by
      intro gen hd
      have hby := act_madeBy t c a h
      rw [hd] at hby
      rcases hby with ⟨owner, resume, rfl⟩
      exact hfresh gen rfl
    -- The socket keeps carrying, unless the connection is given up.
    rcases move_carries _ _ _ (after_moves geo a s) hinst k hk with hsame | hdrive
    · exact hsame
    · rcases run_given_up geo a.op s hdrive with hyes | hnone
      · cases hyes.symm.trans hstrands
      · cases hnew.symm.trans (congrFun hnone w)
  · rcases run_wire geo a.op s k with hw | ⟨evt, hears, hw⟩ | ⟨out, ticket, _, _, _, hw⟩
    · exact (congrArg (w.pendingAt n) hw).trans hp
    · have hw' : ((client geo).after a s).wire k = .got evt :: s.wire k := hw
      rw [hw']
      -- A reply on the wire would have taken the waiter.
      rcases hreply : w.replies (.got evt) with _ | _
      · exact pendingAt_cons w n _ _ hreply hp
      · rw [after_replied geo t c a s h k evt hears w hreply] at hnew
        cases hnew
    · have hw' : ((client geo).after a s).wire k = .sent out ticket :: s.wire k := hw
      rw [hw']
      exact pendingAt_cons w n _ _ (replies_sent w out ticket) hp

/-! ## Runs -/

/-- A task that has yet to send is still there after the step of another. -/
theorem asked_other (p : Pool Shared Task) (i j : Nat) (a : Act Section Task) (u : Task)
    (hji : j ≠ i) (hu : p.tasks[j]? = some u) (w : Waiter) (cell : Nat)
    (hask : u.asking = some (w, cell)) : asked ((client geo).resumed p i a) w cell = true :=
  (asked_iff _ w cell).mpr ⟨j, u, (client geo).resumed_get_other p i j a u hji hu, hask⟩

/-- A step leaves every waiter answerable. -/
theorem step_answerable (p : Pool Shared Task) (i : Nat) (c : Input) (t : Task)
    (a : Act Section Task) (b : List Handed) (ht : p.tasks[i]? = some t) (ha : t.act c = some a)
    (hfresh : ∀ gen, t.dialing = some gen → gen ∉ p.shared.gens)
    (hcond : keepsWaiters p i t a = true) (hI : AllAnswerable p b) :
    AllAnswerable ((client geo).resumed p i a) (noteHanded p i t a b) := by
  intro w cell hnew
  rcases Bool.and_eq_true_iff.mp hcond with ⟨hsend, hgive⟩
  -- The waiter was there before this step, or the task that stored it has yet to send.
  rcases after_wait geo t c a p.shared ha w cell hnew with hold | hask
  · -- Whoever has yet to send is still about to, or sends now.
    have hasked : asked p w cell = true →
        Answerable ((client geo).resumed p i a) (noteHanded p i t a b) w cell := by
      intro hask
      rcases (asked_iff p w cell).mp hask with ⟨j, u, hu, hask⟩
      by_cases hji : j = i
      · rw [hji, ht, Option.some.injEq] at hu
        subst hu
        rw [hask] at hsend
        simp only [hold, bne_self_eq_false, Bool.false_or] at hsend
        exact Or.inr (ask_step geo p i c t a b ha w cell hask hsend)
      · exact Or.inl (asked_other geo p i j a u hji hu w cell hask)
    rcases hstrands : a.op.strands p.shared with _ | _
    · rcases hI w cell hold with hask | ⟨m, hm, hw, hcell, hk, hp⟩
      · exact hasked hask
      · rcases pending_kept geo t c a p.shared ha hfresh hstrands w cell hnew m.sock m.height hk hp
          with ⟨hk', hp'⟩
        exact Or.inr ⟨m, mem_noteHanded p i t a b m hm, hw, hcell, hk', hp'⟩
    · -- The socket is given up, but nobody's command has gone out.
      rw [hstrands] at hgive
      refine hasked ?_
      have hunsent : w.unsent p = true := by
        rcases Bool.and_eq_true_iff.mp hgive with ⟨hboth, hresume⟩
        rcases Bool.and_eq_true_iff.mp hboth with ⟨hstart, hstop⟩
        cases w
        · exact hstart
        · exact hstop
        · exact hresume
      rw [Waiter.unsent, hold] at hunsent
      exact hunsent
  · exact Or.inl ((asked_iff _ w cell).mpr
      ⟨i, _, (client geo).resumed_get_self p i a t ht, hask⟩)

variable (cfg : Config)

/-- Every waiter is answerable, in every run in which no step strands one: its
    command was handed to the current socket, which is still open, or its call is
    about to hand it over. A redial, a refreshed session and the close handler give
    the socket up and leave the waiters where they are. -/
theorem reach_answerable (p : Pool Shared Task) (b : List Handed)
    (h : (client geo).Tallied (Started cfg) (fun _ p i t a => keepsWaiters p i t a = true)
      noteHanded [] p b) : AllAnswerable p b := by
  refine (client geo).tallied_inv (Started cfg) _ noteHanded _ Dialed
    (fun p hp => reach_dialed geo cfg _ p hp) AllAnswerable ?_ ?_ ?_ p b h
  · intro p hp w cell hwait
    rcases started_pool cfg p hp with ⟨now, rfl⟩
    cases w <;> cases hwait
  · intro p i c t a b ht ha hcond hdialed hI
    exact step_answerable geo p i c t a b ht ha (hdialed.fresh i t ht) hcond hI
  · intro p t b _ _ hI w cell hwait
    refine (hI w cell hwait).imp (fun hask => ?_) id
    exact List.any_append.trans (Bool.or_eq_true_iff.mpr (Or.inl hask))

end Client

/-- `start_track` has sent its command and waits for the reply. -/
def startWaited : List (Label Task Input) :=
  opening ++ [.spawn (.startTrack (.start none [] [])), .resume 3 (.clock 0 0),
    .resume 3 (.clock 0 0)]

/-- The command is pending on the open socket. -/
theorem reach_answerable_start :
    ∃ (p : Pool Shared Task) (b : List Handed), p.shared.inner.startWait = some 0 ∧
      asked p .start 0 = false ∧ Answerable p b .start 0 := by
  rcases (client flatGeo).exists_tallied (Started someConfig)
    (fun _ p i t a => keepsWaiters p i t a = true) noteHanded [] (fun _ => keepsWaiters)
    (fun _ _ _ _ _ h => h) startWaited fresh started_fresh
    (fun p _ => decide (p.shared.inner.startWait = some 0 ∧ asked p .start 0 = false))
    (by decide +kernel) with ⟨p, b, hp, hrun⟩
  rcases of_decide_eq_true hrun with ⟨hwait, hasked⟩
  exact ⟨p, b, hwait, hasked, reach_answerable flatGeo someConfig p b hp .start 0 hwait⟩

/-- The socket closes before the reply, and the client dials again. -/
def startStranded : List (Label Task Input) :=
  startWaited ++ [.resume 2 .eof, .resume 4 (.random 0), .resume 4 .go] ++ dialSteps 4

/-- The caller still waits, with its command on a socket that is gone. -/
theorem waiter_outlives_socket :
    ¬ ∀ p b, (client flatGeo).Tallied (Started someConfig) (fun _ _ _ _ _ => True)
      noteHanded [] p b → AllAnswerable p b := by
  intro hall
  rcases (client flatGeo).exists_tallied (Started someConfig) (fun _ _ _ _ _ => True) noteHanded []
    (fun _ _ _ _ _ => true) (fun _ _ _ _ _ _ => trivial) startStranded fresh started_fresh
    (fun p b => decide (p.shared.inner.startWait = some 0 ∧ asked p .start 0 = false ∧
      p.shared.inner.outTx = some 1 ∧ b = [⟨.start, 0, 0, 0⟩]))
    (by decide +kernel) with ⟨p, b, hp, hrun⟩
  rcases of_decide_eq_true hrun with ⟨hwait, hasked, hout, hb⟩
  rcases hall p b hp .start 0 hwait with hask | ⟨m, hm, _, _, hcarries, _⟩
  · cases hask.symm.trans hasked
  · rw [hb, List.mem_singleton] at hm
    rw [hm] at hcarries
    -- The command went to socket 0, and socket 1 is current.
    have hcur : p.shared.inner.outTx = some 0 := hcarries.1
    cases hout.symm.trans hcur

end Tracking

end Pickpoint
