import Pickpoint.Interleave.Tally
import Pickpoint.Theory.Pacing
import Pickpoint.Theory.Server

/-!
# Counting Reconnects

`reconnectMaxAttempts` is compared with the attempts the backoff has counted
since it was last reset. An install resets it, so a server that accepts the
socket and then refuses the `Resume` is dialed again without end
(`resume_refused_again`). A Relocate in place of a `Hello` lets one attempt
open several sockets, and a reconnect task that sleeps through the install of
somebody else's socket wakes up to an attempt nobody counts any more.

A tally keeps what the code should count: the sockets the reconnect path has
opened since the session was last usable. Where none of the three happens the
attempts counted are those opened together with those a task is on its way to
open (`Counted`), and the limit is what it says (`reach_boundsReconnects`).

## Main definitions

* `Attempts`, `countAttempts`: The tally.
* `Task.toDial`: A reconnect task on its way to a socket.
* `keepsCount`: The backoff counts what is opened.
* `BoundsReconnects`: The limit is kept.
* `Counted`: The balance of tally, tasks and backoff.

## Theorems

* `heir_toDial`: How a task gets on its way to a socket.
* `step_counted`: A step keeps the balance.
* `reach_boundsReconnects`: The limit is kept.
* `resume_refused_again`: Not so in general.
-/

namespace Pickpoint

namespace Tracking

open Interleave

/-- The sockets the reconnect path has opened since the session was last
    usable, and whether one was installed since that was not usable yet. -/
structure Attempts where
  opened : Nat
  unproven : Bool
  deriving DecidableEq

def Section.isResumeOk : {α : Type} → Section α → Bool
  | _, .dispatchResumeOk _ _ _ => true
  | _, _ => false

/-- What a step adds to the tally. A session is usable with its `Hello` when
    there is no track to resume, and otherwise with `ResumeOk`. -/
def countAttempts (p : Pool Shared Task) (_ : Nat) (t : Task) (a : Act Section Task)
    (b : Attempts) : Attempts :=
  match t with
  | .dial .reconnect (.begin _ _) => { b with opened := b.opened + 1 }
  | .dial _ (.install gen sendResume) =>
    if gen ≠ p.shared.inner.dialGen ∨ p.shared.inner.intentional then b
    else if sendResume ∧ p.shared.inner.trackUid ≠ "" then { b with unproven := true }
    else { opened := 0, unproven := false }
  | _ => if a.op.isResumeOk then { opened := 0, unproven := false } else b

/-- A reconnect task on its way to a socket it has not begun to open. -/
def Task.toDial : Task → Bool
  | .reconnectSleep _ _ => true
  | .dial .reconnect (.begin _ _) | .dial .reconnect (.relocate _ _ _)
  | .dial .reconnect (.relocateSleep _ _) | .dial .reconnect (.relocateCheck _ _) => true
  | _ => false

/-- The backoff counts what is opened: no socket is lost between its install
    and its first use, no reconnect dial is sent elsewhere instead of greeted,
    and no socket is installed while a reconnect task is on its way. -/
def keepsCount (geo : Geo) (b : Attempts) (p : Pool Shared Task) (_ : Nat) (t : Task)
    (a : Act Section Task) : Bool :=
  match t with
  | .socketClosed _ gen =>
    decide (gen ≠ p.shared.inner.dialGen) || p.shared.inner.intentional ||
      p.shared.inner.cfg.disableReconnect || !b.unproven
  | .dial _ (.install gen _) =>
    decide (gen ≠ p.shared.inner.dialGen) || p.shared.inner.intentional ||
      p.tasks.countP Task.toDial == 0
  | .dial .reconnect (.hello _ _) => !((client geo).heir a p.shared).toDial
  | _ => true

/-- The reconnect path opens no more sockets than the limit; and when it has
    opened as many and the last one fails too, the close handler closes the
    session and rejects what is pending. -/
def BoundsReconnects (p : Pool Shared Task) (b : Attempts) : Prop :=
  0 < p.shared.inner.cfg.reconnectMaxAttempts →
    b.opened ≤ p.shared.inner.cfg.reconnectMaxAttempts ∧
    (b.opened = p.shared.inner.cfg.reconnectMaxAttempts → b.unproven = false →
      p.shared.inner.intentional = false → p.shared.inner.cfg.disableReconnect = false →
      ∀ random, (socketClosed p.shared.inner.dialGen random p.shared).1.inner.state = .closed ∧
        (socketClosed p.shared.inner.dialGen random p.shared).1.inner.startWait = none ∧
        (socketClosed p.shared.inner.dialGen random p.shared).1.inner.stopWait = none ∧
        (socketClosed p.shared.inner.dialGen random p.shared).1.inner.resumeWait = none ∧
        (socketClosed p.shared.inner.dialGen random p.shared).2 = none)

/-- The attempts counted cover the sockets opened and those tasks are on their
    way to open; after an install that was not usable yet nobody is on the way. -/
structure Counted (p : Pool Shared Task) (b : Attempts) : Prop where
  attempt_le : p.shared.inner.backoff.attempt ≤ p.shared.inner.backoff.maxAttempts
  proven : b.unproven = false →
    b.opened + p.tasks.countP Task.toDial ≤ p.shared.inner.backoff.attempt
  unproven : b.unproven = true →
    p.tasks.countP Task.toDial = 0 ∧ b.opened ≤ p.shared.inner.backoff.maxAttempts

/-- Taking a delay counts an attempt, and there is none at the limit. -/
theorem nextDelay_some (b b' : BackoffState) (random : ℚ) (delay : Nat)
    (h : nextDelay b random = some (delay, b')) :
    b'.attempt = b.attempt + 1 ∧ b'.maxAttempts = b.maxAttempts ∧
      (0 < b.maxAttempts → b.attempt < b.maxAttempts) := by
  unfold nextDelay at h
  by_cases hlim : 0 < b.maxAttempts ∧ b.maxAttempts ≤ b.attempt
  · rw [if_pos hlim] at h
    cases h
  · rw [if_neg hlim] at h
    cases h
    refine ⟨rfl, rfl, fun hpos => ?_⟩
    by_contra hge
    exact hlim ⟨hpos, Nat.le_of_not_lt hge⟩

section Client

variable (geo : Geo)

theorem toDial_kind (t : Task) (h : t.kind ≠ .dial ∧ t.kind ≠ .lost) : t.toDial = false := by
  cases t with
  | dial owner pc => exact absurd rfl h.1
  | socketClosed cause gen => rfl
  | reconnectSleep cause resume => exact absurd rfl h.2
  | _ => rfl

/-- Nothing spawned is on its way to a socket. -/
theorem spawned_toDial (t : Task) (c : Input) (a : Act Section Task) (s : Shared)
    (h : t.act c = some a) : ((client geo).spawned a s).countP Task.toDial = 0 := by
  refine List.countP_eq_zero.mpr fun u hu => ?_
  rcases spawned_cases geo t c a s h u hu with
    ⟨_, _, _, _, rfl | rfl⟩ | ⟨_, _, _, rfl | rfl | ⟨_, rfl⟩⟩ | ⟨_, _, _, rfl⟩ <;>
    (rintro ⟨⟩)

/-- How many are on their way changes by the task that steps. -/
theorem resumed_toDial (p : Pool Shared Task) (i : Nat) (c : Input) (t : Task)
    (a : Act Section Task) (ht : p.tasks[i]? = some t) (ha : t.act c = some a) :
    ((client geo).resumed p i a).tasks.countP Task.toDial + (if t.toDial = true then 1 else 0) =
      p.tasks.countP Task.toDial +
        (if ((client geo).heir a p.shared).toDial = true then 1 else 0) := by
  have hcount := (client geo).resumed_countP p i a t ht Task.toDial
  rw [spawned_toDial geo t c a p.shared ha] at hcount
  exact hcount

/-- A task gets on its way to a socket when the close handler takes a delay, or
    when a reconnect dial is sent elsewhere; and it stays on its way. -/
theorem heir_toDial (t : Task) (c : Input) (a : Act Section Task) (s : Shared)
    (h : t.act c = some a) (hheir : ((client geo).heir a s).toDial = true) :
    t.toDial = true ∨ (∃ cause gen, t = .socketClosed cause gen) ∨
      ∃ gen resume, t = .dial .reconnect (.hello gen resume) := by
  have hkind := heir_kind geo t c a s h
  revert hheir
  unfold Machine.heir
  revert h
  -- A task is on the way to a dial when it sleeps before one or is about to begin
  -- one; the close handler and a relocation bring new ones.
  cases t with
  | dial owner pc =>
      simp only [Task.act]
      fun_cases Task.dialAct owner pc c <;> intro h <;> cases h
      case dial.case4.refl gen resume msg =>
        cases owner with
        | reconnect => exact fun _ => Or.inr (Or.inr ⟨gen, resume, rfl⟩)
        | _ =>
            cases msg <;> dsimp only [Task.helloReply] <;> (try split) <;> (rintro ⟨⟩)
      case dial.case17.refl => rintro ⟨⟩
      case dial.case18.refl => rintro ⟨⟩
      all_goals
        cases owner <;>
          first
          | exact fun _ => Or.inl rfl
          | dsimp only
            (try split) <;> (try split) <;> (rintro ⟨⟩)
  | socketClosed cause gen => exact fun _ _ => Or.inr (Or.inl ⟨cause, gen, rfl⟩)
  | reconnectSleep cause resume => exact fun _ _ => Or.inl rfl
  | authError gen pc =>
      simp only [Task.act]
      fun_cases Task.authAct gen pc c <;> intro h <;> cases h <;> dsimp only <;>
        (try split) <;> (rintro ⟨⟩)
  | _ =>
      intro _ hheir
      have hheir' : ((client geo).heir a s).toDial = true := hheir
      have hnot : ((client geo).heir a s).toDial = false := by
        rcases hkind with hk | hk | ⟨hk, _⟩
        · exact toDial_kind _ ⟨by rw [hk]; rintro ⟨⟩, by rw [hk]; rintro ⟨⟩⟩
        · exact toDial_kind _ ⟨by rw [hk]; rintro ⟨⟩, by rw [hk]; rintro ⟨⟩⟩
        · rcases hk with hk | hk <;> cases hk
      rw [hnot] at hheir'
      cases hheir'

/-- A step that leaves the backoff alone and puts nobody on the way keeps the
    balance, also when it finds the session usable. -/
theorem quiet_counted (p : Pool Shared Task) (i : Nat) (c : Input) (t : Task)
    (a : Act Section Task) (b b' : Attempts) (ht : p.tasks[i]? = some t) (ha : t.act c = some a)
    (hback : ((client geo).after a p.shared).inner.backoff = p.shared.inner.backoff)
    (hheir : ((client geo).heir a p.shared).toDial = true → t.toDial = true)
    (hb : b' = b ∨ b' = { opened := 0, unproven := false }) (hI : Counted p b) :
    Counted ((client geo).resumed p i a) b' := by
  have hcount := resumed_toDial geo p i c t a ht ha
  have hle : ((client geo).resumed p i a).tasks.countP Task.toDial ≤
      p.tasks.countP Task.toDial := by
    by_cases hh : ((client geo).heir a p.shared).toDial = true
    · rw [if_pos hh, if_pos (hheir hh)] at hcount
      omega
    · rw [if_neg hh] at hcount
      omega
  -- With the backoff and the count kept, each part holds as it did.
  have hback' : ((client geo).resumed p i a).shared.inner.backoff = p.shared.inner.backoff := hback
  refine ⟨?_, ?_, ?_⟩
  · rw [hback']
    exact hI.attempt_le
  · rw [hback']
    rcases hb with rfl | rfl
    · intro hproven
      have := hI.proven hproven
      omega
    · intro _
      rcases hun : b.unproven with _ | _
      · have := hI.proven hun
        show 0 + _ ≤ _
        omega
      · have := (hI.unproven hun).1
        show 0 + _ ≤ _
        omega
  · rw [hback']
    rcases hb with rfl | rfl
    · intro hun
      have := hI.unproven hun
      omega
    · rintro ⟨⟩

/-- The close handler that takes a delay counts the attempt it puts on the way. -/
theorem spent_counted (p : Pool Shared Task) (i : Nat) (cause : Nat) (random : ℚ)
    (a : Act Section Task) (b : Attempts)
    (ht : p.tasks[i]? = some (.socketClosed cause p.shared.inner.dialGen))
    (ha : (Task.socketClosed cause p.shared.inner.dialGen).act (.random random) = some a)
    (hmax : 0 < p.shared.inner.backoff.maxAttempts)
    (delay : Nat) (backoff : BackoffState)
    (hnext : nextDelay p.shared.inner.backoff random = some (delay, backoff))
    (hback : ((client geo).after a p.shared).inner.backoff = backoff)
    (hun : b.unproven = false) (hI : Counted p b) : Counted ((client geo).resumed p i a) b := by
  have hcount := resumed_toDial geo p i _ _ a ht ha
  rcases nextDelay_some _ _ _ _ hnext with ⟨hattempt, hsame, hlt⟩
  have hback' : ((client geo).resumed p i a).shared.inner.backoff = backoff := hback
  have hproven := hI.proven hun
  -- The attempt spent pays for the task that now sleeps.
  have hone : (if ((client geo).heir a p.shared).toDial = true then 1 else 0) ≤ 1 := by
    split <;> omega
  have hzero : (if (Task.socketClosed cause p.shared.inner.dialGen).toDial = true then 1 else 0)
      = 0 := rfl
  refine ⟨?_, fun _ => ?_, fun h => ?_⟩
  · rw [hback', hattempt, hsame]
    exact hlt hmax
  · rw [hback', hattempt]
    omega
  · rw [hun] at h
    cases h

/-- A reconnect task that begins its dial is off the way and in the tally. -/
theorem begun_counted (p : Pool Shared Task) (i : Nat) (c : Input) (gen : Nat) (resume : Bool)
    (a : Act Section Task) (b : Attempts)
    (ht : p.tasks[i]? = some (.dial .reconnect (.begin gen resume)))
    (ha : (Task.dial .reconnect (.begin gen resume)).act c = some a) (hI : Counted p b) :
    Counted ((client geo).resumed p i a) { b with opened := b.opened + 1 } := by
  have hcount := resumed_toDial geo p i c _ a ht ha
  have hback : ((client geo).resumed p i a).shared.inner.backoff = p.shared.inner.backoff := by
    cases c <;> cases ha
    rfl
  have hheir : ((client geo).heir a p.shared).toDial = false := by
    cases c <;> cases ha
    rfl
  have hone : (if (Task.dial .reconnect (.begin gen resume)).toDial = true then 1 else 0) = 1 := rfl
  -- The dial leaves those on the way and is counted as opened.
  have hself : 0 < p.tasks.countP Task.toDial :=
    List.countP_pos_iff.mpr ⟨_, List.mem_of_getElem? ht, rfl⟩
  rw [hheir, hone] at hcount
  simp only [Bool.false_eq_true, if_false] at hcount
  refine ⟨?_, ?_, ?_⟩
  · rw [hback]
    exact hI.attempt_le
  · rw [hback]
    intro hun
    have := hI.proven hun
    show b.opened + 1 + _ ≤ _
    omega
  · -- After an install nobody is on the way, but this task was.
    intro hun
    have := (hI.unproven hun).1
    omega

/-- An install with nobody on the way resets the backoff, and the tally with it
    when the session is usable. -/
theorem installed_counted (p : Pool Shared Task) (i : Nat) (c : Input) (owner : Owner)
    (resume : Bool) (a : Act Section Task) (b b' : Attempts)
    (ht : p.tasks[i]? = some (.dial owner (.install p.shared.inner.dialGen resume)))
    (ha : (Task.dial owner (.install p.shared.inner.dialGen resume)).act c = some a)
    (hint : p.shared.inner.intentional = false)
    (hnone : p.tasks.countP Task.toDial = 0)
    (hb : b' = { b with unproven := true } ∨ b' = { opened := 0, unproven := false })
    (hI : Counted p b) : Counted ((client geo).resumed p i a) b' := by
  have hcount := resumed_toDial geo p i c _ a ht ha
  -- Nobody is on the way, and the install puts nobody there.
  have hheir : ((client geo).heir a p.shared).toDial = false := by
    rcases hh : ((client geo).heir a p.shared).toDial with _ | _
    · rfl
    · rcases heir_toDial geo _ c a p.shared ha hh with h | ⟨_, _, h⟩ | ⟨_, _, h⟩
      · cases owner <;> cases h
      · cases h
      · cases h
  have hback : ((client geo).resumed p i a).shared.inner.backoff =
      resetBackoff p.shared.inner.backoff := by
    cases c <;> cases ha
    rcases dialInstall_cases p.shared.inner.dialGen p.shared with ⟨hgen, _⟩ | ⟨_, _, hi⟩
    · rcases hgen with hgen | hgen
      · exact absurd rfl hgen
      · rw [hint] at hgen
        cases hgen
    · have hrun : ((client geo).run (Section.dialInstall p.shared.inner.dialGen) p.shared) =
          dialInstall p.shared.inner.dialGen p.shared := rfl
      simp only [Machine.resumed, hrun, hi]
  have hzero : ((client geo).resumed p i a).tasks.countP Task.toDial = 0 := by
    rw [hheir] at hcount
    simp only [Bool.false_eq_true, if_false] at hcount
    omega
  refine ⟨?_, ?_, ?_⟩
  · rw [hback]
    exact Nat.zero_le _
  · rw [hback, hzero]
    rcases hb with rfl | rfl
    · rintro ⟨⟩
    · exact fun _ => Nat.le_refl 0
  · rw [hback, hzero]
    rcases hb with rfl | rfl
    · refine fun _ => ⟨rfl, ?_⟩
      show b.opened ≤ p.shared.inner.backoff.maxAttempts
      rcases hun : b.unproven with _ | _
      · have := hI.proven hun
        have := hI.attempt_le
        omega
      · exact (hI.unproven hun).2
    · rintro ⟨⟩

/-- A section other than an install that succeeds and the close handler leaves
    the backoff alone. -/
theorem after_backoff (t : Task) (c : Input) (a : Act Section Task) (s : Shared)
    (h : t.act c = some a) :
    ((client geo).after a s).inner.backoff = s.inner.backoff ∨
      (s.inner.intentional = false ∧
        ∃ owner resume, t = .dial owner (.install s.inner.dialGen resume)) ∨
      ∃ cause, t = .socketClosed cause s.inner.dialGen := by
  have hby := act_madeBy t c a h
  have hstep := run_pacing geo a.op s
  have hp : (a.op.run geo s).1.pacing =
      ⟨(a.op.run geo s).1.inner.cfg.disableReconnect,
        (a.op.run geo s).1.inner.cfg.reconnectMaxAttempts,
        (a.op.run geo s).1.inner.backoff⟩ := rfl
  have hafter : ((client geo).after a s).inner.backoff = (a.op.run geo s).1.inner.backoff := rfl
  rw [hafter]
  rw [hp] at hstep
  generalize (a.op.run geo s).1.inner.cfg.disableReconnect = d at hstep
  generalize (a.op.run geo s).1.inner.cfg.reconnectMaxAttempts = m at hstep
  generalize (a.op.run geo s).1.inner.backoff = back at hstep ⊢
  rcases a with ⟨op, next⟩
  -- `PacingStep` says what a section does to the backoff; who runs it is in `MadeBy`.
  cases hstep with
  | keep => exact Or.inl rfl
  | reset hint =>
      rcases hby with ⟨owner, resume, rfl⟩
      exact Or.inr (Or.inl ⟨hint, owner, resume, rfl⟩)
  | spent random delay backoff hnext =>
      rcases hby with ⟨cause, rfl⟩
      exact Or.inr (Or.inr ⟨cause, rfl⟩)

/-- Besides a begin and an install only `ResumeOk` changes the tally. -/
theorem countAttempts_other (p : Pool Shared Task) (i : Nat) (t : Task) (a : Act Section Task)
    (b : Attempts) (hbegin : ∀ gen resume, t ≠ .dial .reconnect (.begin gen resume))
    (hinst : ∀ owner gen resume, t ≠ .dial owner (.install gen resume)) :
    countAttempts p i t a b = b ∨ countAttempts p i t a b = { opened := 0, unproven := false } := by
  unfold countAttempts
  split
  · exact absurd rfl (hbegin _ _)
  · exact absurd rfl (hinst _ _ _)
  · by_cases hok : a.op.isResumeOk = true
    · rw [if_pos hok]
      exact Or.inr rfl
    · rw [if_neg hok]
      exact Or.inl rfl

/-- The install of a dial keeps the balance. -/
theorem step_counted_install (p : Pool Shared Task) (i : Nat) (c : Input) (owner : Owner)
    (gen : Nat) (resume : Bool) (a : Act Section Task) (b : Attempts)
    (ht : p.tasks[i]? = some (.dial owner (.install gen resume)))
    (ha : (Task.dial owner (.install gen resume)).act c = some a)
    (hcond : keepsCount geo b p i (.dial owner (.install gen resume)) a = true)
    (hI : Counted p b) :
    Counted ((client geo).resumed p i a)
      (countAttempts p i (.dial owner (.install gen resume)) a b) := by
  have hcountd : countAttempts p i (.dial owner (.install gen resume)) a b =
      if gen ≠ p.shared.inner.dialGen ∨ p.shared.inner.intentional = true then b
      else if resume = true ∧ p.shared.inner.trackUid ≠ "" then { b with unproven := true }
      else { opened := 0, unproven := false } := by
    cases owner <;> rfl
  have hcond' : (decide (gen ≠ p.shared.inner.dialGen) || p.shared.inner.intentional ||
      p.tasks.countP Task.toDial == 0) = true := by
    cases owner <;> exact hcond
  rw [hcountd]
  -- A superseded install neither opens a socket nor resets the backoff.
  by_cases hover : gen ≠ p.shared.inner.dialGen ∨ p.shared.inner.intentional = true
  · rw [if_pos hover]
    refine quiet_counted geo p i c _ a b b ht ha ?_ ?_ (Or.inl rfl) hI
    · cases c <;> cases ha
      have hrun : (client geo).run (Section.dialInstall gen) p.shared =
          dialInstall gen p.shared := rfl
      rcases dialInstall_cases gen p.shared with ⟨_, hi⟩ | ⟨hgen, hint, _⟩
      · simp only [Machine.after, hrun, hi]
      · rcases hover with hover | hover
        · exact absurd hgen hover
        · rw [hint] at hover
          cases hover
    · intro hh
      rcases heir_toDial geo _ c a p.shared ha hh with h | ⟨_, _, h⟩ | ⟨_, _, h⟩
      · exact h
      · cases h
      · cases h
  · rw [if_neg hover]
    rw [not_or, not_not, Bool.not_eq_true] at hover
    rcases hover with ⟨rfl, hint⟩
    rw [hint, decide_eq_false (fun hne => hne rfl), Bool.false_or, Bool.false_or,
      beq_iff_eq] at hcond'
    refine installed_counted geo p i c owner resume a b _ ht ha hint hcond' ?_ hI
    by_cases htrack : resume = true ∧ p.shared.inner.trackUid ≠ ""
    · rw [if_pos htrack]
      exact Or.inl rfl
    · rw [if_neg htrack]
      exact Or.inr rfl

/-- The close handler keeps the balance. -/
theorem step_counted_closed (p : Pool Shared Task) (i : Nat) (c : Input) (cause gen : Nat)
    (a : Act Section Task) (b : Attempts) (ht : p.tasks[i]? = some (.socketClosed cause gen))
    (ha : (Task.socketClosed cause gen).act c = some a)
    (hmax : 0 < p.shared.inner.backoff.maxAttempts)
    (hcond : keepsCount geo b p i (.socketClosed cause gen) a = true) (hI : Counted p b) :
    Counted ((client geo).resumed p i a) b := by
  cases c with
  | random r =>
      have hrun : (client geo).run (Section.socketClosed gen r) p.shared =
          socketClosed gen r p.shared := rfl
      -- Without a delay the handler is gone and has counted nothing.
      have hends : (socketClosed gen r p.shared).1.pacing = p.shared.pacing →
          (socketClosed gen r p.shared).2 = none → Counted ((client geo).resumed p i a) b := by
        intro hpacing hres
        refine quiet_counted geo p i (.random r) _ a b b ht ha ?_ ?_ (Or.inl rfl) hI
        · cases ha
          exact congrArg Pacing.backoff hpacing
        · cases ha
          simp only [Machine.heir, hrun, hres]
          rintro ⟨⟩
      have hact := ha
      cases ha
      by_cases hlive : gen = p.shared.inner.dialGen ∧ p.shared.inner.intentional = false ∧
          p.shared.inner.cfg.disableReconnect = false
      · rcases hlive with ⟨rfl, hint, hdis⟩
        have hun : b.unproven = false := by
          have hor : (decide (p.shared.inner.dialGen ≠ p.shared.inner.dialGen) ||
              p.shared.inner.intentional || p.shared.inner.cfg.disableReconnect ||
              !b.unproven) = true := hcond
          rw [hint, hdis, decide_eq_false (fun hne => hne rfl)] at hor
          simpa only [Bool.false_or, Bool.not_eq_true'] using hor
        rcases socketClosed_retry r p.shared hint hdis with
          ⟨delay, backoff, hnext, _, hpacing, _⟩ | ⟨_, _, _, _, _, hpacing, hres⟩
        · exact spent_counted geo p i cause r _ b ht hact hmax delay backoff hnext
            (congrArg Pacing.backoff hpacing) hun hI
        · exact hends hpacing hres
      · rw [not_and_or, not_and_or, Bool.not_eq_false, Bool.not_eq_false] at hlive
        rcases socketClosed_over gen r p.shared hlive with ⟨hpacing, hres⟩
        exact hends hpacing hres
  | _ => cases ha

/-- A step keeps the balance. -/
theorem step_counted (p : Pool Shared Task) (i : Nat) (c : Input) (t : Task)
    (a : Act Section Task) (b : Attempts) (ht : p.tasks[i]? = some t) (ha : t.act c = some a)
    (hmax : 0 < p.shared.inner.backoff.maxAttempts) (hcond : keepsCount geo b p i t a = true)
    (hI : Counted p b) : Counted ((client geo).resumed p i a) (countAttempts p i t a b) := by
  by_cases hbegin : ∃ gen resume, t = .dial .reconnect (.begin gen resume)
  · rcases hbegin with ⟨gen, resume, rfl⟩
    exact begun_counted geo p i c gen resume a b ht ha hI
  by_cases hinst : ∃ owner gen resume, t = .dial owner (.install gen resume)
  · rcases hinst with ⟨owner, gen, resume, rfl⟩
    exact step_counted_install geo p i c owner gen resume a b ht ha hcond hI
  by_cases hclosed : ∃ cause gen, t = .socketClosed cause gen
  · rcases hclosed with ⟨cause, gen, rfl⟩
    have hsame : countAttempts p i (.socketClosed cause gen) a b = b := by
      cases c <;> cases ha
      rfl
    rw [hsame]
    exact step_counted_closed geo p i c cause gen a b ht ha hmax hcond hI
  -- What is left counts no attempt and puts nobody on the way.
  refine quiet_counted geo p i c t a b _ ht ha ?_ ?_ ?_ hI
  · rcases after_backoff geo t c a p.shared ha with h | ⟨_, owner, resume, h⟩ | ⟨cause, h⟩
    · exact h
    · exact absurd ⟨owner, _, resume, h⟩ hinst
    · exact absurd ⟨cause, _, h⟩ hclosed
  · intro hh
    rcases heir_toDial geo t c a p.shared ha hh with h | h | ⟨gen, resume, rfl⟩
    · exact h
    · exact absurd h hclosed
    · have hnot : (!((client geo).heir a p.shared).toDial) = true := hcond
      rw [hh] at hnot
      cases hnot
  · exact countAttempts_other p i t a b (fun gen resume h => hbegin ⟨gen, resume, h⟩)
      fun owner gen resume h => hinst ⟨owner, gen, resume, h⟩

variable (cfg : Config)

/-- The balance holds throughout. -/
theorem reach_counted (hpos : 0 < cfg.reconnectMaxAttempts) (p : Pool Shared Task) (b : Attempts)
    (h : (client geo).Tallied (Started cfg) (fun b p i t a => keepsCount geo b p i t a = true)
      countAttempts { opened := 0, unproven := false } p b) : Counted p b := by
  refine (client geo).tallied_inv (Started cfg) _ countAttempts _
    (fun p => p.shared.inner.backoff.maxAttempts = cfg.reconnectMaxAttempts)
    (fun p hp => (reach_limits geo cfg _ p hp).2.2) Counted ?_ ?_ ?_ p b h
  · intro p hp
    rcases started_pool cfg p hp with ⟨now, rfl⟩
    exact ⟨Nat.zero_le _, fun _ => Nat.le_refl 0, by rintro ⟨⟩⟩
  · intro p i c t a b ht ha hcond hmax hI
    exact step_counted geo p i c t a b ht ha (hmax ▸ hpos) hcond hI
  · intro p t b hent _ hI
    have hcount : (p.tasks ++ [t]).countP Task.toDial = p.tasks.countP Task.toDial := by
      have hkind := call_kind t ((entry_iff geo p.shared t).mp hent).2
      rw [List.countP_append, List.countP_singleton, toDial_kind t ⟨hkind.1, hkind.2.2.1⟩]
      rfl
    exact ⟨hI.attempt_le, fun hun => hcount.symm ▸ hI.proven hun,
      fun hun => hcount.symm ▸ hI.unproven hun⟩

/-- The limit on reconnects is kept, in every run in which the backoff counts what
    is opened. `dial_inner` resets the backoff with the install, before the session
    is known to be usable, so a server that refuses each `Resume` is dialed without
    a limit. -/
theorem reach_boundsReconnects (p : Pool Shared Task) (b : Attempts)
    (h : (client geo).Tallied (Started cfg) (fun b p i t a => keepsCount geo b p i t a = true)
      countAttempts { opened := 0, unproven := false } p b) : BoundsReconnects p b := by
  intro hpos
  have hlimits := reach_limits geo cfg _ p ((client geo).tallied_reach _ _ _ _ p b h)
  have hI := reach_counted geo cfg (hlimits.2.1 ▸ hpos) p b h
  have hmax : p.shared.inner.backoff.maxAttempts = p.shared.inner.cfg.reconnectMaxAttempts :=
    hlimits.2.2.trans hlimits.2.1.symm
  refine ⟨?_, ?_⟩
  · rcases hun : b.unproven with _ | _
    · have := hI.proven hun
      have := hI.attempt_le
      omega
    · have := (hI.unproven hun).2
      omega
  · intro hall hun hint hdis random
    have hproven := hI.proven hun
    have hle := hI.attempt_le
    rcases socketClosed_retry random p.shared hint hdis with
      ⟨delay, backoff, hnext, _⟩ | ⟨_, hstate, hstart, hstop, hresume, _, hres⟩
    · -- Every attempt is used up, so there is no further delay.
      have := (nextDelay_some _ _ _ _ hnext).2.2 (by omega)
      omega
    · exact ⟨hstate, hstart, hstop, hresume, hres⟩

end Client

/-- One reconnect is allowed. -/
def onceConfig : Config := { someConfig with reconnectMaxAttempts := 1 }

/-- What `connect` starts from with `onceConfig`. -/
def freshOnce : Pool Shared Task :=
  { shared := { inner := Inner.new onceConfig 0 }, tasks := [.dial .connect (.begin 0 false)] }

theorem started_freshOnce : Started onceConfig freshOnce := ⟨0, rfl⟩

/-- A track is live, the socket closes and the reconnect path dials. -/
def redialedOnce : List (Label Task Input) :=
  tracking ++ [.resume 2 .eof, .resume 4 (.random 0), .resume 4 .go, .resume 4 .go]

/-- The connection of the one reconnect is refused. The close handler it calls
    closes the session. -/
theorem reach_boundsReconnects_refused :
    ∃ (p : Pool Shared Task) (b : Attempts), b.opened = 1 ∧
      p.tasks[5]? = some (.socketClosed 2 p.shared.inner.dialGen) ∧
      (socketClosed p.shared.inner.dialGen 0 p.shared).1.inner.state = .closed := by
  rcases (client flatGeo).exists_tallied (Started onceConfig)
    (fun b p i t a => keepsCount flatGeo b p i t a = true) countAttempts
    { opened := 0, unproven := false } (keepsCount flatGeo) (fun _ _ _ _ _ h => h)
    (redialedOnce ++ [.resume 4 (.failed (newError .tryAgain "ws dial")), .resume 4 .go]) freshOnce
    started_freshOnce
    (fun p b => decide (b = { opened := 1, unproven := false } ∧
      p.tasks[5]? = some (Task.socketClosed 2 p.shared.inner.dialGen) ∧
      p.shared.inner.intentional = false ∧ p.shared.inner.cfg.disableReconnect = false ∧
      p.shared.inner.cfg.reconnectMaxAttempts = 1))
    (by decide +kernel) with ⟨p, b, hp, hrun⟩
  rcases of_decide_eq_true hrun with ⟨hb, htask, hint, hdis, hlimit⟩
  have hbound := reach_boundsReconnects flatGeo onceConfig p b hp (by omega)
  have hopened : b.opened = p.shared.inner.cfg.reconnectMaxAttempts := by
    rw [hb, hlimit]
  exact ⟨p, b, by rw [hb], htask, (hbound.2 hopened (by rw [hb]) hint hdis 0).1⟩

/-- The socket of the first reconnect is installed, its `Resume` is refused, and
    the reconnect path dials again. -/
def resumeRefused : List (Label Task Input) :=
  redialedOnce ++ [.resume 4 .opened, .resume 4 (.frame (.hello protocolVersion "n" 0)),
    .resume 4 .go, .resume 4 .go, .resume 4 .go,
    .resume 6 (.frame (.error .invalid "resume" none none)), .resume 4 .go, .resume 4 .go,
    .resume 7 (.random 0), .resume 7 .go, .resume 7 .go]

/-- The limit is one, and a second socket is opened: the install of the first
    reset the count before its `Resume` was refused. -/
theorem resume_refused_again :
    ¬ ∀ p b, (client flatGeo).Tallied (Started onceConfig) (fun _ _ _ _ _ => True)
      countAttempts { opened := 0, unproven := false } p b → BoundsReconnects p b := by
  intro hall
  rcases (client flatGeo).exists_tallied (Started onceConfig) (fun _ _ _ _ _ => True) countAttempts
    { opened := 0, unproven := false } (fun _ _ _ _ _ => true) (fun _ _ _ _ _ _ => trivial)
    resumeRefused freshOnce started_freshOnce
    (fun p b => decide (b.opened = 2 ∧ p.shared.inner.cfg.reconnectMaxAttempts = 1))
    (by decide +kernel) with ⟨p, b, hp, hrun⟩
  rcases of_decide_eq_true hrun with ⟨hopened, hlimit⟩
  have := (hall p b hp (by omega)).1
  omega

end Tracking

end Pickpoint
