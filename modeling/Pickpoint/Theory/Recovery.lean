import Pickpoint.Theory.Pacing
import Pickpoint.Theory.Server

/-!
# Who Dials Next

A session that was not closed has to have somebody who looks after its
connection: the reader of the current socket, which will notice when it
closes, or a task that is on its way to the next dial.

Every dial takes a new generation and thereby disarms the close handler of the
socket before it. The reconnect task makes up for that, since it tries again
when its dial fails. The Relocate and auth tasks do not: they drop the error
of their dial. So when a Relocate names a target that refuses the connection,
the old socket is disarmed, the new one never comes, and nobody is left
(`relocate_orphans`).

`Task.keeps` says which tasks look after the connection. The only step that
loses the last of them is such a failing dial (`step_kept`), and in every run
in which somebody else is there when it fails the session is never orphaned
(`reach_attended`).

## Main definitions

* `Task.attends`, `Task.recovers`, `Attended`: The session is not orphaned.
* `Task.keeps`: The task looks after the connection.
* `abandons`, `rearmed`: A dial fails whose owner drops the error.

## Theorems

* `keeper_renewed`: A new generation or a lost socket has a new keeper.
* `keeper_passes`: A keeper hands over when it ends.
* `reach_attended`: The session is never orphaned.
* `relocate_orphans`: Not so in general.
-/

namespace Pickpoint

namespace Tracking

open Interleave

/-- The reader of the open socket of the current generation. -/
def Task.attends (s : Shared) : Task → Bool
  | .reader k gen _ =>
    s.inner.state == .open && s.inner.outTx == some k && gen == s.inner.dialGen &&
      s.gens[k]? == some gen
  | _ => false

/-- A task that is dialing, sleeping before a dial or refreshing credentials,
    or about to. -/
def Task.recovers (s : Shared) : Task → Bool
  | .dial .reconnect (.finished _ (.error _)) => true
  | .dial _ (.finished _ _) => false
  | .dial _ _ => true
  | .reconnectSleep _ _ => true
  | .socketClosed _ gen => gen == s.inner.dialGen
  | .authError _ _ => true
  | _ => false

/-- A connected session that may dial without limit and is not to end is
    looked after. -/
def Attended (p : Pool Shared Task) : Prop :=
  p.shared.connected = some true → p.shared.inner.intentional = false →
    p.shared.inner.cfg.disableReconnect = false →
    p.shared.inner.cfg.reconnectMaxAttempts = 0 →
    p.tasks.any (fun t => t.attends p.shared || t.recovers p.shared) = true

/-- Who called a dial tries again when it fails. -/
def Owner.retries : Owner → Bool
  | .connect | .reconnect => true
  | .relocate | .auth => false

/-- The task looks after the connection: its end leads to a dial. -/
def Task.keeps (l : Link) : Task → Bool
  | .reader k gen _ => l.current == some k && gen == l.dialGen && l.gens[k]? == some gen
  | .dial _ (.begin _ _) | .dial _ (.relocate _ _ _) | .dial _ (.relocateSleep _ _)
  | .dial _ (.relocateCheck _ _) => true
  | .dial owner (.connecting gen _) | .dial owner (.hello gen _)
  | .dial owner (.install gen _) => owner.retries || gen == l.dialGen
  | .dial owner (.finished _ (.error _)) => owner.retries
  | .reconnectSleep _ _ => true
  | .socketClosed _ gen => gen == l.dialGen
  | .authError _ _ => true
  | _ => false

/-- The dial of the current generation ends in an error before it has a socket,
    and its owner drops the error. -/
def abandons (geo : Geo) (s : Shared) (t : Task) (a : Act Section Task) : Bool :=
  match (client geo).heir a s with
  | .dial owner (.finished _ (.error _)) =>
    !owner.retries && t.dialing == some s.inner.dialGen && !s.inner.intentional
  | _ => false

/-- The step of a keeper leaves a keeper behind, or abandons the connection. -/
def Passes (geo : Geo) (s : Shared) (t : Task) (a : Act Section Task) : Prop :=
  abandons geo s t a = true ∨
    ((client geo).heir a s).keeps ((client geo).after a s).link = true ∨
    ∃ u ∈ (client geo).spawned a s, u.keeps ((client geo).after a s).link = true

/-- When an owner drops the error of the current dial, another task looks after
    the connection. -/
def rearmed (geo : Geo) (p : Pool Shared Task) (i : Nat) (t : Task) (a : Act Section Task) :
    Bool :=
  !abandons geo p.shared t a || (p.tasks.eraseIdx i).any fun u => u.keeps p.shared.link

/-! ## Moves of the connection -/

/-- A shutdown is for good. -/
theorem move_intentional (d : Drive) (l l' : Link) (hm : Link.Move d l l')
    (h : l'.intentional = false) : l.intentional = false := by
  cases hm with
  | shut => cases h
  | _ => exact h

-- What makes a keeper lose its place is a new generation, a new socket or the
-- loss of the current one; every other move leaves the three fields alone.
theorem move_keeps (d : Drive) (l l' : Link) (hm : Link.Move d l l')
    (h : l'.intentional = false) :
    (d = .begin ∨ d = .refresh ∨ d = .lose l.dialGen ∨ d = .install l.dialGen) ∨
      ∀ u : Task, u.keeps l' = u.keeps l := by
  cases hm with
  | begin => exact Or.inl (Or.inl rfl)
  | refresh => exact Or.inl (Or.inr (Or.inl rfl))
  | lose => exact Or.inl (Or.inr (Or.inr (Or.inl rfl)))
  | install hint => exact Or.inl (Or.inr (Or.inr (Or.inr rfl)))
  | shut => cases h
  | _ => exact Or.inr fun u => rfl

/-- While the session is not to end, the socket of the current generation is
    open as long as it is current. -/
def Link.Opened (l : Link) : Prop :=
  l.intentional = false → ∀ k, l.current = some k → l.gens[k]? = some l.dialGen →
    l.state = .open

theorem move_opened (d : Drive) (l l' : Link) (hm : Link.Move d l l') (hs : l.Sound)
    (h : l.Opened) : l'.Opened := by
  -- No socket has a generation that is only now taken.
  have hahead : ∀ k : Nat, l.gens[k]? ≠ some (l.dialGen + 1) := by
    intro k hk
    have := hs.gens_le _ (List.mem_of_getElem? hk)
    omega
  cases hm with
  | begin => exact fun _ k _ hk => absurd hk (hahead k)
  | refresh => exact fun _ k _ hk => absurd hk (hahead k)
  | lose =>
      intro _ k hk
      cases hk
  | install => exact fun _ _ _ _ => rfl
  | shut =>
      intro hint
      cases hint
  | _ => exact h

/-! ## The return of `connect` -/

/-- The section with which `connect` returns. -/
def Section.returns : {α : Type} → Section α → Bool
  | _, .connectReturn _ => true
  | _, _ => false

/-- No other section touches what `connect` returned. -/
theorem run_connected (geo : Geo) {α : Type} (op : Section α) (s : Shared)
    (h : op.returns = false) : (op.run geo s).1.connected = s.connected := by
  by_cases hby : op.standsBy = true
  · exact (run_standsBy geo op s hby).2.2.1
  -- `connected` is written where `connect` returns and nowhere else.
  cases op with
  | dispatchError sock e => simp only [Section.run, dispatchError_frame]
  | settle cell r forward => simp only [Section.run, settle_frame]
  | authClose => simp only [Section.run, authClose_frame]
  | authRefreshed device listener =>
      rcases authRefreshed_frame device listener s with ⟨_, _, _, hi, _⟩
      exact hi
  | closeFinal => simp only [Section.run, closeFinal_frame]
  | socketClosed gen random =>
      rcases socketClosed_cases gen random s with ⟨_, hi⟩ | ⟨_, _, _, _, _, _, _, _, _, _, hi, _⟩
      · simp only [Section.run, hi]
      · exact hi
  | resumeLock => simp only [Section.run, resumeLock_frame]
  | startTrack wall loc => simp only [Section.run, startTrack_frame]
  | startFailed => simp only [Section.run, startFailed_frame]
  | resumeTrack uid seq => simp only [Section.run, resumeTrack_frame]
  | resumeFailed => simp only [Section.run, resumeFailed_frame]
  | stopTrack => simp only [Section.run, stopTrack_frame]
  | stopFailed => simp only [Section.run, stopFailed_frame]
  | connectReturn ok => cases h
  | _ => first | exact absurd rfl hby | rfl

section Client

variable (geo : Geo)

/-- Whoever moves to a new generation or gives the socket up looks after the
    connection from then on, and so does the reader of a new socket. -/
theorem keeper_renewed (t : Task) (c : Input) (a : Act Section Task) (s : Shared)
    (h : t.act c = some a) (hint : s.inner.intentional = false)
    (hdis : s.inner.cfg.disableReconnect = false) (hmax : s.inner.backoff.maxAttempts = 0)
    (hmove : a.op.drive = .begin ∨ a.op.drive = .refresh ∨ a.op.drive = .lose s.inner.dialGen ∨
      a.op.drive = .install s.inner.dialGen) :
    ((client geo).heir a s).keeps ((client geo).after a s).link = true ∨
      ∃ u ∈ (client geo).spawned a s, u.keeps ((client geo).after a s).link = true := by
  have hby := act_madeBy t c a h
  -- One kind of task for each of the moves: a dial that begins, the handler of a
  -- refused token, the close handler, and a dial that installs.
  rcases hmove with hd | hd | hd | hd
  · rw [hd] at hby
    rcases hby with ⟨owner, gen, resume, rfl⟩
    cases c <;> cases h
    refine Or.inl ?_
    -- The dial now holds the generation it has just taken.
    show (owner.retries || (s.inner.dialGen + 1 == s.inner.dialGen + 1)) = true
    rw [beq_self_eq_true, Bool.or_true]
  · rw [hd] at hby
    rcases hby with ⟨gen, device, listener, rfl⟩
    cases c <;> cases h
    refine Or.inl ?_
    have hrun : (client geo).run (Section.authRefreshed device listener) s =
        authRefreshed device listener s := rfl
    rcases authRefreshed_frame device listener s with ⟨_, _, hi, _⟩
    have hres : (authRefreshed device listener s).2.2 = s.inner.intentional := by
      have : (authRefreshed device listener s).2.2 =
          (authRefreshed device listener s).1.inner.intentional := rfl
      rw [this, hi]
    simp only [Machine.heir, hrun]
    rw [hres, hint]
    rfl
  · rw [hd] at hby
    rcases hby with ⟨cause, rfl⟩
    cases c <;> cases h
    rename_i r
    refine Or.inl ?_
    have hrun : (client geo).run (Section.socketClosed s.inner.dialGen r) s =
        socketClosed s.inner.dialGen r s := rfl
    rcases socketClosed_retry r s hint hdis with
      ⟨delay, backoff, _, _, _, hres⟩ | ⟨hnext, _⟩
    · simp only [Machine.heir, hrun, hres]
      rfl
    · -- Without a limit there is always another attempt.
      unfold nextDelay at hnext
      rw [if_neg (by omega)] at hnext
      cases hnext
  · rw [hd] at hby
    rcases hby with ⟨owner, resume, rfl⟩
    cases c <;> cases h
    have hrun : (client geo).run (Section.dialInstall s.inner.dialGen) s =
        dialInstall s.inner.dialGen s := rfl
    rcases dialInstall_cases s.inner.dialGen s with ⟨hgen, _⟩ | ⟨_, _, hi⟩
    · rcases hgen with hgen | hgen
      · exact absurd rfl hgen
      · rw [hint] at hgen
        cases hgen
    · refine Or.inr ⟨.reader s.sockets.length s.inner.dialGen .reading, ?_, ?_⟩
      · simp only [Machine.spawned, hrun, hi]
        exact List.mem_cons_of_mem _ List.mem_cons_self
      · simp only [Machine.after, hrun, hi, Task.keeps, Shared.link, Inner.link, Shared.gens,
          List.map_append, List.map_cons, List.map_nil, beq_self_eq_true, Bool.true_and]
        rw [List.getElem?_append_right (by rw [List.length_map]), List.length_map, Nat.sub_self]
        exact beq_self_eq_true _

/-- A reader looks after its socket until it sees it close, and then the close
    handler it spawns does. -/
theorem reader_passes (k gen : Nat) (pc : ReaderPc) (c : Input) (a : Act Section Task)
    (s : Shared) (h : (Task.reader k gen pc).act c = some a)
    (hkeeps : (Task.reader k gen pc).keeps s.link = true)
    (hlink : ∀ u : Task, u.keeps ((client geo).after a s).link = u.keeps s.link) :
    Passes geo s (.reader k gen pc) a := by
  -- A reader in any other place keeps just as well.
  have hstay : ∀ pc' : ReaderPc, (client geo).heir a s = .reader k gen pc' →
      Passes geo s (.reader k gen pc) a := by
    intro pc' hheir
    refine Or.inr (Or.inl ?_)
    rw [hlink, hheir]
    exact hkeeps
  -- The reader stays at its socket until the socket ends.
  cases pc with
  | reading =>
      cases c with
      | frame msg =>
          cases h
          rcases dispatchAct_next k gen msg
            ((client geo).run (Task.dispatchAct k gen msg).op s).2 with ⟨pc', hpc⟩
          exact hstay pc' hpc
      | eof =>
          cases h
          refine Or.inr (Or.inr ⟨.socketClosed gen gen, List.mem_singleton.mpr rfl, ?_⟩)
          exact (Bool.and_eq_true_iff.mp (Bool.and_eq_true_iff.mp hkeeps).1).2
      | _ => cases h
  | flush cell r forward =>
      cases c <;> cases h
      rcases hres : ((client geo).run Section.flush s).2 with ⟨ticket, _ | ⟨f, fs⟩⟩
      · exact hstay (.settle cell r forward) (by simp only [Machine.heir, hres])
      · exact hstay (.sending ticket (f :: fs) cell r forward) (by
          simp only [Machine.heir, hres])
  | sending ticket frames cell r forward =>
      rcases frames with _ | ⟨f, fs⟩
      · cases c <;> cases h
        exact hstay (.flush cell r forward) rfl
      · cases c <;> cases h
        rcases hres : ((client geo).run (Section.sendBin (.loc f) (some ticket)) s).2 with e | _
        · exact hstay (.settle cell r forward) (by simp only [Machine.heir, hres])
        · exact hstay (.sending ticket fs cell r forward) (by simp only [Machine.heir, hres])
  | settle cell r forward =>
      cases c <;> cases h
      exact hstay .reading rfl

/-- A dial that was to bring the next socket installs it or fails. -/
theorem dial_passes (owner : Owner) (pc : DialPc) (c : Input) (a : Act Section Task)
    (s : Shared) (h : (Task.dial owner pc).act c = some a)
    (hkeeps : (Task.dial owner pc).keeps s.link = true) (hint : s.inner.intentional = false)
    (hdis : s.inner.cfg.disableReconnect = false) (hmax : s.inner.backoff.maxAttempts = 0)
    (hconn : ((client geo).after a s).connected ≠ some false) :
    Passes geo s (.dial owner pc) a := by
  -- The error of a dial is dropped, or its owner tries again.
  have hfails : ∀ (gen : Nat) (e : Error), (owner.retries || gen == s.inner.dialGen) = true →
      (Task.dial owner pc).dialing = some gen →
      (client geo).heir a s = .dial owner (.finished gen (.error e)) →
      Passes geo s (.dial owner pc) a := by
    intro gen e hk hdialing hheir
    rcases hr : owner.retries with _ | _
    · refine Or.inl ?_
      rw [hr, Bool.false_or, beq_iff_eq] at hk
      simp only [abandons, hheir, hr, hdialing, hk, hint, beq_self_eq_true, Bool.not_false,
        Bool.and_self]
    · refine Or.inr (Or.inl ?_)
      rw [hheir]
      exact hr
  -- A dial goes on, fails through `hfails`, or hands over; the places past the
  -- install do not keep.
  cases pc with
  | begin gen resume =>
      have hdrive : a.op.drive = .begin := by
        cases c <;> cases h
        rfl
      exact Or.inr (keeper_renewed geo _ c a s h hint hdis hmax (Or.inl hdrive))
  | connecting gen resume =>
      cases c <;> cases h
      · exact Or.inr (Or.inl hkeeps)
      · exact hfails gen _ hkeeps rfl rfl
  | hello gen resume =>
      -- The first frame lets the dial go on, sends it elsewhere, or ends it.
      cases c <;> cases h
      · exact hfails gen _ hkeeps rfl rfl
      · rename_i msg
        cases msg with
        | hello version node shard =>
            by_cases hv : version = protocolVersion
            · refine Or.inr (Or.inl ?_)
              simp only [Machine.heir, Task.helloReply, if_pos hv]
              exact hkeeps
            · refine hfails gen (newError .invalid s!"unsupported hello version {version}") hkeeps
                rfl ?_
              simp only [Machine.heir, Task.helloReply, if_neg hv]
        | relocate endpoint ms => exact Or.inr (Or.inl rfl)
        | _ => exact hfails gen _ hkeeps rfl rfl
  | install gen resume =>
      -- Either no later dial has begun and the socket is installed, or this dial is
      -- superseded and its owner sees an error.
      by_cases hgen : gen = s.inner.dialGen
      · have hdrive : a.op.drive = .install s.inner.dialGen := by
          cases c <;> cases h
          rw [hgen]
          rfl
        exact Or.inr (keeper_renewed geo _ c a s h hint hdis hmax
          (Or.inr (Or.inr (Or.inr hdrive))))
      · cases c <;> cases h
        have hrun : (client geo).run (Section.dialInstall gen) s = dialInstall gen s := rfl
        rcases dialInstall_cases gen s with ⟨_, hi⟩ | ⟨hgen', _⟩
        · refine hfails gen (newError .invalid "dial superseded") hkeeps rfl ?_
          simp only [Machine.heir, hrun, hi]
        · exact absurd hgen' hgen
  | relocate gen rel resume =>
      cases c <;> cases h
      refine Or.inr (Or.inl ?_)
      dsimp only [Machine.heir]
      split <;> rfl
  | relocateSleep gen resume =>
      cases c <;> cases h
      exact Or.inr (Or.inl rfl)
  | relocateCheck gen resume =>
      -- The client is not being closed, so the relocation dials again.
      cases c <;> cases h
      refine Or.inr (Or.inl ?_)
      have hrun : (client geo).run (Section.relocateCheck resume) s =
          (s, relocateCheck resume s) := rfl
      simp only [Machine.heir, hrun, relocateCheck, hint]
      rfl
  | finished gen r =>
      cases r with
      | ok _ => cases hkeeps
      | error e =>
          -- `connect` returns the error, and a redial schedules the next one; the
          -- other owners drop it, which the invariant excludes.
          cases owner with
          | connect =>
              cases c <;> cases h
              exact absurd rfl hconn
          | reconnect =>
              cases c <;> cases h
              refine Or.inr (Or.inr ⟨_, List.mem_singleton.mpr rfl, ?_⟩)
              exact beq_self_eq_true _
          | relocate => cases hkeeps
          | auth => cases hkeeps
  | _ => cases hkeeps

/-- An auth handler dials when it has new credentials; otherwise it ends the
    session. -/
theorem auth_passes (gen : Nat) (pc : AuthPc) (c : Input) (a : Act Section Task)
    (s : Shared) (h : (Task.authError gen pc).act c = some a)
    (hint : s.inner.intentional = false)
    (hint' : ((client geo).after a s).inner.intentional = false)
    (hdis : s.inner.cfg.disableReconnect = false) (hmax : s.inner.backoff.maxAttempts = 0) :
    Passes geo s (.authError gen pc) a := by
  -- The handler that gives up marks the client closed, which `hint'` rules out.
  cases pc with
  | lookup =>
      cases c <;> cases h
      exact Or.inr (Or.inl rfl)
  | close =>
      cases c <;> cases h
      have hi : (authClose s).inner.intentional = true := by
        rw [(authClose_frame s).1]
      have hbad : true = false := hi.symm.trans hint'
      cases hbad
  | refreshing =>
      cases c with
      | auth r =>
          rcases r with e | ⟨device, listener⟩ <;> cases h <;> exact Or.inr (Or.inl rfl)
      | _ => cases h
  | refreshed device listener =>
      have hdrive : a.op.drive = .refresh := by
        cases c <;> cases h
        rfl
      exact Or.inr (keeper_renewed geo _ c a s h hint hdis hmax (Or.inr (Or.inl hdrive)))
  | failed =>
      cases c <;> cases h
      cases hint'

/-- A keeper that steps leaves a keeper behind, unless its owner drops the
    error of its dial. -/
theorem keeper_passes (t : Task) (c : Input) (a : Act Section Task) (s : Shared)
    (h : t.act c = some a) (hkeeps : t.keeps s.link = true)
    (hint : s.inner.intentional = false)
    (hint' : ((client geo).after a s).inner.intentional = false)
    (hdis : s.inner.cfg.disableReconnect = false) (hmax : s.inner.backoff.maxAttempts = 0)
    (hconn : ((client geo).after a s).connected ≠ some false) : Passes geo s t a := by
  rcases move_keeps _ _ _ (after_moves geo a s) hint' with hmove | hlink
  · exact Or.inr (keeper_renewed geo t c a s h hint hdis hmax hmove)
  · -- No move, so the task itself goes on as a keeper or passes on.
    cases t with
    | reader k gen pc => exact reader_passes geo k gen pc c a s h hkeeps hlink
    | dial owner pc => exact dial_passes geo owner pc c a s h hkeeps hint hdis hmax hconn
    | socketClosed cause gen =>
        have hgen : gen = s.inner.dialGen := beq_iff_eq.mp hkeeps
        have hdrive : a.op.drive = .lose s.inner.dialGen := by
          cases c <;> cases h
          rw [hgen]
          rfl
        exact Or.inr (keeper_renewed geo _ c a s h hint hdis hmax
          (Or.inr (Or.inr (Or.inl hdrive))))
    | reconnectSleep cause resume =>
        cases c <;> cases h
        refine Or.inr (Or.inl ?_)
        have hrun : (client geo).run Section.readIntentional s = (s, s.inner.intentional) := rfl
        simp only [Machine.heir, hrun, hint]
        rfl
    | authError gen pc => exact auth_passes geo gen pc c a s h hint hint' hdis hmax
    | _ => cases hkeeps

/-! ## Runs -/

/-- A session that is not to end, and whose `connect` has not failed, is looked
    after. -/
def Kept (p : Pool Shared Task) : Prop :=
  p.shared.inner.intentional = false → p.shared.connected ≠ some false →
    ∃ t ∈ p.tasks, t.keeps p.shared.link = true

/-- The dial of `connect` is task zero, and `connect` has not returned while it
    lasts. -/
def Connecting (p : Pool Shared Task) : Prop :=
  ∀ (j : Nat) pc, p.tasks[j]? = some (.dial .connect pc) → j = 0 ∧ p.shared.connected = none

/-- Only the dial of `connect` says that `connect` returned, and it ends then. -/
theorem after_connected (t : Task) (c : Input) (a : Act Section Task) (s : Shared)
    (h : t.act c = some a) :
    ((client geo).after a s).connected = s.connected ∨
      ((∃ pc, t = .dial .connect pc) ∧ ((client geo).heir a s).kind = .returned) := by
  rcases hreturns : a.op.returns with _ | _
  · exact Or.inl (run_connected geo a.op s hreturns)
  · refine Or.inr ?_
    have hissuer : a.op.issuer = some .dial := by
      rcases a with ⟨op, next⟩
      cases op <;> first | rfl | cases hreturns
    have hkind := act_issuer t c a h .dial hissuer
    revert hreturns
    revert h
    cases t with
    | dial owner pc =>
        simp only [Task.act]
        fun_cases Task.dialAct owner pc c <;> intro h <;> cases h <;> intro hreturns
        case true.dial.case17.refl => exact ⟨⟨_, rfl⟩, rfl⟩
        all_goals cases hreturns
    | _ => cases hkind

/-- Nothing becomes the dial of `connect` but itself. -/
theorem heir_connecting (t : Task) (c : Input) (a : Act Section Task) (s : Shared)
    (h : t.act c = some a) (pc : DialPc) (hheir : (client geo).heir a s = .dial .connect pc) :
    ∃ pc', t = .dial .connect pc' := by
  have hkind := heir_kind geo t c a s h
  revert hheir
  unfold Machine.heir
  revert h
  -- A new dial belongs to whoever starts it, and that is never `connect`.
  cases t with
  | dial owner pc' =>
      have howner : ∀ pc'' : DialPc, Task.dial owner pc'' = .dial .connect pc →
          ∃ pc₀, Task.dial owner pc' = .dial .connect pc₀ := by
        intro pc'' hd
        cases hd
        exact ⟨pc', rfl⟩
      simp only [Task.act]
      fun_cases Task.dialAct owner pc' c <;> intro h <;> cases h <;> dsimp only <;>
        (try split) <;> intro hheir <;> first | exact howner _ hheir | cases hheir
  | reconnectSleep cause resume =>
      cases c <;> intro h <;> cases h
      dsimp only
      split <;> intro hheir <;> cases hheir
  | authError gen pc' =>
      simp only [Task.act]
      fun_cases Task.authAct gen pc' c <;> intro h <;> cases h <;> dsimp only <;>
        (try split) <;> intro hheir <;> cases hheir
  | socketClosed cause gen =>
      cases c <;> intro h <;> cases h
      dsimp only
      split <;> intro hheir <;> cases hheir
  | _ =>
      intro _ hheir
      have hheir' : (client geo).heir a s = .dial .connect pc := hheir
      rw [hheir'] at hkind
      rcases hkind with hk | hk | ⟨hk, _⟩
      · cases hk
      · cases hk
      · rcases hk with hk | hk <;> cases hk

/-- A step keeps the session looked after. -/
theorem step_kept (p : Pool Shared Task) (i : Nat) (c : Input) (t : Task)
    (a : Act Section Task) (ht : p.tasks[i]? = some t) (ha : t.act c = some a)
    (hdis : p.shared.inner.cfg.disableReconnect = false)
    (hmax : p.shared.inner.backoff.maxAttempts = 0)
    (hconn : p.shared.connected = some false →
      ((client geo).after a p.shared).connected = some false)
    (hcond : rearmed geo p i t a = true) (hI : Kept p) :
    Kept ((client geo).resumed p i a) := by
  intro hint' hconn'
  have hint : p.shared.inner.intentional = false :=
    move_intentional _ _ _ (after_moves geo a p.shared) hint'
  -- Somebody was responsible before the step.
  rcases hI hint (fun hfalse => hconn' (hconn hfalse)) with ⟨u, hu, hkeeps⟩
  have hheir : ((client geo).heir a p.shared).keeps ((client geo).after a p.shared).link = true →
      ∃ v ∈ ((client geo).resumed p i a).tasks,
        v.keeps ((client geo).resumed p i a).shared.link = true := fun hk =>
    ⟨_, List.mem_of_getElem? ((client geo).resumed_get_self p i a t ht), hk⟩
  have hspawned : (∃ v ∈ (client geo).spawned a p.shared,
      v.keeps ((client geo).after a p.shared).link = true) →
      ∃ v ∈ ((client geo).resumed p i a).tasks,
        v.keeps ((client geo).resumed p i a).shared.link = true := by
    rintro ⟨v, hv, hk⟩
    exact ⟨v, List.mem_append_right _ hv, hk⟩
  rcases move_keeps _ _ _ (after_moves geo a p.shared) hint' with hmove | hlink
  · -- The move itself makes somebody responsible.
    rcases keeper_renewed geo t c a p.shared ha hint hdis hmax hmove with hk | hk
    · exact hheir hk
    · exact hspawned hk
  · -- Without a move, keepers that do not step stay keepers.
    have hother : ∀ (j : Nat) v, j ≠ i → p.tasks[j]? = some v → v.keeps p.shared.link = true →
        ∃ w ∈ ((client geo).resumed p i a).tasks,
          w.keeps ((client geo).resumed p i a).shared.link = true := by
      intro j v hji hv hk
      refine ⟨v, List.mem_of_getElem? ((client geo).resumed_get_other p i j a v hji hv), ?_⟩
      exact (hlink v).trans hk
    rcases List.mem_iff_getElem?.mp hu with ⟨j, hj⟩
    by_cases hji : j = i
    · rw [hji, ht, Option.some.injEq] at hj
      rw [← hj] at hkeeps
      rcases keeper_passes geo t c a p.shared ha hkeeps hint hint' hdis hmax hconn' with
        habandon | hk | hk
      · -- The owner drops the error, so somebody else is there.
        have hany : ((p.tasks.eraseIdx i).any fun u => u.keeps p.shared.link) = true := by
          rw [rearmed, habandon] at hcond
          exact hcond
        rcases List.any_eq_true.mp hany with ⟨v, hv, hk⟩
        rcases List.mem_eraseIdx_iff_getElem?.mp hv with ⟨m, hmi, hm⟩
        exact hother m v hmi hm hk
      · exact hheir hk
      · exact hspawned hk
    · exact hother j u hji hj hkeeps

variable (cfg : Config)

/-- The dial of `connect` is the first task and ends with the return of
    `connect`. -/
theorem reach_connecting (C : Pool Shared Task → Nat → Task → Act Section Task → Prop)
    (p : Pool Shared Task) (h : (client geo).Reach (Started cfg) ((client geo).whenever C) p) :
    Connecting p := by
  refine (client geo).reach_pool (Started cfg) _ Connecting ?_ ?_ ?_ p h
  -- The run starts with this dial alone.
  · intro p hp j pc hj
    rcases started_pool cfg p hp with ⟨now, rfl⟩
    have hlt := (List.getElem?_eq_some_iff.mp hj).1
    rw [List.length_singleton] at hlt
    exact ⟨by omega, rfl⟩
  · intro p i c t a ht ha _ hI j pc hj
    rcases (client geo).resumed_get_cases p i j a t _ ht hj with
      ⟨rfl, hheir⟩ | ⟨hji, hu⟩ | ⟨_, hu⟩
    -- The dial itself goes on; it is not the step that returns from `connect`.
    · rcases heir_connecting geo t c a p.shared ha pc hheir.symm with ⟨pc', rfl⟩
      rcases hI j pc' ht with ⟨hj0, hnone⟩
      refine ⟨hj0, ?_⟩
      rcases after_connected geo (.dial .connect pc') c a p.shared ha with
        hsame | ⟨_, hkind⟩
      · exact hsame.trans hnone
      · rw [← hheir] at hkind
        cases hkind
    · rcases hI j pc hu with ⟨hj0, hnone⟩
      refine ⟨hj0, ?_⟩
      rcases after_connected geo t c a p.shared ha with hsame | ⟨⟨pc', rfl⟩, _⟩
      · exact hsame.trans hnone
      · -- Two dials of `connect` would both be the first task.
        have hi0 := (hI i pc' ht).1
        omega
    · rcases spawned_cases geo t c a p.shared ha _ (List.mem_of_getElem? hu) with
        ⟨_, _, _, _, hs | hs⟩ | ⟨_, _, _, hs | hs | ⟨_, hs⟩⟩ | ⟨_, _, _, hs⟩ <;> cases hs
  · intro p t hent hI j pc hj
    rcases Machine.entered_get_cases p.tasks t _ j hj with hold | rfl
    · exact hI j pc hold
    · cases ((entry_iff geo _ _).mp hent).2

/-- In every run in which an owner drops the error of the current dial only
    when somebody else looks after the connection, somebody always does. -/
theorem reach_kept (p : Pool Shared Task) (hdis : cfg.disableReconnect = false)
    (hmax : cfg.reconnectMaxAttempts = 0)
    (h : (client geo).Reach (Started cfg)
      ((client geo).whenever fun p i t a => rearmed geo p i t a = true) p) : Kept p := by
  have hlimits := reach_limits geo cfg (fun p i t a => rearmed geo p i t a = true)
  have hconnecting := reach_connecting geo cfg (fun p i t a => rearmed geo p i t a = true)
  have hreach := (client geo).reach_knowing (Started cfg) _ _
    (fun p h => And.intro (hlimits p h) (hconnecting p h)) p h
  refine (client geo).reach_pool (Started cfg) _ Kept ?_ ?_ ?_ p hreach
  · intro p hp _ _
    rcases started_pool cfg p hp with ⟨now, rfl⟩
    exact ⟨_, List.mem_singleton.mpr rfl, rfl⟩
  · intro p i c t a ht ha hC hI
    rcases hC with ⟨hcond, ⟨hd, _, hm⟩, hfirst⟩
    refine step_kept geo p i c t a ht ha (hd.trans hdis) (hm.trans hmax) ?_ hcond hI
    intro hfalse
    rcases after_connected geo t c a p.shared ha with hsame | ⟨⟨pc, rfl⟩, _⟩
    · exact hsame.trans hfalse
    · rw [(hfirst i pc ht).2] at hfalse
      cases hfalse
  · intro p t _ hI hint hconn
    rcases hI hint hconn with ⟨u, hu, hk⟩
    exact ⟨u, List.mem_append_left _ hu, hk⟩

/-- The socket of the current generation is open while it is current. -/
theorem reach_opened (C : Pool Shared Task → Nat → Task → Act Section Task → Prop)
    (p : Pool Shared Task) (h : (client geo).Reach (Started cfg) ((client geo).whenever C) p) :
    p.shared.link.Opened := by
  have hreach := (client geo).reach_knowing (Started cfg) C _
    (fun p h => (reach_dialed geo cfg C p h).sound) p h
  refine (client geo).reach_shared (Started cfg) _ (fun s => s.link.Opened) ?_ ?_ p hreach
  · intro p hp _ k hk
    rcases started_pool cfg p hp with ⟨now, rfl⟩
    cases hk
  · intro p i c t a _ _ hC hI
    exact move_opened _ _ _ (after_moves geo a p.shared) hC.2 hI

/-- The session is never orphaned, in every run in which an owner drops the error of
    the current dial only when somebody else looks after the connection: an error of
    a dial that `Relocate` or an auth error began is logged and forgotten. The
    induction carries `Kept`, the keeper of each generation and what keepers pass on
    to each other. -/
theorem reach_attended (p : Pool Shared Task)
    (h : (client geo).Reach (Started cfg)
      ((client geo).whenever fun p i t a => rearmed geo p i t a = true) p) :
    Attended p := by
  intro hconn hint hdis hmax
  rcases reach_limits geo cfg _ p h with ⟨hd, hm, _⟩
  have hkept := reach_kept geo cfg p (hd.symm.trans hdis) (hm.symm.trans hmax) h
  rcases hkept hint (by rw [hconn]; rintro ⟨⟩) with ⟨u, hu, hkeeps⟩
  -- Whoever keeps the client is one of those that attend to it.
  refine List.any_eq_true.mpr ⟨u, hu, ?_⟩
  rcases List.mem_iff_getElem?.mp hu with ⟨j, hj⟩
  cases u with
  | reader k gen pc =>
      rcases Bool.and_eq_true_iff.mp hkeeps with ⟨hboth, hgens⟩
      rcases Bool.and_eq_true_iff.mp hboth with ⟨hcur, hgen⟩
      have hopen : p.shared.inner.state = .open := by
        refine reach_opened geo cfg _ p h hint k (beq_iff_eq.mp hcur) ?_
        exact (beq_iff_eq.mp hgens).trans (congrArg some (beq_iff_eq.mp hgen))
      have hcur' : (p.shared.inner.outTx == some k) = true := hcur
      have hgen' : (gen == p.shared.inner.dialGen) = true := hgen
      have hgens' : (p.shared.gens[k]? == some gen) = true := hgens
      simp only [Task.attends, hopen, hcur', hgen', hgens', beq_self_eq_true, Bool.and_self,
        Bool.true_or]
  | dial owner pc =>
      refine Bool.or_eq_true_iff.mpr (Or.inr ?_)
      cases pc with
      | finished gen r =>
          cases r with
          | ok _ => cases hkeeps
          | error e =>
              cases owner with
              | connect =>
                  have hnone := (reach_connecting geo cfg _ p h j _ hj).2
                  rw [hnone] at hconn
                  cases hconn
              | reconnect => rfl
              | relocate => cases hkeeps
              | auth => cases hkeeps
      | _ => cases owner <;> rfl
  | socketClosed cause gen => exact Bool.or_eq_true_iff.mpr (Or.inr hkeeps)
  | reconnectSleep cause resume => exact Bool.or_eq_true_iff.mpr (Or.inr rfl)
  | authError gen pc => exact Bool.or_eq_true_iff.mpr (Or.inr rfl)
  | _ => cases hkeeps

end Client

/-- A Relocate names a target that answers, and the old socket closes. -/
def relocatedWell : List (Label Task Input) :=
  opening ++ [.resume 2 (.frame (.relocate "wss://b" 0)), .resume 3 .go, .resume 3 .go] ++
    dialSteps 3 ++ [.resume 2 .eof]

/-- The session has moved, and the reader of the new socket looks after it. -/
theorem reach_attended_relocated :
    ∃ p : Pool Shared Task, p.shared.connected = some true ∧ p.shared.inner.dialGen = 2 ∧
      p.tasks.any (fun t => t.attends p.shared || t.recovers p.shared) = true := by
  rcases reach_of_watched (rearmed flatGeo) relocatedWell
    (fun p => decide (p.shared.connected = some true ∧ p.shared.inner.intentional = false ∧
      p.shared.inner.cfg.disableReconnect = false ∧
      p.shared.inner.cfg.reconnectMaxAttempts = 0 ∧ p.shared.inner.dialGen = 2))
    (by decide +kernel) with ⟨p, hp, hrun⟩
  rcases of_decide_eq_true hrun with ⟨hconn, hint, hdis, hmax, hgen⟩
  exact ⟨p, hconn, hgen, reach_attended flatGeo someConfig p hp hconn hint hdis hmax⟩

/-- A Relocate names a target that refuses the connection. The dial has taken a
    new generation, so the close handler of the old socket does nothing. -/
def relocatedNowhere : List (Label Task Input) :=
  opening ++ [.resume 2 (.frame (.relocate "wss://b" 0)), .resume 3 .go, .resume 3 .go,
    .resume 3 .go, .resume 3 (.failed (newError .tryAgain "ws dial")), .resume 3 .go,
    .resume 2 .eof, .resume 4 (.random 0)]

/-- Nobody is left to dial. -/
theorem relocate_orphans :
    ¬ ∀ p, (client flatGeo).Reach (Started someConfig) Machine.anyStep p → Attended p := by
  intro hall
  rcases reach_of_opening relocatedNowhere
    (fun p => decide (p.shared.connected = some true ∧ p.shared.inner.intentional = false ∧
      p.shared.inner.cfg.disableReconnect = false ∧
      p.shared.inner.cfg.reconnectMaxAttempts = 0 ∧
      p.tasks.any (fun t : Task => t.attends p.shared || t.recovers p.shared) = false))
    (by decide +kernel) with ⟨p, hp, hrun⟩
  rcases of_decide_eq_true hrun with ⟨hconn, hint, hdis, hmax, hnone⟩
  have hsome := hall p hp hconn hint hdis hmax
  rw [hnone] at hsome
  cases hsome

end Tracking

end Pickpoint
