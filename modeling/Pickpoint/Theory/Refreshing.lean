import Pickpoint.Core.TokenSession
import Pickpoint.Interleave.Exclusive

/-!
# Refreshing

Who holds the `refreshing` flag of a token session.

`Moves` lists the steps a call can take, with what each does to the session.
From it: as long as no caller is dropped between setting the flag and clearing
it, such a caller is there whenever the flag is set (`refresh_attended`). A caller
dropped there leaves the flag set (`refresh_orphaned`), and then it stays set
and nobody ever refreshes again (`step_orphaned`).

## Main definitions

* `Moves`: The steps of a call.
* `Task.holds`: Callers that have set the flag and not cleared it.
* `Attended`: Such a caller is there while the flag is set.
* `keepsHolders`: No such caller is dropped.

## Theorems

* `act_moves`: Every step is one of `Moves`.
* `refresh_attended`: The flag is attended.
* `step_orphaned`: A flag left behind stays set.
* `refresh_orphaned`: A dropped caller leaves the flag behind.
-/

namespace Pickpoint

namespace Auth

open Interleave

/-- The steps of a call: from the session and the call before to those after. -/
inductive Moves (parse : Bytes → Except String ClientAuth) (s : Shared) :
    Task → Shared → Task → Prop where
  | drop (t : Task) (h : t.awaits = true) : Moves parse s t s .dropped
  | due : Moves parse s .token s (.refresh (.token s.stored.length) .lock)
  | current : Moves parse s .token s (.tokenRead none)
  | took (who : Caller) (h : s.inner.refreshing = false) :
      Moves parse s (.refresh who .lock)
        { s with inner := { s.inner with refreshing := true } }
        (.refresh who (.posting s.inner.refreshToken))
  | busy (who : Caller) (h : s.inner.refreshing = true) :
      Moves parse s (.refresh who .lock) s (.refresh who .gap)
  | unanswered (who : Caller) (refreshTok e : String) :
      Moves parse s (.refresh who (.posting refreshTok)) s
        (.refresh who (.clear (.error (refreshNetworkError e))))
  | answered (who : Caller) (refreshTok : String) (status : Nat) :
      Moves parse s (.refresh who (.posting refreshTok)) s (.refresh who (.reading status))
  | refused (who : Caller) (status : Nat) (raw : Bytes) (e : ApiError)
      (h : refreshReply parse status raw = .error e) :
      Moves parse s (.refresh who (.reading status)) s (.refresh who (.clear (.error e)))
  | granted (who : Caller) (status : Nat) (raw : Bytes) (pair : ClientAuth)
      (h : refreshReply parse status raw = .ok pair) :
      Moves parse s (.refresh who (.reading status)) s (.refresh who (.store pair))
  | stored (who : Caller) (pair : ClientAuth) (now : Instant) :
      Moves parse s (.refresh who (.store pair)) (storePair pair now s)
        (.refresh who (.clear (.ok ())))
  | cleared (who : Caller) (r : Except ApiError Unit) :
      Moves parse s (.refresh who (.clear r)) (clearRefreshing s) (.refresh who (.notify r))
  | notified (who : Caller) (r : Except ApiError Unit) :
      Moves parse s (.refresh who (.notify r)) (notifyWaiters s) (who.done r)
  | parked (who : Caller) :
      Moves parse s (.refresh who .gap) s (.refresh who (.waiting s.notifyCalls))
  | asleep (who : Caller) (calls : Nat) (h : ¬ calls < s.notifyCalls) :
      Moves parse s (.refresh who (.waiting calls)) s (.refresh who (.waiting calls))
  | woken (who : Caller) (calls : Nat) (h : calls < s.notifyCalls) :
      Moves parse s (.refresh who (.waiting calls)) s (.refresh who .recheck)
  | again (who : Caller) (h : s.inner.refreshing = true) :
      Moves parse s (.refresh who .recheck) s (.refresh who .lock)
  | settled (who : Caller) (h : s.inner.refreshing = false) :
      Moves parse s (.refresh who .recheck) s (who.done (.ok ()))
  | read (due : Option Nat) :
      Moves parse s (.tokenRead due) s (.returned (.token (.ok s.inner.accessToken)))

/-- The caller has set `refreshing` and not cleared it. -/
def Task.holds : Task → Bool
  | .refresh _ (.posting _) | .refresh _ (.reading _) | .refresh _ (.store _)
  | .refresh _ (.clear _) => true
  | _ => false

/-- `refreshing` is true only if some caller is between setting it and clearing
    it. -/
def Attended (p : Pool Shared Task) : Prop :=
  p.shared.inner.refreshing = true → ∃ t ∈ p.tasks, t.holds = true

section Session

variable (parse : Bytes → Except String ClientAuth)

/-- No caller is dropped between setting the flag and clearing it. -/
def keepsHolders (p : Pool Shared Task) (_ : Nat) (t : Task) (a : Act Section Task) : Bool :=
  !(t.holds && decide ((tokenSession parse).heir a p.shared = .dropped))

/-- Every step is one of `Moves`, and no call spawns another. -/
theorem act_moves (t : Task) (c : Input) (a : Act Section Task) (s : Shared)
    (h : t.act parse c = some a) :
    Moves parse s t ((tokenSession parse).after a s) ((tokenSession parse).heir a s) ∧
      (tokenSession parse).spawned a s = [] := by
  -- By what resumes the call; at the other places of the code that input is
  -- not awaited, and there is no step.
  cases c with
  | drop =>
      simp only [Task.act] at h
      by_cases hawaits : t.awaits = true
      · rw [if_pos hawaits] at h
        cases h
        exact ⟨.drop t hawaits, rfl⟩
      · rw [if_neg hawaits] at h
        cases h
  | clock nowMs now now' =>
      cases t with
      | token =>
          cases h
          have hrun : (tokenSession parse).run (Section.check nowMs now now') s =
              (s, needsProactiveRefresh s.inner nowMs now now', s.stored.length) := rfl
          simp only [Machine.after, Machine.heir, Machine.spawned, hrun]
          -- The check decides whether `token` refreshes first.
          rcases needsProactiveRefresh s.inner nowMs now now' with _ | _
          · exact ⟨.current, trivial⟩
          · exact ⟨.due, trivial⟩
      | refresh who pc =>
          cases pc <;> cases h
          exact ⟨.stored who _ now, rfl⟩
      | _ => cases h
  | go =>
      cases t with
      | refresh who pc =>
          cases pc with
          -- Only here and at `recheck` does the flag decide what comes next.
          | lock =>
              cases h
              have hrun : (tokenSession parse).run Section.refreshLock s = refreshLock s := rfl
              rcases hflag : s.inner.refreshing with _ | _
              · simp only [Machine.after, Machine.heir, Machine.spawned, hrun, refreshLock, hflag,
                  Bool.false_eq_true, if_false]
                exact ⟨.took who hflag, trivial⟩
              · simp only [Machine.after, Machine.heir, Machine.spawned, hrun, refreshLock, hflag,
                  if_true]
                exact ⟨.busy who hflag, trivial⟩
          | clear r =>
              cases h
              exact ⟨.cleared who r, rfl⟩
          | notify r =>
              cases h
              exact ⟨.notified who r, rfl⟩
          | gap =>
              cases h
              exact ⟨.parked who, rfl⟩
          | waiting calls =>
              cases h
              have hrun : (tokenSession parse).run (Section.isNotified calls) s =
                  (s, decide (calls < s.notifyCalls)) := rfl
              by_cases hlt : calls < s.notifyCalls
              · simp only [Machine.after, Machine.heir, Machine.spawned, hrun, hlt, decide_true,
                  if_true]
                exact ⟨.woken who calls hlt, trivial⟩
              · simp only [Machine.after, Machine.heir, Machine.spawned, hrun, hlt, decide_false,
                  Bool.false_eq_true, if_false]
                exact ⟨.asleep who calls hlt, trivial⟩
          | recheck =>
              cases h
              have hrun : (tokenSession parse).run Section.readRefreshing s =
                  (s, s.inner.refreshing) := rfl
              rcases hflag : s.inner.refreshing with _ | _
              · simp only [Machine.after, Machine.heir, Machine.spawned, hrun, hflag,
                  Bool.false_eq_true, if_false]
                exact ⟨.settled who hflag, trivial⟩
              · simp only [Machine.after, Machine.heir, Machine.spawned, hrun, hflag, if_true]
                exact ⟨.again who hflag, trivial⟩
          | _ => cases h
      | tokenRead due =>
          cases h
          exact ⟨.read due, rfl⟩
      | _ => cases h
  | failed e =>
      cases t with
      | refresh who pc =>
          cases pc <;> cases h
          exact ⟨.unanswered who _ e, rfl⟩
      | _ => cases h
  | responded status =>
      cases t with
      | refresh who pc =>
          cases pc <;> cases h
          exact ⟨.answered who _ status, rfl⟩
      | _ => cases h
  | body raw =>
      cases t with
      | refresh who pc =>
          cases pc <;> cases h
          rename_i status
          have hrun : (tokenSession parse).run Section.nop s = (s, ()) := rfl
          rcases hreply : refreshReply parse status raw with e | pair
          · simp only [Machine.after, Machine.heir, Machine.spawned, hrun]
            exact ⟨.refused who status raw e hreply, trivial⟩
          · simp only [Machine.after, Machine.heir, Machine.spawned, hrun]
            exact ⟨.granted who status raw pair hreply, trivial⟩
      | _ => cases h

/-! ## The flag -/

/-- What a step does to the flag: it stays, a caller takes it, or the caller that
    holds it clears it. -/
theorem moves_flag (s s' : Shared) (t t' : Task) (h : Moves parse s t s' t') :
    s'.inner.refreshing = s.inner.refreshing ∨
      (s.inner.refreshing = false ∧ t'.holds = true) ∨
      (t.holds = true ∧ s'.inner.refreshing = false) := by
  cases h with
  | took who hflag => exact Or.inr (Or.inl ⟨hflag, rfl⟩)
  | cleared who r => exact Or.inr (Or.inr ⟨rfl, rfl⟩)
  | _ => exact Or.inl rfl

/-- A caller that holds the flag keeps it until it clears it, unless it is
    dropped. -/
theorem moves_holds (s s' : Shared) (t t' : Task) (h : Moves parse s t s' t')
    (hold : t.holds = true) :
    t'.holds = true ∨ s'.inner.refreshing = false ∨ t' = .dropped := by
  cases h with
  | drop => exact Or.inr (Or.inr rfl)
  | unanswered => exact Or.inl rfl
  | answered => exact Or.inl rfl
  | refused => exact Or.inl rfl
  | granted => exact Or.inl rfl
  | stored => exact Or.inl rfl
  | cleared => exact Or.inr (Or.inl rfl)
  | _ => cases hold

/-- A session starts with the flag unset and without calls. -/
theorem started_pool (initial : ClientAuth) (p : Pool Shared Task) (h : Started initial p) :
    p.shared.inner.refreshing = false ∧ p.shared.stored = [] ∧ p.tasks = [] := by
  rcases h with ⟨now, hnew, htasks⟩
  unfold newSession at hnew
  split at hnew
  · cases hnew
  · rw [← Except.ok.inj hnew]
    exact ⟨rfl, rfl, htasks⟩

variable (initial : ClientAuth)

/-- In every run in which no caller is dropped between setting the flag and clearing
    it, such a caller is there whenever the flag is set. The flag is no guard with a
    destructor: a future that is dropped there leaves it set for good. -/
theorem refresh_attended (p : Pool Shared Task)
    (h : (tokenSession parse).Reach (Started initial)
      ((tokenSession parse).whenever fun p i t a => keepsHolders parse p i t a = true) p) :
    Attended p := by
  refine (tokenSession parse).reach_pool (Started initial) _ Attended ?_ ?_ ?_ p h
  · intro p hp hflag
    cases (started_pool initial p hp).1.symm.trans hflag
  · intro p i c t a ht ha hkeeps hI
    have hmoves := (act_moves parse t c a p.shared ha).1
    refine (tokenSession parse).step_held (fun s : Shared => s.inner.refreshing) Task.holds p i a t
      ht ?_ hI
    intro hflag
    rcases hhold : t.holds with _ | _
    · rcases moves_flag parse _ _ _ _ hmoves with hkept | ⟨_, htook⟩ | ⟨hheld, _⟩
      · exact Or.inr ⟨rfl, hkept.symm.trans hflag⟩
      · exact Or.inl htook
      · cases hhold.symm.trans hheld
    · rcases moves_holds parse _ _ _ _ hmoves hhold with hkept | hclear | hdropped
      · exact Or.inl hkept
      · cases hclear.symm.trans hflag
      · -- A holder that is dropped is what the condition excludes.
        simp only [keepsHolders, hhold, hdropped, decide_true, Bool.and_self, Bool.not_true,
          Bool.false_eq_true] at hkeeps
  · intro p t _ hI hflag
    rcases hI hflag with ⟨u, hu, hhold⟩
    exact ⟨u, List.mem_append_left _ hu, hhold⟩

/-- A flag left behind stays set, and nobody ever takes it. -/
theorem step_orphaned (p q : Pool Shared Task) (l : Label Task Input)
    (hstep : (tokenSession parse).step p l = some q) (hflag : p.shared.inner.refreshing = true)
    (hnone : ∀ t ∈ p.tasks, t.holds = false) :
    q.shared.inner.refreshing = true ∧ ∀ t ∈ q.tasks, t.holds = false := by
  cases l with
  | resume i c =>
      rcases ((tokenSession parse).step_resume_iff p q i c).mp hstep with ⟨t, a, ht, ha, rfl⟩
      rcases act_moves parse t c a p.shared ha with ⟨hmoves, hspawned⟩
      have hfree := hnone t (List.mem_of_getElem? ht)
      -- Nobody who holds it is there to clear it, and a set flag is not taken.
      constructor
      · rcases moves_flag parse _ _ _ _ hmoves with h' | ⟨h', _⟩ | ⟨h', _⟩
        · exact h'.trans hflag
        · cases h'.symm.trans hflag
        · cases hfree.symm.trans h'
      · intro u hu
        rcases List.mem_iff_getElem?.mp hu with ⟨j, hj⟩
        rcases (tokenSession parse).resumed_get_cases p i j a t u ht hj with
          ⟨_, rfl⟩ | ⟨_, hu'⟩ | ⟨_, hu'⟩
        · generalize (tokenSession parse).after a p.shared = s' at hmoves
          generalize (tokenSession parse).heir a p.shared = t' at hmoves
          cases hmoves with
          | took who hno => cases hno.symm.trans hflag
          | notified who r => cases who <;> cases r <;> rfl
          | settled who hno => cases hno.symm.trans hflag
          | unanswered => cases hfree
          | answered => cases hfree
          | refused => cases hfree
          | granted => cases hfree
          | stored => cases hfree
          | _ => rfl
        · exact hnone u (List.mem_of_getElem? hu')
        · rw [hspawned] at hu'
          cases hu'
  | spawn t =>
      rcases ((tokenSession parse).step_spawn_iff p q t).mp hstep with ⟨hent, rfl⟩
      refine ⟨hflag, fun u hu => ?_⟩
      rcases List.mem_append.mp hu with hu' | hu'
      · exact hnone u hu'
      · rw [List.mem_singleton.mp hu']
        have hcall : isCall p.shared.stored.length t = true := hent
        cases t with
        | refresh who pc =>
            cases who <;> cases pc <;> first | rfl | cases hcall
        | _ => rfl

end Session

/-! ## Concrete runs -/

/-- The pair the session starts with. -/
def somePair : ClientAuth := ⟨"a1", "r1", 1000000⟩

/-- A decoder that knows one body. -/
def someParse (raw : Bytes) : Except String ClientAuth :=
  if raw = [1] then .ok ⟨"a2", "r2", 2000000⟩ else .error "unexpected token"

/-- What a session starts from with `somePair`. -/
def freshSession : Pool Shared Task :=
  { shared := { inner := ⟨"a1", "r1", 1000000, 0, false⟩ }, tasks := [] }

theorem started_freshSession : Started somePair freshSession := ⟨0, by decide, rfl⟩

/-- A run whose steps are watched, from the fresh session. -/
theorem session_of_watched
    (C : Pool Shared Task → Nat → Task → Act Section Task → Bool) (ls : List (Label Task Input))
    (P : Pool Shared Task → Bool)
    (h : ((tokenSession someParse).replay ((tokenSession someParse).watch C) freshSession ls).any P
      = true) :
    ∃ p, (tokenSession someParse).Reach (Started somePair)
      ((tokenSession someParse).whenever fun p i t a => C p i t a = true) p ∧ P p = true :=
  (tokenSession someParse).exists_reach _ _ _ ((tokenSession someParse).whenever_of_watch C) ls
    freshSession started_freshSession P h

/-- Any run from the fresh session. -/
theorem session_of_replay (ls : List (Label Task Input)) (P : Pool Shared Task → Bool)
    (h : ((tokenSession someParse).replay (fun _ _ => true) freshSession ls).any P = true) :
    ∃ p, (tokenSession someParse).Reach (Started somePair) Machine.anyStep p ∧ P p = true :=
  (tokenSession someParse).exists_reach _ _ _ (fun _ _ _ => trivial) ls freshSession
    started_freshSession P h

/-- A request was refused and refreshes. -/
def refreshing : List (Label Task Input) :=
  [.spawn (.refresh (.unauthorized 0) .lock), .resume 0 .go]

/-- While it posts, the flag is set and it is there. -/
theorem refresh_attended_posting :
    ∃ p : Pool Shared Task, p.shared.inner.refreshing = true ∧ Attended p := by
  rcases session_of_watched (keepsHolders someParse) refreshing
    (fun p => p.shared.inner.refreshing) (by decide) with ⟨p, hp, hflag⟩
  exact ⟨p, hflag, refresh_attended someParse somePair p hp⟩

/-- It is dropped while it posts, and the flag stays behind. -/
theorem refresh_orphaned :
    ¬ ∀ p, (tokenSession someParse).Reach (Started somePair) Machine.anyStep p → Attended p := by
  intro hall
  rcases session_of_replay (refreshing ++ [.resume 0 .drop])
    (fun p => decide (p.shared.inner.refreshing = true ∧ p.tasks = [.dropped])) (by decide)
    with ⟨p, hp, hrun⟩
  rcases of_decide_eq_true hrun with ⟨hflag, htasks⟩
  rcases hall p hp hflag with ⟨t, ht, hhold⟩
  rw [htasks, List.mem_singleton] at ht
  subst ht
  cases hhold

end Auth

end Pickpoint
