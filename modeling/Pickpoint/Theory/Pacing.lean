import Pickpoint.Theory.Lineage

/-!
# Reconnect Pacing

What the locked sections do to the settings that decide whether and when the
client dials again: the options `disableReconnect` and `reconnectMaxAttempts`,
which never change, and the backoff, which an install resets and the close
handler of the current generation counts up.

## Main definitions

* `Pacing`, `Shared.pacing`: The settings.
* `PacingStep`: What a section may do to them.

## Theorems

* `socketClosed_retry`: The close handler of a session that may dial again.
* `run_pacing`: What a section does to the settings.
* `reach_limits`: The options stay what `connect` was given.
-/

namespace Pickpoint

namespace Tracking

open Interleave

/-- What decides whether the client dials again: the two settings of the reconnect,
    and the backoff. -/
structure Pacing where
  disableReconnect : Bool
  limit : Nat
  backoff : BackoffState

def Shared.pacing (s : Shared) : Pacing where
  disableReconnect := s.inner.cfg.disableReconnect
  limit := s.inner.cfg.reconnectMaxAttempts
  backoff := s.inner.backoff

/-- What a section may do to the settings. -/
inductive PacingStep (s : Shared) : {α : Type} → Section α → Pacing → Prop where
  | keep {α : Type} (op : Section α) : PacingStep s op s.pacing
  | reset (h : s.inner.intentional = false) :
      PacingStep s (.dialInstall s.inner.dialGen)
        { s.pacing with backoff := resetBackoff s.inner.backoff }
  | spent (random : ℚ) (delay : Nat) (backoff : BackoffState)
      (hnext : nextDelay s.inner.backoff random = some (delay, backoff)) :
      PacingStep s (.socketClosed s.inner.dialGen random) { s.pacing with backoff := backoff }

/-- The close handler of the current generation, when the session is not to
    end and reconnecting is allowed: it takes the next delay, or closes the
    session and fails every waiter when there is none. -/
theorem socketClosed_retry (random : ℚ) (s : Shared) (hint : s.inner.intentional = false)
    (hdis : s.inner.cfg.disableReconnect = false) :
    (∃ delay backoff, nextDelay s.inner.backoff random = some (delay, backoff) ∧
      (socketClosed s.inner.dialGen random s).1.inner.state = .reconnecting ∧
      (socketClosed s.inner.dialGen random s).1.pacing =
        { s.pacing with backoff := backoff } ∧
      (socketClosed s.inner.dialGen random s).2 =
        some (decide (s.inner.trackUid ≠ ""), delay)) ∨
    (nextDelay s.inner.backoff random = none ∧
      (socketClosed s.inner.dialGen random s).1.inner.state = .closed ∧
      (socketClosed s.inner.dialGen random s).1.inner.startWait = none ∧
      (socketClosed s.inner.dialGen random s).1.inner.stopWait = none ∧
      (socketClosed s.inner.dialGen random s).1.inner.resumeWait = none ∧
      (socketClosed s.inner.dialGen random s).1.pacing = s.pacing ∧
      (socketClosed s.inner.dialGen random s).2 = none) := by
  unfold socketClosed
  simp only [ne_eq, not_true_eq_false, if_false, hint, hdis, Bool.false_eq_true]
  rcases hnext : nextDelay s.inner.backoff random with _ | ⟨delay, backoff⟩
  · refine Or.inr ?_
    simp only [Shared.pacing, Shared.rejectPending_frame, and_self]
  · exact Or.inl ⟨delay, backoff, rfl, rfl, rfl, rfl⟩

/-- The close handler of another generation, of a session that is to end, or
    with reconnecting disabled, dials no more and leaves the settings alone. -/
theorem socketClosed_over (gen : Nat) (random : ℚ) (s : Shared)
    (h : gen ≠ s.inner.dialGen ∨ s.inner.intentional = true ∨
      s.inner.cfg.disableReconnect = true) :
    (socketClosed gen random s).1.pacing = s.pacing ∧ (socketClosed gen random s).2 = none := by
  unfold socketClosed
  by_cases hgen : gen = s.inner.dialGen
  · rw [if_neg (not_not.mpr hgen)]
    by_cases hint : s.inner.intentional = true
    · simp only [if_pos hint, Shared.pacing, and_self]
    · have hdis : s.inner.cfg.disableReconnect = true := by
        rcases h with h | h | h
        · exact absurd hgen h
        · exact absurd h hint
        · exact h
      simp only [if_neg hint, hdis, if_true, Shared.pacing, Shared.rejectPending_frame, and_self]
  · rw [if_pos hgen]
    exact ⟨rfl, rfl⟩

/-- A refresh replaces credentials and nothing else of the options. -/
theorem authRefreshed_pacing (device : Option DeviceAuth) (listener : Option ListenerAuth)
    (s : Shared) : (authRefreshed device listener s).1.pacing = s.pacing := by
  unfold authRefreshed Shared.pacing
  rcases device with _ | d <;> rcases listener with _ | l <;>
    simp only [Shared.hangUp_frame]

/-- What a section does to the settings. -/
theorem run_pacing (geo : Geo) {α : Type} (op : Section α) (s : Shared) :
    PacingStep s op (op.run geo s).1.pacing := by
  -- Most sections change none of the three fields.
  have hkeep : ∀ {α : Type} (op : Section α) (l : Pacing), l = s.pacing → PacingStep s op l := by
    intro α op l hl
    rw [hl]
    exact .keep op
  by_cases hset : op.setsUp = false
  · refine hkeep op _ ?_
    exact congrArg (fun t : Settings => (⟨t.cfg.disableReconnect, t.cfg.reconnectMaxAttempts,
      t.backoff⟩ : Pacing)) (run_settings geo op s hset)
  cases op with
  -- An install resets the backoff, if the dial is still the latest one.
  | dialInstall gen =>
      rcases dialInstall_cases gen s with ⟨_, h⟩ | ⟨rfl, hint, h⟩
      · refine hkeep _ _ ?_
        simp only [Section.run, h]
      · simp only [Section.run, h]
        exact .reset hint
  -- A closed socket spends a delay, unless the limit is reached or the client is done.
  | socketClosed gen random =>
      by_cases hlive : gen = s.inner.dialGen ∧ s.inner.intentional = false ∧
          s.inner.cfg.disableReconnect = false
      · rcases hlive with ⟨rfl, hint, hdis⟩
        rcases socketClosed_retry random s hint hdis with
          ⟨delay, backoff, hnext, _, hp, _⟩ | ⟨_, _, _, _, _, hp, _⟩
        · have hrun : ((Section.socketClosed s.inner.dialGen random).run geo s).1.pacing =
              { s.pacing with backoff := backoff } := hp
          rw [hrun]
          exact .spent random delay backoff hnext
        · exact hkeep _ _ hp
      · refine hkeep _ _ (socketClosed_over gen random s ?_).1
        rw [not_and_or, not_and_or, Bool.not_eq_false, Bool.not_eq_false] at hlive
        exact hlive
  -- The rest sets up other things, and leaves these three alone.
  | relocateEndpoint endpoint =>
      refine hkeep _ _ ?_
      simp only [Section.run, relocateEndpoint]
      split <;> rfl
  | authRefreshed device listener => exact hkeep _ _ (authRefreshed_pacing device listener s)
  | publishWork now wall point =>
      refine hkeep _ _ ?_
      rcases publishWork_cases geo now wall point s with
        h | ⟨_, _, h | ⟨_, ⟨_, h⟩ | ⟨_, h⟩⟩⟩ <;>
        simp only [Section.run, h, Shared.pacing, publishLive]
  | _ => first | exact absurd rfl hset | exact .keep _

/-- No section changes the options or the number of attempts they allow. -/
theorem run_limits (geo : Geo) {α : Type} (op : Section α) (s : Shared) :
    (op.run geo s).1.inner.cfg.disableReconnect = s.inner.cfg.disableReconnect ∧
      (op.run geo s).1.inner.cfg.reconnectMaxAttempts = s.inner.cfg.reconnectMaxAttempts ∧
      (op.run geo s).1.inner.backoff.maxAttempts = s.inner.backoff.maxAttempts := by
  have hstep := run_pacing geo op s
  have hp : (op.run geo s).1.pacing = ⟨(op.run geo s).1.inner.cfg.disableReconnect,
      (op.run geo s).1.inner.cfg.reconnectMaxAttempts, (op.run geo s).1.inner.backoff⟩ := rfl
  rw [hp] at hstep
  generalize (op.run geo s).1.inner.cfg.disableReconnect = d at hstep
  generalize (op.run geo s).1.inner.cfg.reconnectMaxAttempts = m at hstep
  generalize (op.run geo s).1.inner.backoff = b at hstep
  cases hstep with
  | keep => exact ⟨rfl, rfl, rfl⟩
  | reset => exact ⟨rfl, rfl, rfl⟩
  | spent random delay backoff hnext =>
      refine ⟨rfl, rfl, ?_⟩
      unfold nextDelay at hnext
      split at hnext
      · cases hnext
      · cases hnext
        rfl

/-- The options stay what `connect` was given. -/
theorem reach_limits (geo : Geo) (cfg : Config)
    (C : Pool Shared Task → Nat → Task → Act Section Task → Prop) (p : Pool Shared Task)
    (h : (client geo).Reach (Started cfg) ((client geo).whenever C) p) :
    p.shared.inner.cfg.disableReconnect = cfg.disableReconnect ∧
      p.shared.inner.cfg.reconnectMaxAttempts = cfg.reconnectMaxAttempts ∧
      p.shared.inner.backoff.maxAttempts = cfg.reconnectMaxAttempts := by
  refine (client geo).reach_shared (Started cfg) C
    (fun s => s.inner.cfg.disableReconnect = cfg.disableReconnect ∧
      s.inner.cfg.reconnectMaxAttempts = cfg.reconnectMaxAttempts ∧
      s.inner.backoff.maxAttempts = cfg.reconnectMaxAttempts) ?_ ?_ p h
  · intro p hp
    rcases started_pool cfg p hp with ⟨now, rfl⟩
    exact ⟨rfl, rfl, rfl⟩
  · intro p i c t a _ _ _ hI
    have hstep := run_limits geo a.op p.shared
    exact ⟨hstep.1.trans hI.1, hstep.2.1.trans hI.2.1, hstep.2.2.trans hI.2.2⟩

end Tracking

end Pickpoint
