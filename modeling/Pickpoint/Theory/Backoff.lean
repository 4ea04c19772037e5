import Pickpoint.Theory.Attempts

/-!
# Backoff

How long the client sleeps before it dials again.

A close handler takes a delay and counts an attempt, and an install starts the count
anew. A log keeps the delays taken since the last install. Whatever happens in between,
to this socket or to others, the delay of the `k`-th attempt is at most the least delay
doubled `k` times, none is longer than the longest, and where the attempts are limited
there are no more delays than that (`reach_backsOff`).

## Main definitions

* `Section.noteDelay`, `noteDelay`: The log.
* `Delays`: What the backoff knows of it.

## Theorems

* `nextDelay_le`: One delay.
* `run_delays`: A section keeps the log and the backoff in step.
* `reach_backsOff`: The delays of a run.
-/

namespace Pickpoint

namespace Tracking

open Interleave

/-- Add the delay a close handler takes; an install starts a new log. The newest delay
    comes first. -/
def Section.noteDelay (s : Shared) (log : List Nat) : {α : Type} → Section α → List Nat
  | _, .dialInstall gen =>
    if gen ≠ s.inner.dialGen ∨ s.inner.intentional = true then log else []
  | _, .socketClosed gen random =>
    match (Tracking.socketClosed gen random s).2 with
    | some (_, delay) => delay :: log
    | none => log
  | _, _ => log

/-- Note the delays of a run. -/
def noteDelay (p : Pool Shared Task) (_ : Nat) (_ : Task) (a : Act Section Task)
    (log : List Nat) : List Nat :=
  a.op.noteDelay p.shared log

/-- The attempts of the backoff are the delays in the log, which are as long as their
    number allows. -/
structure Delays (cfg : Config) (b : BackoffState) (log : List Nat) : Prop where
  set : ∃ n, b = { newBackoff cfg.reconnectMinDelay cfg.reconnectMaxDelay
    cfg.reconnectMaxAttempts with attempt := n }
  attempt : b.attempt = log.length
  limit : 0 < b.maxAttempts → b.attempt ≤ b.maxAttempts
  delays : ∀ (k : Nat) delay, log.reverse[k]? = some delay →
    delay ≤ b.minDelay * 2 ^ k ∧ delay ≤ b.maxDelay

/-- A delay is a part of the one for its attempt. -/
theorem nextDelay_le (b b' : BackoffState) (random : ℚ) (delay : Nat)
    (h : nextDelay b random = some (delay, b')) :
    b' = { b with attempt := b.attempt + 1 } ∧ delay ≤ b.minDelay * 2 ^ b.attempt ∧
      delay ≤ b.maxDelay := by
  unfold nextDelay at h
  by_cases hlimit : 0 < b.maxAttempts ∧ b.maxAttempts ≤ b.attempt
  · rw [if_pos hlimit] at h
    cases h
  rw [if_neg hlimit] at h
  cases h
  have hr : max 0 (min random 1) ≤ (1 : ℚ) := max_le (by norm_num) (min_le_right _ _)
  have hpos : 0 ≤ min ((b.minDelay : ℚ) * 2 ^ b.attempt) b.maxDelay :=
    le_min (by positivity) (by positivity)
  have hexp : max 0 (min random 1) * min ((b.minDelay : ℚ) * 2 ^ b.attempt) b.maxDelay ≤
      min ((b.minDelay : ℚ) * 2 ^ b.attempt) b.maxDelay := mul_le_of_le_one_left hpos hr
  -- The floor of what is at most a number is at most that number.
  have hfloor : ∀ (x : ℚ) (n : Nat), x ≤ n → ⌊x⌋.toNat ≤ n := by
    intro x n hx
    exact Int.toNat_le.mpr (Int.floor_le_iff.mpr (lt_of_le_of_lt hx (by norm_num)))
  refine ⟨rfl, hfloor _ _ ?_, hfloor _ _ ?_⟩
  · rw [Nat.cast_mul, Nat.cast_pow]
    exact hexp.trans (min_le_left _ _)
  · exact hexp.trans (min_le_right _ _)

section Client

variable (geo : Geo) (cfg : Config)

/-- Only an install and a close handler touch the backoff. -/
def Section.backsOff : {α : Type} → Section α → Bool
  | _, .dialInstall _ | _, .socketClosed _ _ => true
  | _, _ => false

theorem run_backoff {α : Type} (op : Section α) (s : Shared) (h : op.backsOff = false) :
    (op.run geo s).1.inner.backoff = s.inner.backoff := by
  have hstep := run_pacing geo op s
  have hp : (op.run geo s).1.inner.backoff = (op.run geo s).1.pacing.backoff := rfl
  rw [hp]
  generalize (op.run geo s).1.pacing = pacing at hstep
  cases hstep with
  | keep => rfl
  | reset => cases h
  | spent => cases h

/-- A delay more. -/
theorem Delays.spent {b b' : BackoffState} {log : List Nat} (hd : Delays cfg b log) (random : ℚ)
    (delay : Nat) (h : nextDelay b random = some (delay, b')) :
    Delays cfg b' (delay :: log) := by
  rcases nextDelay_le b b' random delay h with ⟨rfl, hexp, hmax⟩
  have hlimit := (nextDelay_some b _ random delay h).2.2
  refine ⟨?_, ?_, hlimit, ?_⟩
  · rcases hd.set with ⟨n, hset⟩
    exact ⟨n + 1, by rw [hset]⟩
  · rw [List.length_cons, ← hd.attempt]
  · intro k d hk
    rw [List.reverse_cons] at hk
    by_cases hold : k < log.reverse.length
    · rw [List.getElem?_append_left hold] at hk
      exact hd.delays k d hk
    · -- The new delay is the last.
      rw [List.getElem?_append_right (Nat.le_of_not_lt hold)] at hk
      rcases hlast : k - log.reverse.length with _ | j
      · rw [hlast, List.getElem?_cons_zero, Option.some.injEq] at hk
        rw [List.length_reverse] at hold hlast
        have hkth : k = b.attempt := by
          have hlen := hd.attempt
          omega
        rw [← hk, hkth]
        exact ⟨hexp, hmax⟩
      · rw [hlast, List.getElem?_cons_succ] at hk
        cases hk

/-- A section keeps the log and the backoff in step. -/
theorem run_delays {α : Type} (op : Section α) (s : Shared) (log : List Nat)
    (hd : Delays cfg s.inner.backoff log) :
    Delays cfg (op.run geo s).1.inner.backoff (op.noteDelay s log) := by
  by_cases hop : op.backsOff = false
  · have hlog : op.noteDelay s log = log := by
      cases op <;> first | rfl | cases hop
    rw [hlog, run_backoff geo op s hop]
    exact hd
  cases op with
  | dialInstall gen =>
      -- An install that counts starts the log again.
      rcases dialInstall_cases gen s with ⟨hstale, h⟩ | ⟨rfl, hint, h⟩
      · simp only [Section.run, h, Section.noteDelay, if_pos hstale]
        exact hd
      · have hlive : ¬ (s.inner.dialGen ≠ s.inner.dialGen ∨ s.inner.intentional = true) := by
          simp [hint]
        simp only [Section.run, h, Section.noteDelay, if_neg hlive]
        rcases hd.set with ⟨n, hset⟩
        exact ⟨⟨0, by rw [hset, resetBackoff]⟩, rfl, fun _ => Nat.zero_le _, by rintro k d ⟨⟩⟩
  | socketClosed gen random =>
      -- A delay is spent only for the latest dial of a client that is still open.
      by_cases hlive : gen = s.inner.dialGen ∧ s.inner.intentional = false ∧
          s.inner.cfg.disableReconnect = false
      · rcases hlive with ⟨rfl, hint, hdis⟩
        rcases socketClosed_retry random s hint hdis with
          ⟨delay, backoff, hnext, _, hp, hres⟩ | ⟨_, _, _, _, _, hp, hres⟩
        · have hbackoff : (Tracking.socketClosed s.inner.dialGen random s).1.inner.backoff =
              backoff := congrArg Pacing.backoff hp
          simp only [Section.run, Section.noteDelay, hres, hbackoff]
          exact hd.spent cfg random delay hnext
        -- The limit is reached, and nothing is spent.
        · have hbackoff : (Tracking.socketClosed s.inner.dialGen random s).1.inner.backoff =
              s.inner.backoff := congrArg Pacing.backoff hp
          simp only [Section.run, Section.noteDelay, hres, hbackoff]
          exact hd
      · rw [not_and_or, not_and_or, Bool.not_eq_false, Bool.not_eq_false] at hlive
        rcases socketClosed_over gen random s hlive with ⟨hp, hres⟩
        have hbackoff : (Tracking.socketClosed gen random s).1.inner.backoff =
            s.inner.backoff := congrArg Pacing.backoff hp
        simp only [Section.run, Section.noteDelay, hres, hbackoff]
        exact hd
  | _ => exact absurd rfl hop

/-- In every run the delays since the last install grow no faster than by doubling,
    none is longer than the longest, and there are no more than the attempts
    allowed. The jitter is clamped to a number between 0 and 1, so it never adds to
    a delay. -/
theorem reach_backsOff (p : Pool Shared Task) (log : List Nat)
    (h : (client geo).Tallied (Started cfg) (fun _ _ _ _ _ => True) noteDelay [] p log) :
    (∀ (k : Nat) delay, log.reverse[k]? = some delay →
      delay ≤ (if cfg.reconnectMinDelay = 0 then 500 else cfg.reconnectMinDelay) * 2 ^ k ∧
      delay ≤ (if cfg.reconnectMaxDelay = 0 then 30000 else cfg.reconnectMaxDelay)) ∧
    (0 < cfg.reconnectMaxAttempts → log.length ≤ cfg.reconnectMaxAttempts) := by
  have hdelays : Delays cfg p.shared.inner.backoff log := by
    refine (client geo).tallied_inv (Started cfg) (fun _ _ _ _ _ => True) noteDelay []
      (fun _ => True) (fun _ _ => trivial) (fun p log => Delays cfg p.shared.inner.backoff log)
      ?_ ?_ ?_ p log h
    · intro p hp
      rcases started_pool cfg p hp with ⟨now, rfl⟩
      exact ⟨⟨0, rfl⟩, rfl, fun _ => Nat.zero_le _, by rintro k d ⟨⟩⟩
    · exact fun p i c t a log _ _ _ _ hd => run_delays geo cfg a.op p.shared log hd
    · exact fun p t log _ _ hd => hd
  rcases hdelays with ⟨⟨n, hset⟩, hattempt, hlimit, hdelay⟩
  rw [hset] at hattempt hlimit hdelay
  exact ⟨hdelay, fun hpos => hattempt ▸ hlimit hpos⟩

end Client

/-- The socket of a live track closes, and the dial after it fails. Both delays are as
    long as can be. -/
def failedTwice : List (Label Task Input) :=
  tracking ++ [.resume 2 .eof, .resume 4 (.random 1), .resume 4 .go, .resume 4 .go,
    .resume 4 (.failed (newError .tryAgain "ws dial")), .resume 4 .go, .resume 5 (.random 1)]

/-- The delay of the second attempt is twice that of the first. -/
theorem reach_backsOff_twice :
    ∃ log : List Nat, log = [1000, 500] ∧ ∀ (k : Nat) delay, log.reverse[k]? = some delay →
      delay ≤ 500 * 2 ^ k ∧ delay ≤ 30000 := by
  rcases (client flatGeo).exists_tallied (Started someConfig) (fun _ _ _ _ _ => True) noteDelay []
    (fun _ _ _ _ _ => true) (fun _ _ _ _ _ _ => trivial) failedTwice fresh started_fresh
    (fun _ log => decide (log = [1000, 500])) (by decide +kernel) with ⟨p, log, hp, hrun⟩
  exact ⟨log, of_decide_eq_true hrun, (reach_backsOff flatGeo someConfig p log hp).1⟩

end Tracking

end Pickpoint
