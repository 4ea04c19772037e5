import Pickpoint.Core.Sleeping
import Pickpoint.Theory.Retries

/-!
# Sleeps

How long a request can take beyond what the server takes.

A sleep is counted as an attempt, so a client sleeps no more often than it may retry,
whatever it meets. A multiplication that does not fit falls back to a minute, which is
less than what it fell back from, and so is what is left of a number of milliseconds
that does not fit. So the bounds double from the retry base without an exception, and
all sleeps of a request together are bounded by the sum of a geometric series
(`request_sleeps`).

## Theorems

* `sleepMax_le`: The bound of a sleep.
* `sum_doubling`: The sum of the bounds.
* `request_sleeps`: The sleeps of a request.
-/

namespace Pickpoint

namespace Http

open Auth Looping

/-- A sleep is bounded by the doubled base, also where numbers overflow. -/
theorem sleepMax_le (base : Duration) (attempt : Nat) (hbase : minRetryBase ≤ base) :
    sleepMax base attempt * millisecond ≤ base * 2 ^ min attempt 16 := by
  have hne : base ≠ 0 := fun h => by
    rw [h] at hbase
    exact absurd hbase (by decide)
  have hfloor : ∀ longest : Duration, longest / millisecond % 2 ^ 64 * millisecond ≤ longest :=
    fun longest => (Nat.mul_le_mul_right _ (Nat.mod_le _ _)).trans (Nat.div_mul_le_self _ _)
  unfold sleepMax
  simp only [if_neg hne, Nat.max_eq_left hbase]
  refine (hfloor _).trans ?_
  unfold checkedMul
  by_cases hfits : base * 2 ^ min attempt 16 < 2 ^ 64 * (1000 * millisecond)
  · rw [if_pos hfits, Option.getD_some]
  · -- What did not fit is more than a minute.
    rw [if_neg hfits, Option.getD_none]
    have hminute : 60000 * millisecond ≤ 2 ^ 64 * (1000 * millisecond) := by decide
    exact hminute.trans (Nat.le_of_not_lt hfits)

/-- The bounds of `n` sleeps together. -/
theorem sum_doubling (base : Duration) (bound : Nat → Nat)
    (hbound : ∀ k, bound k * millisecond ≤ base * 2 ^ min k 16) (n : Nat) :
    ((List.range n).map bound).sum * millisecond ≤ base * (2 ^ n - 1) := by
  induction n with
  | zero => simp
  | succ n ih =>
      have hpow : 2 ^ min n 16 ≤ 2 ^ n :=
        Nat.pow_le_pow_right (by omega) (Nat.min_le_left n 16)
      have hlast := (hbound n).trans (Nat.mul_le_mul_left base hpow)
      have hdouble : 2 ^ (n + 1) - 1 = 2 ^ n - 1 + 2 ^ n := by
        have hpos := Nat.two_pow_pos n
        rw [Nat.pow_succ]
        omega
      rw [List.range_succ, List.map_append, List.sum_append, List.map_singleton,
        List.sum_singleton, Nat.add_mul, hdouble, Nat.mul_add]
      exact Nat.add_le_add ih hlast

/-- A request of a client is the request without its sleeps. Of these there are no more
    than retries, each is bounded by the retry base doubled as often as there were
    sleeps before, sixteen times at most, and so are all of them together. -/
theorem request_sleeps (c : Client) (lib : Lib) (opts : RequestOpts) (fuel : Nat)
    (w : Nat → Round × Nat) :
    shown (pacedRequest c lib opts fuel w).1 =
        (doRequest c.transport lib opts fuel fun k => (w k).1).1 ∧
      (pacedRequest c lib opts fuel w).2 =
        (doRequest c.transport lib opts fuel fun k => (w k).1).2 ∧
      (pauses (pacedRequest c lib opts fuel w).1).length ≤ c.transport.maxRetries ∧
      (∀ (k : Nat) ms, (pauses (pacedRequest c lib opts fuel w).1)[k]? = some ms →
        ms * millisecond ≤ c.retryBase * 2 ^ min k 16) ∧
      (pauses (pacedRequest c lib opts fuel w).1).sum * millisecond ≤
        c.retryBase * (2 ^ c.transport.maxRetries - 1) := by
  -- Without its sleeps the request is the plain one.
  have hplain := run_pausing (requestRound c.transport lib opts) (attemptSleep c.retryBase) fuel
    {} w
  have hcounted := pauses_counted (requestRound c.transport lib opts)
    (attemptSleep c.retryBase) Attempts.attempt c.transport.maxRetries
    (fun k ms => ms ≤ sleepMax c.retryBase k) ?_ ?_ fuel {} w (Nat.zero_le _)
  · rcases hcounted with ⟨hlen, hmax⟩
    have hbound := fun k => sleepMax_le c.retryBase k c.retryBase_ge
    refine ⟨hplain.1, hplain.2, hlen, fun k ms hk => ?_, ?_⟩
    · have hms := hmax k ms hk
      rw [Nat.zero_add] at hms
      exact (Nat.mul_le_mul_right _ hms).trans (hbound k)
    · have hsum := sum_le_of_get (sleepMax c.retryBase) c.transport.maxRetries _ hlen
        fun k ms hk => by
          have hms := hmax k ms hk
          rwa [Nat.zero_add] at hms
      exact (Nat.mul_le_mul_right _ hsum).trans (sum_doubling c.retryBase _ hbound _)
  -- A sleep follows a round that counts as an attempt, and lasts what is left over by
  -- `sleepMax`.
  · intro st x es st' draw ms hround hsleep
    unfold attemptSleep at hsleep
    by_cases hcount : st'.attempt = st.attempt + 1
    · rw [if_pos hcount, Option.some.injEq] at hsleep
      rcases (round_again c.transport lib opts st st' x es hround).2 with
        ⟨_, _, hlt, hst, _⟩ | ⟨_, _, _, _, hst, _⟩
      · refine ⟨hcount, by omega, ?_⟩
        rw [← hsleep]
        exact Nat.le_of_lt_succ (Nat.mod_lt _ (Nat.succ_pos _))
      · rw [hst] at hcount
        exact absurd hcount (by simp)
    · rw [if_neg hcount] at hsleep
      cases hsleep
  · intro st x es st' draw hround hsleep
    unfold attemptSleep at hsleep
    by_cases hcount : st'.attempt = st.attempt + 1
    · rw [if_pos hcount] at hsleep
      cases hsleep
    · -- Only the retry after a `401` is not counted.
      rcases (round_again c.transport lib opts st st' x es hround).2 with
        ⟨_, _, _, hst, _⟩ | ⟨_, _, _, _, hst, _⟩
      · exact absurd (by rw [hst]) hcount
      · rw [hst]

/-- With the defaults that is seven seconds. -/
example : ((List.range defaultMaxRetries).map (sleepMax defaultRetryBase)).sum = 7000 := by decide

end Http

end Pickpoint
