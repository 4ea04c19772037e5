import Pickpoint.Interleave.Clock
import Pickpoint.Interleave.Tally
import Pickpoint.Theory.Cells
import Pickpoint.Theory.Server

/-!
# Publish Rate

How close in time two accepted calls of `publish` may be.

`next_publish_at` is the gate. The working block of `publish` asks it and moves
it, under one lock, and nothing else writes it (`run_gate`), so what passes it
is spaced. A call that starts a track has returned by then: it is accepted
when its `TrackStart` is handed over, and neither asks the gate nor moves it.

A call is accepted at a moment, the step after which it can only return
`accepted`. `Task.passed` says that a call is past it, and `notePassed` logs the
calls with the time at which they pass.

## Main definitions

* `timedClient`, `StartedAt`: The client with a clock.
* `Task.passed`, `notePassed`: When a call is accepted.
* `Task.startsTrack`, `startsNoTrack`: No `publish` hands over a `TrackStart`.
* `Spaced`: Times that are far enough apart.

## Theorems

* `run_gate`: The gate never moves back.
* `passes_gate`: A call that does not start a track is accepted at the gate.
* `spaced_length`: How many times fit into a window.
* `reach_publishRate`: The rate cap, for runs without such a `TrackStart`.
* `started_unspaced`: The call that starts a track does not count.
-/

namespace Pickpoint

namespace Tracking

open Interleave

/-! ## Runs in time -/

/-- A reading of the monotonic clock is the present. -/
def Input.shows : Input → Instant → Bool
  | .clock reading _, now => reading == now
  | _, _ => true

/-- The client with a clock. -/
abbrev timedClient (geo : Geo) : Machine (Shared × Instant) Task (Input × Instant) :=
  (client geo).clocked Input.shows

/-- The pools a session starts from, at the time `connect` is called. -/
def StartedAt (cfg : Config) (p : Pool (Shared × Instant) Task) : Prop :=
  connect cfg p.shared.2 = .ok ⟨p.shared.1, p.tasks⟩

/-- A `publish` that will return `accepted`, or has. -/
def Task.passed : Task → Bool
  | .publish (.send _ _ _) => true
  | .returned (.publish _ accepted) => accepted
  | _ => false

/-- Note a call of `publish` when it is accepted, and the time, newest first. -/
def notePassed (geo : Geo) (p : Pool (Shared × Instant) Task) (i : Nat) (t : Task)
    (a : Act (timedClient geo).Op Task) (log : List (Nat × Instant)) : List (Nat × Instant) :=
  if t.passed = false ∧ ((timedClient geo).heir a p.shared).passed then (i, a.op.2) :: log else log

/-- A `publish` that is about to send a `TrackStart`. -/
def Task.startsTrack : Task → Bool
  | .publish (.sendStart _) => true
  | _ => false

/-- A `publish` with a `TrackStart` of its own has no open socket for it. -/
def startsNoTrack (s : Shared) (t : Task) : Prop := t.startsTrack = true → s.accepts = none

instance (s : Shared) (t : Task) : Decidable (startsNoTrack s t) :=
  inferInstanceAs (Decidable (t.startsTrack = true → s.accepts = none))

/-- Times, newest first, of which any two are at least `d` apart. -/
def Spaced (d : Nat) (ts : List Nat) : Prop := ts.Pairwise fun x y => y + d ≤ x

/-- In a window as long as `n` gaps are `n` times after the first at most. -/
theorem spaced_length (d : Nat) (hd : 0 < d) (ts : List Nat) (h : Spaced d ts) (start n : Nat)
    (hin : ∀ t ∈ ts, start ≤ t ∧ t ≤ start + n * d) : ts.length ≤ n + 1 := by
  induction ts generalizing n with
  | nil => exact Nat.zero_le _
  | cons x ts ih =>
      rcases List.pairwise_cons.mp h with ⟨hx, hts⟩
      have hlast := (hin x (List.mem_cons_self ..)).2
      cases n with
      | zero =>
          -- A second time would lie before the window.
          rcases ts with _ | ⟨y, ts⟩
          · exact Nat.le_refl _
          · have hgap := hx y (List.mem_cons_self ..)
            have hfirst := (hin y (List.mem_cons_of_mem _ (List.mem_cons_self ..))).1
            omega
      | succ n =>
          refine Nat.succ_le_succ (ih hts n fun t ht => ?_)
          have hgap := hx t ht
          have hfirst := (hin t (List.mem_cons_of_mem _ ht)).1
          rw [Nat.succ_mul] at hlast
          omega

/-! ## The gate -/

/-- The working block asks the gate and moves it, or refuses. -/
theorem publishWork_gate (geo : Geo) (now : Instant) (wall : Int) (point : LatLng) (s : Shared) :
    (s.inner.nextPublishAt ≤ now ∧
      (publishWork geo now wall point s).1.inner.nextPublishAt = now + minPublishInterval) ∨
    (now < s.inner.nextPublishAt ∧
      publishWork geo now wall point s = (s, .returned s.inner.lastAssignedSeq false)) := by
  by_cases hrate : s.inner.nextPublishAt ≤ now
  · have hcan : canAcceptPublish s.inner.nextPublishAt now 1 = true := decide_eq_true hrate
    have hnext : nextPublishAllowedAt s.inner.nextPublishAt now 1 = now + minPublishInterval := by
      rw [nextPublishAllowedAt, if_neg (Nat.not_lt_of_le hrate)]
      rfl
    refine Or.inl ⟨hrate, ?_⟩
    simp only [publishWork, hcan, Bool.not_true, Bool.false_eq_true, if_false, hnext]
    -- A sample moves the gate even when the filter holds it back.
    rcases s.inner.filter.push geo wall (stampLatLng wall point) with ⟨f, _ | emitted⟩
    · rfl
    · dsimp only
      split <;> rfl
  · have hcan : canAcceptPublish s.inner.nextPublishAt now 1 = false := decide_eq_false hrate
    refine Or.inr ⟨Nat.lt_of_not_le hrate, ?_⟩
    simp only [publishWork, hcan, Bool.not_false, if_true]

/-- No section moves the gate back. -/
theorem run_gate (geo : Geo) {α : Type} (op : Section α) (s : Shared) :
    s.inner.nextPublishAt ≤ (op.run geo s).1.inner.nextPublishAt := by
  by_cases hset : op.setsUp = false
  · exact Nat.le_of_eq (congrArg Settings.nextPublishAt (run_settings geo op s hset)).symm
  cases op with
  -- The one section that moves the gate.
  | publishWork now wall point =>
      rcases publishWork_gate geo now wall point s with ⟨hopen, h⟩ | ⟨_, h⟩
      · simp only [Section.run, h]
        exact Nat.le_trans hopen (Nat.le_add_right _ _)
      · simp only [Section.run, h]
        exact Nat.le_refl _
  -- The rest sets up other fields.
  | dialInstall gen =>
      rcases dialInstall_cases gen s with ⟨_, h⟩ | ⟨_, _, h⟩ <;>
        simp only [Section.run, h, Nat.le_refl]
  | socketClosed gen random =>
      rcases socketClosed_cases gen random s with ⟨_, h⟩ | ⟨_, _, _, _, _, _, _, _, h, _⟩ <;>
        simp only [Section.run, h, Nat.le_refl]
  | relocateEndpoint endpoint => simp only [Section.run, relocateEndpoint_eq, Nat.le_refl]
  | authRefreshed device listener =>
      rcases authRefreshed_frame device listener s with ⟨_, _, h, _⟩
      simp only [Section.run, h, Nat.le_refl]
  | _ => first | exact absurd rfl hset | exact Nat.le_refl _

/-! ## Acceptance -/

theorem passed_kind (t : Task) (h : t.passed = true) :
    t.kind = .publish ∨ t.gives = some .publish := by
  cases t with
  | publish pc => exact Or.inl rfl
  | returned r =>
      cases r with
      | publish seq accepted => exact Or.inr rfl
      | _ => cases h
  | _ => cases h

/-- Only `publish` becomes a call of `publish` that is accepted. -/
theorem passes_kind (geo : Geo) (t : Task) (c : Input) (a : Act Section Task) (s : Shared)
    (h : t.act c = some a) (hafter : ((client geo).heir a s).passed = true) :
    t.kind = .publish := by
  rcases passed_kind _ hafter with hheir | hgives
  · rcases heir_kind geo t c a s h with hk | hk | ⟨_, _, _, _, hk⟩
    · rw [← hk, hheir]
    · rw [hheir] at hk
      cases hk
    · rw [hk] at hheir
      cases hheir
  · exact heir_gives geo t c a s h .publish hgives

/-- A call that is accepted and starts no track is accepted at the gate. -/
theorem passes_gate (geo : Geo) (t : Task) (c : Input) (a : Act Section Task) (s : Shared)
    (h : t.act c = some a) (hauto : startsNoTrack s t) (hbefore : t.passed = false)
    (hafter : ((client geo).heir a s).passed = true) :
    ∃ now wall, c = .clock now wall ∧ s.inner.nextPublishAt ≤ now ∧
      ((client geo).after a s).inner.nextPublishAt = now + minPublishInterval := by
  have hkind := passes_kind geo t c a s h hafter
  -- Of the places of `publish` only the `TrackStart` and the working block accept.
  cases t with
  | publish pc =>
      revert hafter
      unfold Machine.heir
      revert h
      simp only [Task.act]
      fun_cases Task.publishAct pc c <;> intro h <;> cases h
      case publish.case1.refl point now wall =>
        have hrun : (client geo).run (Section.publishStart wall point) s =
            publishStart wall point s := rfl
        simp only [hrun]
        rcases (publishStart wall point s).2 with _ | location <;> rintro ⟨⟩
      case publish.case2.refl location =>
        rcases sendBin_refused (.cmd (.trackStart (some location) [] [])) none s
          (hauto rfl) with ⟨e, hsend⟩
        have hrun : (client geo).run (Section.sendBin
            (.cmd (.trackStart (some location) [] [])) none) s = (s, .error e) := hsend
        simp only [hrun]
        rintro ⟨⟩
      case publish.case3.refl => rintro ⟨⟩
      case publish.case4.refl point now wall =>
        have hrun : (client geo).run (Section.publishWork now wall point) s =
            publishWork geo now wall point s := rfl
        rcases publishWork_gate geo now wall point s with ⟨hopen, hmoved⟩ | ⟨_, hrefused⟩
        · exact fun _ => ⟨now, wall, rfl, hopen, hmoved⟩
        · simp only [hrun, hrefused]
          rintro ⟨⟩
      case publish.case5.refl => cases hbefore
  | _ => cases hkind

/-- An accepted call stays accepted. -/
theorem passed_next (geo : Geo) (t : Task) (c : Input) (a : Act Section Task) (s : Shared)
    (h : t.act c = some a) (hbefore : t.passed = true) :
    ((client geo).heir a s).passed = true := by
  revert h
  cases t with
  | publish pc =>
      cases pc with
      | send seq point ticket =>
          cases c <;> intro h <;> cases h
          rfl
      | _ => cases hbefore
  | returned r => cases c <;> intro h <;> cases h
  | _ => cases hbefore

/-! ## Runs -/

/-- The log holds every accepted call once, with a time; any two are far enough
    apart, and the gate is past them all. -/
structure Rated (p : Pool (Shared × Instant) Task) (log : List (Nat × Instant)) : Prop where
  logged : ∀ i, (∃ now, (i, now) ∈ log) ↔ ∃ t, p.tasks[i]? = some t ∧ t.passed = true
  once : (log.map (·.1)).Nodup
  spaced : Spaced minPublishInterval (log.map (·.2))
  gate : ∀ x ∈ log, x.2 + minPublishInterval ≤ p.shared.1.inner.nextPublishAt

/-- A call that is not accepted is not in the log. -/
theorem Rated.unlogged {p : Pool (Shared × Instant) Task} {log : List (Nat × Instant)}
    (h : Rated p log) (i : Nat) (t : Task) (ht : p.tasks[i]? = some t)
    (hbefore : t.passed = false) : ¬ ∃ now, (i, now) ∈ log := by
  rw [h.logged i]
  rintro ⟨u, hu, hpassed⟩
  rw [ht, Option.some.injEq] at hu
  rw [← hu, hbefore] at hpassed
  cases hpassed

/-- No step starts a call of `publish`. -/
theorem spawned_unpassed (geo : Geo) (t : Task) (c : Input) (a : Act Section Task) (s : Shared)
    (h : t.act c = some a) (u : Task) (hu : u ∈ (client geo).spawned a s) : u.passed = false := by
  rcases spawned_cases geo t c a s h u hu with
    ⟨_, _, _, _, rfl | rfl⟩ | ⟨_, _, _, rfl | rfl | ⟨_, rfl⟩⟩ | ⟨_, _, _, rfl⟩ <;> rfl

/-- Whether a task is in the log after a step, or comes into it. -/
theorem step_logged (geo : Geo) (p : Pool (Shared × Instant) Task) (i : Nat) (c : Input × Instant)
    (t : Task) (a : Act (timedClient geo).Op Task) (log : List (Nat × Instant))
    (ht : p.tasks[i]? = some t) (ha : (timedClient geo).act t c = some a) (h : Rated p log)
    (j : Nat) :
    (∃ now, (j, now) ∈ notePassed geo p i t a log) ↔
      ∃ u, ((timedClient geo).resumed p i a).tasks[j]? = some u ∧ u.passed = true := by
  rcases (client geo).clocked_act Input.shows t c a ha with ⟨_, _, a', ha', hafter⟩
  rcases hafter p.shared with ⟨hheir, hspawned, _⟩
  have hself := (timedClient geo).resumed_get_self p i a t ht
  unfold notePassed
  -- The task that ran, and all others, of which none is new and accepted.
  by_cases hji : j = i
  · rw [hji, hself]
    simp only [Option.some.injEq, exists_eq_left']
    by_cases hbefore : t.passed = true
    · rw [if_neg (by rw [hbefore]; rintro ⟨⟨⟩, _⟩)]
      refine iff_of_true ((h.logged i).mpr ⟨t, ht, hbefore⟩) ?_
      exact hheir ▸ passed_next geo t c.1 a' p.shared.1 ha' hbefore
    · split
      · next hnew => exact iff_of_true ⟨_, List.mem_cons_self ..⟩ hnew.2
      · next hold =>
        rw [Bool.not_eq_true] at hbefore
        exact iff_of_false (h.unlogged i t ht hbefore) fun hpassed => hold ⟨hbefore, hpassed⟩
  · have hmem : (∃ now, (j, now) ∈ (if t.passed = false ∧
        ((timedClient geo).heir a p.shared).passed = true then (i, a.op.2) :: log else log)) ↔
          ∃ now, (j, now) ∈ log := by
      refine exists_congr fun now => ?_
      split
      · rw [List.mem_cons, Prod.mk.injEq, or_iff_right fun heq => hji heq.1]
      · rfl
    rw [hmem, h.logged j]
    constructor
    · rintro ⟨u, hu, hpassed⟩
      exact ⟨u, (timedClient geo).resumed_get_other p i j a u hji hu, hpassed⟩
    · rintro ⟨u, hu, hpassed⟩
      rcases (timedClient geo).resumed_get_cases p i j a t u ht hu with
        ⟨heq, _⟩ | ⟨_, hu'⟩ | ⟨_, hu'⟩
      · exact absurd heq hji
      · exact ⟨u, hu', hpassed⟩
      · have hmem := List.mem_of_getElem? hu'
        have hnew := spawned_unpassed geo t c.1 a' p.shared.1 ha' u (hspawned ▸ hmem)
        rw [hnew] at hpassed
        cases hpassed

/-- A step keeps the accepted calls far enough apart. -/
theorem step_rated (geo : Geo) (p : Pool (Shared × Instant) Task) (i : Nat) (c : Input × Instant)
    (t : Task) (a : Act (timedClient geo).Op Task) (log : List (Nat × Instant))
    (ht : p.tasks[i]? = some t) (ha : (timedClient geo).act t c = some a)
    (hauto : startsNoTrack p.shared.1 t) (h : Rated p log) :
    Rated ((timedClient geo).resumed p i a) (notePassed geo p i t a log) := by
  have hlogged := step_logged geo p i c t a log ht ha h
  rcases (client geo).clocked_act Input.shows t c a ha with ⟨hshows, hnow, a', ha', hafter⟩
  rcases hafter p.shared with ⟨hheir, _, hshared⟩
  have hgate : ((timedClient geo).resumed p i a).shared.1.inner.nextPublishAt =
      ((client geo).after a' p.shared.1).inner.nextPublishAt :=
    congrArg (fun s => s.1.inner.nextPublishAt) hshared
  have hforward : p.shared.1.inner.nextPublishAt ≤
      ((timedClient geo).resumed p i a).shared.1.inner.nextPublishAt :=
    hgate ▸ run_gate geo a'.op p.shared.1
  by_cases hnew : t.passed = false ∧ ((timedClient geo).heir a p.shared).passed = true
  · have hlog : notePassed geo p i t a log = (i, a.op.2) :: log := if_pos hnew
    rcases passes_gate geo t c.1 a' p.shared.1 ha' hauto hnew.1 (hheir ▸ hnew.2) with
      ⟨now, wall, hclock, hopen, hmoved⟩
    -- The time the gate was asked about is the time in the log.
    have hpresent : now = a.op.2 := by
      rw [hclock] at hshows
      exact (beq_iff_eq.mp hshows).trans hnow.symm
    rw [hpresent] at hopen hmoved
    rw [hlog] at hlogged ⊢
    refine ⟨hlogged, ?_, ?_, ?_⟩
    · rw [List.map_cons, List.nodup_cons]
      refine ⟨fun hmem => ?_, h.once⟩
      rcases List.mem_map.mp hmem with ⟨⟨j, at'⟩, hj, rfl⟩
      exact h.unlogged j t ht hnew.1 ⟨at', hj⟩
    · rw [List.map_cons]
      refine List.pairwise_cons.mpr ⟨fun y hy => ?_, h.spaced⟩
      rcases List.mem_map.mp hy with ⟨x, hx, rfl⟩
      exact Nat.le_trans (h.gate x hx) hopen
    · intro x hx
      rcases List.mem_cons.mp hx with rfl | hx
      · exact Nat.le_of_eq (hmoved.symm.trans hgate.symm)
      · exact Nat.le_trans (h.gate x hx) hforward
  · have hlog : notePassed geo p i t a log = log := if_neg hnew
    rw [hlog] at hlogged ⊢
    exact ⟨hlogged, h.once, h.spaced, fun x hx => Nat.le_trans (h.gate x hx) hforward⟩

theorem enter_rated (geo : Geo) (p : Pool (Shared × Instant) Task) (t : Task)
    (log : List (Nat × Instant)) (hent : (timedClient geo).entry p.shared t = true)
    (h : Rated p log) : Rated { p with tasks := p.tasks ++ [t] } log := by
  -- A call that comes in has not passed.
  have hcall : t.passed = false := by
    have hiscall := (Bool.and_eq_true_iff.mp hent).2
    cases t with
    | publish pc =>
        cases pc with
        | send seq point ticket => cases hiscall
        | _ => rfl
    | returned r => cases hiscall
    | _ => rfl
  refine ⟨fun i => ?_, h.once, h.spaced, h.gate⟩
  rw [h.logged i]
  constructor
  · rintro ⟨u, hu, hpassed⟩
    exact ⟨u, Machine.entered_get_old p.tasks t u i hu, hpassed⟩
  · rintro ⟨u, hu, hpassed⟩
    rcases Machine.entered_get_cases p.tasks t u i hu with hu' | rfl
    · exact ⟨u, hu', hpassed⟩
    · rw [hcall] at hpassed
      cases hpassed

theorem started_rated (cfg : Config) (p : Pool (Shared × Instant) Task) (h : StartedAt cfg p) :
    Rated p [] := by
  rcases started_pool cfg ⟨p.shared.1, p.tasks⟩ ⟨p.shared.2, h⟩ with ⟨now, hp⟩
  have htasks : p.tasks = [.dial .connect (.begin 0 false)] := congrArg Pool.tasks hp
  refine ⟨fun i => iff_of_false ?_ ?_, List.nodup_nil, .nil, by rintro x ⟨⟩⟩
  · rintro ⟨_, ⟨⟩⟩
  · rintro ⟨u, hu, hpassed⟩
    rw [htasks] at hu
    rw [List.mem_singleton.mp (List.mem_of_getElem? hu)] at hpassed
    cases hpassed

/-- The rate cap. In every run, at times that do not run backwards, in which no
    `publish` hands over a `TrackStart` of its own: every call that returned
    `accepted` is in the log; any two calls in the log are at least
    `MIN_PUBLISH_INTERVAL` apart; and in no second are there more than
    `MAX_PUBLISH_HZ` beside the first. -/
theorem reach_publishRate (geo : Geo) (cfg : Config) (p : Pool (Shared × Instant) Task)
    (log : List (Nat × Instant))
    (h : (timedClient geo).Tallied (StartedAt cfg)
      (fun _ p _ t a => (client geo).onTime Input.shows p a ∧ startsNoTrack p.shared.1 t)
      (notePassed geo) [] p log) :
    (client geo).Reach (Started cfg) Machine.anyStep ⟨p.shared.1, p.tasks⟩ ∧
      (∀ (i seq : Nat), p.tasks[i]? = some (.returned (.publish seq true)) →
        ∃ now, (i, now) ∈ log) ∧
      (log.map (·.1)).Nodup ∧
      (log.Pairwise fun x y => y.2 + minPublishInterval ≤ x.2) ∧
      ∀ start : Instant, (log.filter fun x =>
        decide (start ≤ x.2 ∧ x.2 ≤ start + 1000000000)).length ≤ maxPublishHz + 1 := by
  have hrated : Rated p log := by
    refine (timedClient geo).tallied_inv _ _ _ _ (fun _ => True) (fun _ _ => trivial) Rated
      (started_rated cfg) ?_ ?_ p log h
    · exact fun p i c t a b ht ha hC _ hI => step_rated geo p i c t a b ht ha hC.2 hI
    · exact fun p t b hent _ hI => enter_rated geo p t b hent hI
  refine ⟨?_, fun i seq hi => (hrated.logged i).mpr ⟨_, hi, rfl⟩, hrated.once,
    List.pairwise_map.mp hrated.spaced, fun start => ?_⟩
  · exact (client geo).clocked_reach Input.shows (Started cfg) (StartedAt cfg)
      (fun p hp => ⟨p.shared.2, hp⟩) _ p ((timedClient geo).tallied_reach _ _ _ _ p log h)
  · -- A second is as long as `MAX_PUBLISH_HZ` gaps.
    rw [← List.length_map (·.2)]
    refine spaced_length minPublishInterval (by decide) _ ?_ start maxPublishHz fun at' hat => ?_
    · exact hrated.spaced.sublist (List.filter_sublist.map _)
    · rcases List.mem_map.mp hat with ⟨x, hx, rfl⟩
      exact of_decide_eq_true (List.mem_filter.mp hx).2

/-- Two calls while `start_track` is under way, the second when the gate opens
    again. -/
def stagedCalls : List (Label Task (Input × Instant)) :=
  opening.map (Label.stamped 0) ++
    [.spawn (.startTrack (.start none [] [])), .resume 3 (.clock 0 0, 0),
      .spawn (.publish (.start (sample 0))), .resume 4 (.clock 0 0, 0),
      .resume 4 (.clock 0 0, 0), .spawn (.publish (.start (sample 20))),
      .resume 5 (.clock 20000000 20, 20000000), .resume 5 (.clock 20000000 20, 20000000)]

/-- Both are accepted. -/
theorem reach_publishRate_staged :
    ∃ p log, (timedClient flatGeo).Tallied (StartedAt someConfig)
        (fun _ p _ t a => (client flatGeo).onTime Input.shows p a ∧ startsNoTrack p.shared.1 t)
        (notePassed flatGeo) [] p log ∧
      log = [(5, 20000000), (4, 0)] ∧
      (log.Pairwise fun x y => y.2 + minPublishInterval ≤ x.2) := by
  rcases (timedClient flatGeo).exists_tallied (StartedAt someConfig)
    (fun _ p _ t a => (client flatGeo).onTime Input.shows p a ∧ startsNoTrack p.shared.1 t)
    (notePassed flatGeo) []
    (fun _ p _ t a => decide ((client flatGeo).onTime Input.shows p a) &&
      decide (startsNoTrack p.shared.1 t))
    (fun _ _ _ _ _ h => (Bool.and_eq_true_iff.mp h).imp of_decide_eq_true of_decide_eq_true)
    stagedCalls ⟨(fresh.shared, 0), fresh.tasks⟩ rfl
    (fun _ log => log == [(5, 20000000), (4, 0)]) (by decide +kernel) with ⟨p, log, hrun, hlog⟩
  exact ⟨p, log, hrun, beq_iff_eq.mp hlog,
    (reach_publishRate flatGeo someConfig p log hrun).2.2.2.1⟩

/-- A call that starts a track, and another one a nanosecond later. -/
def startingCalls : List (Label Task (Input × Instant)) :=
  opening.map (Label.stamped 0) ++
    [.spawn (.publish (.start (sample 0))), .resume 3 (.clock 0 0, 0), .resume 3 (.go, 0),
      .spawn (.publish (.start (sample 0))), .resume 4 (.clock 1 0, 1), .resume 4 (.clock 1 0, 1)]

/-- Both are accepted. -/
theorem started_unspaced :
    ∃ p log, (timedClient flatGeo).Tallied (StartedAt someConfig)
        (fun _ p _ _ a => (client flatGeo).onTime Input.shows p a) (notePassed flatGeo) [] p log ∧
      p.tasks[3]? = some (.returned (.publish 0 true)) ∧
      p.tasks[4]? = some (.returned (.publish 0 true)) ∧ log = [(4, 1), (3, 0)] ∧
      ¬ log.Pairwise fun x y => y.2 + minPublishInterval ≤ x.2 := by
  rcases (timedClient flatGeo).exists_tallied (StartedAt someConfig)
    (fun _ p _ _ a => (client flatGeo).onTime Input.shows p a) (notePassed flatGeo) []
    (fun _ p _ _ a => decide ((client flatGeo).onTime Input.shows p a))
    (fun _ _ _ _ _ h => of_decide_eq_true h)
    startingCalls ⟨(fresh.shared, 0), fresh.tasks⟩ rfl
    (fun p log => decide (p.tasks[3]? = some (Task.returned (.publish 0 true)) ∧
      p.tasks[4]? = some (Task.returned (.publish 0 true))) && log == [(4, 1), (3, 0)])
    (by decide +kernel) with ⟨p, log, hrun, hend⟩
  rcases Bool.and_eq_true_iff.mp hend with ⟨htasks, hlog⟩
  rcases of_decide_eq_true htasks with ⟨hfirst, hsecond⟩
  refine ⟨p, log, hrun, hfirst, hsecond, beq_iff_eq.mp hlog, ?_⟩
  -- One nanosecond apart.
  rw [beq_iff_eq.mp hlog]
  decide

end Tracking

end Pickpoint
