import Pickpoint.Core.Filter
import Pickpoint.Looping.Transcript
import Mathlib.Data.List.Induction

/-!
# Suppressed Samples

What the noise filter makes of a whole sequence of calls.

A decision looks at three fields that different calls set. What they hold can be
read off the calls and answers so far: the last point is the one that was emitted
or seeded most recently since the last reset (`anchor`), and the last time is its
time (`Remembers`). So a sample that is held back is compared with the anchor:
the heartbeat and the distance are tested before anything else, and neither can
have been there.

Times are compared after stamping, as `push` compares them. A seeded point
without a time counts as one at time zero. Nothing is assumed about the order of
the times, and nothing about the two distances.

The first sample after `new` or a reset is emitted, but for one case: `seed` is
there so that the start point of a track is not emitted again, and a sample that
comes after it is compared with it (`seeded_first_held`).

## Main definitions

* `NoiseFilter.Call`, `NoiseFilter.answer`: The calls on a filter.
* `Call.pushed`, `Call.seeded`, `Call.point`: The point of a call.
* `anchor`: The point emitted or seeded most recently.
* `emitted`: The points emitted.
* `SinceNew`: What has been called since `new` or a reset.
* `Remembers`: What the filter remembers of calls and answers.

## Theorems

* `push_held`, `exchange_held`: A sample that is held back.
* `answer_remembers`, `exchange_remembers`: What the filter remembers.
* `anchor_sinceNew`: When there is no anchor.
* `exchange_spaced`: Samples that are a second or more apart.
* `noise_filter_law`: The run law.
* `seeded_first_held`: Not every first sample is emitted.
-/

namespace Pickpoint

namespace Tracking

open Looping

/-- The time a point is compared with. -/
def LatLng.time (p : LatLng) : Int := p.timestampMs.getD 0

namespace NoiseFilter

/-- The calls on a filter. A push comes with the wall clock. -/
inductive Call where
  | seed (point : LatLng)
  | push (wall : Int) (sample : LatLng)
  | reset
  deriving DecidableEq

/-- What a call does, and the point it returns if any. -/
def answer (geo : Geo) : Reaction NoiseFilter Call (Option LatLng)
  | f, .seed point => (f.seed point, none)
  | f, .push wall sample => f.push geo wall sample
  | f, .reset => (f.reset, none)

/-- The sample of a push, stamped. -/
def Call.pushed : Call → Option LatLng
  | .push wall sample => some (stampLatLng wall sample)
  | _ => none

/-- The point of a seed. -/
def Call.seeded : Call → Option LatLng
  | .seed point => some point
  | _ => none

/-- The point of a call. -/
def Call.point (c : Call) : Option LatLng := c.pushed.or c.seeded

/-- A call with its answer. -/
abbrev Exchange := Call × Option LatLng

/-- What an exchange makes of the anchor. -/
def anchored : Option LatLng → Exchange → Option LatLng
  | _, (.seed point, _) => some point
  | e, (.push _ _, out) => out.or e
  | _, (.reset, _) => none

/-- The point emitted or seeded most recently since the last reset. -/
def anchor (l : List Exchange) : Option LatLng := l.foldl anchored none

/-- The points a new filter emits. -/
def emitted (geo : Geo) (calls : List Call) : List LatLng :=
  (transcript (answer geo) {} calls).filterMap Prod.snd

/-- Since `new` or a reset there have been only calls that meet `P`. -/
def SinceNew (P : Call → Prop) (before : List Call) : Prop :=
  ∃ a b, before = a ++ b ∧ (a = [] ∨ a.getLast? = some .reset) ∧ ∀ c ∈ b, P c

/-- What the filter remembers of calls and answers: the anchor, and its time. -/
structure Remembers (l : List Exchange) (f : NoiseFilter) : Prop where
  lastEmitted : f.lastEmitted = anchor l
  lastEmitAt : f.lastEmitAt = (anchor l).map LatLng.time

/-! ## One call -/

variable (geo : Geo)

theorem anchor_snoc (l : List Exchange) (ev : Exchange) :
    anchor (l ++ [ev]) = anchored (anchor l) ev := by
  rw [anchor, List.foldl_append]
  rfl

theorem saturatingSub_lt (a b : Int) (h : saturatingSub a b < heartbeatMs) : a - b < 1000 := by
  unfold saturatingSub heartbeatMs at h
  omega

/-- A push emits its sample, and then remembers it, or holds it back. -/
theorem push_cases (f : NoiseFilter) (wall : Int) (sample : LatLng) :
    ((f.push geo wall sample).2 = some (stampLatLng wall sample) ∧
      (f.push geo wall sample).1 =
        f.emit (stampLatLng wall sample) (stampLatLng wall sample).time) ∨
    ((f.push geo wall sample).2 = none ∧
      (f.push geo wall sample).1 = { f with candidate := some (stampLatLng wall sample) } ∧
      f.lastEmitted.isSome = true ∧
      f.shouldEmit geo (stampLatLng wall sample) (stampLatLng wall sample).time = false) := by
  have hpush : f.push geo wall sample =
      if f.lastEmitted.isNone || f.shouldEmit geo (stampLatLng wall sample)
          (stampLatLng wall sample).time then
        (f.emit (stampLatLng wall sample) (stampLatLng wall sample).time,
          some (stampLatLng wall sample))
      else ({ f with candidate := some (stampLatLng wall sample) }, none) := rfl
  rw [hpush]
  split
  · exact Or.inl ⟨rfl, rfl⟩
  · next hnot =>
    rw [Bool.or_eq_true, not_or, Bool.not_eq_true, Bool.not_eq_true, Option.isNone_eq_false_iff]
      at hnot
    exact Or.inr ⟨rfl, rfl, hnot⟩

/-- What is not emitted is neither a heartbeat nor far from the last point. -/
theorem shouldEmit_false (f : NoiseFilter) (e s : LatLng) (now at₀ : Int)
    (hlast : f.lastEmitted = some e) (hat : f.lastEmitAt = some at₀)
    (h : f.shouldEmit geo s now = false) :
    now - at₀ < 1000 ∧ geo.haversineM e s < max minMoveM (2 * s.accuracy.getD 0) := by
  rw [shouldEmit, hlast, hat] at h
  -- The tests are joined by `||`, the two of them first.
  simp only [Bool.or_eq_false_iff, decide_eq_false_iff_not, not_le, Option.getD_some] at h
  exact ⟨saturatingSub_lt now at₀ h.1.1.1.1, h.1.1.1.2⟩

/-- A sample is held back only close to the anchor, in time and in space. -/
theorem push_held (l : List Exchange) (f : NoiseFilter) (h : Remembers l f) (wall : Int)
    (sample : LatLng) (hheld : (f.push geo wall sample).2 = none) :
    ∃ e, anchor l = some e ∧ (stampLatLng wall sample).time - e.time < 1000 ∧
      geo.haversineM e (stampLatLng wall sample) <
        max minMoveM (2 * (stampLatLng wall sample).accuracy.getD 0) := by
  rcases push_cases geo f wall sample with ⟨hemit, _⟩ | ⟨_, _, hsome, hnot⟩
  · rw [hheld] at hemit
    cases hemit
  · rcases Option.isSome_iff_exists.mp hsome with ⟨e, hlast⟩
    have hanchor : anchor l = some e := h.lastEmitted.symm.trans hlast
    have hat : f.lastEmitAt = some e.time := by rw [h.lastEmitAt, hanchor, Option.map_some]
    exact ⟨e, hanchor, shouldEmit_false geo f e _ _ _ hlast hat hnot⟩

/-- A call answers with its own sample or with nothing. -/
theorem answer_own (f : NoiseFilter) (c : Call) :
    (answer geo f c).2 = none ∨ (answer geo f c).2 = c.pushed := by
  cases c with
  | push wall sample =>
      rcases push_cases geo f wall sample with ⟨h, _⟩ | ⟨h, _⟩
      · exact Or.inr h
      · exact Or.inl h
  | _ => exact Or.inl rfl

/-- A call keeps what the filter remembers. -/
theorem answer_remembers (l : List Exchange) (f : NoiseFilter) (c : Call) (h : Remembers l f) :
    Remembers (l ++ [(c, (answer geo f c).2)]) (answer geo f c).1 := by
  cases c with
  | seed point => exact ⟨by rw [anchor_snoc]; rfl, by rw [anchor_snoc]; rfl⟩
  | reset => exact ⟨by rw [anchor_snoc]; rfl, by rw [anchor_snoc]; rfl⟩
  | push wall sample =>
      rcases push_cases geo f wall sample with ⟨hout, hnext⟩ | ⟨hout, hnext, _⟩
      · refine ⟨?_, ?_⟩ <;> rw [anchor_snoc, answer, hout, hnext] <;> rfl
      · -- A sample that is held back is not the anchor.
        refine ⟨?_, ?_⟩ <;> rw [anchor_snoc, answer, hout, hnext]
        · exact h.lastEmitted
        · exact h.lastEmitAt

/-! ## A run -/

/-- A new filter remembers nothing. -/
theorem remembers_new : Remembers [] {} := ⟨rfl, rfl⟩

/-- Every answer of a new filter is given by one that remembers what was said
    before. -/
theorem exchange_remembers (calls : List Call) (before after : List Exchange) (c : Call)
    (out : Option LatLng)
    (h : transcript (answer geo) {} calls = before ++ (c, out) :: after) :
    ∃ f, Remembers before f ∧ (answer geo f c).2 = out :=
  transcript_rule (answer geo) Remembers (answer_remembers geo) [] {} remembers_new calls before
    after c out h

/-- The anchor is the point of one of the calls. -/
theorem anchor_point (l : List Exchange) (hown : ∀ ev ∈ l, ev.2 = none ∨ ev.2 = ev.1.pushed)
    (e : LatLng) (h : anchor l = some e) : ∃ ev ∈ l, ev.1.point = some e := by
  induction l using List.reverseRecOn with
  | nil => cases h
  | append_singleton l ev ih =>
      rw [anchor_snoc] at h
      have hev := hown ev (List.mem_append_right l (List.mem_singleton_self ev))
      -- It is the point of the last call, or else it was the anchor before.
      by_cases hpoint : ev.1.point = some e
      · exact ⟨ev, List.mem_append_right l (List.mem_singleton_self ev), hpoint⟩
      · have hbefore : anchor l = some e := by
          rcases ev with ⟨point | ⟨wall, sample⟩ | _, out⟩
          · exact absurd h hpoint
          · rcases hev with hout | hout
            · rw [anchored, show out = none from hout] at h
              exact h
            · rw [anchored, show out = some (stampLatLng wall sample) from hout] at h
              exact absurd h hpoint
          · cases h
        rcases ih (fun ev hev => hown ev (List.mem_append_left _ hev)) hbefore with ⟨ev', hmem, hp⟩
        exact ⟨ev', List.mem_append_left _ hmem, hp⟩

/-- Without a push or a seed since `new` or a reset, that is what came last. -/
theorem sinceNew_last (before : List Call)
    (h : SinceNew (fun c => c.pushed = none ∧ c.seeded = none) before) :
    before = [] ∨ before.getLast? = some .reset := by
  rcases h with ⟨a, b, rfl, ha, hb⟩
  rcases hc : b.getLast? with _ | c
  · rwa [List.getLast?_eq_none_iff.mp hc, List.append_nil]
  · refine Or.inr ?_
    rw [List.getLast?_append, hc, Option.some_or]
    rcases hb c (List.mem_of_getLast? hc) with ⟨hpushed, hseeded⟩
    cases c with
    | seed point => cases hseeded
    | push wall sample => cases hpushed
    | reset => rfl

theorem anchor_sinceNew (l : List Exchange)
    (h : SinceNew (fun c => c.pushed = none ∧ c.seeded = none) (l.map Prod.fst)) :
    anchor l = none := by
  rcases List.eq_nil_or_concat l with rfl | ⟨l', ⟨c, out⟩, rfl⟩
  · rfl
  rw [List.concat_eq_append, List.map_append, List.map_singleton] at h
  rcases sinceNew_last _ h with hnil | hlast
  · exact absurd hnil (List.append_ne_nil_of_right_ne_nil _ (List.cons_ne_nil _ _))
  · rw [List.getLast?_concat] at hlast
    cases hlast
    rw [List.concat_eq_append, anchor_snoc]
    rfl

/-- Every call of a run is answered with its own sample or with nothing. -/
theorem exchange_own (f : NoiseFilter) (calls : List Call) (ev : Exchange)
    (h : ev ∈ transcript (answer geo) f calls) : ev.2 = none ∨ ev.2 = ev.1.pushed := by
  rcases transcript_mem (answer geo) f calls ev h with ⟨f', hout⟩
  rw [← hout]
  exact answer_own geo f' ev.1

/-- A sample that is held back in a run is close to the anchor, in time and in space. -/
theorem exchange_held (calls : List Call) (before after : List Exchange) (c : Call) (s : LatLng)
    (h : transcript (answer geo) {} calls = before ++ (c, none) :: after)
    (hs : c.pushed = some s) :
    ∃ e, anchor before = some e ∧ s.time - e.time < 1000 ∧
      geo.haversineM e s < max minMoveM (2 * s.accuracy.getD 0) := by
  rcases exchange_remembers geo calls before after c none h with ⟨f, hremembers, hout⟩
  cases c with
  | push wall sample =>
      cases hs
      exact push_held geo before f hremembers wall sample hout
  | _ => cases hs

/-- Of points that are a second or more apart every pushed one is emitted. -/
theorem exchange_spaced (calls : List Call)
    (hspaced : (calls.filterMap Call.point).IsChain fun p q => p.time + 1000 ≤ q.time)
    (ev : Exchange) (hev : ev ∈ transcript (answer geo) {} calls) : ev.2 = ev.1.pushed := by
  rcases ev with ⟨c, out⟩
  rcases exchange_own geo {} calls _ hev with hnone | hout
  swap
  · exact hout
  rcases hs : c.pushed with _ | s
  · exact hnone
  -- A sample that was held back is too close to a point before it.
  exfalso
  cases hnone
  rcases List.append_of_mem hev with ⟨before, after, hsplit⟩
  rcases exchange_held geo calls before after c s hsplit hs with ⟨e, hanchor, htime, _⟩
  have hown : ∀ ev ∈ before, ev.2 = none ∨ ev.2 = ev.1.pushed := fun ev hmem =>
    exchange_own geo {} calls ev (by rw [hsplit]; exact List.mem_append_left _ hmem)
  rcases anchor_point before hown e hanchor with ⟨ev, hmem, hpoint⟩
  have htrans : IsTrans LatLng fun p q => p.time + 1000 ≤ q.time :=
    ⟨fun p q r hpq hqr => by omega⟩
  have hpairs := List.isChain_iff_pairwise.mp hspaced
  rw [← transcript_inputs (answer geo) {} calls, hsplit, List.map_append, List.filterMap_append]
    at hpairs
  have hle := (List.pairwise_append.mp hpairs).2.2 e
    (List.mem_filterMap.mpr ⟨ev.1, List.mem_map_of_mem hmem, hpoint⟩) s
    (List.mem_filterMap.mpr ⟨c, List.mem_cons_self, by rw [Call.point, hs]; rfl⟩)
  omega

/-- The run law of the noise filter, for every sequence of calls. A call is
    answered with its own sample or with nothing, so the points emitted are some
    of the samples, in order. A sample is emitted when nothing was pushed or
    seeded since `new` or a reset. One that is held back is less than a second
    after the anchor and close to it. Samples that are a second or more apart
    are all emitted. -/
theorem noise_filter_law (calls : List Call) :
    (emitted geo calls).Sublist (calls.filterMap Call.pushed) ∧
    (∀ before c out after,
      transcript (answer geo) {} calls = before ++ (c, out) :: after →
        (∀ p, out = some p → c.pushed = some p) ∧
        (SinceNew (fun c => c.pushed = none ∧ c.seeded = none) (before.map Prod.fst) →
          out = c.pushed) ∧
        ∀ s, c.pushed = some s → out = none →
          ∃ e, anchor before = some e ∧ s.time - e.time < 1000 ∧
            geo.haversineM e s < max minMoveM (2 * s.accuracy.getD 0)) ∧
    ((calls.filterMap Call.point).IsChain (fun p q => p.time + 1000 ≤ q.time) →
      emitted geo calls = calls.filterMap Call.pushed) := by
  refine ⟨transcript_sublist (answer geo) Call.pushed (answer_own geo) {} calls, ?_, ?_⟩
  · intro before c out after hsplit
    have hown : out = none ∨ out = c.pushed := exchange_own geo {} calls (c, out)
      (by rw [hsplit]; exact List.mem_append_right _ List.mem_cons_self)
    refine ⟨fun p hp => ?_, fun hnew => ?_, fun s hs hnone => ?_⟩
    · rcases hown with hnone | hout
      · rw [hp] at hnone
        cases hnone
      · rw [← hout, hp]
    · rcases hown with rfl | hout
      · -- A sample held back would have had an anchor.
        rcases hs : c.pushed with _ | s
        · rfl
        · rcases exchange_held geo calls before after c s hsplit hs with ⟨e, hanchor, _⟩
          rw [anchor_sinceNew before hnew] at hanchor
          cases hanchor
      · exact hout
    · rw [hnone] at hsplit
      exact exchange_held geo calls before after c s hsplit hs
  · -- Each exchange hands its own sample on, so the points are the samples.
    intro hspaced
    have hinputs := transcript_inputs (answer geo) {} calls
    rw [emitted, List.filterMap_congr (exchange_spaced geo calls hspaced)]
    exact List.filterMap_map.symm.trans (congrArg (List.filterMap Call.pushed) hinputs)

/-- A sample right where and when the filter was seeded is the first push and is
    held back. -/
theorem seeded_first_held : ¬ ∀ (geo : Geo) (calls : List Call) (before after : List Exchange)
    (c : Call) (out : Option LatLng),
    (calls.filterMap Call.point).IsChain (fun p q => p.time ≤ q.time) →
    transcript (answer geo) {} calls = before ++ (c, out) :: after →
    SinceNew (fun c => c.pushed = none) (before.map Prod.fst) → out = c.pushed := by
  intro h
  have hfirst := h { haversineM := fun _ _ => 0, perpendicularM := fun _ _ _ => 0 }
    [.seed { latitude := 0, longitude := 0, timestampMs := some 0 },
      .push 0 { latitude := 0, longitude := 0, timestampMs := some 0 }]
    [(.seed { latitude := 0, longitude := 0, timestampMs := some 0 }, none)] []
    (.push 0 { latitude := 0, longitude := 0, timestampMs := some 0 }) none (by decide)
    (by decide +kernel) ⟨[], _, rfl, Or.inl rfl, by decide⟩
  cases hfirst

end NoiseFilter

end Tracking

end Pickpoint
