import Pickpoint.Core.Geocoding

/-!
# Batch Results and Inputs

The results of a batch stand where its queries do, in whatever order they come
out.

The slots say nothing of the order. What the loop keeps (`Filled`) is that there
is a slot for every query, and that the slot of each result it has read holds that
result; a result that comes out next only adds one more such slot. When the stream
has ended every result has come out, so no slot is empty, and `expect("filled")`
holds.

The first error ends the loop before the stream is polled again. What the stream
would have done next is the rest of its events, and none of them is seen.

## Main definitions

* `results`: The result of each query.
* `Filled`: The slots after some events.
* `schedule`: What the stream of a batch does.

## Theorems

* `Filled.step`: One more result.
* `batchLoop_reads`: What the loop has read and filled so far.
* `Filled.complete`: No slot is empty when every result has come out.
* `runBatch_succeeds`, `runBatch_fails`: The two ways a batch can end.
* `runBatch_cases`: It ends in one of them.
* `batch_lines_up`: Results line up with inputs.
-/

namespace Pickpoint

namespace Geocoding

open Streaming

variable {ε α : Type}

/-- The result of each query. -/
def results (fn : Nat → Query → Except ε α) (inputs : List Query) : List (Except ε α) :=
  inputs.mapIdx fn

/-- There is a slot for every query, and each result that is out is in its slot. -/
def Filled (rs : List (Except ε α)) (out : List (Option α)) (evs : List (Event (Item ε α))) :
    Prop :=
  out.length = rs.length ∧
    ∀ k x, .yielded k x ∈ evs → ∃ v, rs[k]? = some (.ok v) ∧ out[k]? = some (some v)

theorem results_length (fn : Nat → Query → Except ε α) (inputs : List Query) :
    (results fn inputs).length = inputs.length :=
  List.length_mapIdx

theorem results_get (fn : Nat → Query → Except ε α) (inputs : List Query) (i : Nat)
    (r : Except ε α) :
    (results fn inputs)[i]? = some r ↔ ∃ q, inputs[i]? = some q ∧ fn i q = r := by
  rw [results, List.getElem?_mapIdx, Option.map_eq_some_iff]

theorem futures_get (fn : Nat → Query → Except ε α) (inputs : List Query) (k : Nat)
    (x : Item ε α) (h : (futures fn inputs)[k]? = some x) :
    x.1 = k ∧ (results fn inputs)[k]? = some x.2 := by
  rw [futures, List.getElem?_mapIdx, Option.map_eq_some_iff] at h
  rcases h with ⟨q, hq, rfl⟩
  exact ⟨rfl, (results_get fn inputs k _).mpr ⟨q, hq, rfl⟩⟩

/-- No result is out yet. -/
theorem filled_start (rs : List (Except ε α)) :
    Filled rs (List.replicate rs.length none) [] :=
  ⟨List.length_replicate, fun _ _ hmem => absurd hmem List.not_mem_nil⟩

/-- A task that starts fills nothing. -/
theorem Filled.started {rs : List (Except ε α)} {out : List (Option α)}
    {done : List (Event (Item ε α))} (h : Filled rs out done) (k : Nat) :
    Filled rs out (done ++ [.started k]) := by
  refine ⟨h.1, fun j x hmem => ?_⟩
  rcases List.mem_append.mp hmem with hmem | hmem
  · exact h.2 j x hmem
  · exact absurd (List.mem_singleton.mp hmem) (by simp only [reduceCtorEq, not_false_eq_true])

/-- One more result. A slot that is filled a second time gets what it had. -/
theorem Filled.step {rs : List (Except ε α)} {out : List (Option α)}
    {done : List (Event (Item ε α))} (h : Filled rs out done) (k : Nat) (v : α)
    (hk : rs[k]? = some (.ok v)) :
    Filled rs (out.set k (some v)) (done ++ [.yielded k (k, .ok v)]) := by
  -- A query has a slot, so the index is not past the end.
  have hlt : k < out.length := by
    rw [h.1]
    exact (List.getElem?_eq_some_iff.mp hk).choose
  refine ⟨by rw [List.length_set, h.1], fun j x hmem => ?_⟩
  by_cases hj : j = k
  · rw [hj]
    exact ⟨v, hk, List.getElem?_set_self hlt⟩
  · rcases List.mem_append.mp hmem with hmem | hmem
    · rcases h.2 j x hmem with ⟨w, hw, hslot⟩
      exact ⟨w, hw, by rw [List.getElem?_set_ne (Ne.symm hj), hslot]⟩
    · cases List.mem_singleton.mp hmem
      exact absurd rfl hj

/-- While the results that come out are values, the loop reads on, and fills their
    slots. -/
theorem batchLoop_reads (rs : List (Except ε α)) (evs post : List (Event (Item ε α)))
    (hevs : ∀ k x, .yielded k x ∈ evs → x.1 = k ∧ rs[k]? = some x.2 ∧ ∃ v, x.2 = .ok v)
    (out : List (Option α)) (done : List (Event (Item ε α))) (h : Filled rs out done) :
    ∃ out', Filled rs out' (done ++ evs) ∧
      batchLoop out (evs ++ post) = (evs ++ (batchLoop out' post).1, (batchLoop out' post).2) := by
  -- Induction over the events; what has been read grows as they get fewer.
  induction evs generalizing out done with
  | nil => exact ⟨out, by rwa [List.append_nil], rfl⟩
  | cons ev evs ih =>
      have hrest := fun k x hmem => hevs k x (List.mem_cons_of_mem ev hmem)
      rw [List.append_cons]
      cases ev with
      | started k =>
          rcases ih hrest out _ (h.started k) with ⟨out', hout', hloop⟩
          exact ⟨out', hout', by simp only [List.cons_append, batchLoop, hloop]⟩
      | yielded k x =>
          rcases x with ⟨i, res⟩
          rcases hevs k (i, res) List.mem_cons_self with ⟨hi, hget, v, hv⟩
          simp only at hi hget hv
          subst hi hv
          have hlt : i < out.length := by
            rw [h.1]
            exact (List.getElem?_eq_some_iff.mp hget).choose
          rcases ih hrest _ _ (h.step i v hget) with ⟨out', hout', hloop⟩
          exact ⟨out', hout', by simp only [List.cons_append, batchLoop, if_pos hlt, hloop]⟩

/-- Slots that hold a value each are the values of their queries. -/
theorem slots_values (rs : List (Except ε α)) (out : List (Option α))
    (hlen : out.length = rs.length)
    (hslot : ∀ k, k < rs.length → ∃ v, rs[k]? = some (.ok v) ∧ out[k]? = some (some v)) :
    ∃ vs : List α, rs = vs.map .ok ∧ out = vs.map some := by
  induction rs generalizing out with
  | nil => exact ⟨[], rfl, List.length_eq_zero_iff.mp hlen⟩
  | cons r rs ih =>
      rcases out with _ | ⟨slot, out⟩
      · exact absurd hlen (by simp only [List.length_nil, List.length_cons]; omega)
      · rcases hslot 0 (Nat.succ_pos _) with ⟨v, hr, hv⟩
        simp only [List.getElem?_cons_zero, Option.some.injEq] at hr hv
        rcases ih out (Nat.succ.inj hlen) fun k hk => hslot (k + 1) (Nat.succ_lt_succ hk) with
          ⟨vs, hrs, hout⟩
        exact ⟨v :: vs, by rw [hr, hrs, List.map_cons], by rw [hv, hout, List.map_cons]⟩

/-- Values pass `expect("filled")`. -/
theorem expectFilled_values (vs : List α) :
    (expectFilled (vs.map some) : BatchResult ε α) = .returned (.ok vs) := by
  have hm : (vs.map some).mapM id = some vs := by
    induction vs with
    | nil => rfl
    | cons v vs ih =>
        rw [List.map_cons, List.mapM_cons, ih]
        rfl
  rw [expectFilled, hm]

/-- No slot is empty when every result has come out. -/
theorem Filled.complete {rs : List (Except ε α)} {out : List (Option α)}
    {evs : List (Event (Item ε α))} (h : Filled rs out evs)
    (hall : ∀ k, k < rs.length → ∃ x, .yielded k x ∈ evs) :
    ∃ vs, rs = vs.map .ok ∧ (expectFilled out : BatchResult ε α) = .returned (.ok vs) := by
  have hslot : ∀ k, k < rs.length → ∃ v, rs[k]? = some (.ok v) ∧ out[k]? = some (some v) := by
    intro k hk
    rcases hall k hk with ⟨x, hx⟩
    exact h.2 k x hx
  rcases slots_values rs out h.1 hslot with ⟨vs, hrs, hout⟩
  exact ⟨vs, hrs, by rw [hout, expectFilled_values]⟩

section Batch

variable (buffer : Nat → List (Item ε α) → List (Event (Item ε α))) (concurrency : Nat)
  (inputs : List Query) (fn : Nat → Query → Except ε α)

/-- What the stream of a batch does. -/
abbrev schedule : List (Event (Item ε α)) :=
  buffer (max concurrency 1) (futures fn inputs)

variable {buffer concurrency inputs fn}

/-- A batch whose results are all values reads them all. -/
theorem runBatch_succeeds
    (h : Buffered (max concurrency 1) (futures fn inputs) 0 []
      (schedule buffer concurrency inputs fn))
    (hn : inputs.length ≠ 0)
    (hall : ∀ k x, .yielded k x ∈ schedule buffer concurrency inputs fn → ∃ v, x.2 = .ok v) :
    ∃ vs, results fn inputs = vs.map .ok ∧
      runBatch buffer concurrency inputs fn =
        (schedule buffer concurrency inputs fn, .returned (.ok vs)) := by
  have hevs := fun k x hmem => and_assoc.mp
    ⟨futures_get fn inputs k x (h.yielded_get k x hmem), hall k x hmem⟩
  rcases batchLoop_reads _ _ [] hevs _ [] (filled_start _) with ⟨out, hout, hloop⟩
  -- The stream has ended, so the result of each query has come out.
  have hends : ∀ k, k < (results fn inputs).length →
      ∃ x, .yielded k x ∈ schedule buffer concurrency inputs fn := by
    intro k hk
    rw [results, List.length_mapIdx] at hk
    exact h.yields k (.inr ⟨k.zero_le, by rwa [futures, List.length_mapIdx]⟩)
  rcases hout.complete hends with ⟨vs, hvs, hfilled⟩
  rw [List.append_nil, results_length] at hloop
  refine ⟨vs, hvs, ?_⟩
  rw [runBatch, if_neg hn, hloop, batchLoop, List.append_nil, hfilled]

/-- A batch returns the first error that comes out, and nothing happens after it. -/
theorem runBatch_fails
    (h : Buffered (max concurrency 1) (futures fn inputs) 0 []
      (schedule buffer concurrency inputs fn))
    (hn : inputs.length ≠ 0) (pre post : List (Event (Item ε α))) (k i : Nat) (e : ε)
    (hsched : schedule buffer concurrency inputs fn = pre ++ .yielded k (i, .error e) :: post)
    (hpre : ∀ j x, .yielded j x ∈ pre → ∃ v, x.2 = .ok v) :
    k = i ∧ (results fn inputs)[k]? = some (.error e) ∧
      runBatch buffer concurrency inputs fn =
        (pre ++ [.yielded k (i, .error e)], .returned (.error e)) := by
  have hget := fun k x hmem => futures_get fn inputs k x (h.yielded_get k x (hsched ▸ hmem))
  rcases hget k (i, .error e) (List.mem_append_right _ List.mem_cons_self) with ⟨hi, hres⟩
  have hevs := fun j x hmem => and_assoc.mp
    ⟨hget j x (List.mem_append_left _ hmem), hpre j x hmem⟩
  rcases batchLoop_reads _ _ (.yielded k (i, .error e) :: post) hevs _ [] (filled_start _) with
    ⟨out, _, hloop⟩
  rw [← hsched, results_length, batchLoop] at hloop
  refine ⟨hi.symm, hres, ?_⟩
  rw [runBatch, if_neg hn, hloop]

/-- A batch ends in one of two ways: every result is a value, and these are
    returned; or the first error that comes out is. -/
theorem runBatch_cases
    (h : Buffered (max concurrency 1) (futures fn inputs) 0 []
      (schedule buffer concurrency inputs fn)) :
    (∃ vs, results fn inputs = vs.map .ok ∧
      (runBatch buffer concurrency inputs fn).1 <+: schedule buffer concurrency inputs fn ∧
      (runBatch buffer concurrency inputs fn).2 = .returned (.ok vs)) ∨
    ∃ pre k e, (results fn inputs)[k]? = some (.error e) ∧
      pre ++ [.yielded k (k, .error e)] <+: schedule buffer concurrency inputs fn ∧
      (∀ j x, .yielded j x ∈ pre → ∃ v, x.2 = .ok v) ∧
      runBatch buffer concurrency inputs fn =
        (pre ++ [.yielded k (k, .error e)], .returned (.error e)) := by
  -- Without queries there is no stream.
  by_cases hn : inputs.length = 0
  · refine .inl ⟨[], ?_, ?_⟩
    · rw [List.length_eq_zero_iff.mp hn, results, List.mapIdx_nil, List.map_nil]
    · rw [runBatch, if_pos hn]
      exact ⟨List.nil_prefix, rfl⟩
  rcases first_bad (fun x => ∃ v, x.2 = .ok v) (schedule buffer concurrency inputs fn) with
    hall | ⟨pre, k, ⟨i, e | v⟩, post, hsched, hbad, hpre⟩
  · rcases runBatch_succeeds h hn hall with ⟨vs, hvs, hrun⟩
    rw [hrun]
    exact .inl ⟨vs, hvs, List.prefix_rfl, rfl⟩
  · rcases runBatch_fails h hn pre post k i e hsched hpre with ⟨rfl, hres, hrun⟩
    refine .inr ⟨pre, k, e, hres, ⟨post, ?_⟩, hpre, hrun⟩
    rw [hsched, List.append_assoc, List.singleton_append]
  · exact absurd ⟨v, rfl⟩ hbad

/-- Where the results are values, so is the result of each query, in its place. -/
theorem results_line (vs : List α) (hvs : results fn inputs = vs.map .ok) (i : Nat) (q : Query)
    (hq : inputs[i]? = some q) : ∃ v, vs[i]? = some v ∧ fn i q = .ok v := by
  have hr := (results_get fn inputs i (fn i q)).mpr ⟨q, hq, rfl⟩
  rw [hvs, List.getElem?_map, Option.map_eq_some_iff] at hr
  rcases hr with ⟨v, hv, hval⟩
  exact ⟨v, hv, hval.symm⟩

variable (buffer concurrency inputs fn)

/-- The results of a batch line up with its inputs, in whatever order they come
    out; the first error ends the batch, no slot is missing or empty, and no more
    queries are in flight than the concurrency allows. -/
theorem batch_lines_up
    (h : Buffered (max concurrency 1) (futures fn inputs) 0 []
      (schedule buffer concurrency inputs fn)) :
    (runBatch buffer concurrency inputs fn).2 ≠ .panicked ∧
    ((∃ out, (runBatch buffer concurrency inputs fn).2 = .returned (.ok out)) ↔
      ∀ i q, inputs[i]? = some q → ∃ v, fn i q = .ok v) ∧
    (∀ out, (runBatch buffer concurrency inputs fn).2 = .returned (.ok out) →
      out.length = inputs.length ∧
      ∀ i q, inputs[i]? = some q → ∃ v, out[i]? = some v ∧ fn i q = .ok v) ∧
    ((¬ ∀ i q, inputs[i]? = some q → ∃ v, fn i q = .ok v) →
      ∃ pre i q e, inputs[i]? = some q ∧ fn i q = .error e ∧
        (runBatch buffer concurrency inputs fn).2 = .returned (.error e) ∧
        (runBatch buffer concurrency inputs fn).1 = pre ++ [.yielded i (i, .error e)] ∧
        ∀ j x, .yielded j x ∈ pre → ∃ v, x.2 = .ok v) ∧
    (runBatch buffer concurrency inputs fn).1 <+: schedule buffer concurrency inputs fn ∧
    ∀ pre, pre <+: (runBatch buffer concurrency inputs fn).1 →
      (inFlight pre).length ≤ max concurrency 1 := by
  have hroom : ∀ pre, pre <+: schedule buffer concurrency inputs fn →
      (inFlight pre).length ≤ max concurrency 1 := h.inFlight_le (Nat.zero_le _)
  rcases runBatch_cases h with ⟨vs, hvs, hseen, hret⟩ | ⟨pre, k, e, hk, hseen, hpre, hrun⟩
  -- Values: the batch has succeeded, and so has every query.
  · have hline := results_line vs hvs
    have hall : ∀ i q, inputs[i]? = some q → ∃ v, fn i q = .ok v :=
      fun i q hq => (hline i q hq).imp fun _ hv => hv.2
    have hlen : vs.length = inputs.length := by
      rw [← results_length fn inputs, hvs, List.length_map]
    rw [hret]
    refine ⟨by simp only [ne_eq, reduceCtorEq, not_false_eq_true], ⟨fun _ => hall,
      fun _ => ⟨vs, rfl⟩⟩, fun out hout => ?_, fun hnot => absurd hall hnot, hseen,
      fun pre hpre => hroom pre (hpre.trans hseen)⟩
    cases hout
    exact ⟨hlen, hline⟩
  -- An error: the query that failed is one that did not succeed.
  · rcases (results_get fn inputs k _).mp hk with ⟨q, hq, hfail⟩
    have hnot : ¬ ∀ i q, inputs[i]? = some q → ∃ v, fn i q = .ok v := by
      intro hall
      rcases hall k q hq with ⟨v, hv⟩
      rw [hfail] at hv
      cases hv
    rw [hrun]
    refine ⟨by simp only [ne_eq, reduceCtorEq, not_false_eq_true], ⟨fun hret => ?_,
      fun hall => absurd hall hnot⟩, fun out hret => ?_, fun _ => ⟨pre, k, q, e, hq, hfail, rfl,
      rfl, hpre⟩, hseen, fun pre' hpre' => hroom pre' (hpre'.trans hseen)⟩
    · rcases hret with ⟨out, hret⟩
      cases hret
    · cases hret

end Batch

/-- Three queries, two at a time, of which the first takes longest. -/
def lateFirst : List (Event (Item String Query)) :=
  [.started 0, .started 1, .yielded 1 (1, .ok [("q", "b")]), .started 2,
    .yielded 2 (2, .ok [("q", "c")]), .yielded 0 (0, .ok [("q", "a")])]

/-- It is one of the things the stream may do. -/
theorem lateFirst_buffered :
    Buffered 2 (futures (fun _ q => .ok q) [[("q", "a")], [("q", "b")], [("q", "c")]]) 0 []
      lateFirst := by
  refine .start _ _ _ (by decide) (by decide) (.start _ _ _ (by decide) (by decide) ?_)
  refine .yield _ _ _ _ _ (by decide) rfl (.start _ _ _ (by decide) (by decide) ?_)
  exact .yield _ _ _ _ _ (by decide) rfl (.yield _ _ _ _ _ (by decide) rfl .ended)

theorem batch_lines_up_late :
    ∃ out, (runBatch (fun _ _ => lateFirst) 2 [[("q", "a")], [("q", "b")], [("q", "c")]]
      fun _ q => .ok q).2 = .returned (.ok out) :=
  (batch_lines_up (fun _ _ => lateFirst) 2 [[("q", "a")], [("q", "b")], [("q", "c")]]
    (fun _ q => .ok q) lateFirst_buffered).2.1.mpr fun _ q _ => ⟨q, rfl⟩

end Geocoding

end Pickpoint
