import Mathlib.Data.List.Basic

/-!
# Loops that Meet the World

A loop that awaits something in every round, where what it gets decides whether
it goes round again.

`Body` is one round, with everything it may await given beforehand. It says
what can be seen of the round, and either the locals of the next round or the
result of the loop. `run` takes rounds that meet a given sequence, at most as
many as there is fuel; `follow` takes a finite list of rounds, and is the view
of someone who watches a loop that is still going.

A loop whose rounds lower a measure ends, whatever it meets, and fuel beyond
the measure changes nothing (`run_ends`). What every round adds to a run that
has ended is proved by `run_rule`.

## Main definitions

* `Body`: One round of a loop.
* `run`: The loop, with fuel.
* `follow`: The rounds so far.

## Theorems

* `run_ends`: A measure bounds the rounds.
* `run_mono`: More fuel does no harm.
* `run_rule`: Induction over a run that has ended.
* `follow_snoc`: One more round.
* `run_of_follow`: A loop that was seen to end is a run.
-/

namespace Looping

/-- One round of a loop with locals `σ`: it meets an `ι`, shows events `ε`, and
    goes on or comes to a result `ρ`. -/
abbrev Body (σ ι ε ρ : Type) := σ → ι → List ε × (σ ⊕ ρ)

variable {σ ι ε ρ : Type} (body : Body σ ι ε ρ)

/-- The events and the result of at most `fuel` rounds that meet `w 0`, `w 1` and
    so on. -/
def run : Nat → σ → (Nat → ι) → List ε × Option ρ
  | 0, _, _ => ([], none)
  | fuel + 1, s, w =>
    match body s (w 0) with
    | (es, .inr r) => (es, some r)
    | (es, .inl s') =>
      (es ++ (run fuel s' fun k => w (k + 1)).1, (run fuel s' fun k => w (k + 1)).2)

/-- The rounds that meet the list, up to the end of the loop. -/
def follow : σ → List ι → List ε × (σ ⊕ ρ)
  | s, [] => ([], .inl s)
  | s, x :: xs =>
    match body s x with
    | (es, .inr r) => (es, .inr r)
    | (es, .inl s') => (es ++ (follow s' xs).1, (follow s' xs).2)

/-- A loop whose rounds lower a measure comes to a result, whatever it meets, in
    no more rounds than the measure allows. -/
theorem run_ends (μ : σ → Nat) (hdec : ∀ s x es s', body s x = (es, .inl s') → μ s' < μ s)
    (s : σ) (w : Nat → ι) : ∃ es r, ∀ fuel, μ s < fuel → run body fuel s w = (es, some r) := by
  -- Induction on the measure; the rounds left meet the rest of the sequence.
  induction hn : μ s using Nat.strongRecOn generalizing s w with
  | ind n ih =>
    rcases hround : body s (w 0) with ⟨es, s' | r⟩
    · have hlt := hdec s (w 0) es s' hround
      rcases ih (μ s') (hn ▸ hlt) s' (fun k => w (k + 1)) rfl with ⟨es', r, hrest⟩
      refine ⟨es ++ es', r, fun fuel hfuel => ?_⟩
      rcases fuel with _ | fuel
      · exact absurd hfuel (Nat.not_lt_zero _)
      · rw [run, hround]
        simp only [hrest fuel (by omega)]
    · refine ⟨es, r, fun fuel hfuel => ?_⟩
      rcases fuel with _ | fuel
      · exact absurd hfuel (Nat.not_lt_zero _)
      · rw [run, hround]

/-- Fuel that is left over changes nothing. -/
theorem run_mono (fuel fuel' : Nat) (s : σ) (w : Nat → ι) (es : List ε) (r : ρ)
    (hle : fuel ≤ fuel') (h : run body fuel s w = (es, some r)) :
    run body fuel' s w = (es, some r) := by
  induction fuel generalizing fuel' s w es with
  | zero => cases h
  | succ fuel ih =>
      rcases fuel' with _ | fuel'
      · exact absurd hle (Nat.not_succ_le_zero _)
      · rw [run] at h ⊢
        rcases hround : body s (w 0) with ⟨es₀, s' | r₀⟩
        · simp only [hround, Prod.mk.injEq] at h
          have hrest := ih fuel' s' _ _ (Nat.le_of_succ_le_succ hle) (Prod.ext rfl h.2)
          simp only [hrest, h.1]
        · simp only [hround] at h
          simp only [h]

/-- What holds of a last round, and of a run whenever it holds of all but the
    first round, holds of every run that has ended. -/
theorem run_rule (P : σ → (Nat → ι) → List ε → ρ → Prop)
    (hlast : ∀ s w es r, body s (w 0) = (es, .inr r) → P s w es r)
    (hfirst : ∀ s w es s' es' r, body s (w 0) = (es, .inl s') →
      P s' (fun k => w (k + 1)) es' r → P s w (es ++ es') r)
    (fuel : Nat) (s : σ) (w : Nat → ι) (es : List ε) (r : ρ)
    (h : run body fuel s w = (es, some r)) : P s w es r := by
  induction fuel generalizing s w es with
  | zero => cases h
  | succ fuel ih =>
      rw [run] at h
      rcases hround : body s (w 0) with ⟨es₀, s' | r₀⟩
      · simp only [hround, Prod.mk.injEq] at h
        rw [← h.1]
        exact hfirst s w es₀ s' _ r hround (ih s' _ _ (Prod.ext rfl h.2))
      · simp only [hround, Prod.mk.injEq, Option.some.injEq] at h
        rw [← h.1, ← h.2]
        exact hlast s w es₀ r₀ hround

/-- One more round. -/
theorem follow_snoc (s s' : σ) (xs : List ι) (x : ι) (es : List ε)
    (h : follow body s xs = (es, .inl s')) :
    follow body s (xs ++ [x]) = (es ++ (body s' x).1, (body s' x).2) := by
  induction xs generalizing s es with
  | nil =>
      simp only [follow, Prod.mk.injEq, Sum.inl.injEq] at h
      rw [← h.1, ← h.2, List.nil_append, follow]
      rcases body s x with ⟨es', s'' | r⟩
      · simp only [follow, List.append_nil, List.nil_append]
      · simp only [List.nil_append]
  | cons y xs ih =>
      rw [follow] at h
      rw [List.cons_append, follow]
      rcases hround : body s y with ⟨es₀, s₀ | r⟩
      · simp only [hround, Prod.mk.injEq] at h
        simp only [ih s₀ _ (Prod.ext rfl h.2), ← h.1, List.append_assoc]
      · simp only [hround, Prod.mk.injEq, reduceCtorEq, and_false] at h

/-- A loop that was seen to end is a run that meets what it met. -/
theorem run_of_follow (d : ι) (s : σ) (xs : List ι) (es : List ε) (r : ρ)
    (h : follow body s xs = (es, .inr r)) :
    run body xs.length s (fun k => xs.getD k d) = (es, some r) := by
  induction xs generalizing s es with
  | nil => cases h
  | cons x xs ih =>
      rw [follow] at h
      rw [List.length_cons, run, List.getD_cons_zero]
      rcases hround : body s x with ⟨es₀, s₀ | r₀⟩
      · simp only [hround, Prod.mk.injEq] at h
        have hrest := ih s₀ _ (Prod.ext rfl h.2)
        simp only [List.getD_cons_succ, hrest, ← h.1]
      · simp only [hround, Prod.mk.injEq, Sum.inr.injEq] at h
        simp only [h.1, h.2]

end Looping
