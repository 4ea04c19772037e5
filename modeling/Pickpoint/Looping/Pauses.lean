import Mathlib.Algebra.Order.Ring.Nat
import Pickpoint.Looping.Rounds

/-!
# Loops that Pause

A loop that may pause before it goes round again.

What it shows and what it comes to are those of the loop without its pauses
(`run_pausing`). Where the locals count the pauses, the count bounds them, and what
holds of a pause by its number holds of all of them (`pauses_counted`).

## Main definitions

* `pausing`: A loop that pauses between two rounds.
* `shown`, `pauses`: The two kinds of its events.

## Theorems

* `run_pausing`: The loop without its pauses.
* `pauses_counted`: Pauses that are counted.
* `sum_le_of_get`: The sum of what is bounded place by place.
-/

namespace Looping

variable {σ ι ι' ε ρ π : Type}

/-- The loop with pauses. A pause is given the locals before and after the round, and
    what it meets itself. -/
def pausing (body : Body σ ι ε ρ) (pause : σ → σ → ι' → Option π) :
    Body σ (ι × ι') (ε ⊕ π) ρ
  | s, (x, y) =>
    match body s x with
    | (es, .inl s') => (es.map Sum.inl ++ ((pause s s' y).map Sum.inr).toList, .inl s')
    | (es, .inr r) => (es.map Sum.inl, .inr r)

def shown (es : List (ε ⊕ π)) : List ε := es.filterMap Sum.getLeft?

def pauses (es : List (ε ⊕ π)) : List π := es.filterMap Sum.getRight?

theorem shown_append (es es' : List (ε ⊕ π)) : shown (es ++ es') = shown es ++ shown es' :=
  List.filterMap_append

theorem pauses_append (es es' : List (ε ⊕ π)) : pauses (es ++ es') = pauses es ++ pauses es' :=
  List.filterMap_append

theorem shown_inl (es : List ε) : shown (es.map (Sum.inl : ε → ε ⊕ π)) = es := by
  rw [shown, List.filterMap_map]
  exact List.filterMap_some

theorem shown_pause (o : Option π) : shown (o.map (Sum.inr : π → ε ⊕ π)).toList = [] := by
  cases o <;> rfl

theorem pauses_inl (es : List ε) : pauses (es.map (Sum.inl : ε → ε ⊕ π)) = [] := by
  rw [pauses, List.filterMap_map]
  exact List.filterMap_eq_nil_iff.mpr fun _ _ => rfl

theorem pauses_pause (o : Option π) :
    pauses (o.map (Sum.inr : π → ε ⊕ π)).toList = o.toList := by
  cases o <;> rfl

section Runs

variable (body : Body σ ι ε ρ) (pause : σ → σ → ι' → Option π)

/-- The loop without its pauses. -/
theorem run_pausing (fuel : Nat) (s : σ) (w : Nat → ι × ι') :
    shown (run (pausing body pause) fuel s w).1 = (run body fuel s fun k => (w k).1).1 ∧
      (run (pausing body pause) fuel s w).2 = (run body fuel s fun k => (w k).1).2 := by
  induction fuel generalizing s w with
  | zero => exact ⟨rfl, rfl⟩
  | succ fuel ih =>
      rw [run, run]
      rcases hround : body s (w 0).1 with ⟨es, s' | r⟩
      · have hpaused : pausing body pause s (w 0) =
            (es.map Sum.inl ++ ((pause s s' (w 0).2).map Sum.inr).toList, .inl s') := by
          rw [pausing, hround]
        have hrest := ih s' fun k => w (k + 1)
        simp only [hpaused, shown_append, shown_inl, shown_pause, List.append_nil, hrest.1, hrest.2,
          and_self]
      · have hpaused : pausing body pause s (w 0) = (es.map Sum.inl, .inr r) := by
          rw [pausing, hround]
        simp only [hpaused, shown_inl, and_self]

/-- Where the locals count the pauses up to `n`, there are no more than that, and each
    is as it is to be at its number. -/
theorem pauses_counted (count : σ → Nat) (n : Nat) (ok : Nat → π → Prop)
    (hpause : ∀ s x es s' y p, body s x = (es, .inl s') → pause s s' y = some p →
      count s' = count s + 1 ∧ count s' ≤ n ∧ ok (count s) p)
    (hnone : ∀ s x es s' y, body s x = (es, .inl s') → pause s s' y = none → count s' = count s)
    (fuel : Nat) (s : σ) (w : Nat → ι × ι') (hs : count s ≤ n) :
    (pauses (run (pausing body pause) fuel s w).1).length + count s ≤ n ∧
      ∀ (k : Nat) p, (pauses (run (pausing body pause) fuel s w).1)[k]? = some p →
        ok (count s + k) p := by
  induction fuel generalizing s w with
  -- The count never passes `n`, so induction on the fuel carries the sum of what was paused so
  -- far and what is to come.
  | zero =>
      refine ⟨by simpa only [run, pauses, List.filterMap_nil, List.length_nil, Nat.zero_add], ?_⟩
      intro k p hk
      cases hk
  | succ fuel ih =>
      rw [run]
      rcases hround : body s (w 0).1 with ⟨es, s' | r⟩
      · have hpaused : pausing body pause s (w 0) =
            (es.map Sum.inl ++ ((pause s s' (w 0).2).map Sum.inr).toList, .inl s') := by
          rw [pausing, hround]
        simp only [hpaused, pauses_append, pauses_inl, pauses_pause, List.nil_append]
        rcases hp : pause s s' (w 0).2 with _ | p
        · -- The round goes on at once.
          have hcount := hnone s _ es s' _ hround hp
          rcases ih s' (fun k => w (k + 1)) (hcount ▸ hs) with ⟨hlen, hok⟩
          rw [Option.toList_none, List.nil_append, ← hcount]
          exact ⟨hlen, hok⟩
        -- The round pauses: one more is counted, and its pause is the next in line.
        · rcases hpause s _ es s' _ p hround hp with ⟨hcount, hle, hfirst⟩
          rcases ih s' (fun k => w (k + 1)) hle with ⟨hlen, hok⟩
          rw [Option.toList_some, List.singleton_append, List.length_cons]
          refine ⟨by omega, fun k q hk => ?_⟩
          rcases k with _ | k
          · rw [List.getElem?_cons_zero, Option.some.injEq] at hk
            exact hk ▸ hfirst
          · rw [List.getElem?_cons_succ] at hk
            have hrest := hok k q hk
            rwa [hcount, Nat.add_right_comm] at hrest
      -- The last round does not pause.
      · have hpaused : pausing body pause s (w 0) = (es.map Sum.inl, .inr r) := by
          rw [pausing, hround]
        simp only [hpaused, pauses_inl, List.length_nil, Nat.zero_add]
        refine ⟨hs, fun k p hk => ?_⟩
        cases hk

end Runs

/-- The sum of a list that is bounded place by place. -/
theorem sum_le_of_get (bound : Nat → Nat) (n : Nat) (ps : List Nat) (hlen : ps.length ≤ n)
    (h : ∀ (k : Nat) p, ps[k]? = some p → p ≤ bound k) :
    ps.sum ≤ ((List.range n).map bound).sum := by
  induction ps generalizing n bound with
  | nil => exact Nat.zero_le _
  | cons p ps ih =>
      rcases n with _ | n
      · exact absurd hlen (Nat.not_succ_le_zero _)
      · have hrest := ih (fun k => bound (k + 1)) n (Nat.le_of_succ_le_succ hlen) fun k q hk =>
          h (k + 1) q (by rwa [List.getElem?_cons_succ])
        have hfirst := h 0 p List.getElem?_cons_zero
        rw [List.range_succ_eq_map, List.map_cons, List.map_map, List.sum_cons, List.sum_cons]
        exact Nat.add_le_add hfirst hrest

end Looping
